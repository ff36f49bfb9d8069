import Mathlib.Order.Basic
import RactorActors.Watchdog.View

/-!
# Deadlines of a watched actor

What a registration and a ping promise, over whole runs of the watchdog.

* `PingKept`: an answered ping keeps the actor from being killed or stopped for its timeout.
  The code keeps this promise in the runs that meet `pingClean` (`ping_restarts_deadline`),
  and breaks it from the second ping on (`ping_deadline_broken`): the timer of the first ping
  is not the stored one, so the second ping does not abort it.
* `RegistrationKept` and `RegistrationOwn`: a registration lasts for its timeout, and no timer
  of an earlier registration ends it. The code keeps this in the runs that meet
  `registerFree` (`registration_keeps_its_timeout`), and breaks it when an actor registers
  again (`registration_deadline_broken`): the entry is overwritten, its timer lives on.
* `watchdog_never_forgets`: the other direction. Every registered actor has a timer that is
  due in time, or its `Timeout` is queued.
-/

namespace RactorActors.Watchdog

open LabelledRun TimedMailbox

/-! ## What the history promises -/

/-- After an answered ping, and until the actor registers again, it is killed or stopped at the
earliest one timeout later. -/
def PingKept (id : ActorId) (history : List Entry) : Prop :=
  ∀ new e old, history = new ++ e :: old → e.answers id = true →
    (∀ k ∈ new, k.registers id = false) →
    ∀ r, e.found = some r → ∀ k ∈ new, k.strikes id = true → e.time + r.timeout ≤ k.time

/-- After a registration, and until the next one, the actor is killed or stopped at the earliest
one timeout later. -/
def RegistrationKept (id : ActorId) (history : List Entry) : Prop :=
  ∀ new e old, history = new ++ e :: old → e.registers id = true →
    (∀ k ∈ new, k.registers id = false) →
    ∀ a d t, e.input = .msg (.register a d t) →
    ∀ k ∈ new, k.strikes id = true → e.time + d ≤ k.time

/-- After a registration, and until the next one, the actor is killed or stopped only by a
`Timeout` that a timer armed since that registration has posted. -/
def RegistrationOwn (id : ActorId) (history : List Entry) : Prop :=
  ∀ new e old, history = new ++ e :: old → e.registers id = true →
    (∀ k ∈ new, k.registers id = false) →
    ∀ k ∈ new, k.strikes id = true → ∃ h, k.origin = some h ∧ e.nextHandle ≤ h

/-! ## The conditions on the state before a step -/

/-- No timer of the actor other than the one under the handle `h` is due before `bound`, and no
`Timeout` of the actor waits in the mailbox. -/
def quietUntil (id : ActorId) (h : Option ℕ) (bound : ℕ) (s : System) : Bool :=
  s.myself.timers.all (fun t => t.msg ≠ .timeout id || some t.handle = h || bound ≤ t.deadline) &&
    s.myself.queue.all (·.msg ≠ .timeout id)

/-- The step does not handle a `Ping(id)` while a timer of the actor that the ping does not
abort is due within the timeout, or while a `Timeout(id)` is queued. -/
def pingClean (id : ActorId) (s : System) : Event → Bool
  | .handle =>
    match s.nextMsg, s.registration id with
    | some ⟨.ping actor _, _⟩, some r =>
      actor ≠ id || quietUntil id (some r.timer) (s.myself.now + r.timeout) s
    | _, _ => true
  | _ => true

/-- The step does not handle a `Register(id)` while a timer of the actor is due within the new
timeout, or while a `Timeout(id)` is queued. -/
def registerLate (id : ActorId) (s : System) : Event → Bool
  | .handle =>
    match s.nextMsg with
    | some ⟨.register actor d _, _⟩ => actor.getId ≠ id || quietUntil id none (s.myself.now + d) s
    | _ => true
  | _ => true

/-- The step does not handle a `Register(id)` while any timer of the actor is armed, or while a
`Timeout(id)` is queued. -/
def registerFree (id : ActorId) (s : System) : Event → Bool
  | .handle =>
    match s.nextMsg with
    | some ⟨.register actor _ _, _⟩ =>
      actor.getId ≠ id ||
        (s.myself.timers.all (·.msg ≠ .timeout id) && s.myself.queue.all (·.msg ≠ .timeout id))
    | _ => true
  | _ => true

/-- The step does not register the actor a second time. -/
def registeredOnce (id : ActorId) (s : System) : Event → Bool
  | .handle =>
    match s.nextMsg with
    | some ⟨.register actor _ _, _⟩ =>
      actor.getId ≠ id || s.history.all (fun e => !e.registers id)
    | _ => true
  | _ => true

/-- Less than the timeout has passed since the last `Register(id)` or `Ping(id)`. -/
def punctual (id : ActorId) (s : System) : Bool :=
  match s.registration id, lastTouch id s.history with
  | some r, some t => s.myself.now < t + r.timeout
  | _, _ => true

/-! ## Lower bounds on a view -/

namespace View

variable {id : ActorId} {v v' : View}

/-- While the actor is registered, nothing that could end its registration comes before
`bound`: not its armed timers, not a queued `Timeout`, and not the timer of another ping. -/
def Safe (bound : ℕ) (v : View) : Prop :=
  ∀ r, v.registration = some r → bound ≤ v.now + r.timeout ∧
    (∀ t ∈ v.timers, bound ≤ t.deadline) ∧ (v.queued ≠ [] → bound ≤ v.now)

/-- While the actor is registered, only timers armed under a handle from `h` on can end its
registration. -/
def Own (h : ℕ) (v : View) : Prop :=
  h ≤ v.nextHandle ∧ ∀ r, v.registration = some r →
    (∀ t ∈ v.timers, h ≤ t.handle) ∧ ∀ m ∈ v.queued, ∃ k, m.origin = some k ∧ h ≤ k

/-- An unregistered actor is safe. -/
theorem safe_of_none {bound : ℕ} (h : v.registration = none) : Safe bound v := by
  intro r hr
  rw [h] at hr
  cases hr

/-- Every step except a registration of the actor keeps it safe. -/
theorem Safe.step {bound : ℕ} (hsafe : Safe bound v) (h : Step id v v')
    (hreg : ∀ e, v'.history = e :: v.history → e.registers id = false) : Safe bound v' := by
  cases h with
  | elapse d =>
    intro r hr
    obtain ⟨hnow, htimers, hqueued⟩ := hsafe r hr
    refine ⟨?_, htimers, fun hne => Nat.le_add_right_of_le (hqueued hne)⟩
    have hle : v.now + r.timeout ≤ v.now + d + r.timeout := by omega
    exact hnow.trans hle
  | other | strayPing => exact hsafe
  | expire t ht hdue =>
    intro r hr
    obtain ⟨hnow, htimers, _⟩ := hsafe r hr
    refine ⟨hnow, fun u hu => htimers u (List.mem_of_mem_filter hu), fun _ => ?_⟩
    -- the posted `Timeout` comes from a timer that was due
    exact (htimers t ht).trans hdue
  | register actor d strategy origin hid =>
    have hno := hreg _ rfl
    simp [Entry.registers, record, hid] at hno
  | ping r reply origin calls hr _ =>
    -- the timer armed here is due one timeout from now
    intro r' hr'
    obtain ⟨hnow, htimers, hqueued⟩ := hsafe r' hr'
    have hrr : r = r' := Option.some.inj (hr.symm.trans hr')
    refine ⟨hnow, fun u hu => ?_, hqueued⟩
    rcases List.mem_append.mp hu with hu | hu
    · exact htimers u (List.mem_of_mem_filter hu)
    · rw [List.mem_singleton] at hu
      rw [hu, hrr]
      exact hnow
  | leave | timeout | fail => exact safe_of_none rfl
  | lapse k hr => exact safe_of_none hr

/-- Every step except a registration of the actor leaves its registration to its own timers. -/
theorem Own.step {k : ℕ} (hown : Own k v) (h : Step id v v')
    (hreg : ∀ e, v'.history = e :: v.history → e.registers id = false) : Own k v' := by
  obtain ⟨hnext, hown⟩ := hown
  have hnone : ∀ {w : View}, k ≤ w.nextHandle → w.registration = none → Own k w := by
    intro w hw hr
    refine ⟨hw, fun r hr' => ?_⟩
    rw [hr] at hr'
    cases hr'
  cases h with
  | elapse | strayPing => exact ⟨hnext, hown⟩
  | other n e _ _ _ hle => exact ⟨hnext.trans hle, hown⟩
  | expire t ht _ =>
    refine ⟨hnext, fun r hr => ?_⟩
    obtain ⟨htimers, hqueued⟩ := hown r hr
    refine ⟨fun u hu => htimers u (List.mem_of_mem_filter hu), fun m hm => ?_⟩
    rcases List.mem_append.mp hm with hm | hm
    · exact hqueued m hm
    · rw [List.mem_singleton] at hm
      exact ⟨t.handle, by rw [hm], htimers t ht⟩
  | register actor d strategy origin hid =>
    have hno := hreg _ rfl
    simp [Entry.registers, record, hid] at hno
  | ping r reply origin calls hr _ =>
    -- the timer armed here has a fresh handle
    refine ⟨Nat.le_succ_of_le hnext, fun r' hr' => ?_⟩
    obtain ⟨htimers, hqueued⟩ := hown r' hr'
    refine ⟨fun u hu => ?_, hqueued⟩
    rcases List.mem_append.mp hu with hu | hu
    · exact htimers u (List.mem_of_mem_filter hu)
    · rw [List.mem_singleton] at hu
      rw [hu]
      exact hnext
  | leave | timeout | fail => exact hnone hnext rfl
  | lapse h hr => exact hnone hnext hr

/-- A safe actor is not struck before `bound`. -/
theorem Safe.le_of_struck {bound : ℕ} (hsafe : Safe bound v) (h : Step id v v') {e : Entry}
    (he : v'.history = e :: v.history) (hstrike : e.strikes id = true) : bound ≤ e.time := by
  obtain ⟨m, rest, r, hqueued, hr, -, htime, -⟩ := h.struck he hstrike
  rw [htime]
  exact (hsafe r hr).2.2 (by rw [hqueued]; exact List.cons_ne_nil _ _)

/-- An actor left to its own timers is struck by one of them. -/
theorem Own.origin_of_struck {k : ℕ} (hown : Own k v) (h : Step id v v') {e : Entry}
    (he : v'.history = e :: v.history) (hstrike : e.strikes id = true) :
    ∃ h, e.origin = some h ∧ k ≤ h := by
  obtain ⟨m, rest, r, hqueued, hr, -, -, horigin, -⟩ := h.struck he hstrike
  rw [horigin]
  exact (hown.2 r hr).2 m (by rw [hqueued]; exact List.mem_cons_self)

end View

/-! ## From one step to every later strike -/

section Runs

variable {id : ActorId} {G : System → Event → Prop}

/-- **Run rule for promises.** Suppose an entry `e` with `P e` establishes `S e` on the
actor's view, every step but a registration of the actor keeps `S e`, and a strike under `S e`
satisfies `C e`. Then `C e` holds of every strike after `e` and before the next registration,
over any run whose steps meet the guard under which `e` establishes `S e`. -/
theorem kept_of_run {P : Entry → Prop} {S : Entry → View → Prop} {C : Entry → Entry → Prop}
    (hstart : ∀ s ev s' e, G s ev → s.step ev = some s' → View.Step id (s.view id) (s'.view id) →
      s'.history = e :: s.history → P e → S e (s'.view id))
    (hkeep : ∀ e v v', S e v → View.Step id v v' →
      (∀ a, v'.history = a :: v.history → a.registers id = false) → S e v')
    (hstrike : ∀ e v v' k, S e v → View.Step id v v' → v'.history = k :: v.history →
      k.strikes id = true → C e k)
    {es : List Event} {s : System} (h : Run System.step G spawn es s)
    {new old : List Entry} {e : Entry} (hsplit : s.history = new ++ e :: old) (he : P e)
    (hreg : ∀ k ∈ new, k.registers id = false) {k : Entry} (hk : k ∈ new)
    (hks : k.strikes id = true) : C e k := by
  -- the promise, with what carries it from one entry to the next
  let Q : System → Prop := fun s =>
    ∀ new e old, s.history = new ++ e :: old → P e → (∀ k ∈ new, k.registers id = false) →
      S e (s.view id) ∧ ∀ k ∈ new, k.strikes id = true → C e k
  have hQ : Q s := by
    refine h.invariant_of (Q := Q) consistent_spawn (fun _ _ _ hc hs => hc.step hs) ?_ ?_
    · intro new e old hsplit
      exact absurd (congrArg List.length hsplit) (by simp [spawn])
    · intro s ev s' hc hq hg hs new e old hsplit he hreg
      have hview := view_step hc hs id
      rcases hview.history with hsame | ⟨a, hcons, -⟩
      · -- nothing was handled
        have hsplit' : s.history = new ++ e :: old := hsame.symm.trans hsplit
        obtain ⟨hS, hC⟩ := hq new e old hsplit' he hreg
        refine ⟨hkeep e _ _ hS hview fun a ha => ?_, hC⟩
        exact absurd (ha.symm.trans hsame) (List.cons_ne_self _ _)
      · have hcons' : s'.history = a :: s.history := hcons
        rw [hcons'] at hsplit
        rcases List.cons_eq_append_iff.mp hsplit with ⟨hnil, heq⟩ | ⟨new', hnew, hold⟩
        · -- the entry just added is `e`
          rw [List.cons.injEq] at heq
          subst hnil
          refine ⟨?_, by simp⟩
          exact hstart s ev s' e hg hs hview (heq.1 ▸ hcons') he
        · -- the entry just added comes after `e`
          subst hnew
          obtain ⟨hS, hC⟩ := hq new' e old hold he fun k hk => hreg k (List.mem_cons_of_mem _ hk)
          have hareg := hreg a List.mem_cons_self
          refine ⟨hkeep e _ _ hS hview fun a' ha' => ?_, fun k hk hks => ?_⟩
          · rw [hcons, List.cons.injEq] at ha'
            exact ha'.1 ▸ hareg
          · rcases List.mem_cons.mp hk with rfl | hk
            · exact hstrike e _ _ k hS hview hcons hks
            · exact hC k hk hks
  exact (hQ new e old hsplit he hreg).2 k hk hks

end Runs

/-- What `quietUntil` says. -/
theorem quietUntil_iff {id : ActorId} {h : Option ℕ} {bound : ℕ} {s : System} :
    quietUntil id h bound s = true ↔
      (∀ t ∈ (s.view id).timers, some t.handle ≠ h → bound ≤ t.deadline) ∧
        (s.view id).queued = [] := by
  simp only [quietUntil, Bool.and_eq_true, List.all_eq_true, Bool.or_eq_true, decide_eq_true_eq,
    System.view, List.filter_eq_nil_iff, List.mem_filter, ne_eq, and_imp, decide_not,
    Bool.not_eq_true', decide_eq_false_iff_not]
  constructor
  · rintro ⟨htimers, hqueue⟩
    refine ⟨fun t ht hmsg hne => ?_, hqueue⟩
    rcases htimers t ht with (hno | hh) | hle
    · exact absurd hmsg hno
    · exact absurd hh hne
    · exact hle
  · rintro ⟨htimers, hqueue⟩
    refine ⟨fun t ht => ?_, hqueue⟩
    by_cases hmsg : t.msg = .timeout id
    · by_cases hh : some t.handle = h
      · exact Or.inl (Or.inr hh)
      · exact Or.inr (htimers t ht hmsg hh)
    · exact Or.inl (Or.inl hmsg)

/-! ## Pings -/

section Ping

variable {id : ActorId} {s s' : System} {ev : Event} {e : Entry}

/-- A ping of the registered actor that meets `pingClean` makes it safe for its timeout. -/
theorem safe_of_ping (hclean : pingClean id s ev = true) (h : s.step ev = some s')
    (hview : View.Step id (s.view id) (s'.view id)) (he : s'.history = e :: s.history)
    (hping : e.pings id = true) :
    ∀ r, e.found = some r → View.Safe (e.time + r.timeout) (s'.view id) := by
  intro r hfound
  -- the step handled `Ping(id)`
  obtain ⟨reply, hinput⟩ : ∃ reply, e.input = .msg (.ping id reply) := by
    unfold Entry.pings at hping
    split at hping
    · rename_i actor reply hin
      rw [decide_eq_true_eq] at hping
      exact ⟨reply, hping ▸ hin⟩
    · cases hping
  obtain ⟨rfl, hnext, hfound'⟩ := handled_msg h he hinput
  rw [hinput, Input.subject, Option.bind_some, hfound] at hfound'
  have hquiet : quietUntil id (some r.timer) (s.myself.now + r.timeout) s = true := by
    simpa [pingClean, hnext, ← hfound'] using hclean
  obtain ⟨htimers, hqueued⟩ := quietUntil_iff.mp hquiet
  have hregistration : (s.view id).registration = some r := hfound'.symm
  have he' : (s'.view id).history = e :: (s.view id).history := he
  generalize hv' : s'.view id = v' at hview he'
  -- of all that can happen to the view, only the ping of a registered actor fits the entry
  cases hview with
  | elapse | expire | lapse => exact absurd he'.symm (List.cons_ne_self _ _)
  | other n a _ hsub =>
    rw [List.cons.injEq] at he'
    rw [he'.1, hinput] at hsub
    exact absurd rfl hsub
  | register | timeout =>
    rw [List.cons.injEq] at he'
    rw [← he'.1] at hinput
    cases hinput
  | leave input origin hleaves =>
    rw [List.cons.injEq] at he'
    have hin : input = .msg (.ping id reply) := by
      rw [← hinput, ← he'.1]
      rfl
    rw [hin] at hleaves
    cases hleaves
  | fail a _ hsub =>
    rw [List.cons.injEq] at he'
    rw [he'.1, hinput] at hsub
    cases hsub
  | strayPing _ _ hnone =>
    rw [hregistration] at hnone
    cases hnone
  | ping r' _ _ _ hr' _ =>
    have hrr : r' = r := Option.some.inj (hr'.symm.trans hregistration)
    rw [List.cons.injEq] at he'
    have htime : e.time = s.myself.now := by rw [← he'.1]; rfl
    rw [htime]
    intro r'' hr''
    have hrr' : r'' = r := Option.some.inj (hr''.symm.trans hregistration)
    refine ⟨by rw [hrr']; exact Nat.le_refl _, fun t ht => ?_, fun hne => absurd hqueued hne⟩
    rcases List.mem_append.mp ht with ht | ht
    · obtain ⟨ht, hne⟩ := List.mem_filter.mp ht
      refine htimers t ht ?_
      simpa [hrr] using hne
    · rw [List.mem_singleton] at ht
      rw [ht, hrr]
      exact Nat.le_refl _

/-- In a run whose pings meet `pingClean`, every answered ping is kept. -/
theorem pingKept_of_run {es : List Event}
    (h : Run System.step (fun s ev => pingClean id s ev = true) spawn es s) :
    PingKept id s.history := by
  intro new e old hsplit hans hreg r hfound k hk hks
  have hping : e.pings id = true := (Bool.and_eq_true _ _ ▸ hans).1
  refine kept_of_run (P := fun e => e.pings id = true)
    (S := fun e v => ∀ r, e.found = some r → View.Safe (e.time + r.timeout) v)
    (C := fun e k => ∀ r, e.found = some r → e.time + r.timeout ≤ k.time)
    ?_ ?_ ?_ h hsplit hping hreg hk hks r hfound
  · intro s ev s' e hclean hs hview he hping
    exact safe_of_ping hclean hs hview he hping
  · intro e v v' hS hstep hno r hr
    exact (hS r hr).step hstep hno
  · intro e v v' k hS hstep hk hks r hr
    exact (hS r hr).le_of_struck hstep hk hks

/-- What holds of an actor that was registered at most once and pings in time: its next timeout
is at least one timeout after its last registration or ping, and it was never struck. -/
structure OnTrack (id : ActorId) (v : View) : Prop where
  /-- Before its registration, nothing is held for the actor. -/
  fresh : (∀ e ∈ v.history, e.registers id = false) →
    v.registration = none ∧ v.timers = [] ∧ v.queued = []
  /-- The deadline counts from the last registration or ping. -/
  safe : ∀ r, v.registration = some r →
    ∃ t, lastTouch id v.history = some t ∧ View.Safe (t + r.timeout) v
  /-- The actor was never killed or stopped. -/
  spared : ∀ e ∈ v.history, e.strikes id = false

/-- An unregistered actor that was never struck is on track. -/
theorem onTrack_of_none {v : View} (hr : v.registration = none)
    (hfresh : (∀ e ∈ v.history, e.registers id = false) → v.timers = [] ∧ v.queued = [])
    (hspared : ∀ e ∈ v.history, e.strikes id = false) : OnTrack id v where
  fresh hno := ⟨hr, hfresh hno⟩
  safe r hr' := by
    rw [hr] at hr'
    cases hr'
  spared := hspared

/-- Where no actor is registered twice, a registration is the first one. -/
theorem first_registration (honce : registeredOnce id s ev = true) (hs : s.step ev = some s')
    (he : s'.history = e :: s.history) (hreg : e.registers id = true) :
    ∀ k ∈ s.history, k.registers id = false := by
  intro k hk
  unfold Entry.registers at hreg
  split at hreg
  · rename_i actor d strategy hin
    obtain ⟨rfl, hnext, -⟩ := handled_msg hs he hin
    rw [decide_eq_true_eq] at hreg
    have hall : s.history.all (fun e => !e.registers id) = true := by
      simpa [registeredOnce, hnext, hreg] using honce
    simpa using List.all_eq_true.mp hall k hk
  · cases hreg

/-- A step that neither registers the actor nor answers its ping keeps the deadline. -/
theorem OnTrack.safe_of_quiet {v v' : View} (h : OnTrack id v) (hstep : View.Step id v v')
    (hquiet : ∀ a, v'.history = a :: v.history → a.registers id = false ∧ a.pings id = false)
    (hold : ∀ r, v'.registration = some r → v.registration = some r) :
    ∀ r, v'.registration = some r →
      ∃ t, lastTouch id v'.history = some t ∧ View.Safe (t + r.timeout) v' := by
  intro r hr
  obtain ⟨t, ht, hsafe⟩ := h.safe r (hold r hr)
  refine ⟨t, ?_, hsafe.step hstep fun a ha => (hquiet a ha).1⟩
  rcases hstep.history with hsame | ⟨a, ha, -⟩
  · rw [hsame, ht]
  · rw [ha, lastTouch, (hquiet a ha).1, (hquiet a ha).2]
    exact ht

/-- An entry that strikes nobody spares the actor. -/
theorem OnTrack.spared_cons {v : View} (h : OnTrack id v) {a : Entry}
    (ha : a.strikes id = false) : ∀ e ∈ a :: v.history, e.strikes id = false := by
  intro e he
  rcases List.mem_cons.mp he with rfl | he
  · exact ha
  · exact h.spared e he

/-- A step that registers the actor at most once, whose ping is clean, and before which the
actor was punctual, keeps it on track. -/
theorem OnTrack.step (hc : Consistent s) (h : OnTrack id (s.view id))
    (hclean : pingClean id s ev = true) (honce : registeredOnce id s ev = true)
    (hpunctual : punctual id s = true) (hs : s.step ev = some s') : OnTrack id (s'.view id) := by
  have hview := view_step hc hs id
  have hkeep := h.safe_of_quiet hview
  -- who was not registered after the step was not registered before it
  have hmono : (∀ e ∈ (s'.view id).history, e.registers id = false) →
      ∀ e ∈ (s.view id).history, e.registers id = false := by
    intro hno e he
    rcases hview.history with hsame | ⟨a, ha, -⟩
    · exact hno e (hsame ▸ he)
    · exact hno e (ha ▸ List.mem_cons_of_mem _ he)
  have hself : ∀ {w : View}, w.history = (s.view id).history →
      ∀ a, w.history = a :: (s.view id).history → a.registers id = false ∧ a.pings id = false :=
    fun hw a ha => absurd (ha.symm.trans hw) (List.cons_ne_self _ _)
  have hsafe_ping : ∀ e, s'.history = e :: s.history → e.pings id = true →
      ∀ r, e.found = some r → View.Safe (e.time + r.timeout) (s'.view id) :=
    fun e he hping => safe_of_ping hclean hs (view_step hc hs id) he hping
  have hhistory : (s'.view id).history = s'.history := rfl
  generalize hv' : s'.view id = v' at hview hkeep hmono hsafe_ping hhistory
  cases hview with
  | elapse d => exact ⟨h.fresh, hkeep (hself rfl) fun r hr => hr, h.spared⟩
  | other n e _ hsub hno _ =>
    refine ⟨fun hno' => h.fresh (hmono hno'), hkeep ?_ fun r hr => hr, h.spared_cons hno⟩
    intro a ha
    rw [List.cons.injEq] at ha
    exact ha.1 ▸ View.quiet_of_subject_ne hsub
  | expire t ht _ =>
    refine ⟨fun hno => ?_, hkeep (hself rfl) fun r hr => hr, h.spared⟩
    -- an armed timer means that the actor was registered
    rw [(h.fresh hno).2.1] at ht
    cases ht
  | register actor d strategy origin hid =>
    -- nothing was held for the actor before
    have hfresh := h.fresh (first_registration honce hs hhistory.symm
      (by simp [Entry.registers, View.record, hid]))
    refine ⟨fun hno => ?_, ?_, h.spared_cons (by simp [Entry.strikes, View.record])⟩
    · have hreg := hno _ List.mem_cons_self
      simp [Entry.registers, View.record, hid] at hreg
    · intro r hr
      rw [Option.some.injEq] at hr
      refine ⟨(s.view id).now, by simp [lastTouch, Entry.registers, View.record, hid], ?_⟩
      intro r' hr'
      rw [Option.some.injEq] at hr'
      subst hr hr'
      refine ⟨Nat.le_refl _, fun t ht => ?_, fun hne => absurd hfresh.2.2 hne⟩
      rw [hfresh.2.1, List.nil_append, List.mem_singleton] at ht
      rw [ht]
  | ping r reply origin calls hr hcalls =>
    refine ⟨fun hno => ?_, fun r' hr' => ?_, h.spared_cons ?_⟩
    · have hnone := (h.fresh (hmono hno)).1
      rw [hr] at hnone
      cases hnone
    · have hrr : r' = r := Option.some.inj (hr'.symm.trans hr)
      refine ⟨(s.view id).now, by simp [lastTouch, Entry.pings, View.record], ?_⟩
      have hsafe := hsafe_ping _ hhistory.symm (by simp [Entry.pings, View.record]) r' (hrr ▸ hr)
      exact hsafe
    · -- answering a ping strikes nobody
      simp only [Entry.strikes, View.record, List.any_eq_false, decide_eq_true_eq]
      intro c hc hvictim
      rw [hcalls c hc] at hvictim
      cases hvictim
  | strayPing reply origin hr =>
    exact onTrack_of_none hr (fun hno => (h.fresh (hmono hno)).2)
      (h.spared_cons (by simp [Entry.strikes, View.record]))
  | leave input origin _ =>
    refine onTrack_of_none rfl (fun hno => ?_)
      (h.spared_cons (by simp [Entry.strikes, View.record]))
    obtain ⟨hnone, htimers, hqueued⟩ := h.fresh (hmono hno)
    exact ⟨by rw [hnone]; exact htimers, hqueued⟩
  | timeout m rest hqueued _ =>
    rcases Option.eq_none_or_eq_some (s.view id).registration with hr | ⟨r, hr⟩
    · refine onTrack_of_none rfl (fun hno => ?_)
        (h.spared_cons (by simp [Entry.strikes, View.record, hr]))
      rw [(h.fresh (hmono hno)).2.2] at hqueued
      cases hqueued
    · -- the queued `Timeout` would be later than the punctual actor's deadline
      obtain ⟨t, ht, hsafe⟩ := h.safe r hr
      have hdue : t + r.timeout ≤ s.myself.now :=
        (hsafe r hr).2.2 (by rw [hqueued]; exact List.cons_ne_nil _ _)
      have hearly : s.myself.now < t + r.timeout := by
        have hreg : s.registration id = some r := hr
        have htouch : lastTouch id s.history = some t := ht
        simpa [punctual, hreg, htouch] using hpunctual
      exact absurd hdue (Nat.not_le_of_lt hearly)
  | fail e _ hsub hcalls =>
    exact onTrack_of_none rfl (fun hno => (h.fresh (hmono hno)).2)
      (h.spared_cons (by simp [Entry.strikes, hcalls]))
  | lapse k hr =>
    refine onTrack_of_none hr (fun hno => ?_) h.spared
    obtain ⟨-, htimers, hqueued⟩ := h.fresh hno
    exact ⟨by simp [htimers], hqueued⟩

/-- An actor that was registered at most once and pings in time is never struck, in a run whose
pings meet `pingClean`. -/
theorem spared_of_run {es : List Event}
    (h : Run System.step (fun s ev => (pingClean id s ev && registeredOnce id s ev &&
      punctual id s) = true) spawn es s) :
    ∀ e ∈ s.history, e.strikes id = false := by
  have htrack : OnTrack id (s.view id) := by
    refine h.invariant_of (Q := fun s => OnTrack id (s.view id)) consistent_spawn
      (fun _ _ _ hc hs => hc.step hs) ?_ ?_
    · exact onTrack_of_none rfl (fun _ => ⟨rfl, rfl⟩) (by simp [System.view, spawn])
    · intro s ev s' hc htrack hg hs
      simp only [Bool.and_eq_true] at hg
      exact htrack.step hc hg.1.1 hg.1.2 hg.2 hs
  exact htrack.spared

/-- **An answered ping restarts the deadline, in the runs that meet `pingClean`.** There every
answered ping keeps its actor from being killed or stopped for one timeout; and an actor that
is registered once and always pings in time is never killed or stopped. -/
theorem ping_restarts_deadline (id : ActorId) :
    (∀ es s, Run System.step (fun s ev => pingClean id s ev = true) spawn es s →
      PingKept id s.history) ∧
    ∀ es s, Run System.step (fun s ev => (pingClean id s ev && registeredOnce id s ev &&
        punctual id s) = true) spawn es s →
      ∀ e ∈ s.history, e.strikes id = false :=
  ⟨fun _ _ h => pingKept_of_run h, fun _ _ h => spared_of_run h⟩

/-- Registered with a timeout of 500, an actor that pings at 300 and then falls silent is spared
while it is punctual, and its ping is kept. -/
theorem ping_restarts_deadline_one_ping :
    ∃ es₁ s₁ es₂ s₂,
      run (es₁ ++ es₂) = some s₂ ∧ PingKept (.loc 1) s₂.history ∧
      run es₁ = some s₁ ∧ ∀ e ∈ s₁.history, e.strikes (.loc 1) = false := by
  let es₁ : List Event :=
    [.post (.register ⟨.loc 1⟩ 500 .kill), .handle, .elapse 300, .post (.ping (.loc 1) ⟨0⟩),
      .handle, .elapse 499]
  let es₂ : List Event := [.elapse 1, .expire 1, .handle]
  obtain ⟨s₁, hs₁⟩ : ∃ s, exec (checked (fun s ev => pingClean (.loc 1) s ev &&
      registeredOnce (.loc 1) s ev && punctual (.loc 1) s) System.step) spawn es₁ = some s :=
    Option.isSome_iff_exists.mp (by decide)
  obtain ⟨s₂, hs₂⟩ : ∃ s, exec (checked (pingClean (.loc 1)) System.step) spawn (es₁ ++ es₂) =
      some s :=
    Option.isSome_iff_exists.mp (by decide)
  have hrun₁ := run_iff_exec_checked.mpr hs₁
  have hrun₂ := run_iff_exec_checked.mpr hs₂
  exact ⟨es₁, s₁, es₂, s₂, hrun₂.exec_eq, (ping_restarts_deadline (.loc 1)).1 _ _ hrun₂,
    hrun₁.exec_eq, (ping_restarts_deadline (.loc 1)).2 _ _ hrun₁⟩

/-- **The second ping does not restart the deadline.** Registered with a timeout of 500, an
actor that pings at 300 and at 600, both times answered, is killed at 800. -/
theorem ping_deadline_broken :
    ¬ ∀ id es s, run es = some s → PingKept id s.history := by
  intro hall
  have hkept := hall (.loc 1)
    [.post (.register ⟨.loc 1⟩ 500 .kill), .handle, .elapse 300, .post (.ping (.loc 1) ⟨0⟩),
      .handle, .elapse 300, .post (.ping (.loc 1) ⟨1⟩), .handle, .elapse 200, .expire 1, .handle]
    _ rfl
  -- the kill at 800 comes 200 after the answered ping at 600
  have hbound := hkept [_] _ _ rfl rfl (by decide) _ rfl _ List.mem_cons_self rfl
  exact absurd hbound (by decide)

end Ping

/-! ## Registrations -/

section Register

variable {id : ActorId} {s s' : System} {ev : Event} {e : Entry}

/-- What handling a `Register(id)` leaves of the actor's view. -/
theorem view_of_register (h : s.step ev = some s')
    (hview : View.Step id (s.view id) (s'.view id)) (he : s'.history = e :: s.history)
    (hreg : e.registers id = true) :
    ∃ a d strategy, e.input = .msg (.register a d strategy) ∧ a.getId = id ∧ ev = .handle ∧
      s.nextMsg = some ⟨.register a d strategy, e.origin⟩ ∧
      e.time = s.myself.now ∧ e.nextHandle = s.myself.nextHandle ∧
      s'.view id = { s.view id with
        nextHandle := s.myself.nextHandle + 1
        registration := some ⟨a, d, strategy, s.myself.nextHandle⟩
        timers := (s.view id).timers ++
          [⟨s.myself.nextHandle, s.myself.now + d, .timeout id⟩]
        history := e :: s.history } := by
  obtain ⟨a, d, strategy, hinput, hid⟩ :
      ∃ a d strategy, e.input = .msg (.register a d strategy) ∧ a.getId = id := by
    unfold Entry.registers at hreg
    split at hreg
    · rename_i a d strategy hin
      exact ⟨a, d, strategy, hin, by simpa using hreg⟩
    · cases hreg
  obtain ⟨rfl, hnext, -⟩ := handled_msg h he hinput
  refine ⟨a, d, strategy, hinput, hid, rfl, hnext, ?_⟩
  have he' : (s'.view id).history = e :: (s.view id).history := he
  -- of all that can happen to the view, only a registration fits the entry
  generalize s'.view id = v' at hview he'
  cases hview with
  | elapse | expire | lapse => exact absurd he'.symm (List.cons_ne_self _ _)
  | other n b _ hsub =>
    rw [List.cons.injEq] at he'
    rw [he'.1, hinput] at hsub
    exact absurd (congrArg some hid) hsub
  | ping | strayPing | timeout =>
    rw [List.cons.injEq] at he'
    rw [← he'.1] at hinput
    cases hinput
  | leave input origin hleaves =>
    rw [List.cons.injEq] at he'
    have hin : input = .msg (.register a d strategy) := by
      rw [← hinput, ← he'.1]
      rfl
    rw [hin] at hleaves
    cases hleaves
  | fail b _ hsub =>
    rw [List.cons.injEq] at he'
    rw [he'.1, hinput] at hsub
    cases hsub
  | register a' d' strategy' origin _ =>
    rw [List.cons.injEq] at he'
    have hin : (.msg (.register a' d' strategy') : Input) = .msg (.register a d strategy) := by
      rw [← hinput, ← he'.1]
      rfl
    simp only [Input.msg.injEq, WatchdogMsg.register.injEq] at hin
    obtain ⟨rfl, rfl, rfl⟩ := hin
    obtain ⟨rfl, -⟩ := he'
    exact ⟨rfl, rfl, rfl⟩

/-- A registration that meets `registerLate` makes its actor safe for its timeout. -/
theorem safe_of_register (hlate : registerLate id s ev = true) (h : s.step ev = some s')
    (hview : View.Step id (s.view id) (s'.view id)) (he : s'.history = e :: s.history)
    (hreg : e.registers id = true) :
    ∀ a d strategy, e.input = .msg (.register a d strategy) →
      View.Safe (e.time + d) (s'.view id) := by
  intro a d strategy hinput
  obtain ⟨a', d', strategy', hinput', hid, rfl, hnext, htime, -, hv⟩ :=
    view_of_register h hview he hreg
  rw [hinput, Input.msg.injEq, WatchdogMsg.register.injEq] at hinput'
  obtain ⟨rfl, rfl, rfl⟩ := hinput'
  have hquiet : quietUntil id none (s.myself.now + d) s = true := by
    simpa [registerLate, hnext, hid] using hlate
  obtain ⟨htimers, hqueued⟩ := quietUntil_iff.mp hquiet
  rw [hv, htime]
  intro r hr
  rw [Option.some.injEq] at hr
  subst hr
  refine ⟨Nat.le_refl _, fun t ht => ?_, fun hne => absurd hqueued hne⟩
  rcases List.mem_append.mp ht with ht | ht
  · exact htimers t ht (by simp)
  · rw [List.mem_singleton] at ht
    rw [ht]

/-- A registration that meets `registerFree` leaves its actor to the timers armed from then
on. -/
theorem own_of_register (hfree : registerFree id s ev = true) (h : s.step ev = some s')
    (hview : View.Step id (s.view id) (s'.view id)) (he : s'.history = e :: s.history)
    (hreg : e.registers id = true) : View.Own e.nextHandle (s'.view id) := by
  obtain ⟨a, d, strategy, -, hid, rfl, hnext, -, hhandle, hv⟩ := view_of_register h hview he hreg
  -- no timer and no message of the actor is left from before
  have hnone : (∀ t ∈ s.myself.timers, t.msg ≠ .timeout id) ∧
      ∀ m ∈ s.myself.queue, m.msg ≠ .timeout id := by
    simpa [registerFree, hnext, hid] using hfree
  have htimers : (s.view id).timers = [] := by
    simpa [System.view] using hnone.1
  have hqueued : (s.view id).queued = [] := by
    simpa [System.view] using hnone.2
  rw [hv, hhandle]
  refine ⟨Nat.le_succ _, fun r _ => ⟨fun t ht => ?_, fun m hm => ?_⟩⟩
  · rw [htimers, List.nil_append, List.mem_singleton] at ht
    rw [ht]
  · rw [hqueued] at hm
    cases hm

/-- Meeting `registerFree` is meeting `registerLate`. -/
theorem registerLate_of_free (h : registerFree id s ev = true) : registerLate id s ev = true := by
  unfold registerFree at h
  unfold registerLate
  split
  · simp only at h
    split
    · rename_i hnext
      rw [hnext] at h
      simp only [Bool.or_eq_true, Bool.and_eq_true, List.all_eq_true, decide_eq_true_eq] at h ⊢
      rcases h with hne | ⟨htimers, hqueue⟩
      · exact Or.inl hne
      · right
        simp only [quietUntil, Bool.and_eq_true, List.all_eq_true, Bool.or_eq_true,
          decide_eq_true_eq]
        exact ⟨fun t ht => Or.inl (Or.inl (htimers t ht)), hqueue⟩
    · rfl
  · rfl

/-- **A registration lasts for its timeout, in the runs that meet the condition.** If every
`Register(id)` is handled while no timer of the actor is due within the new timeout and no
`Timeout` of it is queued, the actor is never killed or stopped before its latest registration
has lasted its timeout. If no timer of it is armed at all, then besides no timer of an earlier
registration ever ends a later one. -/
theorem registration_keeps_its_timeout (id : ActorId) :
    (∀ es s, Run System.step (fun s ev => registerLate id s ev = true) spawn es s →
      RegistrationKept id s.history) ∧
    ∀ es s, Run System.step (fun s ev => registerFree id s ev = true) spawn es s →
      RegistrationKept id s.history ∧ RegistrationOwn id s.history := by
  have hlate : ∀ es s, Run System.step (fun s ev => registerLate id s ev = true) spawn es s →
      RegistrationKept id s.history := by
    intro es s h new e old hsplit he hreg a d t hinput k hk hks
    refine kept_of_run (P := fun e => e.registers id = true)
      (S := fun e v => ∀ a d t, e.input = .msg (.register a d t) → View.Safe (e.time + d) v)
      (C := fun e k => ∀ a d t, e.input = .msg (.register a d t) → e.time + d ≤ k.time)
      ?_ ?_ ?_ h hsplit he hreg hk hks a d t hinput
    · intro s ev s' e hlate hs hview he hreg
      exact safe_of_register hlate hs hview he hreg
    · intro e v v' hS hstep hno a d t hin
      exact (hS a d t hin).step hstep hno
    · intro e v v' k hS hstep hk hks a d t hin
      exact (hS a d t hin).le_of_struck hstep hk hks
  refine ⟨hlate, fun es s h => ⟨?_, ?_⟩⟩
  · exact hlate es s (h.mono fun s ev hfree => registerLate_of_free hfree)
  · intro new e old hsplit he hreg k hk hks
    refine kept_of_run (P := fun e => e.registers id = true)
      (S := fun e v => View.Own e.nextHandle v)
      (C := fun e k => ∃ h, k.origin = some h ∧ e.nextHandle ≤ h)
      ?_ ?_ ?_ h hsplit he hreg hk hks
    · intro s ev s' e hfree hs hview he hreg
      exact own_of_register hfree hs hview he hreg
    · intro e v v' hS hstep hno
      exact hS.step hstep hno
    · intro e v v' k hS hstep hk hks
      exact hS.origin_of_struck hstep hk hks

/-- An actor that registers, unregisters and registers again is killed by the timer of its
second registration. -/
theorem registration_keeps_its_timeout_after_unregister :
    ∃ es s, run es = some s ∧ s.history.any (·.strikes (.loc 1)) = true ∧
      RegistrationKept (.loc 1) s.history ∧ RegistrationOwn (.loc 1) s.history := by
  let es : List Event :=
    [.post (.register ⟨.loc 1⟩ 500 .kill), .handle, .elapse 400, .post (.unregister ⟨.loc 1⟩),
      .handle, .post (.register ⟨.loc 1⟩ 500 .kill), .handle, .elapse 500, .expire 1, .handle]
  obtain ⟨s, hs⟩ : ∃ s, exec (checked (registerFree (.loc 1)) System.step) spawn es = some s :=
    Option.isSome_iff_exists.mp (by decide)
  have hrun := run_iff_exec_checked.mpr hs
  have hstruck : (run es).map (·.history.any (·.strikes (.loc 1))) = some true := by decide
  have hexec : run es = some s := hrun.exec_eq
  rw [hexec, Option.map_some, Option.some.injEq] at hstruck
  exact ⟨es, s, hexec, hstruck, (registration_keeps_its_timeout (.loc 1)).2 es s hrun⟩

/-- **Registering again does not replace the deadline.** Registered with a timeout of 500 and
again at 400, the actor is killed at 500 by the timer of the first registration. -/
theorem registration_deadline_broken :
    ¬ ∀ id es s, run es = some s →
      RegistrationKept id s.history ∧ RegistrationOwn id s.history := by
  intro hall
  have hkept := (hall (.loc 1)
    [.post (.register ⟨.loc 1⟩ 500 .kill), .handle, .elapse 400,
      .post (.register ⟨.loc 1⟩ 500 .kill), .handle, .elapse 100, .expire 0, .handle] _ rfl).1
  have hbound := hkept [_] _ _ rfl rfl (by decide) _ _ _ rfl _ List.mem_cons_self rfl
  exact absurd hbound (by decide)

end Register

/-! ## No registered actor is forgotten -/

section Forgotten

variable {id : ActorId}

/-- The registered actor has a timer due within its timeout of the last registration or ping, or
its `Timeout` is queued. -/
def View.Watched (id : ActorId) (v : View) : Prop :=
  ∀ r, v.registration = some r → ∃ t, lastTouch id v.history = some t ∧
    ((∃ u ∈ v.timers, u.deadline ≤ t + r.timeout) ∨ v.queued ≠ [])

/-- Every step keeps a registered actor watched: whatever handle a ping aborts, it arms another
timer. -/
theorem View.Watched.step {v v' : View} (hw : v.Watched id) (h : View.Step id v v') :
    v'.Watched id := by
  have hnone : ∀ {w : View}, w.registration = none → w.Watched id := by
    intro w hw r hr
    rw [hw] at hr
    cases hr
  cases h with
  | elapse d => exact hw
  | other n e _ hsub =>
    intro r hr
    obtain ⟨t, ht, hwatch⟩ := hw r hr
    obtain ⟨hreg, hping⟩ := View.quiet_of_subject_ne hsub
    exact ⟨t, by simpa [lastTouch, hreg, hping] using ht, hwatch⟩
  | expire u _ _ =>
    -- the timer has become a queued `Timeout`
    intro r hr
    obtain ⟨t, ht, -⟩ := hw r hr
    exact ⟨t, ht, Or.inr (List.append_ne_nil_of_right_ne_nil _ (List.cons_ne_nil _ _))⟩
  | register actor d strategy origin hid =>
    intro r hr
    rw [Option.some.injEq] at hr
    subst hr
    refine ⟨v.now, by simp [lastTouch, Entry.registers, View.record, hid], Or.inl ?_⟩
    exact ⟨_, List.mem_append_right _ (List.mem_singleton_self _), Nat.le_refl _⟩
  | ping r reply origin calls hr _ =>
    -- the timer armed last in the list is the one of this ping
    intro r' hr'
    have hrr : r = r' := Option.some.inj (hr.symm.trans hr')
    refine ⟨v.now, by simp [lastTouch, Entry.pings, View.record], Or.inl ?_⟩
    exact ⟨_, List.mem_append_right _ (List.mem_singleton_self _), by rw [hrr]⟩
  | strayPing _ _ hr | lapse _ hr => exact hnone hr
  | leave | timeout | fail => exact hnone rfl

/-- **The watchdog never forgets a registered actor.** In every reachable state, a registered
actor has an armed timer whose deadline is at most its timeout after the last `Register` or
`Ping` of it that was handled, or its `Timeout` is in the mailbox. So once the mailbox is
drained, and no armed timer is overdue, its deadline has not passed. -/
theorem watchdog_never_forgets {s : System} (h : Reachable s) {r : Registration}
    (hr : s.registration id = some r) :
    ∃ t, lastTouch id s.history = some t ∧
      ((∃ u ∈ s.myself.timers, u.msg = .timeout id ∧ u.deadline ≤ t + r.timeout) ∨
        ∃ m ∈ s.myself.queue, m.msg = .timeout id) ∧
      (s.myself.queue = [] → (∀ u ∈ s.myself.timers, s.myself.now ≤ u.deadline) →
        s.myself.now ≤ t + r.timeout) := by
  have hw : (s.view id).Watched id :=
    view_invariant h (fun r hr => by cases hr) fun v v' hv hstep => hv.step hstep
  obtain ⟨t, ht, hwatch⟩ := hw r hr
  have hcover : (∃ u ∈ s.myself.timers, u.msg = .timeout id ∧ u.deadline ≤ t + r.timeout) ∨
      ∃ m ∈ s.myself.queue, m.msg = .timeout id := by
    rcases hwatch with ⟨u, hu, hdue⟩ | hne
    · obtain ⟨hu, hmsg⟩ := List.mem_filter.mp hu
      exact Or.inl ⟨u, hu, by simpa using hmsg, hdue⟩
    · obtain ⟨m, hm⟩ := List.exists_mem_of_ne_nil _ hne
      obtain ⟨hm, hmsg⟩ := List.mem_filter.mp hm
      exact Or.inr ⟨m, hm, by simpa using hmsg⟩
  refine ⟨t, ht, hcover, fun hempty htimely => ?_⟩
  rcases hcover with ⟨u, hu, -, hdue⟩ | ⟨m, hm, -⟩
  · exact (htimely u hu).trans hdue
  · rw [hempty] at hm
    cases hm

/-- An actor that pinged twice is still registered and watched. -/
theorem watchdog_never_forgets_two_pings :
    ∃ s r, run [.post (.register ⟨.loc 1⟩ 500 .kill), .handle, .elapse 300,
        .post (.ping (.loc 1) ⟨0⟩), .handle, .elapse 300, .post (.ping (.loc 1) ⟨1⟩), .handle] =
          some s ∧ s.registration (.loc 1) = some r ∧
      ∃ t, lastTouch (.loc 1) s.history = some t ∧
        ((∃ u ∈ s.myself.timers, u.msg = .timeout (.loc 1) ∧ u.deadline ≤ t + r.timeout) ∨
          ∃ m ∈ s.myself.queue, m.msg = .timeout (.loc 1)) ∧
        (s.myself.queue = [] → (∀ u ∈ s.myself.timers, s.myself.now ≤ u.deadline) →
          s.myself.now ≤ t + r.timeout) := by
  let es : List Event := [.post (.register ⟨.loc 1⟩ 500 .kill), .handle, .elapse 300,
    .post (.ping (.loc 1) ⟨0⟩), .handle, .elapse 300, .post (.ping (.loc 1) ⟨1⟩), .handle]
  obtain ⟨s, hs⟩ : ∃ s, run es = some s := Option.isSome_iff_exists.mp (by decide)
  have hr : (run es).bind (·.registration (.loc 1)) = some ⟨⟨.loc 1⟩, 500, .kill, 0⟩ := by decide
  rw [hs, Option.bind_some] at hr
  exact ⟨s, _, hs, hr, watchdog_never_forgets ⟨es, hs⟩ hr⟩

end Forgotten

end RactorActors.Watchdog
