import RactorActors.Watchdog.View

/-!
# What the watchdog keeps of an actor that has ended

An actor that ends by itself is to be cleaned up: the watchdog has a handler for its exit event
that drops the registration. The event is sent to the actor's supervisor only, and `register`
does not link the actor. So the handler does its work exactly for the actors that some other
code has linked to the watchdog; every other registration outlives its actor, and its timeout
counts as a kill or a stop.

* `ExitCase`: what a step does to the exits and the registrations;
* `Cleaned`: no actor that has ended, and whose exit event is not still to come, is registered;
* `ended_actor_cleaned_up_iff`: a run is `Cleaned` throughout exactly when it loses sight of no
  exit, and then no actor is struck after its end;
* `exit_is_not_seen`: an actor that was registered ends, and is counted as killed.
-/

namespace RactorActors.Watchdog

open LabelledRun

/-- The exit event of the actor waits for the watchdog. -/
def System.awaitsExit (s : System) (id : ActorId) : Bool :=
  s.supervision.any (·.ended = some id)

/-- The watchdog holds no registration of an actor that has ended, except while the actor's
exit event waits to be handled. -/
def System.Cleaned (s : System) : Prop :=
  ∀ id ∈ s.ended, s.awaitsExit id = false → s.registration id = none

/-- The step loses sight of no exit: an actor that ends is linked to the watchdog or not
registered, and no `Register` is handled for an actor that has ended. -/
def exitSeen (s : System) : Event → Bool
  | .ends evt =>
    match evt.ended with
    | some id => id ∈ s.linked || (s.registration id).isNone
    | none => true
  | .handle =>
    match s.nextMsg with
    | some ⟨.register actor _ _, _⟩ => actor.getId ∉ s.ended
    | _ => true
  | _ => true

/-- The call kills an actor. -/
def Call.isKill : Call → Bool
  | .kill _ => true
  | _ => false

/-! ## What a step does to exits and registrations -/

/-- An actor enters the watchdog by a handled `Register` only. -/
theorem View.Step.registration_of_none {id : ActorId} {v v' : View} (h : View.Step id v v')
    (hnone : v.registration = none) :
    v'.registration = none ∨ ∃ e, v'.history = e :: v.history ∧ e.registers id = true := by
  cases h with
  | elapse | other | expire | strayPing | lapse => exact Or.inl hnone
  | leave | timeout | fail => exact Or.inl rfl
  | register actor d strategy origin hid =>
    refine Or.inr ⟨_, rfl, ?_⟩
    simpa [Entry.registers, View.record] using hid
  | ping r reply origin calls hreg =>
    rw [hnone] at hreg
    cases hreg

/-- What a step can do to the exits and to the registrations. -/
inductive ExitCase (s : System) (e : Event) (s' : System) : Prop
  /-- No actor ends, and no input is handled. -/
  | quiet (hseen : exitSeen s e = true) (hended : s'.ended = s.ended)
      (hawaits : ∀ id, s'.awaitsExit id = s.awaitsExit id)
      (hreg : ∀ id, s'.registration id = s.registration id)
  /-- A message is handled, while no supervision event waits. -/
  | handle (m : Envelope WatchdogMsg) (he : e = .handle) (hnext : s.nextMsg = some m)
      (hended : s'.ended = s.ended)
      (hawaits : ∀ id, s.awaitsExit id = false ∧ s'.awaitsExit id = false)
      (hold : ∀ id, s.registration id = none → s'.registration id = none ∨
        ∃ actor timeout strategy, m.msg = .register actor timeout strategy ∧
          actor.getId = id)
      (hnew : ∀ actor timeout strategy, m.msg = .register actor timeout strategy →
        s'.registration actor.getId ≠ none)
  /-- A supervision event is handled. -/
  | supervise (evt : SupervisionEvent) (hseen : exitSeen s e = true)
      (hended : s'.ended = s.ended)
      (hawaits : ∀ id, s.awaitsExit id = (decide (evt.ended = some id) || s'.awaitsExit id))
      (hreg : ∀ id, s'.registration id =
        if evt.ended = some id then none else s.registration id)
  /-- An actor ends. Its exit event is sent to the watchdog if the two are linked. -/
  | ends (evt : SupervisionEvent) (id : ActorId) (he : e = .ends evt)
      (hid : evt.ended = some id) (hfirst : id ∉ s.ended) (hended : s'.ended = id :: s.ended)
      (hawaits : ∀ id', s'.awaitsExit id' = (s.awaitsExit id' ||
        decide (id' = id ∧ id ∈ s.linked ∧ s.state.isSome = true)))
      (hreg : ∀ id', s'.registration id' = s.registration id')

/-- A supervision event that is sent joins those that wait, if the watchdog lives. -/
theorem awaitsExit_tell (s : System) (evt : SupervisionEvent) (id : ActorId) :
    (s.tell evt).awaitsExit id =
      (s.awaitsExit id || decide (evt.ended = some id ∧ s.state.isSome = true)) := by
  unfold System.tell System.awaitsExit
  cases hst : s.state <;> simp

/-- The registrations are those of the actor's state. -/
theorem registration_congr {s s' : System} (h : s'.state = s.state) (id : ActorId) :
    s'.registration id = s.registration id := by
  rw [System.registration, h, System.registration]

/-- The handler of a supervision event drops the registration of the actor that ended. -/
theorem lookup_handleSupervisorEvt (s : System) {state : WatchdogState}
    (hstate : s.state = some state) (evt : SupervisionEvent) (id : ActorId) :
    (s.finish (.evt evt) none (handleSupervisorEvt s.myself evt state)).registration id =
      if evt.ended = some id then none else s.registration id := by
  rw [registration_finish, registration_of_state hstate]
  cases evt with
  | actorTerminated who reason | actorFailed who what =>
    simp only [handleSupervisorEvt, lookup_unregister, SupervisionEvent.ended,
      Option.some.injEq]
    simp only [eq_comm]
  | actorStarted | processGroupChanged | pidLifecycleEvent => rfl

/-- A step that ends no actor and takes no event, and keeps the watchdog's state. -/
theorem exitCase_same {s s' : System} {e : Event} (hseen : exitSeen s e = true)
    (hended : s'.ended = s.ended) (hsup : s'.supervision = s.supervision)
    (hstate : s'.state = s.state) : ExitCase s e s' := by
  refine .quiet hseen hended (fun id => ?_) (registration_congr hstate)
  rw [System.awaitsExit, hsup, System.awaitsExit]

/-- An event that is sent for no exit is one that no exit waits behind. -/
theorem exitCase_tell {s : System} {e : Event} {evt : SupervisionEvent} (hnone : evt.ended = none)
    (hseen : exitSeen s e = true) : ExitCase s e (s.tell evt) := by
  refine .quiet hseen ?_ (fun id => ?_) (registration_congr (tell_eq s evt).1)
  · unfold System.tell
    split <;> rfl
  · rw [awaitsExit_tell, hnone]
    simp

/-- The step that handles a message. -/
theorem exitCase_handle {s s' : System} (hc : Consistent s) (h : s.step .handle = some s') :
    ExitCase s .handle s' := by
  have hview := view_step hc h
  simp only [System.step] at h
  split at h
  · rename_i state m hst hsup hnext
    rw [Option.some.injEq] at h
    subst h
    have hmsg : s.nextMsg = some m := by simp [System.nextMsg, hst, hsup, hnext]
    refine .handle m rfl hmsg rfl (fun id => ?_) (fun id hnone => ?_) ?_
    · simp [System.awaitsExit, System.finish, hsup]
    · rcases (hview id).registration_of_none hnone with hnone' | ⟨e, he, hregisters⟩
      · exact Or.inl hnone'
      · -- the one entry that was added records this message
        simp only [System.view, System.finish, List.cons.injEq, and_true] at he
        rw [← he] at hregisters
        cases hm : m.msg with
        | register actor timeout strategy =>
          rw [Entry.registers, hm, decide_eq_true_eq] at hregisters
          exact Or.inr ⟨actor, timeout, strategy, rfl, hregisters⟩
        | _ =>
          rw [Entry.registers, hm] at hregisters
          cases hregisters
    · intro actor timeout strategy hm
      rw [registration_finish, hm]
      simp only [handle, register, AList.lookup_insert, ne_eq, reduceCtorEq,
        not_false_eq_true]
  · cases h

/-- The step in which an actor ends. -/
theorem exitCase_ends {s s' : System} {evt : SupervisionEvent}
    (h : s.step (.ends evt) = some s') : ExitCase s (.ends evt) s' := by
  simp only [System.step] at h
  split at h
  · rename_i id hid
    split at h
    · cases h
    · rename_i hfirst
      split at h
      · -- the supervisor is told
        rename_i hlinked
        rw [Option.some.injEq] at h
        subst h
        refine .ends evt id rfl hid hfirst ?_ (fun id' => ?_)
          (registration_congr (tell_eq { s with ended := id :: s.ended } evt).1)
        · unfold System.tell
          split <;> rfl
        · have hiff : (some id = some id' ∧ s.state.isSome = true) ↔
              (id' = id ∧ id ∈ s.linked ∧ s.state.isSome = true) := by
            constructor
            · rintro ⟨heq, hst⟩
              exact ⟨(Option.some.inj heq).symm, hlinked, hst⟩
            · rintro ⟨rfl, -, hst⟩
              exact ⟨rfl, hst⟩
          rw [awaitsExit_tell, hid]
          exact congrArg _ (decide_eq_decide.mpr hiff)
      · rename_i hlinked
        rw [Option.some.injEq] at h
        subst h
        refine .ends evt id rfl hid hfirst rfl (fun id' => ?_) fun _ => rfl
        simp [System.awaitsExit, hlinked]
  · cases h

/-- **What a step does to exits and registrations.** -/
theorem exit_cases {s s' : System} {e : Event} (hc : Consistent s) (h : s.step e = some s') :
    ExitCase s e s' := by
  cases e with
  | handle => exact exitCase_handle hc h
  | ends evt => exact exitCase_ends h
  | post msg =>
    simp only [System.step] at h
    split at h
    · unfold System.cast at h
      cases hst : s.state with
      | none =>
        simp only [hst, Option.some.injEq] at h
        exact h ▸ exitCase_same rfl rfl rfl rfl
      | some state =>
        simp only [hst, Option.some.injEq] at h
        exact h ▸ exitCase_same rfl rfl rfl hst.symm
    · cases h
  | supervise =>
    simp only [System.step] at h
    split at h
    · rename_i state evt rest hst hsup
      rw [Option.some.injEq] at h
      subst h
      refine .supervise evt rfl rfl (fun id => ?_) (lookup_handleSupervisorEvt s hst evt)
      rw [System.awaitsExit, hsup, List.any_cons, System.awaitsExit]
    · cases h
  | expire handle =>
    simp only [System.step] at h
    split at h
    · rw [Option.map_eq_some_iff] at h
      obtain ⟨box, -, hs⟩ := h
      exact hs ▸ exitCase_same rfl rfl rfl rfl
    · rw [Option.some.injEq] at h
      exact h ▸ exitCase_same rfl rfl rfl rfl
  | elapse duration =>
    simp only [System.step, Option.some.injEq] at h
    exact h ▸ exitCase_same rfl rfl rfl rfl
  | dropPort reply =>
    simp only [System.step, Option.some.injEq] at h
    exact h ▸ exitCase_same rfl rfl rfl rfl
  | link actor =>
    simp only [System.step, Option.some.injEq] at h
    exact h ▸ exitCase_same rfl rfl rfl rfl
  | notify evt =>
    simp only [System.step] at h
    split at h
    · split at h
      · rw [Option.some.injEq] at h
        exact h ▸ exitCase_tell rfl rfl
      · cases h
    -- the exits of actors are the events of `ends`
    · cases h
    · cases h
    all_goals
      rw [Option.some.injEq] at h
      exact h ▸ exitCase_tell rfl rfl

/-! ## The cleanup of one step -/

/-- The exit events that wait are of actors that have ended. -/
def System.ExitsPosted (s : System) : Prop :=
  ∀ id, s.awaitsExit id = true → id ∈ s.ended

/-- An actor that has ended stays so. -/
theorem mem_ended_of_step {s s' : System} {e : Event} (hc : Consistent s)
    (h : s.step e = some s') {id : ActorId} (hid : id ∈ s.ended) : id ∈ s'.ended := by
  cases exit_cases hc h with
  | quiet _ hended | handle _ _ _ hended | supervise _ _ hended => exact hended ▸ hid
  | ends evt id' _ _ _ hended => exact hended ▸ List.mem_cons_of_mem id' hid

/-- No step sends an exit event of an actor that lives. -/
theorem exitsPosted_of_step {s s' : System} {e : Event} (hc : Consistent s)
    (hp : s.ExitsPosted) (h : s.step e = some s') : s'.ExitsPosted := by
  intro id hid
  cases exit_cases hc h with
  | quiet _ hended hawaits => exact hended ▸ hp id (hawaits id ▸ hid)
  | handle m _ _ _ hawaits =>
    rw [(hawaits id).2] at hid
    cases hid
  | supervise evt _ hended hawaits =>
    refine hended ▸ hp id ?_
    rw [hawaits, hid, Bool.or_true]
  | ends evt id' _ _ _ hended hawaits =>
    rw [hended, List.mem_cons]
    rw [hawaits, Bool.or_eq_true, decide_eq_true_eq] at hid
    rcases hid with hold | ⟨rfl, -, -⟩
    · exact Or.inr (hp id hold)
    · exact Or.inl rfl

/-- **Step lemma.** A step keeps the watchdog free of actors that have ended exactly when it
loses sight of no exit. -/
theorem cleaned_of_step_iff {s s' : System} {e : Event} (hc : Consistent s)
    (hp : s.ExitsPosted) (hs : s.Cleaned) (h : s.step e = some s') :
    s'.Cleaned ↔ exitSeen s e = true := by
  cases exit_cases hc h with
  | quiet hseen hended hawaits hreg =>
    refine ⟨fun _ => hseen, fun _ id hid haw => ?_⟩
    rw [hreg]
    exact hs id (hended ▸ hid) (hawaits id ▸ haw)
  | supervise evt hseen hended hawaits hreg =>
    refine ⟨fun _ => hseen, fun _ id hid haw => ?_⟩
    rw [hreg]
    split
    · rfl
    · rename_i hother
      refine hs id (hended ▸ hid) ?_
      rw [hawaits, haw, decide_eq_false hother, Bool.or_false]
  | handle m he hnext hended hawaits hold hnew =>
    subst he
    constructor
    · -- an actor that is registered after its end is never unregistered
      intro hclean
      obtain ⟨msg, origin⟩ := m
      cases msg with
      | register actor timeout strategy =>
        simp only [exitSeen, hnext, decide_eq_true_eq]
        intro hmem
        exact hnew actor timeout strategy rfl (hclean _ (hended ▸ hmem) (hawaits _).2)
      | _ => simp only [exitSeen, hnext]
    · intro hseen id hid _
      rcases hold id (hs id (hended ▸ hid) (hawaits id).1) with
        hnone | ⟨actor, timeout, strategy, hm, rfl⟩
      · exact hnone
      · obtain ⟨msg, origin⟩ := m
        subst hm
        simp only [exitSeen, hnext, decide_eq_true_eq] at hseen
        exact absurd (hended ▸ hid) hseen
  | ends evt id he hid hfirst hended hawaits hreg =>
    subst he
    have hiff : exitSeen s (.ends evt) = true ↔
        id ∈ s.linked ∨ s.registration id = none := by
      simp only [exitSeen, hid, Bool.or_eq_true, decide_eq_true_eq, Option.isNone_iff_eq_none]
    rw [hiff]
    constructor
    · intro hclean
      by_cases hlinked : id ∈ s.linked
      · exact Or.inl hlinked
      · -- no event is on its way: the registration must be gone already
        refine Or.inr ?_
        rw [← hreg]
        refine hclean id (hended ▸ List.mem_cons_self) ?_
        rw [hawaits, Bool.or_eq_false_iff, decide_eq_false_iff_not]
        exact ⟨Bool.eq_false_iff.mpr fun haw => hfirst (hp id haw), fun hall => hlinked hall.2.1⟩
    · intro hseen id' hid' haw
      rw [hawaits, Bool.or_eq_false_iff, decide_eq_false_iff_not] at haw
      rw [hreg]
      rcases List.mem_cons.mp (hended ▸ hid') with rfl | hold
      · rcases hseen with hlinked | hnone
        · -- only a watchdog that has failed is not told
          have hdead : s.state = none := by
            rw [← Option.not_isSome_iff_eq_none]
            exact fun hst => haw.2 ⟨rfl, hlinked, hst⟩
          rw [System.registration, hdead, Option.bind_none]
        · exact hnone
      · exact hs id' hold haw.1

/-- A supervision event makes the watchdog call nobody. -/
theorem handleSupervisorEvt_calls (myself : TimedMailbox WatchdogMsg) (evt : SupervisionEvent)
    (state : WatchdogState) : (handleSupervisorEvt myself evt state).calls = [] := by
  cases evt <;> rfl

/-- A message is handled only when no supervision event waits. -/
theorem awaitsExit_of_nextMsg {s : System} {m : Envelope WatchdogMsg} (h : s.nextMsg = some m)
    (id : ActorId) : s.awaitsExit id = false := by
  unfold System.nextMsg at h
  split at h
  · rename_i hsup
    rw [System.awaitsExit, hsup, List.any_nil]
  · cases h

/-- No step strikes an actor that has ended. -/
theorem not_strikes_of_cleaned {s s' : System} {ev : Event} (hc : Consistent s)
    (hs : s.Cleaned) {id : ActorId} (hid : id ∈ s.ended) (h : s.step ev = some s') {e : Entry}
    (he : s'.history = e :: s.history) : e.strikes id = false := by
  refine Bool.eq_false_iff.mpr fun hstrike => ?_
  obtain ⟨m, rest, r, -, hfound, -⟩ := (view_step hc h id).struck he hstrike
  -- the actor was registered, so its exit event was waiting, and no message is handled then
  have hawaits : s.awaitsExit id = true := by
    refine Bool.not_eq_false _ |>.mp fun haw => ?_
    have hnone : s.registration id = none := hs id hid haw
    rw [System.view, hnone] at hfound
    cases hfound
  cases step_cases h with
  | quiet _ hhistory | post _ hhistory =>
    rw [hhistory] at he
    exact List.cons_ne_self _ _ he.symm
  | expire t ht _ hs' | lapse k _ hs' =>
    rw [hs'] at he
    exact List.cons_ne_self _ _ he.symm
  | handle state m' _ hnext =>
    rw [awaitsExit_of_nextMsg hnext] at hawaits
    cases hawaits
  | supervise state evt rest _ hs' =>
    rw [hs'] at he
    simp only [System.finish, List.cons.injEq, and_true] at he
    rw [← he, Entry.strikes, handleSupervisorEvt_calls] at hstrike
    cases hstrike

/-! ## What `stats` counts -/

/-- The entry records a kill. -/
def Entry.kills (e : Entry) : Bool := e.calls.any Call.isKill

/-- A handler counts a kill exactly if it kills. -/
theorem kills_handle (myself : TimedMailbox WatchdogMsg) (gone : List RpcReplyPort)
    (state : WatchdogState) (msg : WatchdogMsg) :
    (handle myself gone state msg).state.kills =
      state.kills + if (handle myself gone state msg).calls.any Call.isKill then 1 else 0 := by
  cases msg with
  | register actor duration strategy => rfl
  | unregister actor =>
    cases hfound : state.subjects.lookup actor.getId <;>
      simp [handle, unregister, WatchdogState.unregister, hfound]
  | ping actor reply =>
    cases hfound : state.subjects.lookup actor with
    | none => simp [handle, ping, hfound]
    | some r => cases hreply : reply.send gone <;> simp [handle, ping, hfound, hreply, Call.isKill]
  | timeout actor =>
    cases hfound : state.subjects.lookup actor with
    | none => simp [handle, timeout, hfound]
    | some r =>
      cases hstrategy : r.timeoutStrategy <;>
        simp [handle, timeout, hfound, hstrategy, Call.isKill]
  | stats reply =>
    cases hreply : reply.send gone <;> simp [handle, stats, hreply, Call.isKill]

/-- The kills that a living watchdog has counted are those of its history. -/
def System.Counted (s : System) : Prop :=
  ∀ state, s.state = some state → state.kills = s.history.countP Entry.kills

/-- Every step keeps count. -/
theorem counted_of_step {s s' : System} {e : Event} (hs : s.Counted)
    (h : s.step e = some s') : s'.Counted := by
  -- the count after one more entry
  have hfinish (state : WatchdogState) (input : Input) (origin : Option ℕ) (out : Outcome)
      (hstate : s.state = some state)
      (hkills : out.state.kills = state.kills + if out.calls.any Call.isKill then 1 else 0) :
      (s.finish input origin out).Counted := by
    intro state' hstate'
    unfold System.finish at hstate' ⊢
    rcases hres : out.result with err | _
    · simp only [hres, reduceCtorEq] at hstate'
    · simp only [hres, Option.some.injEq] at hstate'
      rw [← hstate', hkills, hs state hstate, List.countP_cons, Entry.kills]
  cases step_cases h with
  | quiet hstate hhistory | post hstate hhistory =>
    intro state hst
    rw [hhistory]
    exact hs state (hstate ▸ hst)
  | expire t ht _ hs' => exact hs' ▸ hs
  | lapse k _ hs' => exact hs' ▸ hs
  | handle state m hstate _ _ _ hs' =>
    exact hs' ▸ hfinish state _ _ _ hstate (kills_handle _ _ _ _)
  | supervise state evt rest hstate hs' =>
    subst hs'
    refine hfinish state (.evt evt) none _ hstate ?_
    rw [handleSupervisorEvt_calls]
    cases evt with
    | actorTerminated who | actorFailed who =>
      simp only [handleSupervisorEvt, WatchdogState.unregister]
      split <;> rfl
    | actorStarted | processGroupChanged | pidLifecycleEvent => rfl

/-! ## Runs that see every exit -/

/-- What holds in the states of a run that loses sight of no exit. -/
structure System.Tended (s : System) : Prop where
  consistent : Consistent s
  posted : s.ExitsPosted
  cleaned : s.Cleaned

/-- A watchdog that was just spawned has seen no exit. -/
theorem tended_spawn : spawn.Tended where
  consistent := consistent_spawn
  posted := by simp [System.ExitsPosted, System.awaitsExit, spawn]
  cleaned := by simp [System.Cleaned, spawn]

/-- A step that loses sight of no exit keeps everything in order. -/
theorem System.Tended.step {s s' : System} {e : Event} (hs : s.Tended)
    (hseen : exitSeen s e = true) (h : s.step e = some s') : s'.Tended where
  consistent := hs.consistent.step h
  posted := exitsPosted_of_step hs.consistent hs.posted h
  cleaned := (cleaned_of_step_iff hs.consistent hs.posted hs.cleaned h).mpr hseen

/-- **Run lemma.** From the moment an actor has ended, nothing strikes it. -/
theorem no_strike_of_run {s s' : System} {es : List Event} (hs : s.Tended) {id : ActorId}
    (hid : id ∈ s.ended) (h : Run System.step (fun s e => exitSeen s e = true) s es s') :
    ∃ new, s'.history = new ++ s.history ∧ ∀ e ∈ new, e.strikes id = false := by
  have hall : s'.Tended ∧ id ∈ s'.ended ∧
      ∃ new, s'.history = new ++ s.history ∧ ∀ e ∈ new, e.strikes id = false := by
    refine h.invariant (P := fun t => t.Tended ∧ id ∈ t.ended ∧
      ∃ new, t.history = new ++ s.history ∧ ∀ e ∈ new, e.strikes id = false)
      ⟨hs, hid, [], rfl, by simp⟩ ?_
    rintro t ev t' ⟨ht, hmem, new, hnew, hquiet⟩ hseen hstep
    refine ⟨ht.step hseen hstep, mem_ended_of_step ht.consistent hstep hmem, ?_⟩
    rcases (view_step ht.consistent hstep id).history with hsame | ⟨e, he, -⟩
    · exact ⟨new, hsame.trans hnew, hquiet⟩
    · -- the one new entry is no strike either
      have hno := not_strikes_of_cleaned ht.consistent ht.cleaned hmem hstep he
      refine ⟨e :: new, ?_, ?_⟩
      · have he' : t'.history = e :: t.history := he
        rw [he', hnew, List.cons_append]
      · intro e' he'
        rcases List.mem_cons.mp he' with rfl | hold
        · exact hno
        · exact hquiet e' hold
  exact hall.2.2

/-- **When an actor that ends is cleaned up.** A run holds no registration of an actor that has
ended (and whose exit event is not still to be handled) in any of its states exactly when it
loses sight of no exit: each actor that ends is linked to the watchdog or not registered, and
no `Register` is handled for an actor that has ended. In such a run nothing strikes an actor
after its end, and the kills that `stats` reports are the recorded ones. -/
theorem ended_actor_cleaned_up_iff {es : List Event} {s : System} (h : run es = some s) :
    (Throughout System.step System.Cleaned spawn es ↔
      Run System.step (fun s e => exitSeen s e = true) spawn es s) ∧
    (∀ es' s' id, Run System.step (fun s e => exitSeen s e = true) spawn es s →
      id ∈ s.ended → Run System.step (fun s e => exitSeen s e = true) s es' s' →
      ∃ new, s'.history = new ++ s.history ∧ ∀ e ∈ new, e.strikes id = false) ∧
    ∀ state, s.state = some state → state.kills = s.history.countP Entry.kills := by
  refine ⟨?_, fun es' s' id hrun hid hrun' => ?_, ?_⟩
  · refine (run_iff_throughout (I := fun s => Consistent s ∧ s.ExitsPosted) h
      ⟨tended_spawn.consistent, tended_spawn.posted⟩ tended_spawn.cleaned ?_ ?_).symm
    · rintro s e s' ⟨hc, hp⟩ hclean hseen hstep
      exact ⟨hc.step hstep, exitsPosted_of_step hc hp hstep⟩
    · rintro s e s' ⟨hc, hp⟩ hclean hstep
      exact cleaned_of_step_iff hc hp hclean hstep
  · have hs : s.Tended :=
      hrun.invariant (P := System.Tended) tended_spawn fun _ _ _ ht hseen hstep =>
        ht.step hseen hstep
    exact no_strike_of_run hs hid hrun'
  · have hcounted : s.Counted := by
      refine exec_invariant h ?_ fun _ _ _ ht hstep => counted_of_step ht hstep
      intro state hstate
      cases hstate
      rfl
    exact hcounted

/-- An actor that some code has linked to the watchdog ends before its timeout: its registration
goes, and a ping that was on its way does not bring it back. -/
theorem ended_actor_cleaned_up_iff_linked :
    ∃ es s es' s', run es = some s ∧ .loc 1 ∈ s.ended ∧
      exec System.step s es' = some s' ∧
      Throughout System.step System.Cleaned spawn es ∧
      ∃ new, s'.history = new ++ s.history ∧ ∀ e ∈ new, e.strikes (.loc 1) = false := by
  let es : List Event :=
    [.link (.loc 1), .post (.register ⟨.loc 1⟩ 500 .kill), .handle,
      .post (.ping (.loc 1) ⟨0⟩), .ends (.actorTerminated ⟨.loc 1⟩ none)]
  let es' : List Event := [.supervise, .handle, .elapse 500]
  obtain ⟨s, hs, hpost⟩ := (Option.any_eq_true _ _).mp
    (show (exec (checked exitSeen System.step) spawn es).any (fun s =>
      decide (ActorId.loc 1 ∈ s.ended) &&
        (exec (checked exitSeen System.step) s es').isSome) = true by decide)
  rw [Bool.and_eq_true, decide_eq_true_eq] at hpost
  obtain ⟨s', hs'⟩ := Option.isSome_iff_exists.mp hpost.2
  have hrun := run_iff_exec_checked.mpr hs
  have hrun' := run_iff_exec_checked.mpr hs'
  exact ⟨es, s, es', s', hrun.exec_eq, hpost.1, hrun'.exec_eq,
    (ended_actor_cleaned_up_iff hrun.exec_eq).1.mpr hrun,
    (ended_actor_cleaned_up_iff hrun.exec_eq).2.1 es' s' _ hrun hpost.1 hrun'⟩

/-- **An exit is not seen.** An actor is registered and ends at once. Nothing links it to the
watchdog, so no event is sent: the registration stays, the timer expires, and the watchdog
counts the kill of an actor that ended long before. -/
theorem exit_is_not_seen :
    ¬ (∀ es s, run es = some s → s.Cleaned) ∧
    ¬ (∀ es s es' s' id, run es = some s → id ∈ s.ended → s.awaitsExit id = false →
      exec System.step s es' = some s' →
      ∃ new, s'.history = new ++ s.history ∧ ∀ e ∈ new, e.strikes id = false) := by
  let es : List Event :=
    [.post (.register ⟨.loc 1⟩ 500 .kill), .handle, .ends (.actorTerminated ⟨.loc 1⟩ none)]
  let es' : List Event := [.elapse 500, .expire 0, .handle]
  obtain ⟨s, hs, hpost⟩ := (Option.any_eq_true _ _).mp
    (show (run es).any (fun s => decide (ActorId.loc 1 ∈ s.ended) &&
      (!s.awaitsExit (.loc 1) && ((s.registration (.loc 1)).isSome &&
        (!s.history.any (·.strikes (.loc 1)) && (exec System.step s es').any fun s' =>
          s'.history.any (·.strikes (.loc 1)))))) = true by decide)
  simp only [Bool.and_eq_true, decide_eq_true_eq, Bool.not_eq_true'] at hpost
  obtain ⟨hended, hawaits, hreg, hbefore, hafter⟩ := hpost
  refine ⟨fun hall => ?_, fun hall => ?_⟩
  · rw [hall es s hs _ hended hawaits] at hreg
    cases hreg
  · obtain ⟨s', hs', hstrike⟩ := (Option.any_eq_true _ _).mp hafter
    obtain ⟨new, hnew, hquiet⟩ := hall es s es' s' _ hs hended hawaits hs'
    -- the strike is among the new entries
    rw [hnew, List.any_append, hbefore, Bool.or_false, List.any_eq_true] at hstrike
    obtain ⟨e, he, hstrikes⟩ := hstrike
    rw [hquiet e he] at hstrikes
    cases hstrikes

end RactorActors.Watchdog
