import RactorActors.Foundations.AssociationList
import RactorActors.Watchdog.System

/-!
# The watchdog as one watched actor sees it

The abstract layer of the watchdog. What happens to one actor is decided by a small part of the
watchdog: the registration held for it, the timers armed for it, and the `Timeout` messages
queued for it (`View`). `View.Step` says everything that can happen to that part.

* `Consistent`: the stored handle of an actor's registration names no timer of another actor,
  kept by every step (`consistent_of_reachable`);
* `view_step`: one step of the watchdog is one `View.Step` of every actor's view, so that each
  property of one actor is proved over `View.Step` alone.
-/

namespace RactorActors.Watchdog

open AssociationList LabelledRun TimedMailbox

/-- What the watchdog holds about one actor. -/
structure View where
  /-- The current time. -/
  now : ℕ
  /-- The handle the next timer will get. -/
  nextHandle : ℕ
  /-- The actor's registration. -/
  registration : Option Registration
  /-- The armed timers that will post the actor's `Timeout`. -/
  timers : List (Timer WatchdogMsg)
  /-- The actor's `Timeout` messages that wait in the mailbox. -/
  queued : List (Envelope WatchdogMsg)
  /-- What was handled so far, for any actor, newest first. -/
  history : List Entry

/-- The part of the watchdog that concerns the actor `id`. -/
def System.view (s : System) (id : ActorId) : View where
  now := s.myself.now
  nextHandle := s.myself.nextHandle
  registration := s.registration id
  timers := s.myself.timers.filter (·.msg = .timeout id)
  queued := s.myself.queue.filter (·.msg = .timeout id)
  history := s.history

/-- The input takes the actor out of the watchdog without a timeout. -/
def Input.leaves (id : ActorId) : Input → Bool
  | .msg (.unregister actor) => actor.getId = id
  | .msg _ => false
  | .evt event => event.ended = some id

namespace View

/-- The record of an input about the actor. -/
def record (v : View) (input : Input) (origin : Option ℕ) (calls : List Call) : Entry where
  time := v.now
  input := input
  origin := origin
  nextHandle := v.nextHandle
  found := v.registration
  calls := calls

/-- The call that ends a registration. -/
def strike (r : Registration) : Call :=
  match r.timeoutStrategy with
  | .kill => .kill r.actor.getId
  | .stop => .stop r.actor.getId watchdogTimeout

/-- Everything that can happen to what the watchdog holds about the actor `id`. -/
inductive Step (id : ActorId) : View → View → Prop
  /-- Time passes, or nothing that concerns the actor happens. -/
  | elapse (v : View) (d : ℕ) : Step id v { v with now := v.now + d }
  /-- An input that is not about the actor is handled. -/
  | other (v : View) (n : ℕ) (e : Entry) :
      e.time = v.now → e.input.subject ≠ some id → e.strikes id = false → v.nextHandle ≤ n →
      Step id v { v with nextHandle := n, history := e :: v.history }
  /-- One of the actor's timers posts. -/
  | expire (v : View) (t : Timer WatchdogMsg) :
      t ∈ v.timers → t.deadline ≤ v.now →
      Step id v { v with
        timers := v.timers.filter (·.handle ≠ t.handle)
        queued := v.queued ++ [⟨t.msg, some t.handle⟩] }
  /-- The actor is registered, for the first time or again. -/
  | register (v : View) (actor : ActorCell) (timeout : ℕ) (strategy : TimeoutStrategy)
      (origin : Option ℕ) :
      actor.getId = id →
      Step id v { v with
        nextHandle := v.nextHandle + 1
        registration := some ⟨actor, timeout, strategy, v.nextHandle⟩
        timers := v.timers ++ [⟨v.nextHandle, v.now + timeout, .timeout id⟩]
        history := v.record (.msg (.register actor timeout strategy)) origin [] :: v.history }
  /-- A ping of the registered actor. -/
  | ping (v : View) (r : Registration) (reply : RpcReplyPort) (origin : Option ℕ)
      (calls : List Call) :
      v.registration = some r → (∀ c ∈ calls, c = .pong reply) →
      Step id v { v with
        nextHandle := v.nextHandle + 1
        timers := v.timers.filter (·.handle ≠ r.timer) ++
          [⟨v.nextHandle, v.now + r.timeout, .timeout id⟩]
        history := v.record (.msg (.ping id reply)) origin calls :: v.history }
  /-- A ping of the actor while it is not registered. -/
  | strayPing (v : View) (reply : RpcReplyPort) (origin : Option ℕ) :
      v.registration = none →
      Step id v { v with
        history := v.record (.msg (.ping id reply)) origin [] :: v.history }
  /-- The actor is unregistered, by a message or because it ended. -/
  | leave (v : View) (input : Input) (origin : Option ℕ) :
      input.leaves id = true →
      Step id v { v with
        registration := none
        timers := match v.registration with
          | some r => v.timers.filter (·.handle ≠ r.timer)
          | none => v.timers
        history := v.record input origin [] :: v.history }
  /-- The actor's `Timeout` is handled. -/
  | timeout (v : View) (m : Envelope WatchdogMsg) (rest : List (Envelope WatchdogMsg)) :
      v.queued = m :: rest → m.msg = .timeout id →
      Step id v { v with
        registration := none
        queued := rest
        history := v.record (.msg (.timeout id)) m.origin
          ((v.registration.map strike).toList) :: v.history }
  /-- The watchdog fails. -/
  | fail (v : View) (e : Entry) :
      e.time = v.now → e.input.subject = none → e.calls = [] →
      Step id v { v with registration := none, history := e :: v.history }
  /-- A timer of a failed watchdog expires. -/
  | lapse (v : View) (h : ℕ) :
      v.registration = none → Step id v { v with timers := v.timers.filter (·.handle ≠ h) }

end View

/-! ## What one step of the watchdog can do -/

/-- What one step of the watchdog can do. -/
inductive StepCase (s : System) (e : Event) (s' : System) : Prop
  /-- Time may pass; nothing is handled. -/
  | quiet (hstate : s'.state = s.state) (hhistory : s'.history = s.history) (d : ℕ)
      (hmyself : s'.myself = s.myself.elapse d)
  /-- A client's message is queued. -/
  | post (hstate : s'.state = s.state) (hhistory : s'.history = s.history) (msg : WatchdogMsg)
      (hmsg : fromClient msg = true) (hmyself : s'.myself = s.myself.post msg)
  /-- A timer posts. -/
  | expire (t : Timer WatchdogMsg) (ht : t ∈ s.myself.timers) (hdue : t.deadline ≤ s.myself.now)
      (hs : s' = { s with myself := s.myself.fire t ht })
  /-- A timer of a failed watchdog is gone. -/
  | lapse (h : ℕ) (hstate : s.state = none) (hs : s' = { s with myself := s.myself.abort h })
  /-- A message is handled. -/
  | handle (state : WatchdogState) (m : Envelope WatchdogMsg) (hstate : s.state = some state)
      (hmsg : s.nextMsg = some m) (hnext : s.myself.next = some m) (he : e = .handle)
      (hs : s' = s.finish (.msg m.msg) m.origin
        (handle s.myself.receive s.gone state m.msg))
  /-- A supervision event is handled. -/
  | supervise (state : WatchdogState) (evt : SupervisionEvent) (rest : List SupervisionEvent)
      (hstate : s.state = some state)
      (hs : s' = { s.finish (.evt evt) none (handleSupervisorEvt s.myself evt state) with
        supervision := rest })

/-- A supervision event that is delivered changes nothing but the queue it waits in. -/
theorem tell_eq (s : System) (evt : SupervisionEvent) :
    (s.tell evt).state = s.state ∧ (s.tell evt).history = s.history ∧
      (s.tell evt).myself = s.myself := by
  unfold System.tell
  split <;> exact ⟨rfl, rfl, rfl⟩

/-- **Inversion of a step.** -/
theorem step_cases {s s' : System} {e : Event} (h : s.step e = some s') : StepCase s e s' := by
  cases e with
  | post msg =>
    simp only [System.step] at h
    split at h
    · rename_i hmsg
      cases hst : s.state with
      | none =>
        -- a failed watchdog takes no messages
        simp only [System.cast, hst, Option.some.injEq] at h
        subst h
        exact .quiet rfl rfl 0 rfl
      | some state =>
        simp only [System.cast, hst, Option.some.injEq] at h
        subst h
        exact .post hst.symm rfl msg hmsg rfl
    · cases h
  | handle =>
    simp only [System.step] at h
    split at h
    · rename_i state m hst hsup hnext
      rw [Option.some.injEq] at h
      have hmsg : s.nextMsg = some m := by simp [System.nextMsg, hst, hsup, hnext]
      exact .handle state m hst hmsg hnext rfl h.symm
    · cases h
  | supervise =>
    simp only [System.step] at h
    split at h
    · rename_i state evt rest hst hsup
      rw [Option.some.injEq] at h
      exact .supervise state evt rest hst h.symm
    · cases h
  | expire handle =>
    simp only [System.step] at h
    split at h
    · rw [Option.map_eq_some_iff] at h
      obtain ⟨box, hbox, rfl⟩ := h
      obtain ⟨t, ht, -, hdue, rfl⟩ := expire_eq_some hbox
      exact .expire t ht hdue rfl
    · rename_i hst
      rw [Option.some.injEq] at h
      exact .lapse handle hst h.symm
  | elapse duration =>
    simp only [System.step, Option.some.injEq] at h
    subst h
    exact .quiet rfl rfl duration rfl
  | dropPort reply =>
    simp only [System.step, Option.some.injEq] at h
    subst h
    exact .quiet rfl rfl 0 rfl
  | link actor =>
    simp only [System.step, Option.some.injEq] at h
    subst h
    exact .quiet rfl rfl 0 rfl
  | ends evt =>
    simp only [System.step] at h
    split at h
    · split at h
      · cases h
      · split at h
        all_goals
          rw [Option.some.injEq] at h
          subst h
        · obtain ⟨hstate, hhistory, hmyself⟩ := tell_eq { s with ended := _ :: s.ended } evt
          exact .quiet hstate hhistory 0 hmyself
        · exact .quiet rfl rfl 0 rfl
    · cases h
  | notify evt =>
    have htell : ∀ {t}, some (s.tell evt) = some t → StepCase s (.notify evt) t := by
      intro t ht
      rw [Option.some.injEq] at ht
      subst ht
      obtain ⟨hstate, hhistory, hmyself⟩ := tell_eq s evt
      exact .quiet hstate hhistory 0 hmyself
    simp only [System.step] at h
    split at h
    · split at h
      · exact htell h
      · cases h
    · cases h
    · cases h
    · exact htell h
    · exact htell h

/-- The registrations of a watchdog that is alive. -/
theorem registration_of_state {s : System} {state : WatchdogState} (h : s.state = some state)
    (id : ActorId) : s.registration id = state.subjects.lookup id := by
  rw [System.registration, h, Option.bind_some]

/-- An entry that records a message was added by handling that message. -/
theorem handled_msg {s s' : System} {ev : Event} (h : s.step ev = some s') {e : Entry}
    (he : s'.history = e :: s.history) {msg : WatchdogMsg} (hmsg : e.input = .msg msg) :
    ev = .handle ∧ s.nextMsg = some ⟨msg, e.origin⟩ ∧
      e.found = e.input.subject.bind s.registration := by
  cases step_cases h with
  -- the history of a step that handles nothing does not grow
  | quiet _ hhistory | post _ hhistory =>
    rw [hhistory] at he
    exact absurd he.symm (List.cons_ne_self _ _)
  | expire t ht _ hs | lapse _ _ hs =>
    rw [hs] at he
    exact absurd he.symm (List.cons_ne_self _ _)
  | handle state m _ hnext _ hev hs =>
    rw [hs] at he
    simp only [System.finish, List.cons.injEq, and_true] at he
    subst he
    simp only [Input.msg.injEq] at hmsg
    exact ⟨hev, by rw [hnext, ← hmsg], rfl⟩
  | supervise state evt rest _ hs =>
    rw [hs] at he
    simp only [System.finish, List.cons.injEq, and_true] at he
    subst he
    cases hmsg

/-! ## The stored handles -/

/-- The stored handles and the armed timers fit together. -/
structure Consistent (s : System) : Prop where
  /-- A registration is stored under the identity of its actor. -/
  key : ∀ id r, s.registration id = some r → r.actor.getId = id
  /-- A stored handle was handed out. -/
  timer_lt : ∀ id r, s.registration id = some r → r.timer < s.myself.nextHandle
  /-- A stored handle names no timer of another actor. -/
  timer_owner : ∀ id r, s.registration id = some r →
    ∀ t ∈ s.myself.timers, t.handle = r.timer → t.msg = .timeout id

/-- A mailbox whose timers are among the old ones, and registrations among the old ones, keep
the handles consistent. -/
theorem Consistent.of_le {s s' : System} (h : Consistent s)
    (hreg : ∀ id r, s'.registration id = some r → s.registration id = some r)
    (hnext : s.myself.nextHandle ≤ s'.myself.nextHandle)
    (htimers : ∀ t ∈ s'.myself.timers, t ∈ s.myself.timers) : Consistent s' where
  key id r hr := h.key id r (hreg id r hr)
  timer_lt id r hr := Nat.lt_of_lt_of_le (h.timer_lt id r (hreg id r hr)) hnext
  timer_owner id r hr t ht := h.timer_owner id r (hreg id r hr) t (htimers t ht)

/-- The registrations after an input was handled: none if the handler failed. -/
theorem registration_finish (s : System) (input : Input) (origin : Option ℕ) (out : Outcome)
    (id : ActorId) :
    (s.finish input origin out).registration id =
      match out.result with
      | .ok () => out.state.subjects.lookup id
      | .error _ => none := by
  unfold System.registration System.finish
  cases out.result <;> rfl

/-- `WatchdogState::unregister` forgets one actor and keeps the others. -/
theorem lookup_unregister (state : WatchdogState) (myself : TimedMailbox WatchdogMsg)
    (cell : ActorCell) (id : ActorId) :
    (state.unregister myself cell).2.subjects.lookup id =
      if id = cell.getId then none else state.subjects.lookup id := by
  have hsub : (state.unregister myself cell).2.subjects = state.subjects.erase cell.getId := by
    unfold WatchdogState.unregister
    split <;> rfl
  rw [hsub]
  by_cases h : id = cell.getId
  · rw [if_pos h, h, AList.lookup_erase]
  · rw [if_neg h, AList.lookup_erase_ne h]

/-- `WatchdogState::unregister` aborts the stored timer and leaves the mailbox otherwise. -/
theorem unregister_myself (state : WatchdogState) (myself : TimedMailbox WatchdogMsg)
    (cell : ActorCell) :
    (state.unregister myself cell).1 =
      match state.subjects.lookup cell.getId with
      | some r => myself.abort r.timer
      | none => myself := by
  unfold WatchdogState.unregister
  cases state.subjects.lookup cell.getId with
  | none => rfl
  | some r => rfl

/-- Handling an `Unregister` or an exit keeps the handles consistent. -/
theorem Consistent.unregister {s : System} (h : Consistent s) {state : WatchdogState}
    (hst : s.state = some state) (cell : ActorCell) {s' : System} (box : TimedMailbox WatchdogMsg)
    (hnext : box.nextHandle = s.myself.nextHandle) (htimers : box.timers = s.myself.timers)
    (hstate : s'.state = some (state.unregister box cell).2)
    (hmyself : s'.myself = (state.unregister box cell).1) : Consistent s' := by
  refine h.of_le ?_ ?_ ?_
  · intro id r hr
    rw [registration_of_state hstate, lookup_unregister] at hr
    rw [registration_of_state hst]
    split at hr
    · cases hr
    · exact hr
  · rw [hmyself, unregister_myself]
    split <;> simp [hnext]
  · intro t ht
    rw [hmyself, unregister_myself] at ht
    split at ht
    · rw [abort_timers, htimers] at ht
      exact List.mem_of_mem_filter ht
    · exact htimers ▸ ht

/-- Arming a timer under a fresh handle keeps the handles consistent, whatever registration is
stored with that handle. -/
theorem Consistent.arm {s s' : System} (h : Consistent s) (id : ActorId) (deadline : ℕ)
    (hreg : ∀ id' r, s'.registration id' = some r → s.registration id' = some r ∨
      (id' = id ∧ r.actor.getId = id ∧ r.timer = s.myself.nextHandle))
    (hnext : s'.myself.nextHandle = s.myself.nextHandle + 1)
    (htimers : ∀ t ∈ s'.myself.timers, t ∈ s.myself.timers ∨
      t = ⟨s.myself.nextHandle, deadline, .timeout id⟩) : Consistent s' := by
  refine ⟨?_, ?_, ?_⟩
  · intro id' r hr
    rcases hreg id' r hr with hold | ⟨rfl, hkey, -⟩
    · exact h.key id' r hold
    · exact hkey
  · intro id' r hr
    rw [hnext]
    rcases hreg id' r hr with hold | ⟨-, -, htimer⟩
    · exact Nat.lt_succ_of_lt (h.timer_lt id' r hold)
    · exact htimer ▸ Nat.lt_succ_self _
  · -- an old handle meets an old timer, or one of the two is fresh
    intro id' r hr t ht hth
    rcases hreg id' r hr with hold | ⟨rfl, -, htimer⟩
    · rcases htimers t ht with ht | rfl
      · exact h.timer_owner id' r hold t ht hth
      -- the fresh handle is above every stored one
      · have hlt := h.timer_lt id' r hold
        exact absurd hth (Nat.ne_of_gt hlt)
    · rcases htimers t ht with ht | rfl
      · exact absurd (hth.trans htimer) (handle_ne_nextHandle ht)
      · rfl

/-- Handling a `Register` keeps the handles consistent: the fresh handle is stored under the actor
it is armed for. -/
theorem Consistent.register {s : System} (h : Consistent s) {state : WatchdogState}
    (hst : s.state = some state) (actor : ActorCell) (d : ℕ) (strategy : TimeoutStrategy)
    (input : Input) (origin : Option ℕ) :
    Consistent (s.finish input origin
      (register s.myself.receive actor d strategy state)) := by
  have hreg := registration_of_state hst
  refine h.arm actor.getId (s.myself.now + d) ?_ rfl ?_
  · intro id r hr
    rw [registration_finish] at hr
    simp only [Watchdog.register] at hr
    rcases of_lookup_insert hr with ⟨rfl, rfl⟩ | ⟨-, hold⟩
    · exact Or.inr ⟨rfl, rfl, rfl⟩
    · exact Or.inl ((hreg id).trans hold)
  · intro t ht
    simpa [System.finish, Watchdog.register] using ht

/-- Handling a `Ping` keeps the handles consistent: the fresh handle is stored nowhere. -/
theorem Consistent.ping {s : System} (h : Consistent s) {state : WatchdogState}
    (hst : s.state = some state) (actor : ActorId) (reply : RpcReplyPort) (input : Input)
    (origin : Option ℕ) :
    Consistent (s.finish input origin
      (ping s.myself.receive s.gone actor reply state)) := by
  have hreg := registration_of_state hst
  cases hfound : state.subjects.lookup actor with
  | none =>
    refine h.of_le ?_ (by simp [System.finish, Watchdog.ping, hfound])
      (by simp [System.finish, Watchdog.ping, hfound])
    intro id r hr
    simp only [registration_finish, Watchdog.ping, hfound] at hr
    exact (hreg id).trans (of_lookup_erase hr).2
  | some r₀ =>
    refine h.arm actor (s.myself.now + r₀.timeout) ?_
      (by simp [System.finish, Watchdog.ping, hfound]) ?_
    · intro id r hr
      simp only [registration_finish, Watchdog.ping, hfound] at hr
      exact Or.inl ((hreg id).trans hr)
    · intro t ht
      simp only [System.finish, Watchdog.ping, hfound, sendAfter_timers, abort_timers,
        List.mem_append, List.mem_singleton] at ht
      rcases ht with ht | ht
      · exact Or.inl (List.mem_of_mem_filter ht)
      · exact Or.inr ht

/-- Handling a `Timeout` keeps the handles consistent: whichever branch is taken, the actor's
registration is erased. -/
theorem Consistent.timeout {s : System} (h : Consistent s) {state : WatchdogState}
    (hst : s.state = some state) (actor : ActorId) (input : Input) (origin : Option ℕ) :
    Consistent (s.finish input origin (timeout s.myself.receive actor state)) := by
  have hreg := registration_of_state hst
  refine h.of_le ?_ ?_ ?_
  · intro id r hr
    rw [registration_finish] at hr
    have herased : (state.subjects.erase actor).lookup id = some r := by
      simp only [Watchdog.timeout] at hr
      repeat' split at hr
      all_goals first | exact hr | cases hr
    exact (hreg id).trans (of_lookup_erase herased).2
  · simp only [System.finish, Watchdog.timeout]
    repeat' split
    all_goals exact Nat.le_refl _
  · intro t ht
    simp only [System.finish, Watchdog.timeout] at ht
    repeat' split at ht
    all_goals exact ht

/-- Handling a `Stats` keeps the handles consistent: the registrations stay, or the watchdog
fails. -/
theorem Consistent.stats {s : System} (h : Consistent s) {state : WatchdogState}
    (hst : s.state = some state) (reply : RpcReplyPort) (input : Input) (origin : Option ℕ) :
    Consistent (s.finish input origin (stats s.myself.receive s.gone reply state)) := by
  have hreg := registration_of_state hst
  refine h.of_le ?_ ?_ ?_
  · intro id r hr
    simp only [registration_finish, Watchdog.stats] at hr
    repeat' split at hr
    all_goals first | exact (hreg id).trans hr | cases hr
  · simp only [System.finish, Watchdog.stats]
    repeat' split
    all_goals exact Nat.le_refl _
  · intro t ht
    simp only [System.finish, Watchdog.stats] at ht
    repeat' split at ht
    all_goals exact ht

/-- Every step keeps the handles consistent. -/
theorem Consistent.step {s s' : System} {e : Event} (h : Consistent s)
    (hs : s.step e = some s') : Consistent s' := by
  cases step_cases hs with
  | quiet hstate _ d hmyself =>
    refine h.of_le (fun id r hr => ?_) (by simp [hmyself]) (by simp [hmyself])
    rwa [System.registration, hstate] at hr
  | post hstate _ msg _ hmyself =>
    refine h.of_le (fun id r hr => ?_) (by simp [hmyself]) (by simp [hmyself])
    rwa [System.registration, hstate] at hr
  | expire t ht _ hs =>
    subst hs
    exact h.of_le (fun _ _ hr => hr) (Nat.le_refl _) fun u hu => List.mem_of_mem_filter hu
  | lapse k _ hs =>
    subst hs
    exact h.of_le (fun _ _ hr => hr) (Nat.le_refl _) fun u hu => List.mem_of_mem_filter hu
  | supervise state evt rest hstate hs =>
    have hreg := registration_of_state hstate
    subst hs
    cases evt with
    | actorTerminated cell reason => exact h.unregister hstate cell s.myself rfl rfl rfl rfl
    | actorFailed cell what => exact h.unregister hstate cell s.myself rfl rfl rfl rfl
    | _ => exact h.of_le (fun id r hr => (hreg id).trans hr) (Nat.le_refl _) fun u hu => hu
  | handle state m hstate _ _ _ hs =>
    subst hs
    cases hm : m.msg with
    | register actor d strategy => exact h.register hstate actor d strategy _ m.origin
    | unregister actor => exact h.unregister hstate actor s.myself.receive rfl rfl rfl rfl
    | ping actor reply => exact h.ping hstate actor reply _ m.origin
    | timeout actor => exact h.timeout hstate actor _ m.origin
    | stats reply => exact h.stats hstate reply _ m.origin

/-- No handle is stored before the first registration. -/
theorem consistent_spawn : Consistent spawn where
  key := by simp [System.registration, spawn, preStart]
  timer_lt := by simp [System.registration, spawn, preStart]
  timer_owner := by simp [System.registration, spawn, preStart]

/-- The handles are consistent in every reachable state. -/
theorem consistent_of_reachable {s : System} (h : Reachable s) : Consistent s := by
  obtain ⟨es, hes⟩ := h
  exact exec_invariant hes consistent_spawn fun _ _ _ hc hs => hc.step hs

/-! ## Each step of the watchdog is a step of every view -/

section Simulation

variable {s : System} {id : ActorId}

/-- A message of another kind, once taken, leaves the actor's queued `Timeout`s. -/
theorem queued_receive {m : Envelope WatchdogMsg} (hnext : s.myself.next = some m)
    (hm : m.msg ≠ .timeout id) :
    s.myself.receive.queue.filter (·.msg = .timeout id) = (s.view id).queued := by
  have hqueue := next_eq_some hnext
  rw [receive_queue, System.view, hqueue, List.tail_cons, List.filter_cons_of_neg (by simpa)]

/-- Handling an input about another actor is no more than a new entry in this actor's view. -/
theorem view_other {input : Input} {origin : Option ℕ} {out : Outcome}
    (hsub : input.subject ≠ some id) (hok : out.result = .ok ())
    (hlookup : out.state.subjects.lookup id = s.registration id)
    (hnow : out.myself.now = s.myself.now)
    (hnext : s.myself.nextHandle ≤ out.myself.nextHandle)
    (htimers : out.myself.timers.filter (·.msg = .timeout id) = (s.view id).timers)
    (hqueue : out.myself.queue.filter (·.msg = .timeout id) = (s.view id).queued)
    (hcalls : ∀ c ∈ out.calls, c.victim ≠ some id) :
    View.Step id (s.view id) ((s.finish input origin out).view id) := by
  have hreg : (s.finish input origin out).registration id = s.registration id := by
    rw [registration_finish, hok]
    exact hlookup
  -- the entry added to the history
  let e : Entry :=
    { time := s.myself.now
      input := input
      origin := origin
      nextHandle := s.myself.nextHandle
      found := input.subject.bind s.registration
      calls := out.calls }
  have hview : (s.finish input origin out).view id =
      { s.view id with
        nextHandle := out.myself.nextHandle
        history := e :: (s.view id).history } := by
    simp only [System.view] at htimers hqueue ⊢
    rw [hreg]
    simp only [System.finish, hnow, htimers, hqueue, e]
  have hstrikes : e.strikes id = false := by
    simpa [Entry.strikes, e] using hcalls
  rw [hview]
  exact View.Step.other _ _ e rfl hsub hstrikes hnext

/-- A timer armed for another actor is not among this actor's timers. -/
theorem filter_sendAfter_timers (box : TimedMailbox WatchdogMsg) (d : ℕ) {a : ActorId}
    (ha : a ≠ id) :
    (box.sendAfter d (.timeout a)).timers.filter (·.msg = .timeout id) =
      box.timers.filter (·.msg = .timeout id) := by
  rw [sendAfter_timers, List.filter_append, List.filter_cons_of_neg (by simpa using ha),
    List.filter_nil, List.append_nil]

/-- A timer armed for this actor is its newest one. -/
theorem filter_sendAfter_timers_self (box : TimedMailbox WatchdogMsg) (d : ℕ) :
    (box.sendAfter d (.timeout id)).timers.filter (·.msg = .timeout id) =
      box.timers.filter (·.msg = .timeout id) ++ [⟨box.nextHandle, box.now + d, .timeout id⟩] := by
  rw [sendAfter_timers, List.filter_append, List.filter_cons_of_pos (by simp), List.filter_nil]

/-- Aborting the stored timer of another actor leaves this actor's timers. -/
theorem filter_abort_other (hc : Consistent s) {a : ActorId} {r : Registration}
    (hr : s.registration a = some r) (ha : a ≠ id) :
    (s.myself.abort r.timer).timers.filter (·.msg = .timeout id) = (s.view id).timers := by
  -- the stored handle names a timer of its own actor only
  apply filter_abort_timers
  intro t ht hth
  have hmsg := hc.timer_owner a r hr t ht hth
  simpa [hmsg] using ha

/-- **Dropping a registration, as the actor sees it.** -/
theorem view_unregister (hc : Consistent s) {state : WatchdogState} {cell : ActorCell}
    {input : Input} {origin : Option ℕ} {box : TimedMailbox WatchdogMsg}
    (hst : s.state = some state) (hsub : input.subject = some cell.getId)
    (hleaves : input.leaves cell.getId = true)
    (hnow : box.now = s.myself.now) (hnext : box.nextHandle = s.myself.nextHandle)
    (htimers : box.timers = s.myself.timers)
    (hqueue : box.queue.filter (·.msg = .timeout id) = (s.view id).queued) :
    View.Step id (s.view id)
      ((s.finish input origin
        { myself := (state.unregister box cell).1
          state := (state.unregister box cell).2
          calls := []
          result := .ok () }).view id) := by
  have hreg := registration_of_state hst
  by_cases hid : id = cell.getId
  · -- the registration of this very actor
    subst hid
    have hview : ((s.finish input origin
        { myself := (state.unregister box cell).1
          state := (state.unregister box cell).2
          calls := []
          result := .ok () }).view cell.getId) =
        { s.view cell.getId with
          registration := none
          timers := match (s.view cell.getId).registration with
            | some r => (s.view cell.getId).timers.filter (·.handle ≠ r.timer)
            | none => (s.view cell.getId).timers
          history := (s.view cell.getId).record input origin [] ::
            (s.view cell.getId).history } := by
      simp only [System.view] at hqueue ⊢
      rw [registration_finish]
      simp only [lookup_unregister, if_true, System.finish, View.record, unregister_myself,
        hsub, Option.bind_some, hreg]
      cases hfound : state.subjects.lookup cell.getId with
      | none => simp only [hnow, hnext, htimers, hqueue]
      | some r =>
        simp only [abort_now, abort_nextHandle, abort_timers, abort_queue, hnow, hnext, htimers,
          hqueue, filter_filter_handle]
    rw [hview]
    exact View.Step.leave _ input origin hleaves
  · -- the registration of another actor
    refine view_other ?_ rfl ?_ ?_ ?_ ?_ ?_ (by simp)
    · rw [hsub]
      exact fun h => hid (Option.some.inj h).symm
    · simp only [lookup_unregister, if_neg hid, hreg]
    · simp only [unregister_myself]
      split <;> simp [hnow]
    · simp only [unregister_myself]
      split <;> simp [hnext]
    · simp only [unregister_myself]
      split
      · rename_i r hr
        have habort : (box.abort r.timer).timers = (s.myself.abort r.timer).timers := by
          simp [htimers]
        rw [habort]
        exact filter_abort_other hc ((hreg _).trans hr) (Ne.symm hid)
      · rw [htimers, System.view]
    · simp only [unregister_myself]
      split <;> simpa using hqueue

/-- The handler of a ping calls nobody but the caller. -/
theorem ping_calls (myself : TimedMailbox WatchdogMsg) (gone : List RpcReplyPort)
    (actor : ActorId) (reply : RpcReplyPort) (state : WatchdogState) :
    ∀ c ∈ (ping myself gone actor reply state).calls, c = .pong reply := by
  intro c hmem
  unfold ping at hmem
  split at hmem
  · simp only at hmem
    split at hmem
    · exact List.mem_singleton.mp hmem
    · cases hmem
  · cases hmem

/-- A handled `Register`, as the actor sees it. -/
theorem view_register {state : WatchdogState} (hst : s.state = some state)
    (hqueue : s.myself.receive.queue.filter (·.msg = .timeout id) = (s.view id).queued)
    (actor : ActorCell) (d : ℕ) (strategy : TimeoutStrategy) (origin : Option ℕ) :
    View.Step id (s.view id)
      ((s.finish (.msg (.register actor d strategy)) origin
        (handle s.myself.receive s.gone state (.register actor d strategy))).view id) := by
  have hreg := registration_of_state hst
  by_cases hid : id = actor.getId
  · -- the actor itself is registered: its newest timer is the one armed here
    subst hid
    have hview : (s.finish (.msg (.register actor d strategy)) origin
        (handle s.myself.receive s.gone state (.register actor d strategy))).view actor.getId =
        { s.view actor.getId with
          nextHandle := (s.view actor.getId).nextHandle + 1
          registration := some ⟨actor, d, strategy, (s.view actor.getId).nextHandle⟩
          timers := (s.view actor.getId).timers ++
            [⟨(s.view actor.getId).nextHandle, (s.view actor.getId).now + d,
              .timeout actor.getId⟩]
          history := (s.view actor.getId).record (.msg (.register actor d strategy)) origin []
            :: (s.view actor.getId).history } := by
      simp only [System.view] at hqueue ⊢
      rw [registration_finish]
      simp only [handle, register, AList.lookup_insert, System.finish, View.record,
        filter_sendAfter_timers_self, sendAfter_queue, hqueue, Input.subject, Option.bind_some]
      rfl
    rw [hview]
    exact View.Step.register _ actor d strategy origin rfl
  · refine view_other ?_ rfl ?_ rfl (Nat.le_succ _) ?_ hqueue (by simp [handle, register])
    · exact fun h => hid (Option.some.inj h).symm
    · simp only [handle, register, AList.lookup_insert_ne hid, hreg]
    · exact filter_sendAfter_timers s.myself.receive d (Ne.symm hid)

/-- A handled `Ping`, as the actor sees it. -/
theorem view_ping (hc : Consistent s) {state : WatchdogState} (hst : s.state = some state)
    (hqueue : s.myself.receive.queue.filter (·.msg = .timeout id) = (s.view id).queued)
    (actor : ActorId) (reply : RpcReplyPort) (origin : Option ℕ) :
    View.Step id (s.view id)
      ((s.finish (.msg (.ping actor reply)) origin
        (handle s.myself.receive s.gone state (.ping actor reply))).view id) := by
  have hreg := registration_of_state hst
  by_cases hid : id = actor
  · subst hid
    cases hfound : state.subjects.lookup id with
    | none =>
      have hview : (s.finish (.msg (.ping id reply)) origin
          (handle s.myself.receive s.gone state (.ping id reply))).view id =
          { s.view id with
            history := (s.view id).record (.msg (.ping id reply)) origin [] ::
              (s.view id).history } := by
        simp only [System.view] at hqueue ⊢
        rw [registration_finish]
        simp only [handle, ping, hfound, AList.lookup_erase, System.finish, View.record,
          hqueue, Input.subject, Option.bind_some, hreg, receive_now, receive_nextHandle,
          receive_timers]
      rw [hview]
      exact View.Step.strayPing _ reply origin ((hreg id).trans hfound)
    | some r =>
      -- the stored handle is aborted among the actor's own timers
      have hview : (s.finish (.msg (.ping id reply)) origin
          (handle s.myself.receive s.gone state (.ping id reply))).view id =
          { s.view id with
            nextHandle := (s.view id).nextHandle + 1
            timers := (s.view id).timers.filter (·.handle ≠ r.timer) ++
              [⟨(s.view id).nextHandle, (s.view id).now + r.timeout, .timeout id⟩]
            history := (s.view id).record (.msg (.ping id reply)) origin
              (ping s.myself.receive s.gone id reply state).calls :: (s.view id).history } := by
        simp only [System.view] at hqueue ⊢
        rw [registration_finish]
        simp only [handle, ping, hfound, System.finish, View.record,
          filter_sendAfter_timers_self, sendAfter_queue, abort_queue, hqueue, Input.subject,
          Option.bind_some, hreg, sendAfter_now, abort_now, receive_now, sendAfter_nextHandle,
          abort_nextHandle, receive_nextHandle, abort_timers, filter_filter_handle]
        rfl
      rw [hview]
      exact View.Step.ping _ r reply origin _ ((hreg id).trans hfound)
        (ping_calls _ _ _ _ _)
  · -- another actor's timer is aborted, and armed again
    refine view_other ?_ ?_ ?_ ?_ ?_ ?_ ?_ ?_
    · exact fun h => hid (Option.some.inj h).symm
    · simp only [handle, ping]
      split <;> rfl
    · simp only [handle, ping, hreg]
      split
      · rfl
      · exact AList.lookup_erase_ne hid
    · simp only [handle, ping]
      split <;> rfl
    · simp only [handle, ping]
      split
      · exact Nat.le_succ _
      · exact Nat.le_refl _
    · simp only [handle, ping]
      split
      · rename_i r hr
        rw [filter_sendAfter_timers _ _ (Ne.symm hid)]
        exact filter_abort_other hc ((hreg actor).trans hr) (Ne.symm hid)
      · rfl
    · simp only [handle, ping]
      split <;> exact hqueue
    · intro c hmem
      rw [ping_calls _ _ _ _ _ c hmem]
      simp [Call.victim]

/-- A handled `Timeout`, as the actor sees it. -/
theorem view_timeout (hc : Consistent s) {state : WatchdogState} (hst : s.state = some state)
    {m : Envelope WatchdogMsg} (hnext : s.myself.next = some m) (actor : ActorId)
    (hm : m.msg = .timeout actor) :
    View.Step id (s.view id)
      ((s.finish (.msg (.timeout actor)) m.origin
        (handle s.myself.receive s.gone state (.timeout actor))).view id) := by
  have hreg := registration_of_state hst
  by_cases hid : id = actor
  · -- the message taken is the oldest of the actor's queued `Timeout`s
    subst hid
    have hqueued : (s.view id).queued =
        m :: (s.myself.queue.tail).filter (·.msg = .timeout id) := by
      rw [System.view, next_eq_some hnext, List.filter_cons_of_pos (by simpa using hm),
        List.tail_cons]
    have hview : (s.finish (.msg (.timeout id)) m.origin
        (handle s.myself.receive s.gone state (.timeout id))).view id =
        { s.view id with
          registration := none
          queued := (s.myself.queue.tail).filter (·.msg = .timeout id)
          history := (s.view id).record (.msg (.timeout id)) m.origin
            (((s.view id).registration.map View.strike).toList) :: (s.view id).history } := by
      simp only [System.view]
      rw [registration_finish]
      cases hfound : state.subjects.lookup id with
      | none =>
        simp only [handle, timeout, hfound, AList.lookup_erase, System.finish, View.record,
          Input.subject, Option.bind_some, hreg, receive_queue, receive_now,
          receive_nextHandle, receive_timers, Option.map_none, Option.toList_none]
      | some r =>
        cases hstrategy : r.timeoutStrategy with
        | kill =>
          simp only [handle, timeout, hfound, hstrategy, AList.lookup_erase, System.finish,
            View.record, View.strike, Input.subject, Option.bind_some, hreg, receive_queue,
            receive_now, receive_nextHandle, receive_timers, Option.map_some,
            Option.toList_some]
        | stop =>
          simp only [handle, timeout, hfound, hstrategy, AList.lookup_erase, System.finish,
            View.record, View.strike, Input.subject, Option.bind_some, hreg, receive_queue,
            receive_now, receive_nextHandle, receive_timers, Option.map_some,
            Option.toList_some]
    rw [hview]
    exact View.Step.timeout _ m _ hqueued hm
  · have hqueue : s.myself.receive.queue.filter (·.msg = .timeout id) = (s.view id).queued :=
      queued_receive hnext (by rw [hm]; exact fun h => hid (WatchdogMsg.timeout.inj h).symm)
    refine view_other ?_ ?_ ?_ ?_ ?_ ?_ ?_ ?_
    · exact fun h => hid (Option.some.inj h).symm
    all_goals simp only [handle, timeout]
    · repeat' split
      all_goals rfl
    · rw [hreg]
      repeat' split
      all_goals exact AList.lookup_erase_ne hid
    · repeat' split
      all_goals rfl
    · repeat' split
      all_goals exact Nat.le_refl _
    · repeat' split
      all_goals rfl
    · repeat' split
      all_goals exact hqueue
    · intro c hmem
      -- the struck actor is the one registered under `actor`
      repeat' split at hmem
      · rename_i r hr _ _
        have hkey := hc.key actor r ((hreg actor).trans hr)
        simp only [List.mem_singleton] at hmem
        simp only [hmem, Call.victim, hkey, ne_eq, Option.some.injEq]
        exact Ne.symm hid
      · rename_i r hr _ _
        have hkey := hc.key actor r ((hreg actor).trans hr)
        simp only [List.mem_singleton] at hmem
        simp only [hmem, Call.victim, hkey, ne_eq, Option.some.injEq]
        exact Ne.symm hid
      · cases hmem

/-- A handled `Stats`, as the actor sees it. -/
theorem view_stats {state : WatchdogState} (hst : s.state = some state)
    (hqueue : s.myself.receive.queue.filter (·.msg = .timeout id) = (s.view id).queued)
    (reply : RpcReplyPort) (origin : Option ℕ) :
    View.Step id (s.view id)
      ((s.finish (.msg (.stats reply)) origin
        (handle s.myself.receive s.gone state (.stats reply))).view id) := by
  have hreg := registration_of_state hst
  cases hsend : reply.send s.gone with
  | ok u =>
    refine view_other ?_ ?_ ?_ ?_ ?_ ?_ ?_ ?_
    · simp [Input.subject]
    all_goals simp only [handle, stats, hsend, hreg]
    · rfl
    · exact Nat.le_refl _
    · rfl
    · exact hqueue
    · simp [Call.victim]
  | error err =>
    -- the watchdog fails, and every registration with it
    have hview : (s.finish (.msg (.stats reply)) origin
        (handle s.myself.receive s.gone state (.stats reply))).view id =
        { s.view id with
          registration := none
          history :=
            { time := s.myself.now
              input := .msg (.stats reply)
              origin := origin
              nextHandle := s.myself.nextHandle
              found := none
              calls := [] } :: (s.view id).history } := by
      simp only [System.view] at hqueue ⊢
      rw [registration_finish]
      simp only [handle, stats, hsend, System.finish, hqueue, Input.subject, Option.bind_none,
        receive_now, receive_nextHandle, receive_timers]
    rw [hview]
    exact View.Step.fail _ _ rfl rfl rfl

/-- **A handled message, as the actor sees it.** -/
theorem view_handle (hc : Consistent s) {state : WatchdogState} {m : Envelope WatchdogMsg}
    (hst : s.state = some state) (hnext : s.myself.next = some m) :
    View.Step id (s.view id)
      ((s.finish (.msg m.msg) m.origin (handle s.myself.receive s.gone state m.msg)).view id) := by
  have hrest : m.msg ≠ .timeout id →
      s.myself.receive.queue.filter (·.msg = .timeout id) = (s.view id).queued :=
    queued_receive hnext
  cases hm : m.msg with
  | register actor d strategy =>
    have hqueue := hrest (by rw [hm]; exact WatchdogMsg.noConfusion)
    exact view_register hst hqueue actor d strategy m.origin
  | unregister actor =>
    have hqueue := hrest (by rw [hm]; exact WatchdogMsg.noConfusion)
    exact view_unregister hc hst rfl (by simp [Input.leaves]) rfl rfl rfl hqueue
  | ping actor reply =>
    have hqueue := hrest (by rw [hm]; exact WatchdogMsg.noConfusion)
    exact view_ping hc hst hqueue actor reply m.origin
  | timeout actor => exact view_timeout hc hst hnext actor hm
  | stats reply =>
    have hqueue := hrest (by rw [hm]; exact WatchdogMsg.noConfusion)
    exact view_stats hst hqueue reply m.origin

/-- A handled supervision event, as the actor sees it. -/
theorem view_supervise (hc : Consistent s) {state : WatchdogState}
    (hst : s.state = some state) (evt : SupervisionEvent) :
    View.Step id (s.view id)
      ((s.finish (.evt evt) none (handleSupervisorEvt s.myself evt state)).view id) := by
  have hreg := (registration_of_state hst id).symm
  have hleave : ∀ cell, evt.ended = some cell.getId →
      (handleSupervisorEvt s.myself evt state) =
        { myself := (state.unregister s.myself cell).1
          state := (state.unregister s.myself cell).2
          calls := []
          result := .ok () } →
      View.Step id (s.view id)
        ((s.finish (.evt evt) none (handleSupervisorEvt s.myself evt state)).view id) := by
    intro cell hended hout
    rw [hout]
    exact view_unregister hc hst hended (by simp [Input.leaves, hended]) rfl rfl rfl rfl
  have hother : evt.ended = none →
      View.Step id (s.view id)
        ((s.finish (.evt evt) none (handleSupervisorEvt s.myself evt state)).view id) := by
    intro hended
    refine view_other ?_ ?_ ?_ ?_ ?_ ?_ ?_ ?_
    · simp [Input.subject, hended]
    all_goals cases evt <;> cases hended
    all_goals simp [handleSupervisorEvt, hreg, System.view]
  cases evt with
  | actorTerminated cell reason => exact hleave cell rfl rfl
  | actorFailed cell what => exact hleave cell rfl rfl
  | _ => exact hother rfl

/-- A timer that posts, as the actor sees it. -/
theorem view_expire {t : Timer WatchdogMsg} (ht : t ∈ s.myself.timers)
    (hdue : t.deadline ≤ s.myself.now) :
    View.Step id (s.view id) (({ s with myself := s.myself.fire t ht } : System).view id) := by
  by_cases hmsg : t.msg = .timeout id
  · have hqueued : [(⟨t.msg, some t.handle⟩ : Envelope WatchdogMsg)].filter
        (·.msg = .timeout id) = [⟨t.msg, some t.handle⟩] := by
      simp [hmsg]
    have hview : ({ s with myself := s.myself.fire t ht } : System).view id =
        { s.view id with
          timers := (s.view id).timers.filter (·.handle ≠ t.handle)
          queued := (s.view id).queued ++ [⟨t.msg, some t.handle⟩] } := by
      simp only [System.view, System.registration, fire_now, fire_nextHandle, fire_timers,
        fire_queue, filter_filter_handle, List.filter_append, hqueued]
    rw [hview]
    refine View.Step.expire _ t ?_ hdue
    exact List.mem_filter.mpr ⟨ht, by simpa using hmsg⟩
  · -- the timer of another actor
    have htimers : (s.myself.timers.filter (·.handle ≠ t.handle)).filter
        (·.msg = .timeout id) = s.myself.timers.filter (·.msg = .timeout id) := by
      rw [← abort_timers]
      apply filter_abort_timers
      intro u hu hut
      rw [timer_eq_of_handle_eq hu ht hut]
      simpa using hmsg
    have hqueued : [(⟨t.msg, some t.handle⟩ : Envelope WatchdogMsg)].filter
        (·.msg = .timeout id) = [] := by
      simp [hmsg]
    have hview : ({ s with myself := s.myself.fire t ht } : System).view id =
        { s.view id with now := (s.view id).now + 0 } := by
      simp only [System.view, System.registration, fire_now, fire_nextHandle, fire_timers,
        fire_queue, htimers, List.filter_append, hqueued, List.append_nil, Nat.add_zero]
    rw [hview]
    exact View.Step.elapse _ 0

/-- **One step of the watchdog is one step of every actor's view.** -/
theorem view_step {s' : System} {e : Event} (hc : Consistent s) (h : s.step e = some s')
    (id : ActorId) : View.Step id (s.view id) (s'.view id) := by
  cases step_cases h with
  | quiet hstate hhistory d hmyself =>
    have hview : s'.view id = { s.view id with now := (s.view id).now + d } := by
      simp only [System.view, System.registration, hstate, hhistory, hmyself, elapse_now,
        elapse_nextHandle, elapse_timers, elapse_queue]
    rw [hview]
    exact View.Step.elapse _ d
  | post hstate hhistory msg hmsg hmyself =>
    -- no client sends a `Timeout`
    have hne : msg ≠ .timeout id := by
      rintro rfl
      cases hmsg
    have hqueued : [(⟨msg, none⟩ : Envelope WatchdogMsg)].filter (·.msg = .timeout id) = [] := by
      simp [hne]
    have hview : s'.view id = { s.view id with now := (s.view id).now + 0 } := by
      simp only [System.view, System.registration, hstate, hhistory, hmyself, post_now,
        post_nextHandle, post_timers, post_queue, List.filter_append,
        hqueued, List.append_nil, Nat.add_zero]
    rw [hview]
    exact View.Step.elapse _ 0
  | expire t ht hdue hs =>
    subst hs
    exact view_expire ht hdue
  | lapse k hstate hs =>
    subst hs
    have hview : ({ s with myself := s.myself.abort k } : System).view id =
        { s.view id with timers := (s.view id).timers.filter (·.handle ≠ k) } := by
      simp only [System.view, System.registration, abort_now, abort_nextHandle, abort_timers,
        abort_queue, filter_filter_handle]
    rw [hview]
    refine View.Step.lapse _ k ?_
    rw [System.view, System.registration, hstate, Option.bind_none]
  | handle state m hstate _ hnext _ hs =>
    subst hs
    exact view_handle hc hstate hnext
  | supervise state evt rest hstate hs =>
    subst hs
    exact view_supervise hc hstate evt

end Simulation

/-! ## Invariants of a view -/

/-- A predicate that every `View.Step` keeps holds of the actor's view in every reachable
state. -/
theorem view_invariant {P : View → Prop} {id : ActorId} {s : System} (h : Reachable s)
    (hspawn : P (spawn.view id)) (hstep : ∀ v v', P v → View.Step id v v' → P v') :
    P (s.view id) := by
  obtain ⟨es, hes⟩ := h
  refine (run_true_iff.mpr hes).invariant_of (Q := fun s => P (s.view id)) consistent_spawn
    (fun _ _ _ hc hs => hc.step hs) hspawn ?_
  intro s e s' hc hp _ hs
  exact hstep _ _ hp (view_step hc hs id)

namespace View

variable {id : ActorId} {v v' : View}

/-- A step records at most one input, at the current time. -/
theorem Step.history (h : Step id v v') :
    v'.history = v.history ∨ ∃ e, v'.history = e :: v.history ∧ e.time = v.now := by
  cases h with
  | elapse | expire | lapse => exact Or.inl rfl
  | other n e htime => exact Or.inr ⟨e, rfl, htime⟩
  | fail e htime => exact Or.inr ⟨e, rfl, htime⟩
  | register | ping | strayPing | leave | timeout => exact Or.inr ⟨_, rfl, rfl⟩

/-- An entry about another actor is no `Register` and no `Ping` of this one. -/
theorem quiet_of_subject_ne {e : Entry} (h : e.input.subject ≠ some id) :
    e.registers id = false ∧ e.pings id = false := by
  unfold Entry.registers Entry.pings
  cases hin : e.input with
  | evt event => exact ⟨rfl, rfl⟩
  | msg msg =>
    rw [hin] at h
    cases msg with
    | register actor d strategy =>
      have hne : actor.getId ≠ id := fun heq => h (congrArg some heq)
      exact ⟨by simpa using hne, rfl⟩
    | ping actor reply =>
      have hne : actor ≠ id := fun heq => h (congrArg some heq)
      exact ⟨rfl, by simpa using hne⟩
    | _ => exact ⟨rfl, rfl⟩

/-- **What a strike takes.** An actor is killed or stopped only when it is registered and one
of its `Timeout` messages is handled; its registration ends with it. -/
theorem Step.struck (h : Step id v v') {e : Entry} (he : v'.history = e :: v.history)
    (hstrike : e.strikes id = true) :
    ∃ m rest r, v.queued = m :: rest ∧ v.registration = some r ∧ v'.registration = none ∧
      e.time = v.now ∧ e.origin = m.origin ∧ e.found = some r := by
  cases h with
  | elapse | expire | lapse => exact absurd he.symm (List.cons_ne_self _ _)
  | other n e' _ _ hno =>
    rw [List.cons.injEq] at he
    rw [← he.1, hno] at hstrike
    cases hstrike
  | register | strayPing | leave =>
    rw [List.cons.injEq] at he
    rw [← he.1] at hstrike
    simp [Entry.strikes, record] at hstrike
  | ping r reply origin calls _ hcalls =>
    rw [List.cons.injEq] at he
    rw [← he.1] at hstrike
    simp only [Entry.strikes, record, List.any_eq_true, decide_eq_true_eq] at hstrike
    obtain ⟨c, hc, hvictim⟩ := hstrike
    rw [hcalls c hc] at hvictim
    cases hvictim
  | timeout m rest hqueued _ =>
    rw [List.cons.injEq] at he
    rw [← he.1] at hstrike ⊢
    cases hr : v.registration with
    | none => simp [Entry.strikes, record, hr] at hstrike
    | some r => exact ⟨m, rest, r, hqueued, rfl, rfl, rfl, rfl, hr⟩
  | fail e' _ _ hcalls =>
    rw [List.cons.injEq] at he
    rw [← he.1] at hstrike
    simp [Entry.strikes, hcalls] at hstrike

end View

end RactorActors.Watchdog
