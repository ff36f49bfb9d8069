import RactorActors.Watchdog.Accounting

/-!
# The functions that clients of the watchdog call

`register`, `unregister`, `ping` and `stats` of `watchdog/mod.rs`, and the one watchdog that they
share: the first of them to be called spawns it, and its reference stays in the `OnceCell` for
ever, also if the spawning failed. `register` and `unregister` cast their message and return.
`ping` and `stats` send a reply port with it and wait until the port is answered or dropped.

* `Clients`: the `OnceCell`, the calls that wait and those that have returned;
* `System.outcome`: what a call finds at its port. A port is dropped with the message it came in;
* `Sound`: a call that waits has its message in the mailbox of a watchdog that lives;
* `calls_return_once`: each call returns at most once, with what the watchdog did with its message;
* `no_call_waits_for_ever`: whatever has happened, the watchdog's own steps answer every call.
-/

namespace RactorActors.Watchdog

open LabelledRun TimedMailbox

/-- What a function of the module is called with. -/
inductive Request
  | register (actor : ActorCell) (duration : ℕ) (timeoutStrategy : TimeoutStrategy)
  | unregister (actor : ActorCell)
  | ping (actor : ActorId)
  | stats
deriving DecidableEq, Repr

/-- What a function of the module returns on success. -/
inductive Value
  | unit
  | stats (stats : WatchdogStats)
deriving DecidableEq, Repr

/-- The message that a request sends. A cast has no use for the port. -/
def Request.msg (reply : RpcReplyPort) : Request → WatchdogMsg
  | .register actor duration timeoutStrategy => .register actor duration timeoutStrategy
  | .unregister actor => .unregister actor
  | .ping actor => .ping actor reply
  | .stats => .stats reply

/-- The request waits for an answer. -/
def Request.isCall : Request → Bool
  | .register _ _ _ => false
  | .unregister _ => false
  | .ping _ => true
  | .stats => true

/-- The reply port in a message. -/
def WatchdogMsg.port : WatchdogMsg → Option RpcReplyPort
  | .ping _ reply => some reply
  | .stats reply => some reply
  | _ => none

/-- What a call answers on a reply port. -/
def Call.answer (reply : RpcReplyPort) : Call → Option Value
  | .pong reply' => if reply' = reply then some .unit else none
  | .stats reply' st => if reply' = reply then some (.stats st) else none
  | _ => none

/-- What the caller that waits at a port has received, if it has received anything. The port is
dropped with the message that it came in: by the handler that does not answer, or with the queue of
a watchdog that has failed. -/
def System.outcome (s : System) (reply : RpcReplyPort) : Option (Except MessagingErr Value) :=
  match (callsOf s.history).findSome? (Call.answer reply) with
  | some value => some (.ok value)
  | none =>
    if s.state.isNone || s.myself.queue.all (·.msg.port ≠ some reply) then some (.error .sendErr)
    else none

/-- A call of a client. -/
structure ClientCall where
  /-- The call's reply port. -/
  port : RpcReplyPort
  request : Request
deriving DecidableEq, Repr

/-- The module `watchdog` with the calls of its functions. -/
structure Clients where
  /-- `WATCHDOG` -/
  watchdog : Option (Except ActorProcessingErr System)
  /-- How often `spawn` was run. -/
  spawned : ℕ
  /-- The port that the next call gets. -/
  next : ℕ
  waiting : List ClientCall
  /-- The calls that have returned, newest first, with what they returned. -/
  returned : List (ClientCall × Except MessagingErr Value)

/-- The events of a run. -/
inductive ClientEvent
  /-- A client calls a function. `spawning` is what `Actor::spawn` gives if it comes to that. -/
  | call (request : Request) (spawning : Except ActorProcessingErr Unit)
  /-- The watchdog, its timers or the actors around it take a step. -/
  | own (e : Event)
  /-- A caller stops waiting. -/
  | abandon (reply : RpcReplyPort)

/-- The watchdog handles what waits for it. -/
def ClientEvent.handles : ClientEvent → Bool
  | .own .handle => true
  | .own .supervise => true
  | _ => false

/-- The event is no client's. -/
def Event.isOwn : Event → Bool
  | .post _ => false
  | .dropPort _ => false
  | _ => true

namespace Clients

/-- The module before its first use. -/
def init : Clients where
  watchdog := none
  spawned := 0
  next := 0
  waiting := []
  returned := []

/-- `spawn` -/
def spawn (spawning : Except ActorProcessingErr Unit) : Except ActorProcessingErr System :=
  match spawning with
  | .ok () => .ok Watchdog.spawn
  | .error err => .error err

/-- `WATCHDOG.get_or_init(spawn)` -/
def getOrInit (c : Clients) (spawning : Except ActorProcessingErr Unit) :
    Clients × Except ActorProcessingErr System :=
  match c.watchdog with
  | some watchdog => (c, watchdog)
  | none => ({ c with watchdog := some (spawn spawning), spawned := c.spawned + 1 }, spawn spawning)

/-- A call returns. -/
def returnWith (c : Clients) (call : ClientCall) (result : Except MessagingErr Value) : Clients :=
  { c with returned := (call, result) :: c.returned }

/-- `cast` -/
def cast (c : Clients) (call : ClientCall) (spawning : Except ActorProcessingErr Unit) : Clients :=
  match c.getOrInit spawning with
  | (c, .ok watchdog) =>
    match watchdog.cast (call.request.msg call.port) with
    | .ok watchdog => { c with watchdog := some (.ok watchdog) }.returnWith call (.ok .unit)
    | .error _ => c.returnWith call (.error .sendErr)
  | (c, .error _) => c.returnWith call (.error .sendErr)

/-- `call`, up to where it waits for the answer. -/
def call (c : Clients) (call : ClientCall) (spawning : Except ActorProcessingErr Unit) : Clients :=
  match c.getOrInit spawning with
  | (c, .ok watchdog) =>
    match watchdog.cast (call.request.msg call.port) with
    | .ok watchdog =>
      { c with watchdog := some (.ok watchdog), waiting := c.waiting ++ [call] }
    | .error _ => c.returnWith call (.error .sendErr)
  | (c, .error _) => c.returnWith call (.error .sendErr)

/-- The watchdog has got to `watchdog`: the calls that have an outcome there return with it. -/
def settle (c : Clients) (watchdog : System) : Clients :=
  { c with
    watchdog := some (.ok watchdog)
    waiting := c.waiting.filter fun call => (watchdog.outcome call.port).isNone
    returned := (c.waiting.filterMap fun call =>
      (watchdog.outcome call.port).map fun result => (call, result)) ++ c.returned }

/-- One step of the run. -/
def step (c : Clients) : ClientEvent → Option Clients
  | .call request spawning =>
    let call : ClientCall := ⟨⟨c.next⟩, request⟩
    let c := { c with next := c.next + 1 }
    if request.isCall then some (c.call call spawning) else some (c.cast call spawning)
  | .own e =>
    match c.watchdog with
    | some (.ok watchdog) => if e.isOwn then (watchdog.step e).map c.settle else none
    | _ => none
  | .abandon reply =>
    match c.watchdog with
    | some (.ok watchdog) =>
      if c.waiting.any (·.port = reply) then
        (watchdog.step (.dropPort reply)).map fun watchdog =>
          { c with
            watchdog := some (.ok watchdog)
            waiting := c.waiting.filter (·.port ≠ reply) }
      else none
    | _ => none

end Clients

/-! ## What the watchdog does with a port -/

/-- **What a handler answers at a port.** -/
theorem answer_handle (myself : TimedMailbox WatchdogMsg) (gone : List RpcReplyPort)
    (state : WatchdogState) (msg : WatchdogMsg) (reply : RpcReplyPort) :
    (handle myself gone state msg).calls.findSome? (Call.answer reply) =
      match msg with
      | .ping actor reply' =>
        if reply' = reply ∧ (state.subjects.lookup actor).isSome ∧ reply' ∉ gone then some .unit
        else none
      | .stats reply' =>
        if reply' = reply ∧ reply' ∉ gone then some (.stats { kills := state.kills }) else none
      | _ => none := by
  cases msg with
  | register | unregister => rfl
  | timeout actor =>
    simp only [handle, timeout]
    repeat' split
    all_goals rfl
  | ping actor reply' =>
    simp only [handle, ping, RpcReplyPort.send]
    cases hfound : state.subjects.lookup actor with
    | none => simp
    | some r =>
      by_cases hgone : reply' ∈ gone
      · simp [hgone]
      · by_cases hsame : reply' = reply
        · subst hsame
          simp [hgone, Call.answer]
        · simp [hgone, hsame, Call.answer]
  | stats reply' =>
    simp only [handle, stats, RpcReplyPort.send]
    by_cases hgone : reply' ∈ gone
    · simp [hgone]
    · by_cases hsame : reply' = reply
      · subst hsame
        simp [hgone, Call.answer]
      · simp [hgone, hsame, Call.answer]

/-- Handlers leave the queue, and arm timers for `Timeout` only. -/
theorem mailbox_handle (myself : TimedMailbox WatchdogMsg) (gone : List RpcReplyPort)
    (state : WatchdogState) (msg : WatchdogMsg) :
    (handle myself gone state msg).myself.queue = myself.queue ∧
      ∀ t ∈ (handle myself gone state msg).myself.timers,
        t ∈ myself.timers ∨ t.msg.port = none := by
  have harmed {timers : List (Timer WatchdogMsg)} {h deadline : ℕ} {actor : ActorId}
      (hold : ∀ t ∈ timers, t ∈ myself.timers) :
      ∀ t ∈ timers ++ [⟨h, deadline, .timeout actor⟩], t ∈ myself.timers ∨ t.msg.port = none := by
    intro t ht
    rcases List.mem_append.mp ht with ht | ht
    · exact Or.inl (hold t ht)
    · rw [List.mem_singleton.mp ht]
      exact Or.inr rfl
  cases msg with
  | register actor duration strategy => exact ⟨rfl, harmed fun _ ht => ht⟩
  | unregister actor =>
    simp only [handle, unregister, unregister_myself]
    split
    · exact ⟨rfl, fun t ht => Or.inl (List.mem_of_mem_filter ht)⟩
    · exact ⟨rfl, fun t ht => Or.inl ht⟩
  | ping actor reply =>
    simp only [handle, ping]
    split
    · exact ⟨rfl, harmed fun t ht => List.mem_of_mem_filter ht⟩
    · exact ⟨rfl, fun t ht => Or.inl ht⟩
  | timeout actor =>
    simp only [handle, timeout]
    repeat' split
    all_goals exact ⟨rfl, fun t ht => Or.inl ht⟩
  | stats reply =>
    simp only [handle, stats]
    split <;> exact ⟨rfl, fun t ht => Or.inl ht⟩

/-- Supervision events leave the queue, and arm no timer. -/
theorem mailbox_handleSupervisorEvt (myself : TimedMailbox WatchdogMsg) (evt : SupervisionEvent)
    (state : WatchdogState) :
    (handleSupervisorEvt myself evt state).myself.queue = myself.queue ∧
      ∀ t ∈ (handleSupervisorEvt myself evt state).myself.timers, t ∈ myself.timers := by
  cases evt with
  | actorStarted | processGroupChanged | pidLifecycleEvent => exact ⟨rfl, fun _ ht => ht⟩
  | actorTerminated cell | actorFailed cell =>
    simp only [handleSupervisorEvt, WatchdogState.unregister]
    split
    · exact ⟨rfl, fun t ht => List.mem_of_mem_filter ht⟩
    · exact ⟨rfl, fun _ ht => ht⟩

/-- What a step of the watchdog's own is to its clients. -/
inductive OwnCase (w w' : System) : Prop
  /-- No message is handled. Timers may have posted. -/
  | quiet (hstate : w'.state.isSome = w.state.isSome)
      (hcalls : callsOf w'.history = callsOf w.history)
      (hhistory : ∃ newer, w'.history = newer ++ w.history)
      (hqueue : ∃ posted, w'.myself.queue = w.myself.queue ++ posted ∧
        ∀ m ∈ posted, m.msg.port = none)
  /-- A message is handled. -/
  | handled (state : WatchdogState) (m : Envelope WatchdogMsg) (hstate : w.state = some state)
      (hqueue : w.myself.queue = m :: w'.myself.queue)
      (hs : w' = w.finish (.msg m.msg) m.origin (handle w.myself.receive w.gone state m.msg))

/-- A step that changes neither the state nor the mailbox. -/
theorem OwnCase.of_same {w w' : System} (hstate : w'.state = w.state)
    (hhistory : w'.history = w.history) (hqueue : w'.myself.queue = w.myself.queue) :
    OwnCase w w' :=
  .quiet (by rw [hstate]) (by rw [hhistory]) ⟨[], hhistory⟩
    ⟨[], by rw [hqueue, List.append_nil], fun _ hm => absurd hm List.not_mem_nil⟩

/-- **What a step of the watchdog's own is to its clients.** The ports of callers that have gone
are no business of the watchdog, and its timers post no ports. -/
theorem own_cases {w w' : System} {e : Event} (h : w.step e = some w') (hown : e.isOwn = true)
    (htimers : ∀ t ∈ w.myself.timers, t.msg.port = none) :
    w'.gone = w.gone ∧ (∀ t ∈ w'.myself.timers, t.msg.port = none) ∧ OwnCase w w' := by
  -- an event that is delivered waits, and that is all
  have htold {t : System} (hsame : t.gone = w.gone ∧ t.state = w.state ∧ t.history = w.history ∧
      t.myself = w.myself) (evt : SupervisionEvent) : (t.tell evt).gone = w.gone ∧
        (∀ t' ∈ (t.tell evt).myself.timers, t'.msg.port = none) ∧ OwnCase w (t.tell evt) := by
    obtain ⟨hgone, hstate, hhistory, hmyself⟩ := hsame
    unfold System.tell
    split <;> exact ⟨hgone, hmyself ▸ htimers, .of_same hstate hhistory (by rw [hmyself])⟩
  cases e with
  | post | dropPort => cases hown
  | elapse | link =>
    cases h
    exact ⟨rfl, htimers, .of_same rfl rfl rfl⟩
  | handle =>
    obtain ⟨state, m, hstate, hnext, rfl⟩ := step_handle h
    obtain ⟨hqueue, harmed⟩ := mailbox_handle w.myself.receive w.gone state m.msg
    refine ⟨rfl, fun t ht => (harmed t ht).elim (htimers t) fun hnone => hnone,
      .handled state m hstate ?_ rfl⟩
    have hnext : w.myself.next = some m := by
      unfold System.nextMsg at hnext
      split at hnext
      · exact hnext
      · cases hnext
    simp only [System.finish, hqueue]
    exact next_eq_some hnext
  | supervise =>
    simp only [System.step] at h
    split at h
    · rename_i state evt rest hstate _
      rw [Option.some.injEq] at h
      subst h
      obtain ⟨hqueue, hfewer⟩ := mailbox_handleSupervisorEvt w.myself evt state
      refine ⟨rfl, fun t ht => htimers t (hfewer t ht),
        .quiet ?_ ?_ ⟨[_], rfl⟩ ⟨[], ?_, fun _ hm => absurd hm List.not_mem_nil⟩⟩
      · simp only [System.finish, handleSupervisorEvt_ok, hstate, Option.isSome_some]
      · rw [callsOf, callsOf]
        simp only [System.finish, List.flatMap_cons, handleSupervisorEvt_calls, List.nil_append]
      · simp only [System.finish, hqueue, List.append_nil]
    · cases h
  | expire handle =>
    simp only [System.step] at h
    split at h
    · rw [Option.map_eq_some_iff] at h
      obtain ⟨box, hbox, rfl⟩ := h
      obtain ⟨t, ht, -, -, rfl⟩ := expire_eq_some hbox
      refine ⟨rfl, fun t' ht' => htimers t' (List.mem_of_mem_filter ht'),
        .quiet rfl rfl ⟨[], rfl⟩ ⟨[⟨t.msg, some t.handle⟩], rfl, fun m hm => ?_⟩⟩
      rw [List.mem_singleton.mp hm]
      exact htimers t ht
    · cases h
      exact ⟨rfl, fun t' ht' => htimers t' (List.mem_of_mem_filter ht'), .of_same rfl rfl rfl⟩
  | ends evt =>
    simp only [System.step] at h
    repeat' split at h
    all_goals cases h
    · exact htold (by exact ⟨rfl, rfl, rfl, rfl⟩) evt
    · exact ⟨rfl, htimers, .of_same rfl rfl rfl⟩
  | notify evt =>
    simp only [System.step] at h
    repeat' split at h
    all_goals cases h
    all_goals exact htold ⟨rfl, rfl, rfl, rfl⟩ _

/-! ## A call that waits -/

/-- What a call has returned is what the watchdog `w` did with its message: a ping succeeds if the
actor was registered when it was handled, `stats` reports the kills made before it was handled, and
nothing else fails a call than a watchdog that has failed itself. -/
def Justified (w : System) (call : ClientCall) (result : Except MessagingErr Value) : Prop :=
  match call.request with
  | .ping actor =>
    (result = .ok .unit ∧
      ∃ e ∈ w.history, e.input = .msg (.ping actor call.port) ∧ e.found ≠ none) ∨
    (result = .error .sendErr ∧
      ((∃ e ∈ w.history, e.input = .msg (.ping actor call.port) ∧ e.found = none) ∨
        w.state = none))
  | .stats =>
    (∃ newer e older, w.history = newer ++ e :: older ∧ e.input = .msg (.stats call.port) ∧
      result = .ok (.stats { kills := (callsOf older).countP Call.isKill })) ∨
    (result = .error .sendErr ∧ w.state = none)
  | _ => result = .ok .unit ∨ (result = .error .sendErr ∧ w.state = none)

/-- What has been handled stays so, and a failed watchdog stays failed. -/
theorem Justified.mono {w w' : System} {call : ClientCall} {result : Except MessagingErr Value}
    (h : Justified w call result) (hhistory : ∃ newer, w'.history = newer ++ w.history)
    (hstate : w.state = none → w'.state = none) : Justified w' call result := by
  obtain ⟨newest, hhistory⟩ := hhistory
  have hmem {e : Entry} (he : e ∈ w.history) : e ∈ w'.history :=
    hhistory ▸ List.mem_append_right newest he
  unfold Justified at h ⊢
  split
  · rename_i actor hrequest
    simp only [hrequest] at h
    rcases h with ⟨hok, e, he, hin⟩ | ⟨herr, ⟨e, he, hin⟩ | hnone⟩
    · exact Or.inl ⟨hok, e, hmem he, hin⟩
    · exact Or.inr ⟨herr, Or.inl ⟨e, hmem he, hin⟩⟩
    · exact Or.inr ⟨herr, Or.inr (hstate hnone)⟩
  · rename_i hrequest
    simp only [hrequest] at h
    rcases h with ⟨newer, e, older, hsplit, hin⟩ | ⟨herr, hnone⟩
    · exact Or.inl ⟨newest ++ newer, e, older, by rw [hhistory, hsplit, List.append_assoc], hin⟩
    · exact Or.inr ⟨herr, hstate hnone⟩
  · rename_i hping hstats
    split at h
    · rename_i actor hrequest
      exact absurd hrequest (hping actor)
    · rename_i hrequest
      exact absurd hrequest hstats
    · exact h.imp_right fun ⟨herr, hnone⟩ => ⟨herr, hstate hnone⟩

/-- Any call may fail once the watchdog has. -/
theorem Justified.of_none {w : System} (call : ClientCall) (hnone : w.state = none) :
    Justified w call (.error .sendErr) := by
  unfold Justified
  split
  · exact Or.inr ⟨rfl, Or.inr hnone⟩
  · exact Or.inr ⟨rfl, hnone⟩
  · exact Or.inr ⟨rfl, hnone⟩

/-- The call waits: the watchdog lives, and its message is in the mailbox. -/
structure Waits (w : System) (call : ClientCall) : Prop where
  isCall : call.request.isCall = true
  present : call.port ∉ w.gone
  alive : w.state.isSome = true
  queued : ∃ m ∈ w.myself.queue, m.msg = call.request.msg call.port
  unanswered : (callsOf w.history).findSome? (Call.answer call.port) = none

/-- The message of a call carries its port. -/
theorem port_msg (call : ClientCall) (h : call.request.isCall = true) :
    (call.request.msg call.port).port = some call.port := by
  cases hrequest : call.request with
  | ping | stats => rfl
  | register | unregister =>
    rw [hrequest] at h
    cases h

/-- Nothing has come to a call that waits. -/
theorem Waits.outcome {w : System} {call : ClientCall} (h : Waits w call) :
    w.outcome call.port = none := by
  obtain ⟨m, hm, hmsg⟩ := h.queued
  have hstate : w.state.isNone = false := by simp [Option.isNone_eq_false_iff, h.alive]
  have hqueue : w.myself.queue.all (·.msg.port ≠ some call.port) = false := by
    rw [List.all_eq_false]
    exact ⟨m, hm, by simp [hmsg, port_msg call h.isCall]⟩
  unfold System.outcome
  rw [h.unanswered, hstate, hqueue]
  rfl

/-- The outcome of an answered port. -/
theorem outcome_of_answer {w : System} {reply : RpcReplyPort} {value : Value}
    (h : (callsOf w.history).findSome? (Call.answer reply) = some value) :
    w.outcome reply = some (.ok value) := by
  unfold System.outcome
  rw [h]

/-- The outcome of a port that was dropped. -/
theorem outcome_of_drop {w : System} {reply : RpcReplyPort}
    (h : (callsOf w.history).findSome? (Call.answer reply) = none)
    (hdrop : w.state = none ∨ ∀ m ∈ w.myself.queue, m.msg.port ≠ some reply) :
    w.outcome reply = some (.error .sendErr) := by
  unfold System.outcome
  rw [h]
  refine if_pos ?_
  rw [Bool.or_eq_true, Option.isNone_iff_eq_none, List.all_eq_true]
  exact hdrop.imp_right fun hall m hm => by simpa using hall m hm

/-- The handled message of a call, and no other in the mailbox, has its port. -/
theorem Waits.msg_eq {w : System} {call : ClientCall} (h : Waits w call)
    {m : Envelope WatchdogMsg} {rest : List (Envelope WatchdogMsg)}
    (hqueue : w.myself.queue = m :: rest)
    (hnodup : (w.myself.queue.filterMap (·.msg.port)).Nodup)
    (hport : m.msg.port = some call.port) :
    m.msg = call.request.msg call.port ∧ ∀ m' ∈ rest, m'.msg.port ≠ some call.port := by
  have hrest : ∀ m' ∈ rest, m'.msg.port ≠ some call.port := by
    intro m' hm' hport'
    rw [hqueue, List.filterMap_cons, hport, List.nodup_cons] at hnodup
    exact hnodup.1 (List.mem_filterMap.mpr ⟨m', hm', hport'⟩)
  refine ⟨?_, hrest⟩
  obtain ⟨m₀, hm₀, hmsg⟩ := h.queued
  rw [hqueue, List.mem_cons] at hm₀
  rcases hm₀ with rfl | hlater
  · exact hmsg
  · exact absurd (hmsg ▸ port_msg call h.isCall) (hrest m₀ hlater)

/-- **The message of a call is handled.** The port is answered, or dropped because a ping found no
registration. -/
theorem Waits.handled {w w' : System} {call : ClientCall} (h : Waits w call)
    (hreach : Reachable w) {state : WatchdogState} (hstate : w.state = some state)
    {m : Envelope WatchdogMsg} (hmsg : m.msg = call.request.msg call.port)
    (hrest : ∀ m' ∈ w'.myself.queue, m'.msg.port ≠ some call.port)
    (hs : w' = w.finish (.msg m.msg) m.origin (handle w.myself.receive w.gone state m.msg))
    (hanswer : (callsOf w'.history).findSome? (Call.answer call.port) =
      match m.msg with
      | .ping actor reply' =>
        if reply' = call.port ∧ (state.subjects.lookup actor).isSome ∧ reply' ∉ w.gone then
          some .unit
        else none
      | .stats reply' =>
        if reply' = call.port ∧ reply' ∉ w.gone then some (.stats { kills := state.kills })
        else none
      | _ => none) :
    ∃ result, w'.outcome call.port = some result ∧ Justified w' call result := by
  have hpresent := h.present
  have hcall := h.isCall
  -- the entry that records the handling
  obtain ⟨e, hhistory, hin, hfound⟩ : ∃ e : Entry, w'.history = e :: w.history ∧
      e.input = .msg m.msg ∧ e.found = (Input.msg m.msg).subject.bind w.registration := by
    rw [hs]
    exact ⟨_, rfl, rfl, rfl⟩
  have hmem : e ∈ w'.history := hhistory ▸ List.mem_cons_self
  unfold Justified
  cases hrequest : call.request with
  | register | unregister =>
    rw [hrequest] at hcall
    cases hcall
  | ping actor =>
    rw [hmsg, hrequest] at hanswer hin hfound
    simp only [Request.msg, Input.subject, Option.bind_some, registration_of_state hstate] at hfound
    cases hlookup : state.subjects.lookup actor with
    | none =>
      have hnone : (callsOf w'.history).findSome? (Call.answer call.port) = none := by
        simpa [Request.msg, hlookup] using hanswer
      exact ⟨_, outcome_of_drop hnone (Or.inr hrest),
        Or.inr ⟨rfl, Or.inl ⟨e, hmem, hin, hfound.trans hlookup⟩⟩⟩
    | some r =>
      have hsome : (callsOf w'.history).findSome? (Call.answer call.port) = some .unit := by
        simpa [Request.msg, hlookup, hpresent] using hanswer
      refine ⟨_, outcome_of_answer hsome, Or.inl ⟨rfl, e, hmem, hin, ?_⟩⟩
      rw [hfound, hlookup]
      exact Option.some_ne_none r
  | stats =>
    rw [hmsg, hrequest] at hanswer hin
    have hsome : (callsOf w'.history).findSome? (Call.answer call.port) =
        some (.stats { kills := state.kills }) := by
      simpa [Request.msg, hpresent] using hanswer
    refine ⟨_, outcome_of_answer hsome, Or.inl ⟨[], e, w.history, hhistory, hin, ?_⟩⟩
    rw [(kept_of_reachable hreach).kills state hstate]

/-- **A step of the watchdog's own, to a call that waits**: it waits on, or it has an outcome, which
is what the watchdog did with its message. -/
theorem Waits.step {w w' : System} {call : ClientCall} (h : Waits w call)
    (hreach : Reachable w) (hnodup : (w.myself.queue.filterMap (·.msg.port)).Nodup)
    (hgone : w'.gone = w.gone) (hcase : OwnCase w w') :
    Waits w' call ∨ ∃ result, w'.outcome call.port = some result ∧ Justified w' call result := by
  obtain ⟨m₀, hm₀, hmsg₀⟩ := h.queued
  cases hcase with
  | quiet hstate hcalls hhistory hqueue =>
    obtain ⟨posted, hqueue, -⟩ := hqueue
    refine Or.inl ⟨h.isCall, hgone ▸ h.present, hstate.trans h.alive, ⟨m₀, ?_, hmsg₀⟩, ?_⟩
    · rw [hqueue]
      exact List.mem_append_left posted hm₀
    · rw [hcalls, h.unanswered]
  | handled state m hstate hqueue hs =>
    have hanswer := answer_handle w.myself.receive w.gone state m.msg call.port
    have hcalls : (callsOf w'.history).findSome? (Call.answer call.port) =
        (handle w.myself.receive w.gone state m.msg).calls.findSome? (Call.answer call.port) := by
      rw [hs, callsOf]
      simp only [System.finish, List.flatMap_cons, List.findSome?_append]
      rw [← callsOf, h.unanswered, Option.or_none]
    by_cases hport : m.msg.port = some call.port
    · -- the call's own message is handled, so its port is answered or dropped
      obtain ⟨hmsg, hrest⟩ := h.msg_eq hqueue hnodup hport
      exact Or.inr (h.handled hreach hstate hmsg hrest hs (hcalls.trans hanswer))
    · have hnone : (callsOf w'.history).findSome? (Call.answer call.port) = none := by
        rw [hcalls, hanswer]
        cases hm : m.msg with
        | ping actor reply | stats reply =>
          have hne : reply ≠ call.port := fun heq => hport (by rw [hm, ← heq]; rfl)
          simp [hne]
        | _ => rfl
      cases hstate' : w'.state with
      | none => exact Or.inr ⟨_, outcome_of_drop hnone (Or.inl hstate'), .of_none call hstate'⟩
      | some state' =>
        refine Or.inl ⟨h.isCall, hgone ▸ h.present, by rw [hstate']; rfl, ⟨m₀, ?_, hmsg₀⟩, hnone⟩
        rw [hqueue, List.mem_cons] at hm₀
        refine hm₀.resolve_left ?_
        rintro rfl
        exact hport (hmsg₀ ▸ port_msg call h.isCall)

/-! ## The watchdog with its clients -/

/-- A step leads from a state that a run reaches to one. -/
theorem reachable_of_step {w w' : System} {e : Event} (hreach : Reachable w)
    (h : w.step e = some w') : Reachable w' := by
  obtain ⟨es, hes⟩ := hreach
  rw [run] at hes
  exact ⟨es ++ [e], by rw [run, exec_append, hes, Option.bind_some, exec_cons, h]; rfl⟩

/-- The watchdog serves its clients: `n` calls have been made, `waiting` of them wait, and
`returned` have come back. -/
structure Serves (w : System) (n : ℕ) (waiting : List ClientCall)
    (returned : List (ClientCall × Except MessagingErr Value)) : Prop where
  reachable : Reachable w
  /-- Timers post no ports. -/
  portless : ∀ t ∈ w.myself.timers, t.msg.port = none
  /-- No two messages in the mailbox share a port. -/
  nodup : (w.myself.queue.filterMap (·.msg.port)).Nodup
  queue_lt : ∀ m ∈ w.myself.queue, ∀ reply, m.msg.port = some reply → reply.call < n
  answers_lt : ∀ reply : RpcReplyPort, n ≤ reply.call →
    (callsOf w.history).findSome? (Call.answer reply) = none
  gone_lt : ∀ reply ∈ w.gone, reply.call < n
  waits : ∀ call ∈ waiting, Waits w call
  justified : ∀ p ∈ returned, Justified w p.1 p.2

namespace Serves

variable {w w' : System} {n : ℕ} {waiting : List ClientCall}
  {returned : List (ClientCall × Except MessagingErr Value)}

/-- A watchdog just spawned serves nobody yet. -/
theorem spawn : Serves Watchdog.spawn 0 [] [] where
  reachable := ⟨[], rfl⟩
  portless := nofun
  nodup := List.nodup_nil
  queue_lt := nofun
  answers_lt _ _ := rfl
  gone_lt := nofun
  waits := nofun
  justified := nofun

/-- A call gets its port. -/
theorem succ (h : Serves w n waiting returned) : Serves w (n + 1) waiting returned where
  reachable := h.reachable
  portless := h.portless
  nodup := h.nodup
  queue_lt m hm reply hport := Nat.lt_succ_of_lt (h.queue_lt m hm reply hport)
  answers_lt reply hle := h.answers_lt reply (Nat.le_of_succ_le hle)
  gone_lt reply hreply := Nat.lt_succ_of_lt (h.gone_lt reply hreply)
  waits := h.waits
  justified := h.justified

/-- A call returns at once. -/
theorem returns (h : Serves w n waiting returned) {call : ClientCall}
    {result : Except MessagingErr Value} (hresult : Justified w call result) :
    Serves w n waiting ((call, result) :: returned) :=
  { h with justified := List.forall_mem_cons.mpr ⟨hresult, h.justified⟩ }

/-- **A message is cast.** It has the port of the call that casts it, or none. -/
theorem cast (h : Serves w n waiting returned) (msg : WatchdogMsg) (hclient : fromClient msg = true)
    (hport : ∀ reply, msg.port = some reply → reply = ⟨n⟩) (hcast : w.cast msg = .ok w') :
    Serves w' (n + 1) waiting returned := by
  have hstep : w.step (.post msg) = some w' := by simp [System.step, hclient, hcast]
  have hw : w' = { w with myself := w.myself.post msg } := by
    unfold System.cast at hcast
    split at hcast
    · rw [Except.ok.injEq] at hcast
      exact hcast.symm
    · cases hcast
  have hqueue : w'.myself.queue = w.myself.queue ++ [⟨msg, none⟩] := by rw [hw]; rfl
  refine ⟨reachable_of_step h.reachable hstep, ?_, ?_, ?_, ?_, ?_, ?_, ?_⟩
  · rw [hw]
    exact h.portless
  · -- the port of the call is above all others
    rw [hqueue, List.filterMap_append, List.nodup_append]
    refine ⟨h.nodup, ?_, ?_⟩
    · cases hmsg : msg.port <;> simp [hmsg]
    · intro reply hreply reply' hreply'
      obtain ⟨m, hm, hm'⟩ := List.mem_filterMap.mp hreply
      have hlt := h.queue_lt m hm reply hm'
      simp only [List.filterMap_cons, List.filterMap_nil] at hreply'
      split at hreply'
      · cases hreply'
      · rename_i hnew
        rw [List.mem_singleton.mp hreply', hport _ hnew]
        rintro rfl
        exact Nat.lt_irrefl n hlt
  · rw [hqueue]
    intro m hm reply hreply
    rcases List.mem_append.mp hm with hm | hm
    · exact Nat.lt_succ_of_lt (h.queue_lt m hm reply hreply)
    · rw [List.mem_singleton.mp hm] at hreply
      rw [hport reply hreply]
      exact Nat.lt_succ_self n
  · rw [hw]
    exact h.succ.answers_lt
  · rw [hw]
    exact h.succ.gone_lt
  · intro call hcall
    obtain ⟨m, hm, hmsg⟩ := (h.waits call hcall).queued
    have hold := h.waits call hcall
    refine ⟨hold.isCall, by rw [hw]; exact hold.present, by rw [hw]; exact hold.alive,
      ⟨m, ?_, hmsg⟩, by rw [hw]; exact hold.unanswered⟩
    rw [hqueue]
    exact List.mem_append_left _ hm
  · intro p hp
    exact (h.justified p hp).mono ⟨[], by rw [hw]; rfl⟩ (state_eq_none_of_step hstep)

/-- The call whose message was cast waits. -/
theorem waits_of_cast (h : Serves w n waiting returned) {request : Request}
    (hcall : request.isCall = true) (hcast : w.cast (request.msg ⟨n⟩) = .ok w') :
    Waits w' ⟨⟨n⟩, request⟩ := by
  unfold System.cast at hcast
  split at hcast
  · rename_i state hstate
    rw [Except.ok.injEq] at hcast
    subst hcast
    refine ⟨hcall, fun hgone => Nat.lt_irrefl n (h.gone_lt _ hgone), ?_, ?_, ?_⟩
    · simp only [hstate, Option.isSome_some]
    · exact ⟨⟨request.msg ⟨n⟩, none⟩, List.mem_append_right _ (List.mem_singleton_self _), rfl⟩
    · exact h.answers_lt ⟨n⟩ (Nat.le_refl n)
  · cases hcast

/-- One more call waits. -/
theorem wait (h : Serves w n waiting returned) {call : ClientCall} (hcall : Waits w call) :
    Serves w n (waiting ++ [call]) returned :=
  { h with
    waits := by
      intro call' hcall'
      rcases List.mem_append.mp hcall' with hold | hnew
      · exact h.waits call' hold
      · exact List.mem_singleton.mp hnew ▸ hcall }

/-- **A step of the watchdog's own.** The calls that have an outcome return with it. -/
theorem own (h : Serves w n waiting returned) {e : Event} (hstep : w.step e = some w')
    (hown : e.isOwn = true) :
    Serves w' n (waiting.filter fun call => (w'.outcome call.port).isNone)
      ((waiting.filterMap fun call => (w'.outcome call.port).map fun result => (call, result)) ++
        returned) := by
  obtain ⟨hgone, hportless, hcase⟩ := own_cases hstep hown h.portless
  have hreach := reachable_of_step h.reachable hstep
  have hcalls (call : ClientCall) (hcall : call ∈ waiting) :=
    (h.waits call hcall).step h.reachable h.nodup hgone hcase
  obtain ⟨hhistory, hnodup, hqueue, hanswers⟩ : (∃ newer, w'.history = newer ++ w.history) ∧
      (w'.myself.queue.filterMap (·.msg.port)).Nodup ∧
      (∀ m ∈ w'.myself.queue, ∀ reply, m.msg.port = some reply → reply.call < n) ∧
      ∀ reply : RpcReplyPort, n ≤ reply.call →
        (callsOf w'.history).findSome? (Call.answer reply) = none := by
    cases hcase with
    | quiet hstate hcalls hhistory hqueue =>
      obtain ⟨posted, hqueue, hnone⟩ := hqueue
      refine ⟨hhistory, ?_, ?_, ?_⟩
      · have hnil : posted.filterMap (·.msg.port) = [] := List.filterMap_eq_nil_iff.mpr hnone
        rw [hqueue, List.filterMap_append, hnil, List.append_nil]
        exact h.nodup
      · rw [hqueue]
        intro m hm reply hreply
        rcases List.mem_append.mp hm with hm | hm
        · exact h.queue_lt m hm reply hreply
        · rw [hnone m hm] at hreply
          cases hreply
      · rw [hcalls]
        exact h.answers_lt
    | handled state m hstate hqueue hs =>
      have hmem {m' : Envelope WatchdogMsg} (hm' : m' ∈ w'.myself.queue) :
          m' ∈ w.myself.queue := hqueue ▸ List.mem_cons_of_mem m hm'
      refine ⟨⟨[_], by rw [hs]; rfl⟩, ?_, fun m' hm' => h.queue_lt m' (hmem hm'), ?_⟩
      · have hold := h.nodup
        rw [hqueue] at hold
        exact hold.sublist ((List.sublist_cons_self m _).filterMap _)
      · intro reply hle
        rw [hs, callsOf]
        simp only [System.finish, List.flatMap_cons, List.findSome?_append]
        rw [← callsOf, h.answers_lt reply hle, Option.or_none, answer_handle]
        -- the handled message had a smaller port
        have hlt := h.queue_lt m (hqueue ▸ List.mem_cons_self)
        cases hm : m.msg with
        | ping actor reply' | stats reply' =>
          have hne : reply' ≠ reply := by
            rintro rfl
            exact absurd (hlt reply' (by rw [hm]; rfl)) (Nat.not_lt.mpr hle)
          simp [hne]
        | _ => rfl
  refine ⟨hreach, hportless, hnodup, hqueue, hanswers, hgone ▸ h.gone_lt, ?_, ?_⟩
  · intro call hcall
    rw [List.mem_filter, Option.isNone_iff_eq_none] at hcall
    refine (hcalls call hcall.1).resolve_right ?_
    rintro ⟨result, hresult, -⟩
    rw [hcall.2] at hresult
    cases hresult
  · intro p hp
    rcases List.mem_append.mp hp with hnew | hold
    · obtain ⟨call, hcall, hmap⟩ := List.mem_filterMap.mp hnew
      rw [Option.map_eq_some_iff] at hmap
      obtain ⟨result, hresult, rfl⟩ := hmap
      rcases hcalls call hcall with hwaits | ⟨result', hresult', hjust⟩
      · rw [hwaits.outcome] at hresult
        cases hresult
      · rw [hresult, Option.some.injEq] at hresult'
        exact hresult' ▸ hjust
    · exact (h.justified p hold).mono hhistory (state_eq_none_of_step hstep)

/-- A caller stops waiting. -/
theorem abandon (h : Serves w n waiting returned) {reply : RpcReplyPort} (hlt : reply.call < n)
    (hstep : w.step (.dropPort reply) = some w') :
    Serves w' n (waiting.filter (·.port ≠ reply)) returned := by
  have hreach := reachable_of_step h.reachable hstep
  cases hstep
  refine ⟨hreach, h.portless, h.nodup, h.queue_lt, h.answers_lt,
    List.forall_mem_cons.mpr ⟨hlt, h.gone_lt⟩, fun call hcall => ?_,
    fun p hp => (h.justified p hp).mono ⟨[], rfl⟩ fun hnone => hnone⟩
  rw [List.mem_filter, decide_eq_true_eq] at hcall
  have hold := h.waits call hcall.1
  refine ⟨hold.isCall, fun hmem => ?_, hold.alive, hold.queued, hold.unanswered⟩
  exact (List.mem_cons.mp hmem).elim hcall.2 hold.present

end Serves

namespace Clients

/-- The callers that have stopped waiting. -/
def gone (c : Clients) : List RpcReplyPort :=
  match c.watchdog with
  | some (.ok watchdog) => watchdog.gone
  | _ => []

/-- What the clients have seen agrees with what is in the cell. -/
def Held (c : Clients) : Option (Except ActorProcessingErr System) → Prop
  | none => c.spawned = 0 ∧ c.waiting = [] ∧ c.returned = []
  | some (.error _) => c.spawned = 1 ∧ c.waiting = [] ∧ ∀ p ∈ c.returned, p.2 = .error .sendErr
  | some (.ok w) => c.spawned = 1 ∧ Serves w c.next c.waiting c.returned

/-- Each call that was made waits, has returned or was abandoned, once and one of the three. -/
structure Sound (c : Clients) : Prop where
  calls : (c.waiting.map (·.port) ++ c.returned.map (·.1.port) ++ c.gone).Perm
    ((List.range c.next).map RpcReplyPort.mk)
  held : c.Held c.watchdog

/-- Nothing has happened at first. -/
theorem sound_init : Sound init := ⟨List.Perm.refl [], rfl, rfl, rfl⟩

variable {c c' : Clients}

/-- The ports of the calls that wait were given out. -/
theorem Sound.waiting_lt (h : Sound c) {call : ClientCall} (hcall : call ∈ c.waiting) :
    call.port.call < c.next := by
  have hmem : call.port ∈ (List.range c.next).map RpcReplyPort.mk :=
    h.calls.mem_iff.mp (List.mem_append_left _
      (List.mem_append_left _ (List.mem_map_of_mem hcall)))
  obtain ⟨i, hi, heq⟩ := List.mem_map.mp hmem
  exact heq ▸ List.mem_range.mp hi

/-- `get_or_init` spawns the watchdog if nobody has, and never again. -/
theorem Sound.getOrInit (h : Sound c) (spawning : Except ActorProcessingErr Unit) :
    ∃ c' watchdog, (∀ n, { c with next := n }.getOrInit spawning =
        ({ c' with next := n }, watchdog)) ∧
      c'.watchdog = some watchdog ∧ c'.next = c.next ∧ Sound c' := by
  cases hcell : c.watchdog with
  | some watchdog =>
    exact ⟨c, watchdog, fun n => by simp only [Clients.getOrInit, hcell], hcell, rfl, h⟩
  | none =>
    obtain ⟨hspawned, hwaiting, hreturned⟩ : c.Held none := hcell ▸ h.held
    have hcalls := h.calls
    simp only [gone, hcell] at hcalls
    refine ⟨{ c with watchdog := some (spawn spawning), spawned := c.spawned + 1 },
      spawn spawning, fun n => by simp only [Clients.getOrInit], rfl, rfl, ?_, ?_⟩
    · cases spawning <;> exact hcalls
    · have hnext : c.next = 0 := by
        have hlen := hcalls.length_eq
        simpa [hwaiting, hreturned] using hlen.symm
      cases spawning with
      | error err =>
        refine ⟨by simp only [hspawned], hwaiting, ?_⟩
        simp only [hreturned, List.not_mem_nil, false_imp_iff, implies_true]
      | ok u =>
        refine ⟨by simp only [hspawned], ?_⟩
        simp only [hwaiting, hreturned, hnext]
        exact Serves.spawn

/-- The call that is made gets the next port. -/
theorem perm_next {waiting returned gone : List RpcReplyPort} {n : ℕ}
    (h : (waiting ++ returned ++ gone).Perm ((List.range n).map RpcReplyPort.mk)) :
    (⟨n⟩ :: (waiting ++ returned ++ gone)).Perm ((List.range (n + 1)).map RpcReplyPort.mk) := by
  rw [List.range_succ, List.map_append]
  exact (h.cons _).trans (List.perm_append_singleton _ _).symm

/-- A call that returns at once. -/
theorem Sound.returnWith (h : Sound c) {request : Request} {result : Except MessagingErr Value}
    (cell : Option (Except ActorProcessingErr System))
    (hgone : { c with watchdog := cell }.gone = c.gone)
    (hheld : Held { c with
      next := c.next + 1
      returned := (⟨⟨c.next⟩, request⟩, result) :: c.returned } cell) :
    Sound ({ c with next := c.next + 1, watchdog := cell }.returnWith ⟨⟨c.next⟩, request⟩
      result) := by
  have hcalls := h.calls
  rw [← hgone] at hcalls
  refine ⟨List.Perm.trans ?_ (perm_next hcalls), ?_⟩
  · simp only [Clients.returnWith, List.map_cons, List.append_assoc, List.cons_append]
    exact List.perm_middle
  · cases cell with
    | none => exact hheld
    | some watchdog => cases watchdog <;> exact hheld

/-- What failed already fails the call. -/
theorem Sound.refuse (h : Sound c) {request : Request}
    (hfailed : (∃ err, c.watchdog = some (.error err)) ∨
      ∃ w, c.watchdog = some (.ok w) ∧ w.state = none) :
    Sound ({ c with next := c.next + 1 }.returnWith ⟨⟨c.next⟩, request⟩ (.error .sendErr)) := by
  refine h.returnWith c.watchdog rfl ?_
  have hheld := h.held
  rcases hfailed with ⟨err, hcell⟩ | ⟨w, hcell, hnone⟩
  · rw [hcell] at hheld ⊢
    exact ⟨hheld.1, hheld.2.1, List.forall_mem_cons.mpr ⟨rfl, hheld.2.2⟩⟩
  · rw [hcell] at hheld ⊢
    exact ⟨hheld.1, hheld.2.succ.returns (.of_none _ hnone)⟩

/-- Casting a message leaves the ports of the callers that have gone. -/
theorem gone_of_cast {w w' : System} {msg : WatchdogMsg} (h : w.cast msg = .ok w') :
    w'.gone = w.gone := by
  unfold System.cast at h
  split at h
  · cases h
    rfl
  · cases h

/-- A watchdog that takes no message has failed. -/
theorem state_of_cast_error {w : System} {msg : WatchdogMsg} {err : MessagingErr}
    (h : w.cast msg = .error err) : w.state = none := by
  unfold System.cast at h
  split at h
  · cases h
  · assumption

/-- `cast` -/
theorem Sound.cast (h : Sound c) {request : Request} (hcall : request.isCall = false)
    (spawning : Except ActorProcessingErr Unit) :
    Sound ({ c with next := c.next + 1 }.cast ⟨⟨c.next⟩, request⟩ spawning) := by
  obtain ⟨c', watchdog, hopen, hcell, hnext, h'⟩ := h.getOrInit spawning
  unfold Clients.cast
  rw [hopen, ← hnext]
  cases watchdog with
  | error err => exact h'.refuse (Or.inl ⟨err, hcell⟩)
  | ok w =>
    dsimp only
    cases hcast : w.cast (request.msg ⟨c'.next⟩) with
    | error err => exact h'.refuse (Or.inr ⟨w, hcell, state_of_cast_error hcast⟩)
    | ok w' =>
      obtain ⟨hspawned, hserves⟩ : c'.Held (some (.ok w)) := hcell ▸ h'.held
      refine h'.returnWith _ (by simp only [gone, hcell, gone_of_cast hcast]) ⟨hspawned, ?_⟩
      -- a cast has no port, and nothing else to wait for
      have hcast' := hserves.cast (request.msg ⟨c'.next⟩)
        (by cases request <;> rfl) (fun reply hport => ?_) hcast
      · refine hcast'.returns ?_
        unfold Justified
        cases request with
        | register | unregister => exact Or.inl rfl
        | ping | stats => cases hcall
      · cases request with
        | register | unregister => cases hport
        | ping | stats => cases hcall

/-- `call` -/
theorem Sound.call (h : Sound c) {request : Request} (hcall : request.isCall = true)
    (spawning : Except ActorProcessingErr Unit) :
    Sound ({ c with next := c.next + 1 }.call ⟨⟨c.next⟩, request⟩ spawning) := by
  obtain ⟨c', watchdog, hopen, hcell, hnext, h'⟩ := h.getOrInit spawning
  unfold Clients.call
  rw [hopen, ← hnext]
  cases watchdog with
  | error err => exact h'.refuse (Or.inl ⟨err, hcell⟩)
  | ok w =>
    dsimp only
    cases hcast : w.cast (request.msg ⟨c'.next⟩) with
    | error err => exact h'.refuse (Or.inr ⟨w, hcell, state_of_cast_error hcast⟩)
    | ok w' =>
      obtain ⟨hspawned, hserves⟩ : c'.Held (some (.ok w)) := hcell ▸ h'.held
      refine ⟨?_, hspawned, ?_⟩
      · have hcalls := h'.calls
        simp only [gone, hcell, ← gone_of_cast hcast] at hcalls
        refine List.Perm.trans ?_ (perm_next hcalls)
        simp only [gone, List.map_append, List.map_cons, List.map_nil, List.append_assoc,
          List.cons_append, List.nil_append]
        exact List.perm_middle
      · have hcast' := hserves.cast (request.msg ⟨c'.next⟩)
          (by cases request <;> rfl) (fun reply hport => ?_) hcast
        · exact hcast'.wait (hserves.waits_of_cast hcall hcast)
        · rw [port_msg ⟨⟨c'.next⟩, request⟩ hcall, Option.some.injEq] at hport
          exact hport.symm

/-- Sorting a list into what has no outcome and what has one. -/
theorem perm_filter_filterMap {α β : Type} (f : α → Option β) (l : List α) :
    (l.filter (fun a => (f a).isNone) ++
      (l.filterMap fun a => (f a).map fun b => (a, b)).map Prod.fst).Perm l := by
  induction l with
  | nil => exact List.Perm.refl []
  | cons a l ih =>
    cases hf : f a with
    | none => simpa [hf] using ih
    | some b =>
      simpa [hf] using List.perm_middle.trans (ih.cons a)

/-- A step of the watchdog's own. -/
theorem Sound.own (h : Sound c) {w w' : System} (hcell : c.watchdog = some (.ok w)) {e : Event}
    (hown : e.isOwn = true) (hstep : w.step e = some w') : Sound (c.settle w') := by
  obtain ⟨hspawned, hserves⟩ : c.Held (some (.ok w)) := hcell ▸ h.held
  refine ⟨?_, hspawned, hserves.own hstep hown⟩
  have hcalls := h.calls
  have hgone := (own_cases hstep hown hserves.portless).1
  simp only [gone, hcell, ← hgone] at hcalls
  refine List.Perm.trans (List.Perm.append_right _ ?_) hcalls
  have hsort := (perm_filter_filterMap (fun call => w'.outcome call.port) c.waiting).map (·.port)
  simp only [settle, List.map_append, List.map_map] at hsort ⊢
  rw [← List.append_assoc]
  exact hsort.append_right _

/-- A caller stops waiting. -/
theorem Sound.abandon (h : Sound c) {w w' : System} (hcell : c.watchdog = some (.ok w))
    {reply : RpcReplyPort} (hwaits : ∃ call ∈ c.waiting, call.port = reply)
    (hstep : w.step (.dropPort reply) = some w') :
    Sound { c with
      watchdog := some (.ok w')
      waiting := c.waiting.filter (·.port ≠ reply) } := by
  obtain ⟨hspawned, hserves⟩ : c.Held (some (.ok w)) := hcell ▸ h.held
  obtain ⟨call, hcall, rfl⟩ := hwaits
  refine ⟨?_, hspawned, hserves.abandon (h.waiting_lt hcall) hstep⟩
  have hcalls := h.calls
  have hnodup : (c.waiting.map (·.port)).Nodup := by
    have hall := hcalls.nodup_iff.mpr (List.nodup_range.map fun i j hij => by simpa using hij)
    exact (List.nodup_append.mp (List.nodup_append.mp hall).1).1
  cases hstep
  simp only [gone, hcell] at hcalls
  refine List.Perm.trans ?_ hcalls
  -- the port goes from those that wait to those that are gone
  have hport : (c.waiting.map (·.port)).Perm
      (call.port :: (c.waiting.filter (·.port ≠ call.port)).map (·.port)) := by
    have hfilter : (c.waiting.filter (·.port ≠ call.port)).map (·.port) =
        (c.waiting.map (·.port)).erase call.port := by
      rw [hnodup.erase_eq_filter, List.filter_map]
      congr 1
      exact List.filter_congr fun x _ => by
        by_cases hx : x.port = call.port <;> simp [hx]
    rw [hfilter]
    exact List.perm_cons_erase (List.mem_map_of_mem hcall)
  simp only [gone]
  refine List.perm_middle.trans ?_
  rw [← List.cons_append, ← List.cons_append]
  exact (hport.symm.append_right _).append_right _

/-- **One step** keeps the clients and the watchdog in agreement. -/
theorem Sound.step {e : ClientEvent} (h : Sound c) (hs : c.step e = some c') : Sound c' := by
  cases e with
  | call request spawning =>
    simp only [Clients.step] at hs
    split at hs <;> rw [Option.some.injEq] at hs <;> subst hs
    · rename_i hcall
      exact h.call hcall spawning
    · rename_i hcast
      exact h.cast (Bool.eq_false_iff.mpr hcast) spawning
  | own e =>
    simp only [Clients.step] at hs
    split at hs
    · rename_i w hcell
      split at hs
      · rename_i hown
        rw [Option.map_eq_some_iff] at hs
        obtain ⟨w', hstep, rfl⟩ := hs
        exact h.own hcell hown hstep
      · cases hs
    · cases hs
  | abandon reply =>
    simp only [Clients.step] at hs
    split at hs
    · rename_i w hcell
      split at hs
      · rename_i hany
        rw [Option.map_eq_some_iff] at hs
        obtain ⟨w', hstep, rfl⟩ := hs
        obtain ⟨call, hcall, hport⟩ := List.any_eq_true.mp hany
        exact h.abandon hcell ⟨call, hcall, by simpa using hport⟩ hstep
      · cases hs
    · cases hs

/-- Every run keeps the clients and the watchdog in agreement. -/
theorem sound_of_exec {es : List ClientEvent} (h : exec Clients.step init es = some c) : Sound c :=
  exec_invariant (P := Sound) h sound_init fun _ _ _ hp hs => hp.step hs

/-- **Each call returns at most once.** Whatever the clients call and abandon, however their calls
interleave with the watchdog's own steps, and whether or not it could be spawned: the watchdog is
spawned at most once, each call that was made waits, has returned or was abandoned, once and one of
the three. If the watchdog could not be spawned every call fails at once. If it could, a call waits
only with its message in the mailbox of a watchdog that lives, and what a call has returned is what
the watchdog did with its message. -/
theorem calls_return_once {es : List ClientEvent} (h : exec Clients.step init es = some c) :
    c.spawned ≤ 1 ∧
    (c.waiting.map (·.port) ++ c.returned.map (·.1.port) ++ c.gone).Perm
      ((List.range c.next).map RpcReplyPort.mk) ∧
    match c.watchdog with
    | none => c.next = 0
    | some (.error _) => c.waiting = [] ∧ ∀ p ∈ c.returned, p.2 = .error .sendErr
    | some (.ok w) => Reachable w ∧ (∀ call ∈ c.waiting, Waits w call) ∧
        ∀ p ∈ c.returned, Justified w p.1 p.2 := by
  have hsound := sound_of_exec h
  have hheld := hsound.held
  have hcalls := hsound.calls
  cases hcell : c.watchdog with
  | none =>
    rw [hcell] at hheld
    obtain ⟨hspawned, hwaiting, hreturned⟩ := hheld
    refine ⟨by omega, hcalls, ?_⟩
    have hlen := hcalls.length_eq
    simpa [gone, hcell, hwaiting, hreturned] using hlen.symm
  | some watchdog =>
    rw [hcell] at hheld
    cases watchdog with
    | error err => exact ⟨Nat.le_of_eq hheld.1, hcalls, hheld.2⟩
    | ok w =>
      obtain ⟨hspawned, hserves⟩ := hheld
      exact ⟨Nat.le_of_eq hspawned, hcalls, hserves.reachable, hserves.waits, hserves.justified⟩

/-- Pings of a registered actor and of an unknown one, a call for the kills and one that is
abandoned, which fails the watchdog while another call waits. -/
theorem calls_return_once_abandoned : ∃ es c, exec Clients.step init es = some c ∧
    c.returned.map (fun p => (p.1.port.call, p.2)) =
      [(6, .error .sendErr), (5, .error .sendErr), (3, .ok (.stats ⟨0⟩)), (2, .error .sendErr),
        (1, .ok .unit), (0, .ok .unit)] ∧
    ∃ w, c.watchdog = some (.ok w) ∧ ∀ p ∈ c.returned, Justified w p.1 p.2 := by
  let spawning : Except ActorProcessingErr Unit := .ok ()
  let es : List ClientEvent :=
    [.call (.register ⟨.loc 1⟩ 500 .stop) spawning, .call (.ping (.loc 1)) spawning, .own .handle,
      .own .handle, .call (.ping (.loc 2)) spawning, .own .handle, .call .stats spawning,
      .own .handle, .call .stats spawning, .call (.ping (.loc 1)) spawning, .abandon ⟨4⟩,
      .own .handle, .call .stats spawning]
  obtain ⟨c, hc, hpost⟩ := (Option.any_eq_true _ _).mp
    (show (exec Clients.step init es).any (fun c =>
      decide (c.returned.map (fun p => (p.1.port.call, p.2)) =
        [(6, .error .sendErr), (5, .error .sendErr), (3, .ok (.stats ⟨0⟩)), (2, .error .sendErr),
          (1, .ok .unit), (0, .ok .unit)]) &&
      (match c.watchdog with
        | some (.ok _) => true
        | _ => false)) = true by decide)
  rw [Bool.and_eq_true, decide_eq_true_eq] at hpost
  obtain ⟨hreturned, hcell⟩ := hpost
  have hall := (calls_return_once hc).2.2
  split at hcell
  · rename_i w hw
    rw [hw] at hall
    exact ⟨es, c, hc, hreturned, w, hw, hall.2.2⟩
  · cases hcell

/-! ## No call waits for ever -/

/-- What waits for the watchdog. -/
def load (c : Clients) : ℕ :=
  match c.watchdog with
  | some (.ok watchdog) => watchdog.myself.queue.length + watchdog.supervision.length
  | _ => 0

/-- Handling what waits leaves less of it. -/
theorem load_lt_of_handles {e : ClientEvent} (hhandles : e.handles = true)
    (hs : c.step e = some c') : ∃ w', c' = c.settle w' ∧ c'.load < c.load := by
  have hservice {w w' : System} (hcell : c.watchdog = some (.ok w))
      (hlt : w'.myself.queue.length + w'.supervision.length <
        w.myself.queue.length + w.supervision.length) : (c.settle w').load < c.load := by
    simpa only [load, settle, hcell] using hlt
  cases e with
  | call | abandon => cases hhandles
  | own e =>
    simp only [Clients.step] at hs
    split at hs
    · rename_i w hcell
      split at hs
      · rw [Option.map_eq_some_iff] at hs
        obtain ⟨w', hstep, rfl⟩ := hs
        refine ⟨w', rfl, hservice hcell ?_⟩
        cases e with
        | handle =>
          obtain ⟨state, m, -, hnext, rfl⟩ := step_handle hstep
          unfold System.nextMsg at hnext
          split at hnext
          · have hqueue := congrArg List.length (next_eq_some hnext)
            have hkept := (mailbox_handle w.myself.receive w.gone state m.msg).1
            have htail : w.myself.receive.queue = w.myself.queue.tail := rfl
            simp only [System.finish, hkept, htail]
            rw [List.length_cons] at hqueue
            omega
          · cases hnext
        | supervise =>
          simp only [System.step] at hstep
          split at hstep
          · rename_i state evt rest _ hsupervision
            rw [Option.some.injEq] at hstep
            subst hstep
            have hkept := (mailbox_handleSupervisorEvt w.myself evt state).1
            simp only [System.finish, hkept, hsupervision, List.length_cons]
            omega
          · cases hstep
        | _ => cases hhandles
      · cases hs
    · cases hs

/-- **No call waits for ever.** Whatever the clients and the actors around the watchdog have done:
once they pause, the watchdog handles what waits for it in a bounded number of steps, however they
are ordered, and then every call that waited has returned. -/
theorem no_call_waits_for_ever {es : List ClientEvent} (h : exec Clients.step init es = some c) :
    Attains Clients.step (fun _ e => e.handles = true) c fun c' =>
      c'.waiting = [] ∧ ∀ call ∈ c.waiting, ∃ result, (call, result) ∈ c'.returned := by
  refine attains_of_measure (I := fun c' => Sound c' ∧ ∀ call ∈ c.waiting,
    call ∈ c'.waiting ∨ ∃ result, (call, result) ∈ c'.returned) load
    ⟨sound_of_exec h, fun call hcall => Or.inl hcall⟩ ?_ ?_ ?_
  · rintro c₁ e c₂ ⟨hsound, hkept⟩ hhandles hs
    refine ⟨hsound.step hs, fun call hcall => ?_⟩
    obtain ⟨w', rfl, -⟩ := load_lt_of_handles hhandles hs
    rcases hkept call hcall with hwaits | ⟨result, hreturned⟩
    · cases hresult : w'.outcome call.port with
      | none => exact Or.inl (List.mem_filter.mpr ⟨hwaits, by rw [hresult]; rfl⟩)
      | some result =>
        exact Or.inr ⟨result, List.mem_append_left _ (List.mem_filterMap.mpr
          ⟨call, hwaits, by rw [hresult]; rfl⟩)⟩
    · exact Or.inr ⟨result, List.mem_append_right _ hreturned⟩
  · rintro c₁ e c₂ - hhandles hs
    obtain ⟨w', -, hlt⟩ := load_lt_of_handles hhandles hs
    exact hlt
  · rintro c' ⟨hsound, hkept⟩ hstuck
    have hnil : c'.waiting = [] := by
      rw [List.eq_nil_iff_forall_not_mem]
      intro call hcall
      have hheld := hsound.held
      cases hcell : c'.watchdog with
      | none =>
        rw [hcell] at hheld
        rw [hheld.2.1] at hcall
        cases hcall
      | some watchdog =>
        rw [hcell] at hheld
        cases watchdog with
        | error err =>
          rw [hheld.2.1] at hcall
          cases hcall
        | ok w =>
          -- the watchdog lives and has a message to handle, so it can take a step
          have hwaits := hheld.2.waits call hcall
          obtain ⟨state, hstate⟩ := Option.isSome_iff_exists.mp hwaits.alive
          obtain ⟨m, hm, -⟩ := hwaits.queued
          cases hsupervision : w.supervision with
          | cons evt rest =>
            have hstep := hstuck (.own .supervise) rfl
            simp [Clients.step, hcell, Event.isOwn, System.step, hstate, hsupervision] at hstep
          | nil =>
            have hstep := hstuck (.own .handle) rfl
            cases hqueue : w.myself.queue with
            | nil =>
              rw [hqueue] at hm
              cases hm
            | cons m' rest =>
              simp [Clients.step, hcell, Event.isOwn, System.step, hstate, hsupervision,
                TimedMailbox.next, hqueue] at hstep
    refine ⟨hnil, fun call hcall => (hkept call hcall).resolve_left ?_⟩
    rw [hnil]
    exact List.not_mem_nil

/-- Two calls that wait behind a registration and the end of a watched actor. -/
theorem no_call_waits_for_ever_busy : ∃ es c, exec Clients.step init es = some c ∧
    c.waiting.length = 2 ∧
    Attains Clients.step (fun _ e => e.handles = true) c fun c' =>
      c'.waiting = [] ∧ ∀ call ∈ c.waiting, ∃ result, (call, result) ∈ c'.returned := by
  let es : List ClientEvent :=
    [.call (.register ⟨.loc 1⟩ 500 .kill) (.ok ()), .own (.link (.loc 1)),
      .call (.ping (.loc 1)) (.ok ()), .own (.ends (.actorTerminated ⟨.loc 1⟩ none)),
      .call .stats (.ok ())]
  obtain ⟨c, hc, hwaiting⟩ := (Option.any_eq_true _ _).mp
    (show (exec Clients.step init es).any (fun c => decide (c.waiting.length = 2)) = true
      by decide)
  exact ⟨es, c, hc, of_decide_eq_true hwaiting, no_call_waits_for_ever hc⟩

end Clients

end RactorActors.Watchdog
