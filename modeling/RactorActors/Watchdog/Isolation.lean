import Mathlib.Data.List.InsertIdx
import RactorActors.Foundations.Projection
import RactorActors.Watchdog.Availability

/-!
# Watched actors do not influence each other

One watchdog serves every watched actor from one map and one mailbox. What it holds for an
actor and does to it (`Solo`) follows from the events of that actor alone.

* `Happening`: an event of one actor: a `Register`, `Unregister`, `Ping`, `Timeout` or exit of it
  that is handled, and the expiry of one of its timers. `System.happening` reads it off a step,
  with the time at which it happens;
* `Solo.replay`: a watchdog for a single actor, the abstract model of this module;
* `solo_step`: each step of the watchdog is, for each actor, a step of that model or none;
* `actors_isolated`: two runs with the same events of an actor agree on it at corresponding
  points, whatever happens to the others.

The handles of the timers are numbered over all actors, so that a timer is told apart from the
actor's other timers by its place among them, and the one that the registration can still abort
is marked.
-/

namespace RactorActors.Watchdog

open LabelledRun TimedMailbox

/-! ## A watchdog for one actor -/

/-- A registration without its timer. -/
structure Watch where
  actor : ActorCell
  timeout : ℕ
  timeoutStrategy : TimeoutStrategy
deriving DecidableEq, Repr

/-- An armed timer of the actor. -/
@[ext]
structure Outstanding where
  /-- The earliest time at which the timer may post. -/
  deadline : ℕ
  /-- The registration stores the handle of this timer. -/
  held : Bool
deriving DecidableEq, Repr

/-- A watchdog of a single actor: what it holds for the actor, and what it did to it. -/
@[ext]
structure Solo where
  /-- The registration. -/
  registration : Option Watch
  /-- The armed timers, oldest first. -/
  timers : List Outstanding
  /-- The kill and stop calls on the actor and the answers to its pings, each with its time,
  newest first. -/
  calls : List (ℕ × Call)
deriving DecidableEq, Repr

/-- What happens to one actor. -/
inductive Happening
  /-- A `Register` of the actor is handled. -/
  | register (actor : ActorCell) (timeout : ℕ) (timeoutStrategy : TimeoutStrategy)
  /-- An `Unregister` of the actor is handled. -/
  | unregister
  /-- A `Ping` of the actor is handled; its caller may still be waiting, or be gone. -/
  | ping (reply : RpcReplyPort) (waiting : Bool)
  /-- A `Timeout` of the actor is handled. -/
  | timeout
  /-- The report of the actor's end is handled. -/
  | exit
  /-- The timer at this place among the actor's armed timers posts its `Timeout`. -/
  | expire (index : ℕ)
deriving DecidableEq, Repr

/-- The registration as the actor sees it. -/
def Registration.watch (r : Registration) : Watch where
  actor := r.actor
  timeout := r.timeout
  timeoutStrategy := r.timeoutStrategy

/-- The call that ends a registration. -/
def Watch.strike (r : Watch) : Call :=
  match r.timeoutStrategy with
  | .kill => .kill r.actor.getId
  | .stop => .stop r.actor.getId watchdogTimeout

/-- The timer, once the registration does not store its handle any more. -/
def Outstanding.release (t : Outstanding) : Outstanding := { t with held := false }

namespace Solo

/-- Nothing is held for the actor. -/
def empty : Solo := { registration := none, timers := [], calls := [] }

/-- The registration is dropped and the timer it stores aborted. -/
def leave (w : Solo) : Solo :=
  { w with registration := none, timers := w.timers.filter (!·.held) }

/-- All that the watchdog of a single actor is told is what happens to the actor at time `now`. -/
def replay (w : Solo) : ℕ × Happening → Solo
  | (now, .register actor timeout timeoutStrategy) =>
    { w with
      registration := some { actor, timeout, timeoutStrategy }
      timers := w.timers.map Outstanding.release ++ [⟨now + timeout, true⟩] }
  | (_, .unregister) => w.leave
  | (now, .ping reply waiting) =>
    match w.registration with
    | some r =>
      { w with
        -- the new timer is held by no registration
        timers := w.timers.filter (!·.held) ++ [⟨now + r.timeout, false⟩]
        calls := (if waiting then [(now, .pong reply)] else []) ++ w.calls }
    | none => w
  | (now, .timeout) =>
    { registration := none
      timers := w.timers.map Outstanding.release
      calls := (w.registration.map fun r => (now, r.strike)).toList ++ w.calls }
  | (_, .exit) => w.leave
  | (_, .expire index) => { w with timers := w.timers.eraseIdx index }

end Solo

/-! ## What a step shows of one actor -/

/-- What handling an input means to the actor `id`. -/
def Input.happening (id : ActorId) (gone : List RpcReplyPort) : Input → Option Happening
  | .msg (.register actor timeout timeoutStrategy) =>
    if actor.getId = id then some (.register actor timeout timeoutStrategy) else none
  | .msg (.unregister actor) => if actor.getId = id then some .unregister else none
  | .msg (.ping actor reply) => if actor = id then some (.ping reply (reply ∉ gone)) else none
  | .msg (.timeout actor) => if actor = id then some .timeout else none
  | .msg (.stats _) => none
  | .evt event => if event.ended = some id then some .exit else none

/-- What an event means to the actor `id`, and when. -/
def System.happening (id : ActorId) (s : System) : Event → Option (ℕ × Happening)
  | .handle =>
    (s.nextMsg.bind fun m => (Input.msg m.msg).happening id s.gone).map (s.myself.now, ·)
  | .supervise =>
    (s.supervision.head?.bind fun evt => (Input.evt evt).happening id s.gone).map
      (s.myself.now, ·)
  | .expire handle =>
    ((s.view id).timers.findIdx? (·.handle = handle)).map fun index =>
      (s.myself.now, .expire index)
  | _ => none

/-- The calls of a handler that kill or stop the actor or answer its ping. -/
def Entry.callsOn (e : Entry) (id : ActorId) : List Call :=
  e.calls.filter fun
    | .pong _ => e.pings id
    | call => call.victim = some id

/-- An armed timer, next to the actor's registration. -/
def Outstanding.of (registration : Option Registration) (t : Timer WatchdogMsg) :
    Outstanding where
  deadline := t.deadline
  held := registration.any (·.timer = t.handle)

/-- What the view holds for its actor, and what was done to it. -/
def View.solo (id : ActorId) (v : View) : Solo where
  registration := v.registration.map Registration.watch
  timers := v.timers.map (Outstanding.of v.registration)
  calls := v.history.flatMap fun e => (e.callsOn id).map (e.time, ·)

/-- What the watchdog holds for the actor `id`, and what it did to it. -/
def System.solo (id : ActorId) (s : System) : Solo := (s.view id).solo id

/-! ## One step -/

/-- What a view's actor and its handles rely on. -/
structure View.Tidy (id : ActorId) (v : View) : Prop where
  /-- The registration is that of the actor. -/
  key : ∀ r, v.registration = some r → r.actor.getId = id
  /-- The stored handle was handed out. -/
  timer_lt : ∀ r, v.registration = some r → r.timer < v.nextHandle
  /-- So were the handles of the armed timers. -/
  handle_lt : ∀ t ∈ v.timers, t.handle < v.nextHandle

/-- The view of every actor is tidy. -/
theorem Consistent.tidy {s : System} (hc : Consistent s) (id : ActorId) :
    (s.view id).Tidy id where
  key := hc.key id
  timer_lt := hc.timer_lt id
  handle_lt t ht := s.myself.handle_lt t (List.mem_of_mem_filter ht)

/-- The timers once the registration is gone. -/
theorem map_of_none (registration : Option Registration) (timers : List (Timer WatchdogMsg)) :
    timers.map (Outstanding.of none) =
      (timers.map (Outstanding.of registration)).map Outstanding.release := by
  rw [List.map_map]
  rfl

/-- The timers once the actor is registered: the fresh handle is stored, and no older one. -/
theorem map_of_register {id : ActorId} {v : View} (hv : v.Tidy id) {r : Registration}
    (hr : r.timer = v.nextHandle) (deadline : ℕ) (msg : WatchdogMsg) :
    List.map (Outstanding.of (some r)) (v.timers ++ [⟨v.nextHandle, deadline, msg⟩]) =
      (v.timers.map (Outstanding.of v.registration)).map Outstanding.release ++
        [⟨deadline, true⟩] := by
  have hold : v.timers.map (Outstanding.of (some r)) = v.timers.map (Outstanding.of none) := by
    refine List.map_congr_left fun t ht => ?_
    have hne : v.nextHandle ≠ t.handle := Nat.ne_of_gt (hv.handle_lt t ht)
    simp [Outstanding.of, hr, hne]
  have hnew : Outstanding.of (some r) ⟨v.nextHandle, deadline, msg⟩ = ⟨deadline, true⟩ := by
    simp [Outstanding.of, hr]
  rw [List.map_append, hold, map_of_none v.registration, List.map_singleton, hnew]

/-- Aborting the stored handle takes the timer that the registration holds. -/
theorem map_of_filter (r : Registration) (timers : List (Timer WatchdogMsg)) :
    (timers.filter (·.handle ≠ r.timer)).map (Outstanding.of (some r)) =
      (timers.map (Outstanding.of (some r))).filter (!·.held) := by
  rw [List.filter_map]
  refine congrArg _ (List.filter_congr fun t _ => ?_)
  simp [Outstanding.of, eq_comm]

/-- The timers once the actor was pinged: the fresh handle is not stored. -/
theorem map_of_ping {id : ActorId} {v : View} (hv : v.Tidy id) {r : Registration}
    (hr : v.registration = some r) (deadline : ℕ) (msg : WatchdogMsg) :
    List.map (Outstanding.of (some r))
        (v.timers.filter (·.handle ≠ r.timer) ++ [⟨v.nextHandle, deadline, msg⟩]) =
      (v.timers.map (Outstanding.of (some r))).filter (!·.held) ++ [⟨deadline, false⟩] := by
  have hnew : Outstanding.of (some r) ⟨v.nextHandle, deadline, msg⟩ = ⟨deadline, false⟩ := by
    have hlt := hv.timer_lt r hr
    simp [Outstanding.of, Nat.ne_of_lt hlt]
  rw [List.map_append, map_of_filter, List.map_singleton, hnew]

/-- What is left when the held timer is gone is held by no registration. -/
theorem filter_held_release (timers : List Outstanding) :
    (timers.filter (!·.held)).map Outstanding.release = timers.filter (!·.held) := by
  rw [List.map_congr_left (g := id), List.map_id]
  intro t ht
  have hheld := List.of_mem_filter ht
  rw [Bool.not_eq_true'] at hheld
  exact Outstanding.ext rfl hheld.symm

/-- An entry that neither strikes nor pings the actor records no call for it. -/
theorem callsOn_eq_nil {e : Entry} {id : ActorId} (hstrikes : e.strikes id = false)
    (hpings : e.pings id = false) : e.callsOn id = [] := by
  refine List.filter_eq_nil_iff.mpr fun c hc => ?_
  have hvictim : c.victim ≠ some id := by
    intro hv
    have hany : e.strikes id = true := List.any_eq_true.mpr ⟨c, hc, by simp [hv]⟩
    rw [hstrikes] at hany
    cases hany
  cases c with
  | pong reply => simp [hpings]
  | _ => simpa using hvictim

/-- An input about another actor, or about none, means nothing to this one. -/
theorem happening_of_subject_ne {id : ActorId} {input : Input} (gone : List RpcReplyPort)
    (h : input.subject ≠ some id) : input.happening id gone = none := by
  cases input with
  | msg msg =>
    cases msg with
    | stats reply => rfl
    | _ => exact if_neg fun heq => h (congrArg some heq)
  | evt event => exact if_neg h

/-- An entry that records no call for the actor leaves what it sees of the history. -/
theorem flatMap_callsOn_cons {id : ActorId} {e : Entry} (history : List Entry)
    (h : e.callsOn id = []) :
    ((e :: history).flatMap fun e => (e.callsOn id).map (e.time, ·)) =
      history.flatMap fun e => (e.callsOn id).map (e.time, ·) := by
  rw [List.flatMap_cons, h, List.map_nil, List.nil_append]

/-- An input that takes the actor out is an `Unregister` or a report of its end. -/
theorem happening_of_leaves {id : ActorId} {input : Input} (gone : List RpcReplyPort)
    (h : input.leaves id = true) :
    input.happening id gone = some .unregister ∨ input.happening id gone = some .exit := by
  cases input with
  | msg msg =>
    cases msg with
    | unregister actor => exact Or.inl (if_pos (of_decide_eq_true h))
    | _ => cases h
  | evt event => exact Or.inr (if_pos (of_decide_eq_true h))

/-- The timers once the registration is dropped and the timer it stores aborted. -/
theorem map_of_leave (registration : Option Registration) (timers : List (Timer WatchdogMsg)) :
    List.map (Outstanding.of none)
        (match registration with
          | some r => timers.filter (·.handle ≠ r.timer)
          | none => timers) =
      (timers.map (Outstanding.of registration)).filter (!·.held) := by
  cases registration with
  | none =>
    refine (List.filter_eq_self.mpr fun t ht => ?_).symm
    obtain ⟨u, -, rfl⟩ := List.mem_map.mp ht
    rfl
  | some r => rw [map_of_none (some r), map_of_filter, filter_held_release]

/-- The strike of the actor's own registration is a call on the actor. -/
theorem filter_strike {id : ActorId} {e : Entry} {r : Registration} (hkey : r.actor.getId = id)
    (hcalls : e.calls = [View.strike r]) : e.callsOn id = [r.watch.strike] := by
  rw [Entry.callsOn, hcalls]
  cases hs : r.timeoutStrategy <;>
    simp [View.strike, Watch.strike, Registration.watch, Call.victim, hs, hkey]

/-- **A handled input, as the actor sees it.** -/
theorem View.Step.solo {id : ActorId} {v v' : View} (h : View.Step id v v')
    (hv : v.Tidy id) {e : Entry} (he : v'.history = e :: v.history)
    (hkeep : e.input.subject = none → v'.registration = v.registration)
    (gone : List RpcReplyPort)
    (hpong : ∀ reply, e.input = .msg (.ping id reply) → v.registration ≠ none →
      e.calls = if reply ∈ gone then [] else [.pong reply]) :
    v'.solo id = (e.input.happening id gone).elim (v.solo id)
      fun happening => (v.solo id).replay (e.time, happening) := by
  cases h with
  | elapse | expire | lapse => exact absurd he.symm (List.cons_ne_self _ _)
  | other n e' htime hsub hstrikes hn =>
    obtain ⟨rfl, -⟩ := List.cons.inj he
    have hcalls := callsOn_eq_nil hstrikes (quiet_of_subject_ne hsub).2
    rw [happening_of_subject_ne gone hsub, Option.elim_none]
    simp only [View.solo, flatMap_callsOn_cons _ hcalls]
  | fail e' htime hsub hcalls =>
    obtain ⟨rfl, -⟩ := List.cons.inj he
    -- the handler did not fail, so the registration was not there
    have hreg : none = v.registration := hkeep hsub
    have hnil : e'.callsOn id = [] := by rw [Entry.callsOn, hcalls, List.filter_nil]
    rw [happening_of_subject_ne gone (by simp [hsub]), Option.elim_none]
    simp only [View.solo, flatMap_callsOn_cons _ hnil, ← hreg]
  | register actor timeout strategy origin hid =>
    obtain ⟨rfl, -⟩ := List.cons.inj he
    have hsome : (Input.msg (.register actor timeout strategy)).happening id gone =
        some (.register actor timeout strategy) := if_pos hid
    rw [View.record, hsome, Option.elim_some]
    apply Solo.ext
    · rfl
    · exact map_of_register (r := ⟨actor, timeout, strategy, v.nextHandle⟩) hv rfl _ _
    · exact flatMap_callsOn_cons _ rfl
  | ping r reply origin calls hr hcalls =>
    obtain ⟨rfl, -⟩ := List.cons.inj he
    have hsome : (Input.msg (.ping id reply)).happening id gone =
        some (.ping reply (reply ∉ gone)) := if_pos rfl
    have hanswer : calls = if reply ∈ gone then [] else [.pong reply] :=
      hpong reply rfl (by simp [hr])
    rw [View.record, hsome, Option.elim_some]
    apply Solo.ext
    · simp only [View.solo, Solo.replay, hr, Option.map_some]
    · simp only [View.solo, Solo.replay, hr, Option.map_some]
      exact map_of_ping hv hr (v.now + r.timeout) _
    · simp only [View.solo, Solo.replay, hr, Option.map_some, List.flatMap_cons, hanswer]
      by_cases hgone : reply ∈ gone <;> simp [hgone, Entry.callsOn, Entry.pings]
  | strayPing reply origin hr =>
    obtain ⟨rfl, -⟩ := List.cons.inj he
    have hsome : (Input.msg (.ping id reply)).happening id gone =
        some (.ping reply (reply ∉ gone)) := if_pos rfl
    rw [View.record, hsome, Option.elim_some]
    simp only [View.solo, Solo.replay, hr, Option.map_none]
    rw [flatMap_callsOn_cons _ rfl]
  | leave input origin hleaves =>
    obtain ⟨rfl, -⟩ := List.cons.inj he
    -- both ways of leaving do the same
    rcases happening_of_leaves gone hleaves with hsome | hsome
    all_goals
      rw [View.record, hsome, Option.elim_some, Solo.replay]
      apply Solo.ext
      · rfl
      · exact map_of_leave v.registration v.timers
      · exact flatMap_callsOn_cons _ rfl
  | timeout m rest hqueued hm =>
    obtain ⟨rfl, -⟩ := List.cons.inj he
    have hsome : (Input.msg (.timeout id)).happening id gone = some .timeout := if_pos rfl
    rw [View.record, hsome, Option.elim_some]
    apply Solo.ext
    · rfl
    · exact map_of_none v.registration v.timers
    · simp only [View.solo, Solo.replay, List.flatMap_cons]
      cases hr : v.registration with
      | none => rfl
      | some r =>
        rw [filter_strike (hv.key r hr) rfl]
        rfl

section Steps

variable {s s' : System} {id : ActorId}

/-- A ping of a registered actor is answered if its caller still waits. -/
theorem ping_calls_of_lookup (myself : TimedMailbox WatchdogMsg) (gone : List RpcReplyPort)
    (reply : RpcReplyPort) {state : WatchdogState} {r : Registration}
    (h : state.subjects.lookup id = some r) :
    (ping myself gone id reply state).calls =
      if reply ∈ gone then [] else [.pong reply] := by
  by_cases hgone : reply ∈ gone
  · simp [ping, h, RpcReplyPort.send, hgone]
  · simp [ping, h, RpcReplyPort.send, hgone]

/-- A handled message that is about no actor drops no registration unless the watchdog fails. -/
theorem registration_handle {state : WatchdogState} (hst : s.state = some state)
    {m : Envelope WatchdogMsg} (hsub : (Input.msg m.msg).subject = none)
    (halive : (s.finish (.msg m.msg) m.origin
      (handle s.myself.receive s.gone state m.msg)).state ≠ none) :
    (s.finish (.msg m.msg) m.origin
      (handle s.myself.receive s.gone state m.msg)).registration id = s.registration id := by
  cases hm : m.msg with
  | stats reply =>
    rw [hm] at halive
    rw [registration_finish, registration_of_state hst]
    cases hsend : reply.send s.gone with
    | ok _ => simp only [handle, stats, hsend]
    | error err =>
      -- a failed reply would have failed the watchdog
      simp [System.finish, handle, stats, hsend] at halive
  | register | unregister | ping | timeout =>
    rw [hm] at hsub
    cases hsub

/-- A handled message, as the actor sees it. -/
theorem solo_handle (hc : Consistent s) (h : s.step .handle = some s')
    (halive : s'.state ≠ none) :
    s'.solo id = (s.happening id .handle).elim (s.solo id) (s.solo id).replay := by
  have hview := view_step hc h id
  simp only [System.step] at h
  split at h
  · rename_i state m hst hsup hnext
    rw [Option.some.injEq] at h
    subst h
    have hmsg : s.nextMsg = some m := by simp [System.nextMsg, hst, hsup, hnext]
    -- a ping that finds the registration is answered at once
    have hpong : ∀ reply, Input.msg m.msg = .msg (.ping id reply) →
        (s.view id).registration ≠ none →
        (handle s.myself.receive s.gone state m.msg).calls =
          if reply ∈ s.gone then [] else [.pong reply] := by
      intro reply hm hne
      obtain ⟨r, hr⟩ := Option.ne_none_iff_exists'.mp hne
      have hlookup := (registration_of_state hst id).symm.trans hr
      rw [Input.msg.inj hm]
      exact ping_calls_of_lookup s.myself.receive s.gone reply hlookup
    have hstep := hview.solo (hc.tidy id) rfl
      (fun hsub => registration_handle hst hsub halive) s.gone hpong
    rw [System.solo, hstep, System.happening, hmsg, Option.bind_some]
    cases (Input.msg m.msg).happening id s.gone <;> rfl
  · cases h

/-- A handled supervision event, as the actor sees it. -/
theorem solo_supervise (hc : Consistent s) (h : s.step .supervise = some s') :
    s'.solo id = (s.happening id .supervise).elim (s.solo id) (s.solo id).replay := by
  have hview := view_step hc h id
  simp only [System.step] at h
  split at h
  · rename_i state evt rest hst hsup
    rw [Option.some.injEq] at h
    subst h
    have hkeep : evt.ended = none →
        (s.finish (.evt evt) none (handleSupervisorEvt s.myself evt state)).registration id =
          s.registration id := by
      intro hended
      rw [registration_finish, registration_of_state hst]
      cases evt <;> first | rfl | cases hended
    have hstep := hview.solo (hc.tidy id) rfl hkeep s.gone
      (fun reply hping _ => absurd hping Input.noConfusion)
    rw [System.solo, hstep, System.happening, hsup, List.head?_cons, Option.bind_some]
    cases (Input.evt evt).happening id s.gone <;> rfl
  · cases h

/-- An expiry, as the actor sees it: one of its timers is gone, or one of another actor. -/
theorem solo_expire {handle : ℕ} (h : s.step (.expire handle) = some s')
    (halive : s'.state ≠ none) :
    s'.solo id =
      (s.happening id (.expire handle)).elim (s.solo id) (s.solo id).replay := by
  simp only [System.step] at h
  split at h
  · rw [Option.map_eq_some_iff] at h
    obtain ⟨box, hbox, rfl⟩ := h
    obtain ⟨t, ht, rfl, -, rfl⟩ := expire_eq_some hbox
    have hnodup : ((s.view id).timers.map Timer.handle).Nodup :=
      s.myself.handles_nodup.sublist (List.filter_sublist.map _)
    have htimers : (({ s with myself := s.myself.fire t ht } : System).view id).timers =
        (s.view id).timers.eraseP (·.handle = t.handle) := by
      rw [← filter_handle_eq_eraseP hnodup, System.view, fire_timers, filter_filter_handle]
      rfl
    have hsolo : ({ s with myself := s.myself.fire t ht } : System).solo id =
        { s.solo id with
          timers := ((s.view id).timers.eraseP (·.handle = t.handle)).map
            (Outstanding.of (s.registration id)) } := by
      rw [← htimers]
      rfl
    rw [hsolo, List.eraseP_eq_eraseIdx, System.happening]
    cases (s.view id).timers.findIdx? (·.handle = t.handle) with
    | none => rfl
    | some index =>
      rw [← List.eraseIdx_map]
      rfl
  · -- a failed watchdog stays failed
    rename_i hst
    rw [Option.some.injEq] at h
    subst h
    exact absurd hst halive

/-- The events that neither handle an input nor end a timer. -/
theorem step_quiet {e : Event} (h : s.step e = some s') (hhandle : e ≠ .handle)
    (hsupervise : e ≠ .supervise) (hexpire : ∀ handle, e ≠ .expire handle) :
    s'.state = s.state ∧ s'.history = s.history ∧ s'.myself.timers = s.myself.timers := by
  have htell : ∀ {t : System} {ended : List ActorId} {evt : SupervisionEvent},
      some (System.tell { s with ended := ended } evt) = some t →
        t.state = s.state ∧ t.history = s.history ∧ t.myself.timers = s.myself.timers := by
    intro t ended evt ht
    obtain ⟨hstate, hhistory, hmyself⟩ := tell_eq { s with ended := ended } evt
    rw [← Option.some.inj ht]
    exact ⟨hstate, hhistory, congrArg TimedMailbox.timers hmyself⟩
  cases e with
  | handle => exact absurd rfl hhandle
  | supervise => exact absurd rfl hsupervise
  | expire handle => exact absurd rfl (hexpire handle)
  | post msg =>
    simp only [System.step] at h
    split at h
    · cases hst : s.state with
      | none =>
        simp only [System.cast, hst, Option.some.injEq] at h
        subst h
        exact ⟨hst, rfl, rfl⟩
      | some state =>
        simp only [System.cast, hst, Option.some.injEq] at h
        subst h
        exact ⟨rfl, rfl, rfl⟩
    · cases h
  | elapse | dropPort | link =>
    simp only [System.step, Option.some.injEq] at h
    subst h
    exact ⟨rfl, rfl, rfl⟩
  | ends evt =>
    simp only [System.step] at h
    repeat' split at h
    · cases h
    · exact htell h
    · rw [← Option.some.inj h]
      exact ⟨rfl, rfl, rfl⟩
    · cases h
  | notify evt =>
    simp only [System.step] at h
    repeat' split at h
    all_goals first | exact htell h | cases h

/-- The other events change nothing that an actor sees of the watchdog. -/
theorem solo_quiet {e : Event} (h : s.step e = some s') (hhandle : e ≠ .handle)
    (hsupervise : e ≠ .supervise) (hexpire : ∀ handle, e ≠ .expire handle) :
    s'.solo id = (s.happening id e).elim (s.solo id) (s.solo id).replay := by
  obtain ⟨hstate, hhistory, htimers⟩ := step_quiet h hhandle hsupervise hexpire
  have hnone : s.happening id e = none := by
    cases e with
    | handle => exact absurd rfl hhandle
    | supervise => exact absurd rfl hsupervise
    | expire handle => exact absurd rfl (hexpire handle)
    | post | elapse | dropPort | link | ends | notify => rfl
  rw [hnone, Option.elim_none]
  simp only [System.solo, View.solo, System.view, System.registration, hstate, hhistory,
    htimers]

/-- **One step of the watchdog, as an actor sees it.** -/
theorem solo_step (hc : Consistent s) {e : Event} (h : s.step e = some s')
    (halive : s'.state ≠ none) :
    s'.solo id = (s.happening id e).elim (s.solo id) (s.solo id).replay := by
  cases e with
  | handle => exact solo_handle hc h halive
  | supervise => exact solo_supervise hc h
  | expire handle => exact solo_expire h halive
  | post | elapse | dropPort | link | ends | notify =>
    exact solo_quiet h Event.noConfusion Event.noConfusion fun _ => Event.noConfusion

end Steps

/-! ## Runs -/

/-- What happens to the actor `id` in a run from the moment the watchdog is spawned, and when. -/
def happenings (id : ActorId) (es : List Event) : List (ℕ × Happening) :=
  trace (System.happening id) System.step spawn es

/-- The watchdog shows each actor a watchdog of its own, for as long as it has not failed. -/
theorem watchdog_projects (id : ActorId) :
    Projects System.step (System.happening id) Consistent (fun s => s.state ≠ none)
      (System.solo id) Solo.replay where
  invariant _ _ _ hc h := hc.step h
  alive _ _ _ h halive hnone := halive (state_eq_none_of_step h hnone)
  step _ _ _ hc halive h := solo_step hc h halive

/-- What a run leaves for an actor is what a watchdog of its own would have left. -/
theorem solo_eq_replay {id : ActorId} {es : List Event} {s : System} (h : run es = some s)
    (halive : s.state ≠ none) :
    s.solo id = (happenings id es).foldl Solo.replay Solo.empty :=
  (watchdog_projects id).view_eq_foldl h consistent_spawn halive

/-- **Watched actors do not influence each other.** In two runs in which the watchdog does not
fail, and in which the same happens to an actor at the same times and in the same order, the
registration held for the actor, its outstanding timers, the answers to its pings and the kill
and stop calls on it are the same at corresponding points. -/
theorem actors_isolated {id : ActorId} {es₁ es₂ p₁ p₂ : List Event} {s₁ s₂ t₁ t₂ : System}
    (h₁ : run es₁ = some s₁) (h₂ : run es₂ = some s₂) (halive₁ : s₁.state ≠ none)
    (halive₂ : s₂.state ≠ none) (hsame : happenings id es₁ = happenings id es₂)
    (hp₁ : p₁ <+: es₁) (hp₂ : p₂ <+: es₂) (ht₁ : run p₁ = some t₁) (ht₂ : run p₂ = some t₂)
    (hpoint : (happenings id p₁).length = (happenings id p₂).length) :
    t₁.solo id = t₂.solo id :=
  (watchdog_projects id).view_eq_of_corresponding h₁ h₂ consistent_spawn halive₁ halive₂ hsame
    hp₁ hp₂ ht₁ ht₂ hpoint

/-- One actor is alone in the first run. In the second another actor is registered before it,
misses its deadline and is killed: the timers then have other handles, and the first actor is
seen the same before its own `Timeout` is handled. -/
theorem actors_isolated_second_actor :
    ∃ p₁ p₂ t₁ t₂, run p₁ = some t₁ ∧ run p₂ = some t₂ ∧
      t₂.history.countP (·.strikes (.loc 2)) = 1 ∧ t₁.solo (.loc 1) = t₂.solo (.loc 1) := by
  let p₁ : List Event :=
    [.post (.register ⟨.loc 1⟩ 500 .stop), .handle, .elapse 300, .post (.ping (.loc 1) ⟨0⟩),
      .handle, .elapse 500, .expire 1]
  let p₂ : List Event :=
    [.post (.register ⟨.loc 2⟩ 100 .kill), .handle, .post (.register ⟨.loc 1⟩ 500 .stop),
      .post (.ping (.loc 2) ⟨1⟩), .handle, .handle, .elapse 300, .expire 2, .handle,
      .post (.ping (.loc 1) ⟨0⟩), .handle, .elapse 500, .expire 3]
  obtain ⟨t₁, ht₁⟩ : ∃ t, run p₁ = some t := Option.isSome_iff_exists.mp (by decide)
  obtain ⟨t₂, ht₂⟩ : ∃ t, run p₂ = some t := Option.isSome_iff_exists.mp (by decide)
  obtain ⟨s₁, hs₁⟩ : ∃ s, run (p₁ ++ [.handle]) = some s :=
    Option.isSome_iff_exists.mp (by decide)
  obtain ⟨s₂, hs₂⟩ : ∃ s, run (p₂ ++ [.handle]) = some s :=
    Option.isSome_iff_exists.mp (by decide)
  have halive₁ : (run (p₁ ++ [.handle])).map (·.state.isSome) = some true := by decide
  have halive₂ : (run (p₂ ++ [.handle])).map (·.state.isSome) = some true := by decide
  have hstrikes : (run p₂).map (·.history.countP (·.strikes (.loc 2))) = some 1 := by decide
  rw [hs₁, Option.map_some, Option.some.injEq, Option.isSome_iff_ne_none] at halive₁
  rw [hs₂, Option.map_some, Option.some.injEq, Option.isSome_iff_ne_none] at halive₂
  rw [ht₂, Option.map_some, Option.some.injEq] at hstrikes
  refine ⟨p₁, p₂, t₁, t₂, ht₁, ht₂, hstrikes, ?_⟩
  exact actors_isolated hs₁ hs₂ halive₁ halive₂ (by decide) (List.prefix_append _ _)
    (List.prefix_append _ _) ht₁ ht₂ (by decide)

end RactorActors.Watchdog
