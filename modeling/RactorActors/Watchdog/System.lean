import RactorActors.Foundations.LabelledRun
import RactorActors.Watchdog.Impl

/-!
# Runs of the watchdog

The watchdog actor together with what surrounds it: the clients that send it messages and may
drop their reply ports, the clock, its timers, and the actors it watches. One step is one event
(`Event`); the events chosen by the environment cover every interleaving of requests, expiries
and handlers.

* A message is handled only when no supervision event waits, one message or event at a time.
* Only timers send `Timeout`: `watchdog::{register, unregister, ping, stats}` are all the
  functions a client has (`fromClient`).
* A supervision event about an actor arrives only if the actor is linked to the watchdog
  (`System.linked`). No function of the watchdog links an actor to it.
* A handler that returns an error fails the watchdog: its state is gone (`System.state = none`)
  and nothing is delivered to it any more. The `OnceCell` keeps pointing at it.

`System.history` records what was handled, newest first. It is read by the properties and by
no handler.
-/

namespace RactorActors.Watchdog

open LabelledRun

/-- What the watchdog handles: a message from its mailbox or a supervision event. -/
inductive Input
  | msg (msg : WatchdogMsg)
  | evt (evt : SupervisionEvent)
deriving DecidableEq, Repr

/-- The actor an input is about. -/
def Input.subject : Input → Option ActorId
  | .msg (.register actor _ _) => some actor.getId
  | .msg (.unregister actor) => some actor.getId
  | .msg (.ping actor _) => some actor
  | .msg (.timeout actor) => some actor
  | .msg (.stats _) => none
  | .evt event => event.ended

/-- A record of one handled input. -/
structure Entry where
  /-- When the input was handled. -/
  time : ℕ
  /-- The input. -/
  input : Input
  /-- The timer that posted the input, if one did. -/
  origin : Option ℕ
  /-- The handle the next timer would have got before the input was handled. -/
  nextHandle : ℕ
  /-- The registration of the input's subject before the input was handled. -/
  found : Option Registration
  /-- The calls the handler made. -/
  calls : List Call
deriving DecidableEq, Repr

/-- The watchdog and its surroundings. -/
structure System where
  /-- The watchdog's clock, timers and message queue. -/
  myself : TimedMailbox WatchdogMsg
  /-- The supervision events that wait for the watchdog. -/
  supervision : List SupervisionEvent
  /-- The actor's state, `none` once the actor has failed. -/
  state : Option WatchdogState
  /-- The reply ports whose callers have gone. -/
  gone : List RpcReplyPort
  /-- The actors linked to the watchdog as their supervisor. -/
  linked : List ActorId
  /-- The actors that have ended. -/
  ended : List ActorId
  /-- What was handled, newest first. -/
  history : List Entry

/-- `spawn`: the watchdog as its first caller finds it. -/
def spawn : System where
  myself := TimedMailbox.empty 0
  supervision := []
  state := some preStart
  gone := []
  linked := []
  ended := []
  history := []

/-- The events of a run. -/
inductive Event
  /-- A client sends a message. -/
  | post (msg : WatchdogMsg)
  /-- The watchdog handles the next message. -/
  | handle
  /-- The watchdog handles the next supervision event. -/
  | supervise
  /-- The timer armed under `handle` posts its message. -/
  | expire (handle : ℕ)
  /-- Time passes. -/
  | elapse (duration : ℕ)
  /-- A caller stops waiting for its answer. -/
  | dropPort (reply : RpcReplyPort)
  /-- Some code makes the watchdog the supervisor of an actor. -/
  | link (actor : ActorId)
  /-- An actor ends; its supervisor, if it has one, is sent the event. -/
  | ends (evt : SupervisionEvent)
  /-- A supervision event that reports no end. -/
  | notify (evt : SupervisionEvent)
deriving DecidableEq, Repr

/-- A message that a function of the watchdog module sends for its caller. -/
def fromClient : WatchdogMsg → Bool
  | .timeout _ => false
  | _ => true

namespace System

/-- The registration held for an actor. -/
def registration (s : System) (id : ActorId) : Option Registration :=
  s.state.bind (·.subjects.lookup id)

/-- The message that the watchdog handles next, if it is free to handle one. -/
def nextMsg (s : System) : Option (Envelope WatchdogMsg) :=
  match s.state, s.supervision with
  | some _, [] => s.myself.next
  | _, _ => none

/-- Record what handling an input left behind. A handler's error fails the actor. -/
def finish (s : System) (input : Input) (origin : Option ℕ) (out : Outcome) : System :=
  { s with
    myself := out.myself
    state := match out.result with
      | .ok () => some out.state
      | .error _ => none
    history :=
      { time := s.myself.now
        input := input
        origin := origin
        nextHandle := s.myself.nextHandle
        found := input.subject.bind s.registration
        calls := out.calls } :: s.history }

/-- `cast`: deliver a message to the one watchdog ever spawned. -/
def cast (s : System) (msg : WatchdogMsg) : Except MessagingErr System :=
  match s.state with
  | some _ => .ok { s with myself := s.myself.post msg }
  | none => .error .sendErr

/-- Deliver a supervision event. -/
def tell (s : System) (evt : SupervisionEvent) : System :=
  match s.state with
  | some _ => { s with supervision := s.supervision ++ [evt] }
  | none => s

/-- One step of the run. -/
def step (s : System) : Event → Option System
  | .post msg =>
    if fromClient msg then
      match s.cast msg with
      | .ok s' => some s'
      -- the caller gets the error
      | .error _ => some s
    else none
  | .handle =>
    -- supervision events come first
    match s.state, s.supervision, s.myself.next with
    | some state, [], some m =>
      some (s.finish (.msg m.msg) m.origin
        (Watchdog.handle s.myself.receive s.gone state m.msg))
    | _, _, _ => none
  | .supervise =>
    match s.state, s.supervision with
    | some state, evt :: rest =>
      some { s.finish (.evt evt) none (handleSupervisorEvt s.myself evt state) with
        supervision := rest }
    | _, _ => none
  | .expire handle =>
    match s.state with
    | some _ => (s.myself.expire handle).map fun myself => { s with myself }
    -- the message of a timer that outlives the actor is lost
    | none => some { s with myself := s.myself.abort handle }
  | .elapse duration => some { s with myself := s.myself.elapse duration }
  | .dropPort reply => some { s with gone := reply :: s.gone }
  | .link actor => some { s with linked := actor :: s.linked }
  | .ends evt =>
    match evt.ended with
    | some id =>
      -- an actor ends once, and its supervisor alone is told
      if id ∈ s.ended then none
      else
        let s' := { s with ended := id :: s.ended }
        if id ∈ s.linked then some (s'.tell evt) else some s'
    | none => none
  | .notify evt =>
    match evt with
    | .actorStarted who => if who.getId ∈ s.linked then some (s.tell evt) else none
    -- these report an end
    | .actorTerminated _ _ => none
    | .actorFailed _ _ => none
    | .processGroupChanged => some (s.tell evt)
    | .pidLifecycleEvent => some (s.tell evt)

end System

/-- The state after a list of events, from the moment the watchdog is spawned. -/
def run (es : List Event) : Option System := exec System.step spawn es

/-- The states some run of the watchdog reaches. -/
def Reachable (s : System) : Prop := ∃ es, run es = some s

/-! ## Reading the history -/

/-- The actor that a call kills or stops. -/
def Call.victim : Call → Option ActorId
  | .kill actor => some actor
  | .stop actor _ => some actor
  | _ => none

namespace Entry

/-- The entry records the handling of a `Register(id)`. -/
def registers (e : Entry) (id : ActorId) : Bool :=
  match e.input with
  | .msg (.register actor _ _) => actor.getId = id
  | _ => false

/-- The entry records the handling of a `Ping(id)`. -/
def pings (e : Entry) (id : ActorId) : Bool :=
  match e.input with
  | .msg (.ping actor _) => actor = id
  | _ => false

/-- The entry records a kill or a stop of the actor. -/
def strikes (e : Entry) (id : ActorId) : Bool :=
  e.calls.any (·.victim = some id)

/-- The entry records a `Ping(id)` that was answered. -/
def answers (e : Entry) (id : ActorId) : Bool :=
  e.pings id && e.calls.any fun
    | .pong _ => true
    | _ => false

end Entry

/-- The time of the last `Register(id)` or `Ping(id)` that was handled. -/
def lastTouch (id : ActorId) : List Entry → Option ℕ
  | [] => none
  | e :: old => if e.registers id || e.pings id then some e.time else lastTouch id old

end RactorActors.Watchdog
