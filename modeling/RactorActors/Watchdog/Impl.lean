import RactorActors.Ractor
import RactorActors.Foundations.TimedMailbox

/-!
# The watchdog actor

The state, the messages and the handlers of `watchdog/impl.rs`. A handler takes the actor's
own mailbox (`myself`, on which it arms and aborts timers) and its state, and gives both back
with the calls it made on other parties and the result it returned.

A `Registration` stores the handle of the timer armed by `register`. `ping` aborts that handle
and arms another timer, whose handle it does not store.
-/

namespace RactorActors.Watchdog

/-- What the watchdog does to an actor that missed its deadline. -/
inductive TimeoutStrategy
  /-- Call `ActorCell::kill`. -/
  | kill
  /-- Call `ActorCell::stop` with `watchdogTimeout` as the reason. -/
  | stop
deriving DecidableEq, Repr

/-- The stop reason of an actor stopped by a watchdog timeout. -/
def watchdogTimeout : String := "watchdog_timeout"

/-- The answer to `stats`. -/
structure WatchdogStats where
  kills : ℕ
deriving DecidableEq, Repr

/-- The messages the watchdog supports. -/
inductive WatchdogMsg
  | register (actor : ActorCell) (timeout : ℕ) (timeoutStrategy : TimeoutStrategy)
  | unregister (actor : ActorCell)
  | ping (actor : ActorId) (reply : RpcReplyPort)
  | timeout (actor : ActorId)
  | stats (reply : RpcReplyPort)
deriving DecidableEq, Repr

/-- What the watchdog stores about a watched actor. -/
structure Registration where
  actor : ActorCell
  timeout : ℕ
  timeoutStrategy : TimeoutStrategy
  /-- The handle of the timer armed when the actor was registered. -/
  timer : ℕ
deriving DecidableEq, Repr

/-- The state of the watchdog. -/
structure WatchdogState where
  subjects : HashMap ActorId Registration
  kills : ℕ
  stops : ℕ

/-- What a handler does to parties other than the watchdog itself. -/
inductive Call
  /-- `actor.kill()` -/
  | kill (actor : ActorId)
  /-- `actor.stop(Some(reason))` -/
  | stop (actor : ActorId) (reason : String)
  /-- A ping was answered. -/
  | pong (reply : RpcReplyPort)
  /-- A stats call was answered. -/
  | stats (reply : RpcReplyPort) (stats : WatchdogStats)
deriving DecidableEq, Repr

/-- What one handler leaves behind. -/
structure Outcome where
  myself : TimedMailbox WatchdogMsg
  state : WatchdogState
  calls : List Call
  result : Except ActorProcessingErr Unit

/-- `Watchdog::pre_start` -/
def preStart : WatchdogState := { subjects := ∅, kills := 0, stops := 0 }

/-- `WatchdogState::unregister`: drop the registration and abort the timer it stores. -/
def WatchdogState.unregister (state : WatchdogState) (myself : TimedMailbox WatchdogMsg)
    (cell : ActorCell) : TimedMailbox WatchdogMsg × WatchdogState :=
  match state.subjects.lookup cell.getId with
  | some registration =>
    (myself.abort registration.timer,
      { state with subjects := state.subjects.erase cell.getId })
  | none => (myself, { state with subjects := state.subjects.erase cell.getId })

/-- `Watchdog::register` -/
def register (myself : TimedMailbox WatchdogMsg) (actor : ActorCell) (timeout : ℕ)
    (timeoutStrategy : TimeoutStrategy) (state : WatchdogState) : Outcome :=
  let id := actor.getId
  let timer := myself.nextHandle
  { myself := myself.sendAfter timeout (.timeout id)
    -- an earlier registration of the actor is overwritten, and its timer stays armed
    state := { state with
      subjects := state.subjects.insert id { actor, timeout, timeoutStrategy, timer } }
    calls := []
    result := .ok () }

/-- `Watchdog::unregister` -/
def unregister (myself : TimedMailbox WatchdogMsg) (actor : ActorCell)
    (state : WatchdogState) : Outcome :=
  let left := state.unregister myself actor
  { myself := left.1, state := left.2, calls := [], result := .ok () }

/-- `Watchdog::ping`. The reply of an unknown actor's ping is dropped. -/
def ping (myself : TimedMailbox WatchdogMsg) (gone : List RpcReplyPort) (actor : ActorId)
    (reply : RpcReplyPort) (state : WatchdogState) : Outcome :=
  match state.subjects.lookup actor with
  | some registration =>
    -- the registration keeps the handle that is aborted here, not that of the new timer
    { myself := (myself.abort registration.timer).sendAfter registration.timeout
        (.timeout actor)
      state := state
      -- a failed reply is ignored
      calls := match reply.send gone with
        | .ok () => [.pong reply]
        | .error _ => []
      result := .ok () }
  | none =>
    { myself := myself
      state := { state with subjects := state.subjects.erase actor }
      calls := []
      result := .ok () }

/-- `Watchdog::timeout` -/
def timeout (myself : TimedMailbox WatchdogMsg) (actor : ActorId) (state : WatchdogState) :
    Outcome :=
  match state.subjects.lookup actor with
  | some registration =>
    let subjects := state.subjects.erase actor
    match registration.timeoutStrategy with
    | .kill =>
      { myself := myself
        state := { state with subjects := subjects, kills := state.kills + 1 }
        calls := [.kill registration.actor.getId]
        result := .ok () }
    | .stop =>
      { myself := myself
        state := { state with subjects := subjects, stops := state.stops + 1 }
        calls := [.stop registration.actor.getId watchdogTimeout]
        result := .ok () }
  -- a timeout of an actor that is not registered any more
  | none =>
    { myself := myself
      state := { state with subjects := state.subjects.erase actor }
      calls := []
      result := .ok () }

/-- `Watchdog::stats`. A failed reply is the handler's own error. -/
def stats (myself : TimedMailbox WatchdogMsg) (gone : List RpcReplyPort) (reply : RpcReplyPort)
    (state : WatchdogState) : Outcome :=
  match reply.send gone with
  | .ok () =>
    { myself := myself, state := state, calls := [.stats reply { kills := state.kills }],
      result := .ok () }
  | .error err =>
    { myself := myself, state := state, calls := [], result := .error (.messaging err) }

/-- The handler of each message. -/
def handle (myself : TimedMailbox WatchdogMsg) (gone : List RpcReplyPort)
    (state : WatchdogState) : WatchdogMsg → Outcome
  | .register actor timeout timeoutStrategy =>
    register myself actor timeout timeoutStrategy state
  | .unregister actor => unregister myself actor state
  | .ping actor reply => ping myself gone actor reply state
  | .timeout actor => timeout myself actor state
  | .stats reply => stats myself gone reply state

/-- `Watchdog::handle_supervisor_evt` -/
def handleSupervisorEvt (myself : TimedMailbox WatchdogMsg) (message : SupervisionEvent)
    (state : WatchdogState) : Outcome :=
  match message with
  | .actorTerminated cell _ =>
    let left := state.unregister myself cell
    { myself := left.1, state := left.2, calls := [], result := .ok () }
  | .actorFailed cell _ =>
    let left := state.unregister myself cell
    { myself := left.1, state := left.2, calls := [], result := .ok () }
  -- every other event is ignored
  | _ => { myself := myself, state := state, calls := [], result := .ok () }

end RactorActors.Watchdog
