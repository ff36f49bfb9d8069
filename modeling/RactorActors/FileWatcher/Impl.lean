import RactorActors.Ractor
import RactorActors.Foundations.LabelledRun

/-!
# The file watcher actor

The state, the messages and the handlers of `filewatcher/mod.rs`, and the runs of the actor. The
`notify` crate is seen through what it reports: whether a watcher could be made and a path be
watched, and the events (of any type `Ev`) and errors it casts to the actor.
-/

namespace RactorActors.FileWatcher

open LabelledRun

/-- The answer to a subscription request. -/
inductive SubscriptionResult
  /-- Subscription operation succeeded. -/
  | ok
  /-- There is already a subscription for the specified actor. -/
  | duplicate
  /-- Upon removal, this subscription was not found. -/
  | notFound
deriving DecidableEq, Repr

/-- A `FileWatcherSubscriber` object, by its identity. -/
structure FileWatcherSubscriber where
  name : ℕ
deriving DecidableEq, Repr

/-- The messages the file watcher supports. -/
inductive FileWatcherMessage (Ev : Type)
  /-- A file event was received. -/
  | event (event : Ev)
  /-- A file-watcher error occurred. Terminates the actor. -/
  | fwError (error : String)
  | subscribe (who : ActorId) (subscriber : FileWatcherSubscriber) (reply : RpcReplyPort)
  | unsubscribe (who : ActorId) (reply : RpcReplyPort)
deriving DecidableEq, Repr

/-- How a path is watched. -/
inductive RecursiveMode
  | recursive
  | nonRecursive
deriving DecidableEq, Repr

/-- `FileWatcherConfig` -/
structure FileWatcherConfig where
  /-- The files to watch. -/
  files : List String
  /-- The directories to watch. -/
  directories : List String

/-- `FileWatcherState` -/
structure FileWatcherState where
  /-- What the watcher of the `notify` crate watches, while there is one. -/
  watcher : Option (List (String × RecursiveMode))
  subscriptions : HashMap ActorId FileWatcherSubscriber

/-- What one handler leaves behind. -/
structure Outcome (Ev : Type) where
  state : FileWatcherState
  /-- The calls of `event_received`. -/
  deliveries : List (FileWatcherSubscriber × Ev)
  replies : List (RpcReplyPort × SubscriptionResult)
  result : Except ActorProcessingErr Unit

/-- `FileWatcher::pre_start`, given whether `notify` could make a watcher and what its `watch`
returns. -/
def preStart (recommendedWatcher : Except String Unit)
    (watch : String → RecursiveMode → Except String Unit) (arguments : FileWatcherConfig) :
    Except ActorProcessingErr FileWatcherState := do
  recommendedWatcher.mapError .message
  arguments.files.forM fun file => (watch file .nonRecursive).mapError .message
  arguments.directories.forM fun dir => (watch dir .recursive).mapError .message
  return {
    watcher := some (arguments.files.map (·, .nonRecursive) ++
      arguments.directories.map (·, .recursive))
    subscriptions := ∅ }

/-- `FileWatcher::post_stop` -/
def postStop (state : FileWatcherState) : FileWatcherState := { state with watcher := none }

section Handlers

variable {Ev : Type}

/-- `FileWatcher::event` -/
def event (watcherEvent : Ev) (state : FileWatcherState) : Outcome Ev :=
  { state
    deliveries := state.subscriptions.entries.map fun sub => (sub.2, watcherEvent)
    replies := []
    result := .ok () }

/-- `FileWatcher::filewatcher_error` -/
def filewatcherError (error : String) (state : FileWatcherState) : Outcome Ev :=
  { state, deliveries := [], replies := [], result := .error (.message error) }

/-- `FileWatcher::subscribe`. The map takes the new object also when the answer is
`Duplicate`. -/
def subscribe (who : ActorId) (subscriber : FileWatcherSubscriber) (reply : RpcReplyPort)
    (state : FileWatcherState) : Outcome Ev :=
  let inserted := { state with subscriptions := state.subscriptions.insert who subscriber }
  match state.subscriptions.lookup who with
  | none => { state := inserted, deliveries := [], replies := [(reply, .ok)], result := .ok () }
  | some _ =>
    { state := inserted, deliveries := [], replies := [(reply, .duplicate)], result := .ok () }

/-- `FileWatcher::unsubscribe` -/
def unsubscribe (who : ActorId) (reply : RpcReplyPort) (state : FileWatcherState) :
    Outcome Ev :=
  let removed := { state with subscriptions := state.subscriptions.erase who }
  match state.subscriptions.lookup who with
  | some _ => { state := removed, deliveries := [], replies := [(reply, .ok)], result := .ok () }
  | none =>
    { state := removed, deliveries := [], replies := [(reply, .notFound)], result := .ok () }

/-- The handler of each message. -/
def handle (state : FileWatcherState) : FileWatcherMessage Ev → Outcome Ev
  | .event watcherEvent => event watcherEvent state
  | .fwError error => filewatcherError error state
  | .subscribe who subscriber reply => subscribe who subscriber reply state
  | .unsubscribe who reply => unsubscribe who reply state

end Handlers

/-! ## Runs -/

/-- A record of one handled message. -/
structure Entry (Ev : Type) where
  msg : FileWatcherMessage Ev
  /-- The state that the handler found. -/
  before : FileWatcherState
  /-- What it left behind. -/
  outcome : Outcome Ev

/-- The actor, with what it handled. -/
structure System (Ev : Type) where
  /-- The actor's state, `none` once the actor has ended. -/
  state : Option FileWatcherState
  /-- What was handled, newest first. -/
  history : List (Entry Ev)

/-- The events of a run. -/
inductive Event (Ev : Type)
  /-- The actor handles a message. -/
  | handle (msg : FileWatcherMessage Ev)
  /-- The actor takes a stop. -/
  | stop

namespace System

variable {Ev : Type}

/-- One step of the run. A handler's error fails the actor. -/
def step (s : System Ev) : Event Ev → Option (System Ev)
  | .handle msg =>
    match s.state with
    | some state =>
      let out := FileWatcher.handle state msg
      some {
        state := match out.result with
          | .ok () => some out.state
          | .error _ => none
        history := ⟨msg, state, out⟩ :: s.history }
    | none => none
  | .stop =>
    match s.state with
    | some _ => some { s with state := none }
    | none => none

end System

/-- The state after a list of events, from the moment the actor runs. -/
def run {Ev : Type} (state : FileWatcherState) (es : List (Event Ev)) : Option (System Ev) :=
  exec System.step { state := some state, history := [] } es

end RactorActors.FileWatcher
