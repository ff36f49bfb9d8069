import RactorActors.Ractor
import RactorActors.Foundations.LabelledRun

/-!
# The broadcaster actor

The state, the messages and the handlers of `sync/broadcast/mod.rs`, and the runs of the actor.
The messages are of any type `T`. What a target's `send` returns, and in which order the map of
targets is gone through, is chosen anew for each message.
-/

namespace RactorActors.Sync.Broadcast

open LabelledRun

/-- A `BroadcastTarget` object: the id that it gives, and which object it is. -/
structure BroadcastTarget where
  id : ActorId
  name : ℕ
deriving DecidableEq, Repr

/-- `BroadcasterConfig` -/
structure BroadcasterConfig where
  /-- Initial broadcast targets to send messages to. -/
  initialTargets : List BroadcastTarget
  /-- If it is set, a target whose `send` fails is tried again on later messages; if not, a
  failing `send` takes down the actor. -/
  continueWithDeadTargets : Bool

/-- The messages the broadcaster supports. -/
inductive BroadcasterMessage (T : Type)
  | broadcast (message : T)
  /-- Add a new downstream target to the broadcast. -/
  | addTarget (target : BroadcastTarget)
  /-- Remove a target from the downstream targets. -/
  | removeTarget (target : ActorId)
  /-- Get the ids of the downstream broadcast targets. -/
  | listTargets (reply : RpcReplyPort)
deriving DecidableEq, Repr

/-- `BroadcasterState` -/
structure BroadcasterState where
  targets : HashMap ActorId BroadcastTarget
  continueWithDeadTargets : Bool

/-- One call of `BroadcastTarget::send`. -/
structure Sent (T : Type) where
  who : ActorId
  target : BroadcastTarget
  message : T
  result : Except ActorProcessingErr Unit
deriving DecidableEq

/-- What one handler leaves behind. -/
structure Outcome (T : Type) where
  state : BroadcasterState
  /-- The calls of `send`, in order. -/
  sent : List (Sent T)
  replies : List (RpcReplyPort × List ActorId)
  result : Except ActorProcessingErr Unit

/-- `Broadcaster::pre_start` -/
def preStart (config : BroadcasterConfig) : Except ActorProcessingErr BroadcasterState :=
  .ok {
    targets := (config.initialTargets.map fun target => (target.id, target)).foldl
      (fun targets target => targets.insert target.1 target.2) ∅
    continueWithDeadTargets := config.continueWithDeadTargets }

section Handlers

variable {T : Type}

/-- The loop of `Broadcaster::broadcast` over the targets, where `sends` is what each target's
`send` returns. -/
def forward (continueWithDeadTargets : Bool) (message : T)
    (sends : BroadcastTarget → Except ActorProcessingErr Unit) :
    List ((_ : ActorId) × BroadcastTarget) → List (Sent T) × Except ActorProcessingErr Unit
  | [] => ([], .ok ())
  | ⟨who, target⟩ :: rest =>
    match sends target with
    | .error error =>
      if !continueWithDeadTargets then
        -- fail the broadcaster actor
        ([⟨who, target, message, .error error⟩], .error error)
      else
        let (sent, result) := forward continueWithDeadTargets message sends rest
        (⟨who, target, message, .error error⟩ :: sent, result)
    | .ok () =>
      let (sent, result) := forward continueWithDeadTargets message sends rest
      (⟨who, target, message, .ok ()⟩ :: sent, result)

/-- `Broadcaster::broadcast`, going through the map in the given order. -/
def broadcast (order : List ((_ : ActorId) × BroadcastTarget))
    (sends : BroadcastTarget → Except ActorProcessingErr Unit) (message : T)
    (state : BroadcasterState) : Outcome T :=
  let (sent, result) := forward state.continueWithDeadTargets message sends order
  { state, sent, replies := [], result }

/-- `Broadcaster::add_target` -/
def addTarget (target : BroadcastTarget) (state : BroadcasterState) : Outcome T :=
  { state := { state with targets := state.targets.insert target.id target }
    sent := []
    replies := []
    result := .ok () }

/-- `Broadcaster::remove_target` -/
def removeTarget (target : ActorId) (state : BroadcasterState) : Outcome T :=
  { state := { state with targets := state.targets.erase target }
    sent := []
    replies := []
    result := .ok () }

/-- `Broadcaster::list_targets`, going through the map in the given order. -/
def listTargets (order : List ((_ : ActorId) × BroadcastTarget)) (reply : RpcReplyPort)
    (state : BroadcasterState) : Outcome T :=
  { state, sent := [], replies := [(reply, order.map (·.1))], result := .ok () }

/-- The handler of each message. -/
def handle (order : List ((_ : ActorId) × BroadcastTarget))
    (sends : BroadcastTarget → Except ActorProcessingErr Unit) (state : BroadcasterState) :
    BroadcasterMessage T → Outcome T
  | .broadcast message => broadcast order sends message state
  | .addTarget target => addTarget target state
  | .removeTarget target => removeTarget target state
  | .listTargets reply => listTargets order reply state

end Handlers

/-! ## Runs -/

/-- Where the actor is in its life. -/
inductive Phase
  | running (state : BroadcasterState)
  | stopped
  | failed (what : ActorProcessingErr)

/-- A record of one handled message. -/
structure Entry (T : Type) where
  msg : BroadcasterMessage T
  sent : List (Sent T)
  replies : List (RpcReplyPort × List ActorId)

/-- The actor, with what it handled. -/
structure System (T : Type) where
  phase : Phase
  /-- What was handled, newest first. -/
  history : List (Entry T)

/-- The events of a run. -/
inductive Event (T : Type)
  /-- The actor handles a message, going through its map in this order and with these results
  of `send`. -/
  | handle (msg : BroadcasterMessage T) (order : List ((_ : ActorId) × BroadcastTarget))
    (sends : BroadcastTarget → Except ActorProcessingErr Unit)
  /-- The actor takes a stop. -/
  | stop

namespace System

variable {T : Type}

/-- One step of the run. Any order of the map's entries can come; a handler's error fails the
actor. -/
def step (s : System T) : Event T → Option (System T)
  | .handle msg order sends =>
    match s.phase with
    | .running state =>
      if order.Perm state.targets.entries then
        let out := Broadcast.handle order sends state msg
        some {
          phase := match out.result with
            | .ok () => .running out.state
            | .error what => .failed what
          history := ⟨msg, out.sent, out.replies⟩ :: s.history }
      else
        none
    | _ => none
  | .stop =>
    match s.phase with
    | .running _ => some { s with phase := .stopped }
    | _ => none

end System

/-- The actor after a list of events, from its start. -/
def run {T : Type} (config : BroadcasterConfig) (es : List (Event T)) : Option (System T) :=
  match preStart config with
  | .ok state => exec System.step { phase := .running state, history := [] } es
  | .error _ => none

end RactorActors.Sync.Broadcast
