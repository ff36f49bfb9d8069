import Mathlib.Data.List.AList

/-!
# What the actors use of ractor

The types of the actor framework that appear in the messages and the states of this
development's actors: identities, reply ports, supervision events and errors. Only what the
modelled code reads is kept: an `ActorCell` is its identity, and a supervision event carries
the actor it is about and its reason. Points in time and durations are natural numbers of clock
ticks.

A Rust `HashMap` is an association list without duplicate keys (`AList`): the order of its
entries stands for the unspecified iteration order.
-/

namespace RactorActors

/-- A map from keys `κ` to values `ν`. -/
abbrev HashMap (κ ν : Type) := AList fun _ : κ => ν

/-- The identity of an actor. -/
inductive ActorId
  /-- An actor of this process. -/
  | loc (pid : UInt64)
  /-- An actor of another node of the cluster. -/
  | remote (nodeId pid : UInt64)
deriving DecidableEq, Repr

/-- A reference to an actor of any message type. -/
structure ActorCell where
  /-- The identity the reference points to. -/
  id : ActorId
deriving DecidableEq, Repr

/-- `ActorCell::get_id`. -/
def ActorCell.getId (actor : ActorCell) : ActorId := actor.id

/-- Why a message could not be sent. -/
inductive MessagingErr
  | sendErr
  | channelClosed
deriving DecidableEq, Repr

/-- The error a handler returns. A handler that returns one fails its actor. -/
inductive ActorProcessingErr
  | messaging (err : MessagingErr)
  | message (what : String)
  /-- `SpawnErr::StartupFailed`: the actor's `pre_start` returned `err`. -/
  | startupFailed (err : ActorProcessingErr)
deriving DecidableEq, Repr

/-- The port on which a caller waits for its answer, named by its call. -/
structure RpcReplyPort where
  /-- The call the port belongs to. -/
  call : ℕ
deriving DecidableEq, Repr

/-- `RpcReplyPort::send` succeeds unless the caller has gone. -/
def RpcReplyPort.send (reply : RpcReplyPort) (gone : List RpcReplyPort) :
    Except MessagingErr Unit :=
  if reply ∈ gone then .error .channelClosed else .ok ()

/-- What an actor is told about the actors it supervises or monitors. -/
inductive SupervisionEvent
  | actorStarted (who : ActorCell)
  | actorTerminated (who : ActorCell) (reason : Option String)
  | actorFailed (who : ActorCell) (what : ActorProcessingErr)
  | processGroupChanged
  | pidLifecycleEvent
deriving DecidableEq, Repr

/-- The actor whose end the event reports, if it reports one. -/
def SupervisionEvent.ended : SupervisionEvent → Option ActorId
  | .actorTerminated who _ => some who.getId
  | .actorFailed who _ => some who.getId
  | _ => none

/-- How an actor ended. -/
inductive Exit
  | terminated (reason : Option String)
  | failed (what : ActorProcessingErr)
deriving DecidableEq, Repr

/-- The event that an ended actor posts to its supervisor. -/
def Exit.event (exit : Exit) (who : ActorCell) : SupervisionEvent :=
  match exit with
  | .terminated reason => .actorTerminated who reason
  | .failed what => .actorFailed who what

/-- The actor that an exit event reports. -/
theorem ended_event (exit : Exit) (who : ActorCell) :
    (exit.event who).ended = some who.getId := by
  cases exit <;> rfl

end RactorActors
