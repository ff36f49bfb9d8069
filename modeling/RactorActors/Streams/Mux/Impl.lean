import RactorActors.Foundations.LabelledRun
import RactorActors.Streams.Pump

/-!
# The stream multiplexer

The `MuxActor` of `streams/mux/mod.rs` together with the pump that feeds it (`System`). Nobody but
the two actors themselves stops either of them, and the stream does not panic. One step is one
event of one of the two actors.

* What a target answers to an item is chosen anew for each item.
* The pump posts an event to the multiplexer when it has started and when it has ended, each some
  time later.
* Between two handlers of the multiplexer a pending stop comes before supervision events, and both
  come before messages.
* The end of the multiplexer kills the pump, which takes that kill some time later.
-/

namespace RactorActors.Streams.Mux

open LabelledRun

/-- A `Target` object: its id, and which object it is. -/
structure Target where
  id : String
  object : ℕ
deriving DecidableEq, Repr

/-- `StreamMuxConfiguration`. What the callback is told is recorded in the calls. -/
structure StreamMuxConfiguration (X : Type) where
  /-- The stream to read items from. -/
  stream : List X
  /-- The collection of targets to forward the stream items to. -/
  targets : List Target
  /-- If it is set, a target that has returned an error is offered no further item. -/
  stopProcessingTargetOnFailure : Bool
deriving DecidableEq, Repr

/-- A call that the multiplexer makes. -/
inductive Call (X : Type)
  | messageReceived (target : Target) (item : X) (result : Except ActorProcessingErr Unit)
  /-- `StreamMuxNotification::target_failed` -/
  | targetFailed (target : String) (err : ActorProcessingErr)
  /-- `StreamMuxNotification::end_of_stream` -/
  | endOfStream
deriving DecidableEq

/-- A multiplexer actor, with its state. -/
structure MuxActor (X : Type) where
  targets : List Target
  stopProcessingTargetOnFailure : Bool
  queue : List (Option X)
  /-- The supervision events that wait for the actor. -/
  supervision : List SupervisionEvent
  /-- A stop, with its reason, that was sent to the actor and not taken yet. -/
  stopping : Option (Option String)
  /-- How the actor ended, if it has. -/
  exit : Option Exit
deriving DecidableEq, Repr

namespace MuxActor

variable {X : Type}

/-- The actor ends. -/
def finish (s : MuxActor X) (exit : Exit) : MuxActor X :=
  { s with queue := [], supervision := [], exit := some exit }

/-- `ActorRef::stop`. Only the first stop of an actor counts. -/
def stop (s : MuxActor X) (reason : Option String) : MuxActor X :=
  match s.exit, s.stopping with
  | none, none => { s with stopping := some reason }
  | _, _ => s

/-- Queue a supervision event, if the mailbox is open. -/
def tell (s : MuxActor X) (evt : SupervisionEvent) : MuxActor X :=
  match s.exit with
  | none => { s with supervision := s.supervision ++ [evt] }
  | some _ => s

/-- The loop of `MuxActor::item_received` over the targets: the calls, and the ids to be removed. -/
def offer (item : X) (results : Target → Except ActorProcessingErr Unit) :
    List Target → List (Call X) × List String
  | [] => ([], [])
  | target :: rest =>
    let (calls, toBeRemoved) := offer item results rest
    match results target with
    | .error err =>
      (.messageReceived target item (.error err) :: .targetFailed target.id err :: calls,
        target.id :: toBeRemoved)
    -- successfully sent notification
    | .ok () => (.messageReceived target item (.ok ()) :: calls, toBeRemoved)

/-- `MuxActor::item_received` -/
def itemReceived (s : MuxActor X) (item : X)
    (results : Target → Except ActorProcessingErr Unit) : MuxActor X × List (Call X) :=
  let (calls, toBeRemoved) := offer item results s.targets
  if s.stopProcessingTargetOnFailure then
    let targets := s.targets.filter fun target => target.id ∉ toBeRemoved
    if targets.isEmpty then
      -- halting stream processing as no more targets exist
      ({ s with targets }.stop none, calls ++ [.endOfStream])
    else ({ s with targets }, calls)
  else (s, calls)

/-- `MuxActor::end_of_stream` -/
def endOfStream (s : MuxActor X) : MuxActor X × List (Call X) :=
  (s.stop (some "End of stream"), [.endOfStream])

/-- The handler of each message. -/
def handle (s : MuxActor X) (results : Target → Except ActorProcessingErr Unit) :
    Option X → MuxActor X × List (Call X)
  | some item => s.itemReceived item results
  | none => s.endOfStream

/-- `MuxActor::handle_supervisor_evt`. The error that bubbles up is what the child failed with. -/
def handleSupervisorEvt (s : MuxActor X) : SupervisionEvent → MuxActor X
  | .actorFailed _ what => s.finish (.failed what)
  | _ => s

/-! ## What a handler can do -/

/-- The targets that are left after an item. -/
def remaining (s : MuxActor X) (item : X)
    (results : Target → Except ActorProcessingErr Unit) : List Target :=
  s.targets.filter fun target => target.id ∉ (offer item results s.targets).2

/-- Everything that one handler can do to an actor that runs and is not told to stop. -/
inductive HandleCase (s : MuxActor X) (results : Target → Except ActorProcessingErr Unit) :
    Option X → MuxActor X × List (Call X) → Prop
  /-- The targets are kept. -/
  | kept (item : X) (hflag : s.stopProcessingTargetOnFailure = false) :
      HandleCase s results (some item) (s, (offer item results s.targets).1)
  /-- The targets that failed are removed, and some are left. -/
  | reduced (item : X) (hflag : s.stopProcessingTargetOnFailure = true)
      (hleft : s.remaining item results ≠ []) :
      HandleCase s results (some item)
        ({ s with targets := s.remaining item results }, (offer item results s.targets).1)
  /-- The last targets are removed. -/
  | exhausted (item : X) (hflag : s.stopProcessingTargetOnFailure = true)
      (hleft : s.remaining item results = []) :
      HandleCase s results (some item)
        ({ s with targets := [], stopping := some none },
          (offer item results s.targets).1 ++ [.endOfStream])
  /-- The stream has ended. -/
  | ended : HandleCase s results none
      ({ s with stopping := some (some "End of stream") }, [.endOfStream])

/-- **Handler inversion.** -/
theorem handle_cases {s : MuxActor X} (hexit : s.exit = none) (hstop : s.stopping = none)
    (results : Target → Except ActorProcessingErr Unit) (msg : Option X) :
    HandleCase s results msg (s.handle results msg) := by
  cases msg with
  | none =>
    have hhandle : s.handle results none =
        ({ s with stopping := some (some "End of stream") }, [.endOfStream]) := by
      simp only [MuxActor.handle, MuxActor.endOfStream, MuxActor.stop, hexit, hstop]
    rw [hhandle]
    exact HandleCase.ended
  | some item =>
    cases hflag : s.stopProcessingTargetOnFailure with
    | false =>
      have hhandle : s.handle results (some item) = (s, (offer item results s.targets).1) := by
        simp only [MuxActor.handle, itemReceived, hflag, Bool.false_eq_true, if_false]
      rw [hhandle]
      exact HandleCase.kept item hflag
    | true =>
      by_cases hleft : s.remaining item results = []
      · have hhandle : s.handle results (some item) =
            ({ s with targets := [], stopping := some none },
              (offer item results s.targets).1 ++ [.endOfStream]) := by
          rw [remaining] at hleft
          simp only [MuxActor.handle, itemReceived, hflag, if_true, hleft, List.isEmpty_nil,
            MuxActor.stop, hexit, hstop]
        rw [hhandle]
        exact HandleCase.exhausted item hflag hleft
      · have hhandle : s.handle results (some item) =
            ({ s with targets := s.remaining item results },
              (offer item results s.targets).1) := by
          have hsome : (s.remaining item results).isEmpty = false := by
            rw [List.isEmpty_eq_false_iff]
            exact hleft
          rw [remaining] at hsome
          simp only [MuxActor.handle, itemReceived, hflag, if_true, hsome, Bool.false_eq_true,
            if_false]
          rfl
        rw [hhandle]
        exact HandleCase.reduced item hflag hleft

end MuxActor

/-! ## The multiplexer and its pump -/

/-- A multiplexer with its pump. -/
structure System (X : Type) where
  mux : MuxActor X
  pump : Pump X
  /-- The pump has posted that it has started. -/
  pumpAnnounced : Bool
  /-- The pump has posted its exit event. -/
  pumpReported : Bool
  /-- The messages that the multiplexer has handled. No handler looks at them. -/
  handled : List (Option X)
  /-- The calls that the multiplexer has made, in order. No handler looks at them. -/
  calls : List (Call X)
deriving DecidableEq

/-- The events of a multiplexer and its pump. -/
inductive Event
  /-- The pump takes a step of its own. -/
  | pump (e : PumpEvent)
  /-- The pump posts that it has started. -/
  | announcePump
  /-- The pump, which has ended, posts its exit event. -/
  | reportPump
  /-- The multiplexer takes the next message. The targets return these results. -/
  | handle (results : Target → Except ActorProcessingErr Unit)
  /-- The multiplexer takes the next supervision event. -/
  | supervise
  /-- The multiplexer takes a pending stop. -/
  | takeStop
  /-- The pump takes the kill that the end of the multiplexer sends. -/
  | killPump

/-- The cell of the pump. -/
def pumpCell : ActorCell := ⟨.loc 1⟩

namespace System

variable {X : Type}

/-- `MuxActor::pre_start`: the pump is spawned with the multiplexer as receiver and supervisor. -/
def preStart (config : StreamMuxConfiguration X) : System X where
  mux :=
    { targets := config.targets
      stopProcessingTargetOnFailure := config.stopProcessingTargetOnFailure
      queue := [], supervision := [], stopping := none, exit := none }
  pump := Pump.preStart config.stream
  pumpAnnounced := false
  pumpReported := false
  handled := []
  calls := []

/-- The pump has taken a step, in which it may have cast a message to the multiplexer. -/
def pumpStepped (s : System X) : Pump X × Option (Option X) → System X
  | (pump, some msg) => { s with pump, mux := { s.mux with queue := s.mux.queue ++ [msg] } }
  | (pump, none) => { s with pump }

/-- The multiplexer handles a message. -/
def muxHandled (s : System X) (msg : Option X) (rest : List (Option X))
    (results : Target → Except ActorProcessingErr Unit) : System X :=
  let (mux, calls) := { s.mux with queue := rest }.handle results msg
  { s with mux, handled := s.handled ++ [msg], calls := s.calls ++ calls }

/-- One step of a multiplexer and its pump. -/
def step (s : System X) : Event → Option (System X)
  | .pump e =>
    -- the pump's cast fails once the multiplexer has ended
    if e.isOwn then (s.pump.step id (s.mux.exit = none) e).map s.pumpStepped else none
  | .announcePump =>
    if s.pumpAnnounced then none
    else some { s with pumpAnnounced := true, mux := s.mux.tell (.actorStarted pumpCell) }
  | .reportPump =>
    match s.pump.exit, s.pumpReported with
    | some exit, false =>
      some { s with pumpReported := true, mux := s.mux.tell (exit.event pumpCell) }
    | _, _ => none
  | .handle results =>
    -- a pending stop and the supervision events come before the messages
    match s.mux.exit, s.mux.stopping, s.mux.supervision, s.mux.queue with
    | none, none, [], msg :: rest => some (s.muxHandled msg rest results)
    | _, _, _, _ => none
  | .supervise =>
    -- a pending stop comes before the supervision events
    match s.mux.exit, s.mux.stopping, s.mux.supervision with
    | none, none, evt :: rest =>
      some { s with mux := { s.mux with supervision := rest }.handleSupervisorEvt evt }
    | _, _, _ => none
  | .takeStop =>
    match s.mux.exit, s.mux.stopping with
    | none, some reason => some { s with mux := s.mux.finish (.terminated reason) }
    | _, _ => none
  | .killPump =>
    match s.mux.exit, s.pump.exit with
    | some _, none => some { s with pump := s.pump.kill }
    | _, _ => none

/-! ## What a step can do -/

/-- Everything that one step of a multiplexer and its pump can do. -/
inductive StepCase (s : System X) : Event → System X → Prop
  | pump (e : PumpEvent) (out : Pump X × Option (Option X)) (hown : e.isOwn = true)
      (hstep : s.pump.step id (s.mux.exit = none) e = some out) :
      StepCase s (.pump e) (s.pumpStepped out)
  | announcePump (hnew : s.pumpAnnounced = false) :
      StepCase s .announcePump
        { s with pumpAnnounced := true, mux := s.mux.tell (.actorStarted pumpCell) }
  | reportPump (exit : Exit) (hexit : s.pump.exit = some exit) (hnew : s.pumpReported = false) :
      StepCase s .reportPump
        { s with pumpReported := true, mux := s.mux.tell (exit.event pumpCell) }
  | handle (results : Target → Except ActorProcessingErr Unit) (msg : Option X)
      (rest : List (Option X)) (hexit : s.mux.exit = none) (hstop : s.mux.stopping = none)
      (hsup : s.mux.supervision = []) (hqueue : s.mux.queue = msg :: rest) :
      StepCase s (.handle results) (s.muxHandled msg rest results)
  | supervise (evt : SupervisionEvent) (rest : List SupervisionEvent) (hexit : s.mux.exit = none)
      (hstop : s.mux.stopping = none) (hsup : s.mux.supervision = evt :: rest) :
      StepCase s .supervise
        { s with mux := { s.mux with supervision := rest }.handleSupervisorEvt evt }
  | takeStop (reason : Option String) (hexit : s.mux.exit = none)
      (hstop : s.mux.stopping = some reason) :
      StepCase s .takeStop { s with mux := s.mux.finish (.terminated reason) }
  | killPump (hexit : s.mux.exit ≠ none) (hpump : s.pump.exit = none) :
      StepCase s .killPump { s with pump := s.pump.kill }

/-- **Step inversion.** -/
theorem step_cases {s s' : System X} {e : Event} (h : s.step e = some s') : StepCase s e s' := by
  cases e with
  | pump e =>
    simp only [step] at h
    split at h
    · rename_i hown
      rw [Option.map_eq_some_iff] at h
      obtain ⟨out, hstep, rfl⟩ := h
      exact StepCase.pump e out hown hstep
    · cases h
  | announcePump =>
    simp only [step] at h
    split at h
    · cases h
    · rename_i hnew
      rw [Option.some.injEq] at h
      exact h ▸ StepCase.announcePump (Bool.eq_false_iff.mpr hnew)
  | reportPump =>
    simp only [step] at h
    split at h
    · rename_i exit hexit hnew
      rw [Option.some.injEq] at h
      exact h ▸ StepCase.reportPump exit hexit hnew
    · cases h
  | handle results =>
    simp only [step] at h
    split at h
    · rename_i msg rest hexit hstop hsup hqueue
      rw [Option.some.injEq] at h
      exact h ▸ StepCase.handle results msg rest hexit hstop hsup hqueue
    · cases h
  | supervise =>
    simp only [step] at h
    split at h
    · rename_i evt rest hexit hstop hsup
      rw [Option.some.injEq] at h
      exact h ▸ StepCase.supervise evt rest hexit hstop hsup
    · cases h
  | takeStop =>
    simp only [step] at h
    split at h
    · rename_i reason hexit hstop
      rw [Option.some.injEq] at h
      exact h ▸ StepCase.takeStop reason hexit hstop
    · cases h
  | killPump =>
    simp only [step] at h
    split at h
    · rename_i exit hexit hpump
      rw [Option.some.injEq] at h
      refine h ▸ StepCase.killPump ?_ hpump
      rw [hexit]
      exact Option.some_ne_none exit
    · cases h

end System

/-- The state after a list of events, from the start of the multiplexer. -/
def run {X : Type} (config : StreamMuxConfiguration X) (es : List Event) : Option (System X) :=
  exec System.step (System.preStart config) es

end RactorActors.Streams.Mux
