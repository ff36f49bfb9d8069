import RactorActors.Ractor

/-!
# The stream pump

`spawn_stream_pump` of `streams/pump/mod.rs`: the `Loop` actor of `streams/looping/mod.rs`, whose
operation is a `Streamer`. The loop sends itself a message for each round; a round waits for the
next item of the stream and casts it to the receiver. The items of the stream are of any type
`X`, the messages of the receiver of any type `T`.

A step gives the message that it casts to the receiver.
-/

namespace RactorActors.Streams

/-- `IterationResult` -/
inductive IterationResult
  /-- There's more to process, keep looping. -/
  | Continue
  /-- We've reached the end of the loop, stop processing. -/
  | End
deriving DecidableEq, Repr

/-- A pump actor. -/
structure Pump (X : Type) where
  /-- The items that the stream has not yielded yet. -/
  stream : List X
  /-- The handler waits for the next item of the stream. -/
  working : Bool
  queue : List Unit
  /-- A stop, with its reason, that was sent to the pump and not taken yet. -/
  stopping : Option (Option String)
  /-- How the actor ended, if it has. -/
  exit : Option Exit
deriving DecidableEq, Repr

/-- The events of a pump's life. -/
inductive PumpEvent
  /-- The pump takes the next message and waits for the stream. -/
  | handle
  /-- The stream yields its next item, or its end. -/
  | next
  /-- `stop` is called on the pump. -/
  | stop (reason : Option String)
  /-- The pump takes a pending stop. -/
  | takeStop
  /-- `kill` is called on the pump, or its supervisor ends. -/
  | kill
deriving DecidableEq, Repr

/-- A step that the pump takes by itself. -/
def PumpEvent.isOwn : PumpEvent → Bool
  | .stop _ => false
  | .kill => false
  | _ => true

/-- `Streamer::work`, once the stream has yielded: the items that are left, the message cast to the
receiver, and the result. The cast fails if the receiver's mailbox is closed. -/
def Streamer.work {X T : Type} (fnMap : Option X → T) (receiverOpen : Bool) (stream : List X) :
    List X × Option T × Except ActorProcessingErr IterationResult :=
  let item := stream.head?
  let last := item.isNone
  if receiverOpen then (stream.tail, some (fnMap item), .ok (if last then .End else .Continue))
  else (stream.tail, none, .error (.messaging .sendErr))

namespace Pump

variable {X T : Type}

/-- `Loop::pre_start` -/
def preStart (stream : List X) : Pump X where
  stream := stream
  working := false
  queue := [()]
  stopping := none
  exit := none

/-- The actor ends. -/
def finish (s : Pump X) (exit : Exit) : Pump X :=
  { s with working := false, queue := [], exit := some exit }

/-- `ActorRef::stop`. Only the first stop of an actor counts. -/
def stop (s : Pump X) (reason : Option String) : Pump X :=
  match s.exit, s.stopping with
  | none, none => { s with stopping := some reason }
  | _, _ => s

/-- `ActorRef::kill` -/
def kill (s : Pump X) : Pump X :=
  match s.exit with
  | none => s.finish (.terminated (some "killed"))
  | some _ => s

/-- `Loop::handle`, once `work` has returned. -/
def worked (s : Pump X) : Except ActorProcessingErr IterationResult → Pump X
  | .ok .Continue => { s with working := false, queue := s.queue ++ [()] }
  | .ok .End => { s with working := false }.stop none
  | .error err => s.finish (.failed err)

/-- One step of a pump whose receiver's mailbox is open or not. -/
def step (fnMap : Option X → T) (receiverOpen : Bool) (s : Pump X) :
    PumpEvent → Option (Pump X × Option T)
  | .handle =>
    -- a pending stop comes before the messages
    match s.exit, s.working, s.stopping, s.queue with
    | none, false, none, () :: rest => some ({ s with working := true, queue := rest }, none)
    | _, _, _, _ => none
  | .next =>
    match s.exit, s.working with
    | none, true =>
      let (stream, cast, result) := Streamer.work fnMap receiverOpen s.stream
      some ({ s with stream }.worked result, cast)
    | _, _ => none
  | .stop reason => some (s.stop reason, none)
  | .takeStop =>
    -- not while the handler waits for the stream
    match s.exit, s.working, s.stopping with
    | none, false, some reason => some (s.finish (.terminated reason), none)
    | _, _, _ => none
  | .kill => some (s.kill, none)

/-! ## What a step can do -/

/-- Everything that one step of a pump can do. -/
inductive StepCase (fnMap : Option X → T) (receiverOpen : Bool) (s : Pump X) :
    PumpEvent → Pump X × Option T → Prop
  | handle (rest : List Unit) (hexit : s.exit = none) (hidle : s.working = false)
      (hstop : s.stopping = none) (hqueue : s.queue = () :: rest) :
      StepCase fnMap receiverOpen s .handle ({ s with working := true, queue := rest }, none)
  /-- An item is cast to the receiver. -/
  | item (x : X) (stream : List X) (hexit : s.exit = none) (hwork : s.working = true)
      (hopen : receiverOpen = true) (hstream : s.stream = x :: stream) :
      StepCase fnMap receiverOpen s .next
        ({ s with stream, working := false, queue := s.queue ++ [()] }, some (fnMap (some x)))
  /-- The end of the stream is cast to the receiver. -/
  | last (hexit : s.exit = none) (hwork : s.working = true) (hopen : receiverOpen = true)
      (hstream : s.stream = []) :
      StepCase fnMap receiverOpen s .next
        ({ s with stream := [], working := false }.stop none, some (fnMap none))
  /-- The receiver's mailbox is closed. -/
  | closed (hexit : s.exit = none) (hwork : s.working = true) (hclosed : receiverOpen = false) :
      StepCase fnMap receiverOpen s .next
        ({ s with stream := s.stream.tail }.finish (.failed (.messaging .sendErr)), none)
  | stop (reason : Option String) :
      StepCase fnMap receiverOpen s (.stop reason) (s.stop reason, none)
  | takeStop (reason : Option String) (hexit : s.exit = none) (hidle : s.working = false)
      (hstop : s.stopping = some reason) :
      StepCase fnMap receiverOpen s .takeStop (s.finish (.terminated reason), none)
  | kill : StepCase fnMap receiverOpen s .kill (s.kill, none)

/-- **Step inversion.** -/
theorem step_cases {fnMap : Option X → T} {receiverOpen : Bool} {s : Pump X} {e : PumpEvent}
    {out : Pump X × Option T} (h : s.step fnMap receiverOpen e = some out) :
    StepCase fnMap receiverOpen s e out := by
  cases e with
  | handle =>
    simp only [step] at h
    split at h
    · rename_i rest hexit hidle hstop hqueue
      rw [Option.some.injEq] at h
      exact h ▸ StepCase.handle rest hexit hidle hstop hqueue
    · cases h
  | next =>
    simp only [step] at h
    split at h
    · rename_i hexit hwork
      rw [Option.some.injEq] at h
      cases hopen : receiverOpen with
      | false =>
        rw [hopen] at h
        exact h ▸ StepCase.closed hexit hwork rfl
      | true =>
        rw [hopen] at h
        cases hstream : s.stream with
        | nil =>
          rw [hstream] at h
          exact h ▸ StepCase.last hexit hwork rfl hstream
        | cons x stream =>
          rw [hstream] at h
          exact h ▸ StepCase.item x stream hexit hwork rfl hstream
    · cases h
  | stop reason =>
    simp only [step, Option.some.injEq] at h
    exact h ▸ StepCase.stop reason
  | takeStop =>
    simp only [step] at h
    split at h
    · rename_i reason hexit hidle hstop
      rw [Option.some.injEq] at h
      exact h ▸ StepCase.takeStop reason hexit hidle hstop
    · cases h
  | kill =>
    simp only [step, Option.some.injEq] at h
    exact h ▸ StepCase.kill

/-- A pump that has ended takes no step of its own. -/
theorem step_of_exit {fnMap : Option X → T} {receiverOpen : Bool} {s : Pump X} {exit : Exit}
    (hexit : s.exit = some exit) {e : PumpEvent} (hown : e.isOwn = true) :
    s.step fnMap receiverOpen e = none := by
  cases e with
  | handle | next | takeStop => simp only [step, hexit]
  | stop | kill => cases hown

/-! ## The loop -/

/-- What the pump has not cast yet, while nothing has told it to stop. -/
def toSend (s : Pump X) : List (Option X) :=
  if s.exit = none ∧ s.stopping = none then s.stream.map some ++ [none] else []

/-- The loop of a pump that nobody else stops: a message for the next round waits while no round is
going on, until the last round stops the pump. -/
structure Looping (s : Pump X) : Prop where
  round : s.exit = none → s.stopping = none →
    s.working = true ∧ s.queue = [] ∨ s.working = false ∧ s.queue = [()]
  done : s.exit = none → s.stopping ≠ none → s.working = false

/-- A pump as it is started. -/
theorem looping_preStart (stream : List X) : (preStart stream).Looping where
  round := fun _ _ => Or.inr ⟨rfl, rfl⟩
  done := fun _ hstop => absurd rfl hstop

/-- A pump that has ended. -/
theorem looping_finish (s : Pump X) (exit : Exit) : (s.finish exit).Looping where
  round := fun hnone => absurd hnone (Option.some_ne_none exit)
  done := fun hnone => absurd hnone (Option.some_ne_none exit)

/-- A pump that is in a round has not been told to stop. -/
theorem Looping.working {s : Pump X} (hs : s.Looping) (hexit : s.exit = none)
    (hwork : s.working = true) : s.stopping = none ∧ s.queue = [] := by
  have hstop : s.stopping = none := by
    by_contra hstop
    rw [hs.done hexit hstop] at hwork
    cases hwork
  refine ⟨hstop, ?_⟩
  rcases hs.round hexit hstop with ⟨-, hqueue⟩ | ⟨hidle, -⟩
  · exact hqueue
  · rw [hidle] at hwork
    cases hwork

/-- **Step lemma.** -/
theorem Looping.step {fnMap : Option X → T} {receiverOpen : Bool} {s : Pump X} {e : PumpEvent}
    {out : Pump X × Option T} (hs : s.Looping) (hown : e.isOwn = true)
    (h : s.step fnMap receiverOpen e = some out) : out.1.Looping := by
  cases step_cases h with
  | handle rest hexit hidle hstop hqueue =>
    -- the round begins with the only message that waits
    rcases hs.round hexit hstop with ⟨hwork, -⟩ | ⟨-, hqueue'⟩
    · rw [hidle] at hwork
      cases hwork
    · rw [hqueue', List.cons.injEq] at hqueue
      exact ⟨fun _ _ => Or.inl ⟨rfl, hqueue.2.symm⟩, fun _ hstop' => absurd hstop hstop'⟩
  | item x stream hexit hwork =>
    obtain ⟨hstop, hqueue⟩ := hs.working hexit hwork
    refine ⟨fun _ _ => Or.inr ⟨rfl, ?_⟩, fun _ _ => rfl⟩
    simp only [hqueue, List.nil_append]
  | last hexit hwork =>
    obtain ⟨hstop, -⟩ := hs.working hexit hwork
    simp only [Pump.stop, hexit, hstop]
    exact ⟨fun _ hnone => absurd hnone (Option.some_ne_none _), fun _ _ => rfl⟩
  | closed | takeStop => exact looping_finish _ _
  | stop | kill => cases hown

/-- A kill ends the loop. -/
theorem Looping.kill {s : Pump X} (hs : s.Looping) : s.kill.Looping := by
  unfold Pump.kill
  split
  · exact looping_finish _ _
  · exact hs

/-- While the receiver's mailbox is open, a step casts the first of what is to be sent, or
nothing. -/
theorem toSend_of_step {fnMap : Option X → T} {s : Pump X} {e : PumpEvent}
    {out : Pump X × Option T} (hs : s.Looping) (hown : e.isOwn = true)
    (h : s.step fnMap true e = some out) :
    out.2.toList ++ out.1.toSend.map fnMap = s.toSend.map fnMap := by
  cases step_cases h with
  | handle rest hexit hidle hstop hqueue => rfl
  | item x stream hexit hwork _ hstream =>
    obtain ⟨hstop, -⟩ := hs.working hexit hwork
    simp only [toSend, hexit, hstop, hstream, and_self, if_true]
    rfl
  | last hexit hwork _ hstream =>
    obtain ⟨hstop, -⟩ := hs.working hexit hwork
    simp only [toSend, Pump.stop, hexit, hstop, hstream, and_self, if_true]
    rfl
  | closed _ _ hclosed => cases hclosed
  | takeStop reason hexit _ hstop => simp [toSend, finish, hstop]
  | stop | kill => cases hown

/-- While the receiver's mailbox is open, the pump does not fail. -/
theorem not_failed_of_step {fnMap : Option X → T} {s : Pump X} {e : PumpEvent}
    {out : Pump X × Option T} (hown : e.isOwn = true) (h : s.step fnMap true e = some out)
    {what : ActorProcessingErr} (hfailed : out.1.exit = some (.failed what)) :
    s.exit = some (.failed what) := by
  cases step_cases h with
  | handle | item => exact hfailed
  | last hexit =>
    unfold Pump.stop at hfailed
    split at hfailed <;> exact hfailed
  | closed _ _ hclosed => cases hclosed
  | takeStop =>
    simp only [finish, Option.some.injEq] at hfailed
    cases hfailed
  | stop | kill => cases hown

end Pump

end RactorActors.Streams
