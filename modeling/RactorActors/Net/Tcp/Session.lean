import RactorActors.Net.Tcp.Reader
import RactorActors.Net.Tcp.Writer

/-!
# A TCP session and its children

The `TcpSession` actor of `net/tcp/session.rs` together with its reader and its writer
(`Endpoint`). One step is one event of one of the three actors or of their surroundings.

* The session handles one event at a time. Between two events a pending stop comes before
  supervision events, and both come before messages.
* `frame_ready` waits for the receiver: it is one step that calls `receiver.frame_ready` and one
  in which the call returns, with a result that the environment chooses.
* A child that has ended posts its exit event to the session, some time later.
* The end of the session kills the children that are left.

The `stream_info` of the session's state is only logged, and is left out.
-/

namespace RactorActors.Net.Tcp

/-- `TcpSessionMessage` -/
inductive TcpSessionMessage
  | send (msg : Frame)
  | frameReady (msg : Frame)
deriving DecidableEq, Repr

/-- `TcpSessionState`. What the receiver does is chosen by the environment. -/
structure TcpSessionState where
  writer : ActorCell
  reader : ActorCell
deriving DecidableEq, Repr

/-- Where the session stands. -/
inductive SessionPc
  /-- Between two handlers. -/
  | idle
  /-- In `frame_ready`, waiting for the receiver. -/
  | receiving
deriving DecidableEq, Repr

/-- A session actor. -/
structure Session where
  state : TcpSessionState
  pc : SessionPc
  queue : List TcpSessionMessage
  /-- The supervision events that wait for the session. -/
  supervision : List SupervisionEvent
  /-- A stop, with its reason, that was sent to the session and not taken yet. -/
  stopping : Option (Option String)
  /-- How the actor ended, if it has. -/
  exit : Option Exit
  /-- The frames that were cast to the session as `Send`. No handler looks at them. -/
  sent : List Frame
  /-- The frames that the session has cast to its writer. No handler looks at them. -/
  forwarded : List Frame
  /-- The frames passed to `receiver.frame_ready`. No handler looks at them. -/
  received : List Frame
deriving DecidableEq, Repr

/-- A session with its two children. -/
structure Endpoint where
  session : Session
  reader : Reader
  writer : Writer
  /-- The reader has posted its exit event. -/
  readerReported : Bool
  /-- The writer has posted its exit event. -/
  writerReported : Bool
deriving DecidableEq, Repr

/-- The events of an endpoint. -/
inductive EndpointEvent
  /-- Somebody casts `Send(msg)` to the session. -/
  | send (msg : Frame)
  /-- The session takes the next message. -/
  | handle
  /-- `receiver.frame_ready` returns. -/
  | returned (result : Except ActorProcessingErr Unit)
  /-- The session takes the next supervision event. -/
  | supervise
  /-- A supervision event that reports no end is posted to the session. -/
  | notify (evt : SupervisionEvent)
  /-- The reader takes a step of its own, or is stopped or killed by a third party. -/
  | reader (e : ReaderEvent)
  /-- The writer takes a step of its own, or is stopped or killed by a third party. -/
  | writer (e : WriterEvent)
  /-- The reader, which has ended, posts its exit event. -/
  | reportReader
  /-- The writer, which has ended, posts its exit event. -/
  | reportWriter
  /-- `stop` is called on the session. -/
  | stop (reason : Option String)
  /-- The session takes a pending stop. -/
  | takeStop
  /-- `kill` is called on the session. -/
  | kill

/-- A message to the writer comes from the session only. -/
def WriterEvent.isOwn : WriterEvent → Bool
  | .cast _ => false
  | _ => true

namespace Endpoint

/-- `TcpSession::pre_start`: both children are spawned on the halves of the stream. -/
def preStart (state : TcpSessionState) (read : ActorReadHalf) (write : ActorWriteHalf)
    (incoming : List UInt8) : Endpoint where
  session :=
    { state, pc := .idle, queue := [], supervision := [], stopping := none, exit := none,
      sent := [], forwarded := [], received := [] }
  reader := Reader.preStart read incoming
  writer := Writer.preStart write
  readerReported := false
  writerReported := false

/-- The session ends: its children are terminated. `post_stop` only logs. -/
def finish (s : Endpoint) (exit : Exit) : Endpoint :=
  { s with
    session := { s.session with pc := .idle, queue := [], supervision := [], exit := some exit }
    reader := s.reader.kill
    writer := s.writer.kill }

/-- `ActorRef::stop` on the session. Only the first stop of an actor counts. -/
def stop (s : Endpoint) (reason : Option String) : Endpoint :=
  match s.session.exit, s.session.stopping with
  | none, none => { s with session := { s.session with stopping := some reason } }
  | _, _ => s

/-- `ActorCell::stop_children` -/
def stopChildren (s : Endpoint) (reason : Option String) : Endpoint :=
  { s with reader := s.reader.stop reason, writer := s.writer.stop reason }

/-- Queue a message for the session, if its mailbox is open. -/
def post (s : Endpoint) (msg : TcpSessionMessage) : Endpoint :=
  match s.session.exit with
  | none => { s with session := { s.session with queue := s.session.queue ++ [msg] } }
  | some _ => s

/-- Queue a supervision event for the session, if its mailbox is open. -/
def tell (s : Endpoint) (evt : SupervisionEvent) : Endpoint :=
  match s.session.exit with
  | none =>
    { s with session := { s.session with supervision := s.session.supervision ++ [evt] } }
  | some _ => s

/-- `TcpSession::send`. A failed cast is ignored. -/
def send (s : Endpoint) (msg : Frame) : Endpoint :=
  let s := { s with session := { s.session with forwarded := s.session.forwarded ++ [msg] } }
  match s.writer.cast (.write msg) with
  | .ok writer => { s with writer }
  | .error _ => s

/-- `TcpSession::frame_ready`, up to the call of the receiver. -/
def frameReady (s : Endpoint) (msg : Frame) : Endpoint :=
  { s with session :=
      { s.session with pc := .receiving, received := s.session.received ++ [msg] } }

/-- `TcpSession::frame_ready`, once the receiver has returned. Its error fails the session. -/
def frameReadyReturned (s : Endpoint) : Except ActorProcessingErr Unit → Endpoint
  | .ok () => { s with session := { s.session with pc := .idle } }
  | .error err => s.finish (.failed err)

/-- `TcpSession::handle_supervisor_evt`. Which child the event is about is only logged. -/
def handleSupervisorEvt (s : Endpoint) : SupervisionEvent → Endpoint
  | .actorFailed _ _ =>
    (s.stopChildren (some "session_stop_panic")).stop (some "child_panic")
  | .actorTerminated _ _ =>
    (s.stopChildren (some "session_stop_terminated")).stop (some "child_terminate")
  -- all ok
  | _ => s

/-- The reader has taken a step, in which it may have cast a frame to the session. -/
def readerStepped (s : Endpoint) : Reader × Option Frame → Endpoint
  | (reader, some buf) => { s with reader }.post (.frameReady buf)
  | (reader, none) => { s with reader }

/-- One step of an endpoint. -/
def step (usizeBits : ℕ) (s : Endpoint) : EndpointEvent → Option Endpoint
  | .send msg =>
    some ({ s with session := { s.session with sent := s.session.sent ++ [msg] } }.post
      (.send msg))
  | .handle =>
    -- a pending stop and the supervision events come before the messages
    match s.session.exit, s.session.pc, s.session.stopping, s.session.supervision,
      s.session.queue with
    | none, .idle, none, [], .send msg :: rest =>
      some ({ s with session := { s.session with queue := rest } }.send msg)
    | none, .idle, none, [], .frameReady msg :: rest =>
      some ({ s with session := { s.session with queue := rest } }.frameReady msg)
    | _, _, _, _, _ => none
  | .returned result =>
    match s.session.exit, s.session.pc with
    | none, .receiving => some (s.frameReadyReturned result)
    | _, _ => none
  | .supervise =>
    -- a pending stop comes before the supervision events
    match s.session.exit, s.session.pc, s.session.stopping, s.session.supervision with
    | none, .idle, none, evt :: rest =>
      some ({ s with session := { s.session with supervision := rest } }.handleSupervisorEvt evt)
    | _, _, _, _ => none
  | .notify evt => if evt.ended = none then some (s.tell evt) else none
  | .reader e =>
    -- the reader's cast fails once the session has ended
    (s.reader.step usizeBits (s.session.exit = none) e).map s.readerStepped
  | .writer e =>
    if e.isOwn then (s.writer.step e).map fun out => { s with writer := out.1 } else none
  | .reportReader =>
    match s.reader.exit, s.readerReported with
    | some exit, false =>
      some ({ s with readerReported := true }.tell (exit.event s.session.state.reader))
    | _, _ => none
  | .reportWriter =>
    match s.writer.exit, s.writerReported with
    | some exit, false =>
      some ({ s with writerReported := true }.tell (exit.event s.session.state.writer))
    | _, _ => none
  | .stop reason => some (s.stop reason)
  | .takeStop =>
    -- not while `frame_ready` waits for the receiver
    match s.session.exit, s.session.pc, s.session.stopping with
    | none, .idle, some reason => some (s.finish (.terminated reason))
    | _, _, _ => none
  | .kill =>
    match s.session.exit with
    | none => some (s.finish (.terminated (some "killed")))
    | some _ => some s

/-! ## What a step can do -/

/-- The session starts its shutdown on the end of a child and ignores all other events. -/
theorem handleSupervisorEvt_cases (s : Endpoint) (evt : SupervisionEvent) :
    (evt.ended = none ∧ s.handleSupervisorEvt evt = s) ∨
      ∃ id toChildren toSession, evt.ended = some id ∧
        s.handleSupervisorEvt evt = (s.stopChildren toChildren).stop toSession := by
  cases evt with
  | actorFailed who what => exact Or.inr ⟨who.getId, _, _, rfl, rfl⟩
  | actorTerminated who reason => exact Or.inr ⟨who.getId, _, _, rfl, rfl⟩
  | actorStarted | processGroupChanged | pidLifecycleEvent => exact Or.inl ⟨rfl, rfl⟩

/-- The session is between two handlers and no stop is pending. -/
def Free (s : Endpoint) : Prop :=
  s.session.exit = none ∧ s.session.pc = .idle ∧ s.session.stopping = none

/-- Everything that one step of an endpoint can do. -/
inductive StepCase (usizeBits : ℕ) (s : Endpoint) : EndpointEvent → Endpoint → Prop
  | send (msg : Frame) :
      StepCase usizeBits s (.send msg)
        ({ s with session := { s.session with sent := s.session.sent ++ [msg] } }.post
          (.send msg))
  | forward (msg : Frame) (rest : List TcpSessionMessage) (hfree : s.Free)
      (hsup : s.session.supervision = []) (hqueue : s.session.queue = .send msg :: rest) :
      StepCase usizeBits s .handle
        ({ s with session := { s.session with queue := rest } }.send msg)
  | receive (msg : Frame) (rest : List TcpSessionMessage) (hfree : s.Free)
      (hsup : s.session.supervision = []) (hqueue : s.session.queue = .frameReady msg :: rest) :
      StepCase usizeBits s .handle
        ({ s with session := { s.session with queue := rest } }.frameReady msg)
  | returned (result : Except ActorProcessingErr Unit) (hexit : s.session.exit = none)
      (hpc : s.session.pc = .receiving) :
      StepCase usizeBits s (.returned result) (s.frameReadyReturned result)
  | supervise (evt : SupervisionEvent) (rest : List SupervisionEvent) (hfree : s.Free)
      (hsup : s.session.supervision = evt :: rest) :
      StepCase usizeBits s .supervise
        ({ s with session := { s.session with supervision := rest } }.handleSupervisorEvt evt)
  | notify (evt : SupervisionEvent) (hevt : evt.ended = none) :
      StepCase usizeBits s (.notify evt) (s.tell evt)
  | reader (e : ReaderEvent) (out : Reader × Option Frame)
      (hstep : s.reader.step usizeBits (s.session.exit = none) e = some out) :
      StepCase usizeBits s (.reader e) (s.readerStepped out)
  | writer (e : WriterEvent) (writer : Writer) (bytes : List UInt8) (hown : e.isOwn = true)
      (hstep : s.writer.step e = some (writer, bytes)) :
      StepCase usizeBits s (.writer e) { s with writer }
  | reportReader (exit : Exit) (hexit : s.reader.exit = some exit)
      (hnew : s.readerReported = false) :
      StepCase usizeBits s .reportReader
        ({ s with readerReported := true }.tell (exit.event s.session.state.reader))
  | reportWriter (exit : Exit) (hexit : s.writer.exit = some exit)
      (hnew : s.writerReported = false) :
      StepCase usizeBits s .reportWriter
        ({ s with writerReported := true }.tell (exit.event s.session.state.writer))
  | stop (reason : Option String) : StepCase usizeBits s (.stop reason) (s.stop reason)
  | takeStop (reason : Option String) (hexit : s.session.exit = none)
      (hpc : s.session.pc = .idle) (hstop : s.session.stopping = some reason) :
      StepCase usizeBits s .takeStop (s.finish (.terminated reason))
  | kill (hexit : s.session.exit = none) :
      StepCase usizeBits s .kill (s.finish (.terminated (some "killed")))
  /-- A kill meets a session that has ended. -/
  | late (hexit : s.session.exit ≠ none) : StepCase usizeBits s .kill s

/-- **Step inversion.** -/
theorem step_cases {usizeBits : ℕ} {s s' : Endpoint} {e : EndpointEvent}
    (h : s.step usizeBits e = some s') : StepCase usizeBits s e s' := by
  cases e with
  | send msg =>
    simp only [step, Option.some.injEq] at h
    exact h ▸ StepCase.send msg
  | handle =>
    simp only [step] at h
    split at h
    · rename_i msg rest hexit hpc hstop hsup hqueue
      rw [Option.some.injEq] at h
      exact h ▸ StepCase.forward msg rest ⟨hexit, hpc, hstop⟩ hsup hqueue
    · rename_i msg rest hexit hpc hstop hsup hqueue
      rw [Option.some.injEq] at h
      exact h ▸ StepCase.receive msg rest ⟨hexit, hpc, hstop⟩ hsup hqueue
    · cases h
  | returned result =>
    simp only [step] at h
    split at h
    · rename_i hexit hpc
      rw [Option.some.injEq] at h
      exact h ▸ StepCase.returned result hexit hpc
    · cases h
  | supervise =>
    simp only [step] at h
    split at h
    · rename_i evt rest hexit hpc hstop hsup
      rw [Option.some.injEq] at h
      exact h ▸ StepCase.supervise evt rest ⟨hexit, hpc, hstop⟩ hsup
    · cases h
  | notify evt =>
    simp only [step] at h
    split at h
    · rename_i hevt
      rw [Option.some.injEq] at h
      exact h ▸ StepCase.notify evt hevt
    · cases h
  | reader e =>
    simp only [step, Option.map_eq_some_iff] at h
    obtain ⟨out, hstep, rfl⟩ := h
    exact StepCase.reader e out hstep
  | writer e =>
    simp only [step] at h
    split at h
    · rename_i hown
      rw [Option.map_eq_some_iff] at h
      obtain ⟨⟨writer, bytes⟩, hstep, rfl⟩ := h
      exact StepCase.writer e writer bytes hown hstep
    · cases h
  | reportReader =>
    simp only [step] at h
    split at h
    · rename_i exit hexit hnew
      rw [Option.some.injEq] at h
      exact h ▸ StepCase.reportReader exit hexit hnew
    · cases h
  | reportWriter =>
    simp only [step] at h
    split at h
    · rename_i exit hexit hnew
      rw [Option.some.injEq] at h
      exact h ▸ StepCase.reportWriter exit hexit hnew
    · cases h
  | stop reason =>
    simp only [step, Option.some.injEq] at h
    exact h ▸ StepCase.stop reason
  | takeStop =>
    simp only [step] at h
    split at h
    · rename_i reason hexit hpc hstop
      rw [Option.some.injEq] at h
      exact h ▸ StepCase.takeStop reason hexit hpc hstop
    · cases h
  | kill =>
    simp only [step] at h
    split at h <;> rw [Option.some.injEq] at h
    · rename_i hexit
      exact h ▸ StepCase.kill hexit
    · rename_i exit hexit
      exact h ▸ StepCase.late (by simp [hexit])

end Endpoint

end RactorActors.Net.Tcp
