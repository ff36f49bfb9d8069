import RactorActors.Net.Tcp.Reader

/-!
# The writer of a TCP session

The `SessionWriter` actor of `net/tcp/session.rs`. Its one handler waits for the socket up to
four times (`writable`, `write_u64`, `write_all`, `flush`); `WriterPc` says where it stands. The
environment chooses how many bytes each operation puts on the wire before it returns or fails.

A step gives the bytes that it puts on the wire.
-/

namespace RactorActors.Net.Tcp

open LengthPrefix

/-- `ActorWriteHalf` -/
inductive ActorWriteHalf
  | serverTls
  | clientTls
  | regular
deriving DecidableEq, Repr

/-- `SessionWriterMessage` -/
inductive SessionWriterMessage
  | write (msg : Frame)
deriving DecidableEq, Repr

/-- Where the writer stands. -/
inductive WriterPc
  /-- Between two handlers. -/
  | idle
  | writable (msg : Frame)
  /-- In `write_u64`, with the bytes `rest` of the length still to be put. -/
  | header (msg : Frame) (rest : List UInt8)
  /-- In `write_all`, with the bytes `rest` still to be put. -/
  | payload (rest : List UInt8)
  | flush
deriving DecidableEq, Repr

/-- A writer actor. -/
structure Writer where
  /-- `SessionWriterState::writer` -/
  writer : Option ActorWriteHalf
  pc : WriterPc
  queue : List SessionWriterMessage
  /-- A stop, with its reason, that was sent to the writer and not taken yet. -/
  stopping : Option (Option String)
  /-- How the actor ended, if it has. -/
  exit : Option Exit
  /-- The frames whose handling has begun. No handler looks at them. -/
  begun : List Frame
  /-- All bytes put on the wire. No handler looks at them. -/
  wire : List UInt8
deriving DecidableEq, Repr

/-- The events of a writer's life. -/
inductive WriterEvent
  /-- A message is sent to the writer. -/
  | cast (msg : SessionWriterMessage)
  /-- The writer takes the next message and runs its handler up to the first `await`. -/
  | handle
  /-- `writable` returns. -/
  | ready
  /-- The pending `write_u64` or `write_all` puts `n` more bytes on the wire. -/
  | put (n : ℕ)
  /-- The pending `write_u64` or `write_all` has put all its bytes and returns. -/
  | wrote
  /-- `flush` returns. -/
  | flushed
  /-- The pending operation fails. -/
  | ioError (err : ActorProcessingErr)
  /-- `stop` is called on the writer. -/
  | stop (reason : Option String)
  /-- The writer takes a pending stop. -/
  | takeStop
  /-- `kill` is called on the writer, or its session ends. -/
  | kill
deriving DecidableEq, Repr

namespace Writer

/-- `SessionWriter::pre_start` -/
def preStart (writer : ActorWriteHalf) : Writer where
  writer := some writer
  pc := .idle
  queue := []
  stopping := none
  exit := none
  begun := []
  wire := []

/-- The actor ends. Its write half is dropped with its state. -/
def finish (s : Writer) (exit : Exit) : Writer :=
  { s with writer := none, pc := .idle, queue := [], exit := some exit }

/-- `ActorRef::stop`. Only the first stop of an actor counts. -/
def stop (s : Writer) (reason : Option String) : Writer :=
  match s.exit, s.stopping with
  | none, none => { s with stopping := some reason }
  | _, _ => s

/-- `ActorRef::kill` -/
def kill (s : Writer) : Writer :=
  match s.exit with
  | none => s.finish (.terminated (some "killed"))
  | some _ => s

/-- `ActorRef::cast`: an error if the mailbox is closed. -/
def cast (s : Writer) (msg : SessionWriterMessage) : Except MessagingErr Writer :=
  if s.exit = none then .ok { s with queue := s.queue ++ [msg] } else .error .sendErr

/-- `SessionWriter::write`, up to its first `await`. -/
def write (s : Writer) (msg : Frame) : Writer :=
  match s.writer with
  | some .regular => { s with pc := .writable msg }
  | some _ => { s with pc := .header msg (bigEndian 8 msg.length) }
  | none => s

/-- `SessionWriter::write`, once the pending operation has failed. -/
def writeFailed (s : Writer) (err : ActorProcessingErr) : Writer :=
  match s.pc with
  | .idle => s
  -- `?` makes it the handler's own error
  | .writable _ => s.finish (.failed err)
  -- a failed `write_u64` is only logged
  | .header _ _ => { s with pc := .idle }
  -- a failed `write_all` stops the writer
  | .payload _ => { s with pc := .idle }.stop (some "channel_closed")
  | .flush => s.finish (.failed err)

/-- The pending operation puts the first `n` of the bytes `rest`. -/
def put (s : Writer) (rest : List UInt8) (n : ℕ) : Writer :=
  { s with wire := s.wire ++ rest.take n }

/-- One step of a writer. -/
def step (s : Writer) : WriterEvent → Option (Writer × List UInt8)
  | .cast msg =>
    match s.cast msg with
    | .ok s' => some (s', [])
    | .error _ => some (s, [])
  | .handle =>
    -- a pending stop comes before the messages
    match s.exit, s.pc, s.stopping, s.queue with
    | none, .idle, none, .write msg :: rest =>
      some ({ s with queue := rest, begun := s.begun ++ [msg] }.write msg, [])
    | _, _, _, _ => none
  | .ready =>
    match s.exit, s.pc with
    | none, .writable msg => some ({ s with pc := .header msg (bigEndian 8 msg.length) }, [])
    | _, _ => none
  | .put n =>
    match s.exit, s.pc with
    | none, .header msg rest =>
      if 0 < n ∧ n ≤ rest.length then
        some ({ s.put rest n with pc := .header msg (rest.drop n) }, rest.take n)
      else none
    | none, .payload rest =>
      if 0 < n ∧ n ≤ rest.length then
        some ({ s.put rest n with pc := .payload (rest.drop n) }, rest.take n)
      else none
    | _, _ => none
  | .wrote =>
    -- `write_all` follows `write_u64`, and `flush` follows `write_all`
    match s.exit, s.pc with
    | none, .header msg [] => some ({ s with pc := .payload msg }, [])
    | none, .payload [] => some ({ s with pc := .flush }, [])
    | _, _ => none
  | .flushed =>
    match s.exit, s.pc with
    | none, .flush => some ({ s with pc := .idle }, [])
    | _, _ => none
  | .ioError err =>
    match s.exit, s.pc with
    | _, .idle => none
    | none, _ => some (s.writeFailed err, [])
    | _, _ => none
  | .stop reason => some (s.stop reason, [])
  | .takeStop =>
    match s.exit, s.pc, s.stopping with
    | none, .idle, some reason => some (s.finish (.terminated reason), [])
    | _, _, _ => none
  | .kill => some (s.kill, [])

/-! ## What a step can do -/

/-- Everything that one step of a writer can do. -/
inductive StepCase (s : Writer) : WriterEvent → Writer × List UInt8 → Prop
  | cast (msg : SessionWriterMessage) (hexit : s.exit = none) :
      StepCase s (.cast msg) ({ s with queue := s.queue ++ [msg] }, [])
  /-- A message meets a closed mailbox. -/
  | lost (msg : SessionWriterMessage) (hexit : s.exit ≠ none) : StepCase s (.cast msg) (s, [])
  | handle (msg : Frame) (rest : List SessionWriterMessage) (hexit : s.exit = none)
      (hpc : s.pc = .idle) (hstop : s.stopping = none) (hqueue : s.queue = .write msg :: rest) :
      StepCase s .handle ({ s with queue := rest, begun := s.begun ++ [msg] }.write msg, [])
  | ready (msg : Frame) (hexit : s.exit = none) (hpc : s.pc = .writable msg) :
      StepCase s .ready ({ s with pc := .header msg (bigEndian 8 msg.length) }, [])
  | putHeader (msg : Frame) (rest : List UInt8) (n : ℕ) (hexit : s.exit = none)
      (hpc : s.pc = .header msg rest) (hn : 0 < n ∧ n ≤ rest.length) :
      StepCase s (.put n) ({ s.put rest n with pc := .header msg (rest.drop n) }, rest.take n)
  | putPayload (rest : List UInt8) (n : ℕ) (hexit : s.exit = none) (hpc : s.pc = .payload rest)
      (hn : 0 < n ∧ n ≤ rest.length) :
      StepCase s (.put n) ({ s.put rest n with pc := .payload (rest.drop n) }, rest.take n)
  | wroteHeader (msg : Frame) (hexit : s.exit = none) (hpc : s.pc = .header msg []) :
      StepCase s .wrote ({ s with pc := .payload msg }, [])
  | wrotePayload (hexit : s.exit = none) (hpc : s.pc = .payload []) :
      StepCase s .wrote ({ s with pc := .flush }, [])
  | flushed (hexit : s.exit = none) (hpc : s.pc = .flush) :
      StepCase s .flushed ({ s with pc := .idle }, [])
  | ioError (err : ActorProcessingErr) (hexit : s.exit = none) (hpc : s.pc ≠ .idle) :
      StepCase s (.ioError err) (s.writeFailed err, [])
  | stop (reason : Option String) : StepCase s (.stop reason) (s.stop reason, [])
  | takeStop (reason : Option String) (hexit : s.exit = none) (hpc : s.pc = .idle)
      (hstop : s.stopping = some reason) :
      StepCase s .takeStop (s.finish (.terminated reason), [])
  | kill : StepCase s .kill (s.kill, [])

/-- **Step inversion.** -/
theorem step_cases {s : Writer} {e : WriterEvent} {out : Writer × List UInt8}
    (h : s.step e = some out) : StepCase s e out := by
  cases e with
  | cast msg =>
    by_cases hexit : s.exit = none
    · simp only [step, Writer.cast, if_pos hexit, Option.some.injEq] at h
      exact h ▸ StepCase.cast msg hexit
    · simp only [step, Writer.cast, if_neg hexit, Option.some.injEq] at h
      exact h ▸ StepCase.lost msg hexit
  | handle =>
    simp only [step] at h
    split at h
    · rename_i msg rest hexit hpc hstop hqueue
      rw [Option.some.injEq] at h
      exact h ▸ StepCase.handle msg rest hexit hpc hstop hqueue
    · cases h
  | ready =>
    simp only [step] at h
    split at h
    · rename_i msg hexit hpc
      rw [Option.some.injEq] at h
      exact h ▸ StepCase.ready msg hexit hpc
    · cases h
  | put n =>
    simp only [step] at h
    split at h
    · rename_i msg rest hexit hpc
      split at h
      · rename_i hn
        rw [Option.some.injEq] at h
        exact h ▸ StepCase.putHeader msg rest n hexit hpc hn
      · cases h
    · rename_i rest hexit hpc
      split at h
      · rename_i hn
        rw [Option.some.injEq] at h
        exact h ▸ StepCase.putPayload rest n hexit hpc hn
      · cases h
    · cases h
  | wrote =>
    simp only [step] at h
    split at h
    · rename_i msg hexit hpc
      rw [Option.some.injEq] at h
      exact h ▸ StepCase.wroteHeader msg hexit hpc
    · rename_i hexit hpc
      rw [Option.some.injEq] at h
      exact h ▸ StepCase.wrotePayload hexit hpc
    · cases h
  | flushed =>
    simp only [step] at h
    split at h
    · rename_i hexit hpc
      rw [Option.some.injEq] at h
      exact h ▸ StepCase.flushed hexit hpc
    · cases h
  | ioError err =>
    simp only [step] at h
    split at h
    · cases h
    · rename_i hexit hpc
      rw [Option.some.injEq] at h
      exact h ▸ StepCase.ioError err hexit hpc
    · cases h
  | stop reason =>
    simp only [step, Option.some.injEq] at h
    exact h ▸ StepCase.stop reason
  | takeStop =>
    simp only [step] at h
    split at h
    · rename_i reason hexit hpc hstop
      rw [Option.some.injEq] at h
      exact h ▸ StepCase.takeStop reason hexit hpc hstop
    · cases h
  | kill =>
    simp only [step, Option.some.injEq] at h
    exact h ▸ StepCase.kill

end Writer

end RactorActors.Net.Tcp
