import RactorActors.Ractor
import RactorActors.Foundations.LabelledRun
import RactorActors.Foundations.LengthPrefix

/-!
# The reader of a TCP session

The `SessionReader` actor of `net/tcp/session.rs`. Its two handlers wait for the socket, so each
of them is a sequence of steps: `ReaderPc` says at which `await` a handler stands. The outcome
of every single read is chosen by the environment: some of the bytes that have arrived, the end
of the stream, or another error. When a read inside `read_u64` or `read_n_bytes` fails, the
bytes it had consumed before are gone.

A step gives the frame that it casts to the session, if it casts one.
-/

namespace RactorActors.Net.Tcp

open LengthPrefix

/-- `Frame` -/
abbrev Frame := List UInt8

/-- The `ErrorKind`s that the reader tells apart. -/
inductive IoErr
  | unexpectedEof
  | other
deriving DecidableEq, Repr

/-- `ActorReadHalf` -/
inductive ActorReadHalf
  | serverTls
  | clientTls
  | regular
deriving DecidableEq, Repr

/-- `SessionReaderMessage` -/
inductive SessionReaderMessage
  | waitForFrame
  | readFrame (length : UInt64)
deriving DecidableEq, Repr

/-- Where the reader stands. -/
inductive ReaderPc
  /-- Between two handlers. -/
  | idle
  /-- In `read_u64`, which has consumed the bytes `got`. -/
  | header (got : List UInt8)
  /-- In `read_n_bytes`, at `readable`. -/
  | readable (length : UInt64)
  /-- In the loop of `read_n_bytes`, which has consumed the bytes `buf`. -/
  | payload (length : UInt64) (buf : List UInt8)
deriving DecidableEq, Repr

/-- A reader actor. -/
structure Reader where
  /-- `SessionReaderState::reader` -/
  reader : Option ActorReadHalf
  pc : ReaderPc
  queue : List SessionReaderMessage
  /-- A stop, with its reason, that was sent to the reader and not taken yet. -/
  stopping : Option (Option String)
  /-- How the actor ended, if it has. -/
  exit : Option Exit
  /-- The bytes that have arrived on the socket and were not read yet. -/
  incoming : List UInt8
  /-- All bytes that were read. No handler looks at them. -/
  consumed : List UInt8
  /-- All frames that were cast to the session. No handler looks at them. -/
  casts : List Frame
deriving DecidableEq, Repr

/-- The events of a reader's life. -/
inductive ReaderEvent
  /-- The reader takes the next message and runs its handler up to the first `await`. -/
  | handle
  /-- The next message is a `ReadFrame` whose buffer cannot be allocated. -/
  | allocFails
  /-- `readable` returns. -/
  | ready
  /-- A read returns `n` bytes. -/
  | read (n : ℕ)
  /-- The pending operation on the socket fails. At the end of the stream it fails with
  `UnexpectedEof`. -/
  | ioError (err : IoErr)
  /-- `stop` is called on the reader. -/
  | stop (reason : Option String)
  /-- The reader takes a pending stop. -/
  | takeStop
  /-- `kill` is called on the reader, or its session ends. -/
  | kill
deriving DecidableEq, Repr

/-- `length as usize` -/
def asUsize (usizeBits : ℕ) (length : UInt64) : ℕ := length.toNat % 2 ^ usizeBits

namespace Reader

/-- `SessionReader::pre_start`, on a socket that holds the bytes `incoming`. -/
def preStart (reader : ActorReadHalf) (incoming : List UInt8) : Reader where
  reader := some reader
  pc := .idle
  queue := [.waitForFrame]
  stopping := none
  exit := none
  incoming := incoming
  consumed := []
  casts := []

/-- The actor ends. Its read half is dropped with its state. -/
def finish (s : Reader) (exit : Exit) : Reader :=
  { s with reader := none, pc := .idle, queue := [], exit := some exit }

/-- `ActorRef::stop`. Only the first stop of an actor counts. -/
def stop (s : Reader) (reason : Option String) : Reader :=
  match s.exit, s.stopping with
  | none, none => { s with stopping := some reason }
  | _, _ => s

/-- `ActorRef::kill` -/
def kill (s : Reader) : Reader :=
  match s.exit with
  | none => s.finish (.terminated (some "killed"))
  | some _ => s

/-- `myself.cast(WaitForFrame)`, at the end of a handler. -/
def again (s : Reader) : Reader := { s with pc := .idle, queue := s.queue ++ [.waitForFrame] }

/-- The bytes that a read has returned are consumed. -/
def take (s : Reader) (n : ℕ) : Reader :=
  { s with incoming := s.incoming.drop n, consumed := s.consumed ++ s.incoming.take n }

/-- `SessionReader::wait_for_frame`, once `read_u64` has returned. -/
def waitForFrame (s : Reader) : Except IoErr UInt64 → Reader
  | .ok length => { s with pc := .idle, queue := s.queue ++ [.readFrame length] }
  -- EOF, close the stream by dropping the stream
  | .error .unexpectedEof => ({ s with reader := none }.stop (some "channel_closed")).again
  -- some other TCP error, more handling necessary
  | .error .other => s.again

/-- `SessionReader::read_frame`, once `read_n_bytes` has returned. The frame is cast to the
session; if that fails, so does the reader. -/
def readFrame (s : Reader) (sessionOpen : Bool) : Except IoErr Frame → Reader × Option Frame
  | .ok buf =>
    if sessionOpen then ({ s with casts := s.casts ++ [buf] }.again, some buf)
    else (s.finish (.failed (.messaging .sendErr)), none)
  -- EOF, close the stream by dropping the stream
  | .error .unexpectedEof =>
    ({ s with reader := none, pc := .idle }.stop (some "channel_closed"), none)
  -- TODO: some other TCP error, more handling necessary
  | .error .other => (s.again, none)

/-- The head of the loop of `read_n_bytes`: read on while bytes are missing. -/
def readNBytes (usizeBits : ℕ) (sessionOpen : Bool) (s : Reader) (length : UInt64)
    (buf : List UInt8) : Reader × Option Frame :=
  if buf.length < asUsize usizeBits length then ({ s with pc := .payload length buf }, none)
  else s.readFrame sessionOpen (.ok buf)

/-- One step of a reader whose session's mailbox is open or not. -/
def step (usizeBits : ℕ) (sessionOpen : Bool) (s : Reader) :
    ReaderEvent → Option (Reader × Option Frame)
  | .handle =>
    match s.exit, s.pc, s.stopping, s.queue with
    -- `wait_for_frame`: `read_u64` begins
    | none, .idle, none, .waitForFrame :: rest =>
      match s.reader with
      | some _ => some ({ s with queue := rest, pc := .header [] }, none)
      | none => some ({ s with queue := rest }.again, none)
    -- `read_frame`: the buffer is allocated, and a raw stream waits to be `readable`
    | none, .idle, none, .readFrame length :: rest =>
      match s.reader with
      | some .regular =>
        -- a vector holds at most `isize::MAX` bytes
        if asUsize usizeBits length < 2 ^ (usizeBits - 1) then
          some ({ s with queue := rest, pc := .readable length }, none)
        else none
      | some _ =>
        if asUsize usizeBits length < 2 ^ (usizeBits - 1) then
          some (readNBytes usizeBits sessionOpen { s with queue := rest } length [])
        else none
      | none => some ({ s with queue := rest }.again, none)
    | _, _, _, _ => none
  | .allocFails =>
    match s.exit, s.pc, s.stopping, s.queue, s.reader with
    | none, .idle, none, .readFrame _ :: _, some _ =>
      some (s.finish (.failed (.message "capacity overflow")), none)
    | _, _, _, _, _ => none
  | .ready =>
    match s.exit, s.pc with
    | none, .readable length => some (readNBytes usizeBits sessionOpen s length [])
    | _, _ => none
  | .read n =>
    match s.exit, s.pc with
    -- `read_u64` returns with its eighth byte
    | none, .header got =>
      if 0 < n ∧ n ≤ 8 - got.length ∧ n ≤ s.incoming.length then
        let got' := got ++ s.incoming.take n
        if got'.length < 8 then some ({ s.take n with pc := .header got' }, none)
        else some ((s.take n).waitForFrame (.ok (UInt64.ofNat (bigEndianValue got'))), none)
      else none
    -- one turn of the loop of `read_n_bytes`
    | none, .payload length buf =>
      if 0 < n ∧ n ≤ asUsize usizeBits length - buf.length ∧ n ≤ s.incoming.length then
        some (readNBytes usizeBits sessionOpen (s.take n) length (buf ++ s.incoming.take n))
      else none
    | _, _ => none
  | .ioError err =>
    match s.exit, s.pc with
    | none, .header _ => some (s.waitForFrame (.error err), none)
    | none, .readable _ => some (s.readFrame sessionOpen (.error err))
    | none, .payload _ _ => some (s.readFrame sessionOpen (.error err))
    | _, _ => none
  | .stop reason => some (s.stop reason, none)
  | .takeStop =>
    match s.exit, s.pc, s.stopping with
    | none, .idle, some reason => some (s.finish (.terminated reason), none)
    | _, _, _ => none
  | .kill => some (s.kill, none)

/-- One step of a reader by itself; the label says whether the session's mailbox is open. -/
def stepAlone (usizeBits : ℕ) (s : Reader) (e : Bool × ReaderEvent) : Option Reader :=
  (s.step usizeBits e.1 e.2).map (·.1)

end Reader

/-! ## What a step can do -/

namespace Reader

/-- A pair of a message that the reader takes and the messages left behind it. -/
def Takes (s : Reader) (msg : SessionReaderMessage) (rest : List SessionReaderMessage) : Prop :=
  s.exit = none ∧ s.pc = .idle ∧ s.stopping = none ∧ s.queue = msg :: rest

/-- Everything that one step of a reader can do. -/
inductive StepCase (usizeBits : ℕ) (sessionOpen : Bool) (s : Reader) :
    ReaderEvent → Reader × Option Frame → Prop
  | wait (half : ActorReadHalf) (rest : List SessionReaderMessage)
      (htakes : s.Takes .waitForFrame rest) (hreader : s.reader = some half) :
      StepCase usizeBits sessionOpen s .handle ({ s with queue := rest, pc := .header [] }, none)
  /-- There is no stream any more. -/
  | retry (msg : SessionReaderMessage) (rest : List SessionReaderMessage)
      (htakes : s.Takes msg rest) (hreader : s.reader = none) :
      StepCase usizeBits sessionOpen s .handle ({ s with queue := rest }.again, none)
  | readable (length : UInt64) (rest : List SessionReaderMessage)
      (htakes : s.Takes (.readFrame length) rest) (hreader : s.reader = some .regular)
      (hvec : asUsize usizeBits length < 2 ^ (usizeBits - 1)) :
      StepCase usizeBits sessionOpen s .handle
        ({ s with queue := rest, pc := .readable length }, none)
  | fill (length : UInt64) (rest : List SessionReaderMessage) (half : ActorReadHalf)
      (htakes : s.Takes (.readFrame length) rest) (hreader : s.reader = some half)
      (hvec : asUsize usizeBits length < 2 ^ (usizeBits - 1)) :
      StepCase usizeBits sessionOpen s .handle
        (readNBytes usizeBits sessionOpen { s with queue := rest } length [])
  | allocFails (length : UInt64) (rest : List SessionReaderMessage)
      (htakes : s.Takes (.readFrame length) rest) :
      StepCase usizeBits sessionOpen s .allocFails
        (s.finish (.failed (.message "capacity overflow")), none)
  | ready (length : UInt64) (hexit : s.exit = none) (hpc : s.pc = .readable length) :
      StepCase usizeBits sessionOpen s .ready (readNBytes usizeBits sessionOpen s length [])
  | headerMore (got : List UInt8) (n : ℕ) (hexit : s.exit = none) (hpc : s.pc = .header got)
      (hn : 0 < n ∧ n ≤ 8 - got.length ∧ n ≤ s.incoming.length)
      (hshort : (got ++ s.incoming.take n).length < 8) :
      StepCase usizeBits sessionOpen s (.read n)
        ({ s.take n with pc := .header (got ++ s.incoming.take n) }, none)
  | headerDone (got : List UInt8) (n : ℕ) (hexit : s.exit = none) (hpc : s.pc = .header got)
      (hn : 0 < n ∧ n ≤ 8 - got.length ∧ n ≤ s.incoming.length)
      (hfull : ¬ (got ++ s.incoming.take n).length < 8) :
      StepCase usizeBits sessionOpen s (.read n)
        ((s.take n).waitForFrame
          (.ok (UInt64.ofNat (bigEndianValue (got ++ s.incoming.take n)))), none)
  | payload (length : UInt64) (buf : List UInt8) (n : ℕ) (hexit : s.exit = none)
      (hpc : s.pc = .payload length buf)
      (hn : 0 < n ∧ n ≤ asUsize usizeBits length - buf.length ∧ n ≤ s.incoming.length) :
      StepCase usizeBits sessionOpen s (.read n)
        (readNBytes usizeBits sessionOpen (s.take n) length (buf ++ s.incoming.take n))
  | headerError (got : List UInt8) (err : IoErr) (hexit : s.exit = none)
      (hpc : s.pc = .header got) :
      StepCase usizeBits sessionOpen s (.ioError err) (s.waitForFrame (.error err), none)
  | frameError (length : UInt64) (err : IoErr) (hexit : s.exit = none)
      (hpc : s.pc = .readable length ∨ ∃ buf, s.pc = .payload length buf) :
      StepCase usizeBits sessionOpen s (.ioError err) (s.readFrame sessionOpen (.error err))
  | stop (reason : Option String) :
      StepCase usizeBits sessionOpen s (.stop reason) (s.stop reason, none)
  | takeStop (reason : Option String) (hexit : s.exit = none) (hpc : s.pc = .idle)
      (hstop : s.stopping = some reason) :
      StepCase usizeBits sessionOpen s .takeStop (s.finish (.terminated reason), none)
  | kill : StepCase usizeBits sessionOpen s .kill (s.kill, none)

/-- **Step inversion.** -/
theorem step_cases {usizeBits : ℕ} {sessionOpen : Bool} {s : Reader} {e : ReaderEvent}
    {out : Reader × Option Frame} (h : s.step usizeBits sessionOpen e = some out) :
    StepCase usizeBits sessionOpen s e out := by
  cases e with
  | handle =>
    simp only [step] at h
    split at h
    · rename_i rest hexit hpc hstop hqueue
      split at h <;> rw [Option.some.injEq] at h
      · rename_i half hreader
        exact h ▸ StepCase.wait half rest ⟨hexit, hpc, hstop, hqueue⟩ hreader
      · rename_i hreader
        exact h ▸ StepCase.retry _ rest ⟨hexit, hpc, hstop, hqueue⟩ hreader
    · rename_i length rest hexit hpc hstop hqueue
      split at h
      · rename_i hreader
        split at h
        · rename_i hvec
          rw [Option.some.injEq] at h
          exact h ▸ StepCase.readable length rest ⟨hexit, hpc, hstop, hqueue⟩ hreader hvec
        · cases h
      · rename_i half _ hreader
        split at h
        · rename_i hvec
          rw [Option.some.injEq] at h
          exact h ▸ StepCase.fill length rest half ⟨hexit, hpc, hstop, hqueue⟩ hreader hvec
        · cases h
      · rename_i hreader
        rw [Option.some.injEq] at h
        exact h ▸ StepCase.retry _ rest ⟨hexit, hpc, hstop, hqueue⟩ hreader
    · cases h
  | allocFails =>
    simp only [step] at h
    split at h
    · rename_i length rest half hexit hpc hstop hqueue hreader
      rw [Option.some.injEq] at h
      exact h ▸ StepCase.allocFails length rest ⟨hexit, hpc, hstop, hqueue⟩
    · cases h
  | ready =>
    simp only [step] at h
    split at h
    · rename_i length hexit hpc
      rw [Option.some.injEq] at h
      exact h ▸ StepCase.ready length hexit hpc
    · cases h
  | read n =>
    simp only [step] at h
    split at h
    · rename_i got hexit hpc
      split at h
      · rename_i hn
        split at h <;> rw [Option.some.injEq] at h
        · rename_i hshort
          exact h ▸ StepCase.headerMore got n hexit hpc hn hshort
        · rename_i hfull
          exact h ▸ StepCase.headerDone got n hexit hpc hn hfull
      · cases h
    · rename_i length buf hexit hpc
      split at h
      · rename_i hn
        rw [Option.some.injEq] at h
        exact h ▸ StepCase.payload length buf n hexit hpc hn
      · cases h
    · cases h
  | ioError err =>
    simp only [step] at h
    split at h
    · rename_i got hexit hpc
      rw [Option.some.injEq] at h
      exact h ▸ StepCase.headerError got err hexit hpc
    · rename_i length hexit hpc
      rw [Option.some.injEq] at h
      exact h ▸ StepCase.frameError length err hexit (Or.inl hpc)
    · rename_i length buf hexit hpc
      rw [Option.some.injEq] at h
      exact h ▸ StepCase.frameError length err hexit (Or.inr ⟨buf, hpc⟩)
    · cases h
  | stop reason =>
    simp only [step, Option.some.injEq] at h
    exact h ▸ StepCase.stop reason
  | takeStop =>
    simp only [step] at h
    split at h
    · rename_i reason hexit hpc hstop
      rw [Option.some.injEq] at h
      exact h ▸ StepCase.takeStop reason hexit hpc hstop
    · cases h
  | kill =>
    simp only [step, Option.some.injEq] at h
    exact h ▸ StepCase.kill

end Reader

end RactorActors.Net.Tcp
