import RactorActors.Net.Tcp.Decoding
import RactorActors.Net.Tcp.Framing
import RactorActors.Net.Tcp.Session

/-!
# What passes through an endpoint

Frames go through three mailboxes of an endpoint: those sent are queued at the session and then
at the writer, those read are queued at the session. None of the mailboxes loses, repeats or
reorders a frame while its actor lives.

* `Flow`: at each mailbox, the frames that went in are those that came out followed by those
  that are queued, and only a prefix of them once the actor has ended;
* `Flow.step`: kept by every step of an endpoint;
* `Endpoint.reader_of_step` and `Endpoint.writer_of_step`: to its children, a step of an
  endpoint is a step of theirs, a stop, a kill or a message.
-/

namespace RactorActors.Net.Tcp

open LengthPrefix

/-- The frames of the `Send` messages in a queue. -/
def sends (queue : List TcpSessionMessage) : List Frame :=
  queue.filterMap fun
    | .send msg => some msg
    | .frameReady _ => none

/-- The frames of the `FrameReady` messages in a queue. -/
def framesReady (queue : List TcpSessionMessage) : List Frame :=
  queue.filterMap fun
    | .frameReady msg => some msg
    | .send _ => none

/-- The frames of the messages in the writer's queue. -/
def writes (queue : List SessionWriterMessage) : List Frame :=
  queue.map fun
    | .write msg => msg

section Queues

variable (queue : List TcpSessionMessage) (msg : Frame)

@[simp] theorem sends_nil : sends [] = [] := rfl
@[simp] theorem sends_cons_send : sends (.send msg :: queue) = msg :: sends queue := rfl
@[simp] theorem sends_cons_frameReady : sends (.frameReady msg :: queue) = sends queue := rfl
@[simp] theorem sends_snoc_send : sends (queue ++ [.send msg]) = sends queue ++ [msg] := by
  simp [sends]
@[simp] theorem sends_snoc_frameReady : sends (queue ++ [.frameReady msg]) = sends queue := by
  simp [sends]

@[simp] theorem framesReady_nil : framesReady [] = [] := rfl
@[simp] theorem framesReady_cons_send :
    framesReady (.send msg :: queue) = framesReady queue := rfl
@[simp] theorem framesReady_cons_frameReady :
    framesReady (.frameReady msg :: queue) = msg :: framesReady queue := rfl
@[simp] theorem framesReady_snoc_send :
    framesReady (queue ++ [.send msg]) = framesReady queue := by
  simp [framesReady]
@[simp] theorem framesReady_snoc_frameReady :
    framesReady (queue ++ [.frameReady msg]) = framesReady queue ++ [msg] := by
  simp [framesReady]

end Queues

/-! ## The children -/

/-- A reader casts a frame only to an open mailbox. -/
theorem Reader.cast_eq_none {usizeBits : ℕ} {s : Reader} {e : ReaderEvent}
    {out : Reader × Option Frame} (h : s.step usizeBits false e = some out) : out.2 = none := by
  have hread (s : Reader) (length : UInt64) (buf : List UInt8) :
      (Reader.readNBytes usizeBits false s length buf).2 = none := by
    unfold Reader.readNBytes
    split <;> rfl
  cases Reader.step_cases h with
  | fill | ready | payload => exact hread _ _ _
  | frameError length err => exact (s.readFrame_error_fields false err).2.2.2
  | _ => rfl

/-- A killed reader has ended and keeps its record. -/
theorem Reader.kill_fields (s : Reader) :
    s.kill.exit ≠ none ∧ s.kill.casts = s.casts ∧ s.kill.consumed = s.consumed ∧
      s.kill.incoming = s.incoming := by
  unfold Reader.kill
  split
  · exact ⟨Option.some_ne_none _, rfl, rfl, rfl⟩
  · rename_i exit hexit
    exact ⟨by rw [hexit]; exact Option.some_ne_none exit, rfl, rfl, rfl⟩

/-- A killed writer has ended and keeps its record. -/
theorem Writer.kill_fields (s : Writer) :
    s.kill.exit ≠ none ∧ s.kill.begun = s.begun ∧ s.kill.wire = s.wire := by
  unfold Writer.kill
  split
  · exact ⟨Option.some_ne_none _, rfl, rfl⟩
  · rename_i exit hexit
    exact ⟨by rw [hexit]; exact Option.some_ne_none exit, rfl, rfl⟩

/-- The mailbox of the writer: a writer that lives has begun or still queues what it was sent. -/
theorem Writer.queue_of_step {s : Writer} {e : WriterEvent} {out : Writer × List UInt8}
    (hown : e.isOwn = true) (h : s.step e = some out) :
    (out.1.exit = none → s.exit = none ∧
      out.1.begun ++ writes out.1.queue = s.begun ++ writes s.queue) ∧
    (s.exit ≠ none → out.1.begun = s.begun) ∧
    out.1.begun <+: s.begun ++ writes s.queue := by
  -- a step that leaves frames and mailbox alone
  have same {s' : Writer} (hbegun : s'.begun = s.begun) (hqueue : s'.queue = s.queue)
      (hexit : s'.exit = none → s.exit = none) :
      (s'.exit = none → s.exit = none ∧ s'.begun ++ writes s'.queue = s.begun ++ writes s.queue) ∧
      (s.exit ≠ none → s'.begun = s.begun) ∧ s'.begun <+: s.begun ++ writes s.queue := by
    rw [hbegun, hqueue]
    exact ⟨fun hnone => ⟨hexit hnone, rfl⟩, fun _ => rfl, List.prefix_append _ _⟩
  have ended {exit : Exit} : ((s.finish exit).exit = none → s.exit = none ∧
      (s.finish exit).begun ++ writes (s.finish exit).queue = s.begun ++ writes s.queue) ∧
      (s.exit ≠ none → (s.finish exit).begun = s.begun) ∧
      (s.finish exit).begun <+: s.begun ++ writes s.queue :=
    ⟨fun hnone => (Option.some_ne_none exit hnone).elim, fun _ => rfl, List.prefix_append _ _⟩
  cases Writer.step_cases h with
  | cast | lost => cases hown
  | handle msg rest hexit _ _ hqueue =>
    obtain ⟨pc, heq, -⟩ :=
      { s with queue := rest, begun := s.begun ++ [msg] }.write_eq msg
    rw [heq]
    have hsplit : s.begun ++ [msg] ++ writes rest = s.begun ++ writes s.queue := by
      rw [hqueue, writes, writes, List.map_cons, List.append_assoc, List.singleton_append]
    exact ⟨fun _ => ⟨hexit, hsplit⟩, fun hne => absurd hexit hne,
      hsplit ▸ List.prefix_append _ _⟩
  | ready | putHeader | putPayload | wroteHeader | wrotePayload | flushed =>
    exact same rfl rfl fun hexit => hexit
  | ioError err hexit =>
    show (_ ∧ _ ∧ _)
    unfold Writer.writeFailed
    split
    · exact same rfl rfl fun hexit => hexit
    · exact ended
    · exact same rfl rfl fun hexit => hexit
    · obtain ⟨stopping, heq⟩ := { s with pc := .idle }.stop_eq (some "channel_closed")
      rw [heq]
      exact same rfl rfl fun hexit => hexit
    · exact ended
  | stop reason =>
    obtain ⟨stopping, heq⟩ := s.stop_eq reason
    rw [heq]
    exact same rfl rfl fun hexit => hexit
  | takeStop => exact ended
  | kill =>
    show (_ ∧ _ ∧ _)
    unfold Writer.kill
    split
    · exact ended
    · exact same rfl rfl fun hexit => hexit

/-! ## The endpoint -/

/-- At each of the three mailboxes, what went in is what came out and what is queued. -/
structure Flow (s : Endpoint) : Prop where
  sends_eq : s.session.exit = none → s.session.forwarded ++ sends s.session.queue = s.session.sent
  forwarded_le : s.session.forwarded <+: s.session.sent
  writes_eq : s.writer.exit = none →
    s.writer.begun ++ writes s.writer.queue = s.session.forwarded
  begun_le : s.writer.begun <+: s.session.forwarded
  frames_eq : s.session.exit = none →
    s.session.received ++ framesReady s.session.queue = s.reader.casts
  received_le : s.session.received <+: s.reader.casts

/-- Nothing has passed through an endpoint that was just started. -/
theorem flow_preStart (state : TcpSessionState) (read : ActorReadHalf) (write : ActorWriteHalf)
    (incoming : List UInt8) : Flow (Endpoint.preStart state read write incoming) where
  sends_eq := fun _ => rfl
  forwarded_le := List.prefix_rfl
  writes_eq := fun _ => rfl
  begun_le := List.prefix_rfl
  frames_eq := fun _ => rfl
  received_le := List.prefix_rfl

namespace Flow

variable {s : Endpoint}

/-- A supervision event does not touch the mailboxes. -/
theorem tell (h : Flow s) (evt : SupervisionEvent) : Flow (s.tell evt) := by
  unfold Endpoint.tell
  split
  · exact ⟨h.sends_eq, h.forwarded_le, h.writes_eq, h.begun_le, h.frames_eq, h.received_le⟩
  · exact h

/-- A stop does not touch the mailboxes. -/
theorem stop (h : Flow s) (reason : Option String) : Flow (s.stop reason) := by
  unfold Endpoint.stop
  split
  · exact ⟨h.sends_eq, h.forwarded_le, h.writes_eq, h.begun_le, h.frames_eq, h.received_le⟩
  · exact h

/-- Stopping the children does not touch the mailboxes. -/
theorem stopChildren (h : Flow s) (reason : Option String) : Flow (s.stopChildren reason) := by
  obtain ⟨_, hreader⟩ := s.reader.stop_eq reason
  obtain ⟨_, hwriter⟩ := s.writer.stop_eq reason
  unfold Endpoint.stopChildren
  rw [hreader, hwriter]
  exact ⟨h.sends_eq, h.forwarded_le, h.writes_eq, h.begun_le, h.frames_eq, h.received_le⟩

/-- The end of the session closes its mailbox and those of its children. -/
theorem finish (h : Flow s) (exit : Exit) : Flow (s.finish exit) where
  sends_eq := fun hnone => (Option.some_ne_none exit hnone).elim
  forwarded_le := h.forwarded_le
  writes_eq := fun hnone => absurd hnone s.writer.kill_fields.1
  begun_le := by
    show s.writer.kill.begun <+: s.session.forwarded
    rw [s.writer.kill_fields.2.1]
    exact h.begun_le
  frames_eq := fun hnone => (Option.some_ne_none exit hnone).elim
  received_le := by
    show s.session.received <+: s.reader.kill.casts
    rw [s.reader.kill_fields.2.1]
    exact h.received_le

/-- A frame is sent to the session. -/
theorem sendPosted (h : Flow s) (msg : Frame) :
    Flow ({ s with session := { s.session with sent := s.session.sent ++ [msg] } }.post
      (.send msg)) := by
  have hle : s.session.forwarded <+: s.session.sent ++ [msg] :=
    h.forwarded_le.trans (List.prefix_append _ _)
  unfold Endpoint.post
  split
  · rename_i hexit
    refine ⟨fun _ => ?_, hle, h.writes_eq, h.begun_le, fun _ => ?_, h.received_le⟩
    · simp only [sends_snoc_send, ← List.append_assoc]
      rw [h.sends_eq hexit]
    · simp only [framesReady_snoc_send]
      exact h.frames_eq hexit
  · rename_i exit hexit
    refine ⟨fun hnone => ?_, hle, h.writes_eq, h.begun_le, h.frames_eq, h.received_le⟩
    have hnone' : s.session.exit = none := hnone
    simp [hnone'] at hexit

/-- The session forwards a frame to its writer. -/
theorem forward (h : Flow s) {msg : Frame} {rest : List TcpSessionMessage}
    (hexit : s.session.exit = none) (hqueue : s.session.queue = .send msg :: rest) :
    Flow ({ s with session := { s.session with queue := rest } }.send msg) := by
  have hsends := h.sends_eq hexit
  have hframes := h.frames_eq hexit
  rw [hqueue, sends_cons_send] at hsends
  rw [hqueue, framesReady_cons_send] at hframes
  -- the frame moves from the queue to the frames forwarded
  have hsent : s.session.forwarded ++ [msg] ++ sends rest = s.session.sent := by
    rw [List.append_assoc, List.singleton_append, hsends]
  have hle : s.session.forwarded ++ [msg] <+: s.session.sent := hsent ▸ List.prefix_append _ _
  unfold Endpoint.send Writer.cast
  by_cases hwriter : s.writer.exit = none
  · simp only [if_pos hwriter]
    refine ⟨fun _ => hsent, hle, fun _ => ?_, h.begun_le.trans (List.prefix_append _ _),
      fun _ => hframes, h.received_le⟩
    simp only [writes, List.map_append, List.map_cons, List.map_nil, ← List.append_assoc]
    rw [← h.writes_eq hwriter, writes]
  · -- the cast meets a closed mailbox and is ignored
    simp only [if_neg hwriter]
    exact ⟨fun _ => hsent, hle, fun hnone => absurd hnone hwriter,
      h.begun_le.trans (List.prefix_append _ _), fun _ => hframes, h.received_le⟩

/-- The session passes a frame to its receiver. -/
theorem receive (h : Flow s) {msg : Frame} {rest : List TcpSessionMessage}
    (hexit : s.session.exit = none) (hqueue : s.session.queue = .frameReady msg :: rest) :
    Flow ({ s with session := { s.session with queue := rest } }.frameReady msg) := by
  have hsends := h.sends_eq hexit
  have hframes := h.frames_eq hexit
  rw [hqueue, sends_cons_frameReady] at hsends
  rw [hqueue, framesReady_cons_frameReady] at hframes
  have hcasts : s.session.received ++ [msg] ++ framesReady rest = s.reader.casts := by
    rw [List.append_assoc, List.singleton_append, hframes]
  exact ⟨fun _ => hsends, h.forwarded_le, h.writes_eq, h.begun_le, fun _ => hcasts,
    hcasts ▸ List.prefix_append _ _⟩

/-- The reader takes a step. -/
theorem readerStepped (h : Flow s) {usizeBits : ℕ} {e : ReaderEvent}
    {out : Reader × Option Frame}
    (hstep : s.reader.step usizeBits (s.session.exit = none) e = some out) :
    Flow (s.readerStepped out) := by
  have hcasts := (Reader.fields_of_step hstep).2
  obtain ⟨reader, buf⟩ := out
  cases buf with
  | none =>
    rw [Option.toList_none, List.append_nil] at hcasts
    refine ⟨h.sends_eq, h.forwarded_le, h.writes_eq, h.begun_le, fun hexit => ?_, ?_⟩
    · exact (h.frames_eq hexit).trans hcasts.symm
    · exact hcasts ▸ h.received_le
  | some buf =>
    -- the mailbox of the session is open
    have hexit : s.session.exit = none := by
      by_contra hne
      rw [decide_eq_false hne] at hstep
      have hnone := Reader.cast_eq_none hstep
      cases hnone
    rw [Option.toList_some] at hcasts
    simp only [Endpoint.readerStepped, Endpoint.post, hexit]
    refine ⟨fun _ => ?_, h.forwarded_le, h.writes_eq, h.begun_le, fun _ => ?_, ?_⟩
    · simp only [sends_snoc_frameReady]
      exact h.sends_eq hexit
    · simp only [framesReady_snoc_frameReady, ← List.append_assoc]
      rw [h.frames_eq hexit]
      exact hcasts.symm
    · show s.session.received <+: reader.casts
      have hcasts' : reader.casts = s.reader.casts ++ [buf] := hcasts
      rw [hcasts']
      exact h.received_le.trans (List.prefix_append _ _)

/-- The writer takes a step. -/
theorem writerStepped (h : Flow s) {e : WriterEvent} {out : Writer × List UInt8}
    (hown : e.isOwn = true) (hstep : s.writer.step e = some out) :
    Flow { s with writer := out.1 } := by
  obtain ⟨hlive, hdead, hle⟩ := Writer.queue_of_step hown hstep
  refine ⟨h.sends_eq, h.forwarded_le, fun hexit => ?_, ?_, h.frames_eq, h.received_le⟩
  · obtain ⟨hexit', heq⟩ := hlive hexit
    exact heq.trans (h.writes_eq hexit')
  · show out.1.begun <+: s.session.forwarded
    by_cases hexit : s.writer.exit = none
    · rw [← h.writes_eq hexit]
      exact hle
    · rw [hdead hexit]
      exact h.begun_le

/-- **Step lemma.** No step of an endpoint loses, repeats or reorders a frame in a mailbox. -/
theorem step {s' : Endpoint} {usizeBits : ℕ} {e : EndpointEvent} (h : Flow s)
    (hstep : s.step usizeBits e = some s') : Flow s' := by
  cases Endpoint.step_cases hstep with
  | send msg => exact h.sendPosted msg
  | forward msg rest hfree _ hqueue => exact h.forward hfree.1 hqueue
  | receive msg rest hfree _ hqueue => exact h.receive hfree.1 hqueue
  | returned result hexit =>
    cases result with
    | ok _ =>
      exact ⟨h.sends_eq, h.forwarded_le, h.writes_eq, h.begun_le, h.frames_eq, h.received_le⟩
    | error err => exact h.finish _
  | supervise evt rest =>
    have hrest : Flow { s with session := { s.session with supervision := rest } } :=
      ⟨h.sends_eq, h.forwarded_le, h.writes_eq, h.begun_le, h.frames_eq, h.received_le⟩
    -- the event is ignored, or the children and the session are stopped
    rcases Endpoint.handleSupervisorEvt_cases
      { s with session := { s.session with supervision := rest } } evt with
      ⟨-, heq⟩ | ⟨_, toChildren, toSession, -, heq⟩
    · rw [heq]
      exact hrest
    · rw [heq]
      exact (hrest.stopChildren toChildren).stop toSession
  | notify evt => exact h.tell evt
  | reader e out hreader => exact h.readerStepped hreader
  | writer e writer bytes hown hwriter => exact h.writerStepped hown hwriter
  | reportReader exit =>
    have hflag : Flow { s with readerReported := true } :=
      ⟨h.sends_eq, h.forwarded_le, h.writes_eq, h.begun_le, h.frames_eq, h.received_le⟩
    exact hflag.tell _
  | reportWriter exit =>
    have hflag : Flow { s with writerReported := true } :=
      ⟨h.sends_eq, h.forwarded_le, h.writes_eq, h.begun_le, h.frames_eq, h.received_le⟩
    exact hflag.tell _
  | stop reason => exact h.stop reason
  | takeStop reason => exact h.finish _
  | kill => exact h.finish _
  | late => exact h

end Flow

/-! ## What a step of an endpoint is to its children -/

/-- The session controls its reader by stopping and killing it. -/
def ReaderEvent.isControl : ReaderEvent → Bool
  | .stop _ => true
  | .kill => true
  | _ => false

/-- The session controls its writer by stopping and killing it and by sending it messages. -/
def WriterEvent.isControl : WriterEvent → Bool
  | .stop _ => true
  | .kill => true
  | .cast _ => true
  | _ => false

namespace Endpoint

@[simp]
theorem stop_reader (s : Endpoint) (reason : Option String) :
    (s.stop reason).reader = s.reader ∧ (s.stop reason).writer = s.writer := by
  unfold Endpoint.stop
  split <;> exact ⟨rfl, rfl⟩

@[simp]
theorem tell_reader (s : Endpoint) (evt : SupervisionEvent) :
    (s.tell evt).reader = s.reader ∧ (s.tell evt).writer = s.writer := by
  unfold Endpoint.tell
  split <;> exact ⟨rfl, rfl⟩

@[simp]
theorem post_reader (s : Endpoint) (msg : TcpSessionMessage) :
    (s.post msg).reader = s.reader ∧ (s.post msg).writer = s.writer := by
  unfold Endpoint.post
  split <;> exact ⟨rfl, rfl⟩

theorem readerStepped_reader (s : Endpoint) (out : Reader × Option Frame) :
    (s.readerStepped out).reader = out.1 ∧ (s.readerStepped out).writer = s.writer := by
  obtain ⟨reader, buf⟩ := out
  cases buf with
  | none => exact ⟨rfl, rfl⟩
  | some buf => exact post_reader { s with reader } (.frameReady buf)

theorem send_reader (s : Endpoint) (msg : Frame) : (s.send msg).reader = s.reader := by
  unfold Endpoint.send
  cases hcast : s.writer.cast (.write msg) <;> simp [hcast]

/-- A step of an endpoint leaves its reader alone, or is a step of it, a stop or a kill. -/
theorem reader_of_step {usizeBits : ℕ} {s s' : Endpoint} {e : EndpointEvent}
    (h : s.step usizeBits e = some s') :
    s'.reader = s.reader ∨ ∃ sessionOpen e' out,
      s.reader.step usizeBits sessionOpen e' = some out ∧ s'.reader = out.1 ∧
        (e = .reader e' ∨ e'.isControl = true) := by
  -- the session ends
  have killed {exit : Exit} : ∃ sessionOpen e' out,
      s.reader.step usizeBits sessionOpen e' = some out ∧ (s.finish exit).reader = out.1 ∧
        (e = .reader e' ∨ e'.isControl = true) :=
    ⟨true, .kill, (s.reader.kill, none), rfl, rfl, Or.inr rfl⟩
  cases step_cases h with
  | send msg =>
    left
    rw [(post_reader _ _).1]
  | forward msg rest => exact Or.inl (send_reader _ msg)
  | receive | writer | late => exact Or.inl rfl
  | returned result =>
    cases result with
    | ok _ => exact Or.inl rfl
    | error err => exact Or.inr killed
  | supervise evt rest =>
    rcases handleSupervisorEvt_cases
      { s with session := { s.session with supervision := rest } } evt with
      ⟨-, heq⟩ | ⟨_, toChildren, toSession, -, heq⟩
    · exact Or.inl (by rw [heq])
    · refine Or.inr ⟨true, .stop toChildren, (s.reader.stop toChildren, none), rfl, ?_,
        Or.inr rfl⟩
      rw [heq]
      exact (stop_reader _ toSession).1
  | notify evt => exact Or.inl (tell_reader s evt).1
  | reader e' out hstep =>
    exact Or.inr ⟨_, e', out, hstep, (readerStepped_reader s out).1, Or.inl rfl⟩
  | reportReader | reportWriter =>
    left
    rw [(tell_reader _ _).1]
  | stop reason => exact Or.inl (stop_reader s reason).1
  | takeStop => exact Or.inr killed
  | kill => exact Or.inr killed

/-- A step of an endpoint leaves its writer alone, or is a step of it, a stop, a kill or a
message to it. -/
theorem writer_of_step {usizeBits : ℕ} {s s' : Endpoint} {e : EndpointEvent}
    (h : s.step usizeBits e = some s') :
    s'.writer = s.writer ∨ ∃ e' out, s.writer.step e' = some out ∧ s'.writer = out.1 ∧
      (e = .writer e' ∨ e'.isControl = true) := by
  -- the session ends
  have killed {exit : Exit} : ∃ e' out, s.writer.step e' = some out ∧
      (s.finish exit).writer = out.1 ∧ (e = .writer e' ∨ e'.isControl = true) :=
    ⟨.kill, (s.writer.kill, []), rfl, rfl, Or.inr rfl⟩
  cases step_cases h with
  | send msg =>
    left
    rw [(post_reader _ _).2]
  | forward msg rest =>
    right
    refine ⟨.cast (.write msg), ?_⟩
    unfold Endpoint.send Writer.cast Writer.step Writer.cast
    by_cases hexit : s.writer.exit = none
    · simp only [if_pos hexit]
      exact ⟨_, rfl, rfl, Or.inr rfl⟩
    · simp only [if_neg hexit]
      exact ⟨_, rfl, rfl, Or.inr rfl⟩
  | receive | late => exact Or.inl rfl
  | returned result =>
    cases result with
    | ok _ => exact Or.inl rfl
    | error err => exact Or.inr killed
  | supervise evt rest =>
    rcases handleSupervisorEvt_cases
      { s with session := { s.session with supervision := rest } } evt with
      ⟨-, heq⟩ | ⟨_, toChildren, toSession, -, heq⟩
    · exact Or.inl (by rw [heq])
    · refine Or.inr ⟨.stop toChildren, (s.writer.stop toChildren, []), rfl, ?_, Or.inr rfl⟩
      rw [heq]
      exact (stop_reader _ toSession).2
  | notify evt => exact Or.inl (tell_reader s evt).2
  | reader e' out => exact Or.inl (readerStepped_reader s out).2
  | writer e' writer bytes _ hstep => exact Or.inr ⟨e', (writer, bytes), hstep, rfl, Or.inl rfl⟩
  | reportReader | reportWriter =>
    left
    rw [(tell_reader _ _).2]
  | stop reason => exact Or.inl (stop_reader s reason).2
  | takeStop => exact Or.inr killed
  | kill => exact Or.inr killed

end Endpoint

end RactorActors.Net.Tcp
