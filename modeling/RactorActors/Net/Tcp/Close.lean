import RactorActors.Net.Tcp.Flow

/-!
# A clean close

The peer sends some frames and closes the connection. The reader casts every frame to the
session, meets the end of the stream and stops; its exit event goes to the session past the
frames that are queued there. The session starts its shutdown when it takes that event, and a
pending stop comes before the queue.

* `Reader.Clean`: the reader is reading, or has dropped its stream at its end;
* `Undisturbed`: what holds until the session takes the exit event of its reader;
* `Ending`: from then on the receiver is given nothing any more;
* `received_on_close`: the frames passed to the receiver and those that are queued when the
  session takes the exit event are the frames sent;
* `frame_lost_on_close`: a run in which one is queued, and lost.
-/

namespace RactorActors.Net.Tcp

open LabelledRun LengthPrefix

/-! ## The reader -/

namespace Reader

/-- The reader waits for `readable`, which does not read. -/
def atReadable (s : Reader) : Bool :=
  match s.pc with
  | .readable _ => true
  | _ => false

/-- The steps of a reader whose stream ends after its last byte. No other error occurs, every
buffer can be allocated, and nobody but the reader itself stops it. -/
def cleanClose (s : Reader) : ReaderEvent → Bool
  | .ioError .unexpectedEof => s.incoming.isEmpty && !s.atReadable
  | .ioError .other => false
  | .allocFails => false
  | .stop _ => false
  | .kill => false
  | _ => true

/-- The reader is reading and nobody has stopped it, or it has consumed all bytes and dropped the
stream, with no complete frame left over. -/
def Clean (s : Reader) : Prop :=
  s.reader ≠ none ∧ s.exit = none ∧ s.stopping = none ∨
    s.reader = none ∧ s.incoming = [] ∧
      ∃ r, s.consumed = encodeAll 8 s.casts ++ r ∧ Incomplete 8 r

/-- A reader that is reading and meets the end of the stream has decoded all frames. -/
theorem clean_of_eof {usizeBits : ℕ} {s : Reader} (hs : s.Decodes usizeBits) (hlive : s.Live)
    (hfit : ∀ length, s.announced = some length → asUsize usizeBits length = length.toNat)
    (hread : ∃ held, s.pc = .header held ∨ ∃ length, s.pc = .payload length held) :
    ∃ r, s.consumed = encodeAll 8 s.casts ++ r ∧ Incomplete 8 r := by
  obtain ⟨held, hholds, hcons⟩ := hs.live hlive
  refine ⟨held, hcons, ?_⟩
  -- what is held is less than a header, or a header with less than its payload
  obtain ⟨got, hpc | ⟨length, hpc⟩⟩ := hread
  · obtain ⟨-, hshort, rfl⟩ := hholds.of_header hpc
    exact incomplete_of_length_lt hshort
  · obtain ⟨-, hshort, rfl⟩ := hholds.of_payload hpc
    rw [hfit length (by simp [announced, hpc])] at hshort
    refine incomplete_of_length_lt_value (length_bigEndian _ _) ?_
    rw [bigEndianValue_bigEndian length.toNat_lt]
    exact hshort

/-- A reader that has dropped its stream decodes and consumes nothing more. -/
theorem clean_of_dropped {usizeBits : ℕ} {s : Reader} {e : ReaderEvent}
    {out : Reader × Option Frame} (hpc : s.pc = .idle) (hreader : s.reader = none)
    (hclose : s.cleanClose e = true) (h : s.step usizeBits true e = some out) :
    out.1.reader = none ∧ out.1.incoming = s.incoming ∧ out.1.consumed = s.consumed ∧
      out.1.casts = s.casts := by
  cases step_cases h with
  -- there is no stream to read
  | wait half rest _ hhalf | fill length rest half _ hhalf =>
    rw [hreader] at hhalf
    cases hhalf
  | readable length rest _ hhalf =>
    rw [hreader] at hhalf
    cases hhalf
  | retry | takeStop => exact ⟨by first | exact hreader | rfl, rfl, rfl, rfl⟩
  -- and none is being read
  | ready _ _ hpc' | headerMore _ _ _ hpc' | headerDone _ _ _ hpc' | payload _ _ _ _ hpc'
  | headerError _ _ _ hpc' =>
    rw [hpc] at hpc'
    cases hpc'
  | frameError length err _ hpc' =>
    rcases hpc' with hpc' | ⟨buf, hpc'⟩ <;> rw [hpc] at hpc' <;> cases hpc'
  | allocFails | stop | kill => cases hclose

/-- A reader that has ended takes no step any more. -/
theorem exit_eq_none {usizeBits : ℕ} {sessionOpen : Bool} {s : Reader} {e : ReaderEvent}
    {out : Reader × Option Frame} (hclose : s.cleanClose e = true)
    (h : s.step usizeBits sessionOpen e = some out) : s.exit = none := by
  cases step_cases h with
  | wait _ _ htakes | retry _ _ htakes | readable _ _ htakes | fill _ _ _ htakes =>
    exact htakes.1
  | ready _ hexit | headerMore _ _ hexit | headerDone _ _ hexit | payload _ _ _ hexit
  | headerError _ _ hexit | frameError _ _ hexit | takeStop _ hexit => exact hexit
  | allocFails | stop | kill => cases hclose

/-- **Step lemma.** A reader that was not disturbed reads on, or drops its stream at its end. -/
theorem Clean.step {usizeBits : ℕ} {s : Reader} {e : ReaderEvent} {out : Reader × Option Frame}
    (hs : s.Clean) (hdec : s.Decodes usizeBits)
    (hfit : s.Live → ∀ length, s.announced = some length →
      asUsize usizeBits length = length.toNat)
    (hclose : s.cleanClose e = true) (h : s.step usizeBits true e = some out) : out.1.Clean := by
  rcases hs with ⟨hreader, hexit, hstopping⟩ | ⟨hreader, hincoming, r, hcons, hr⟩
  · have hopen (s' : Reader) (length : UInt64) (buf : List UInt8) (hr : s'.reader = s.reader)
        (he : s'.exit = s.exit) (hst : s'.stopping = s.stopping) :
        (readNBytes usizeBits true s' length buf).1.Clean := by
      obtain ⟨hr', he', hst'⟩ := readNBytes_open usizeBits s' length buf
      left
      rw [hr', he', hst', hr, he, hst]
      exact ⟨hreader, hexit, hstopping⟩
    have hlive : s.Live := ⟨hexit, hreader⟩
    cases step_cases h with
    | wait | readable | headerMore | headerDone => exact Or.inl ⟨hreader, hexit, hstopping⟩
    | retry msg rest _ hnone => exact absurd hnone hreader
    | fill length rest => exact hopen { s with queue := rest } length [] rfl rfl rfl
    | ready length => exact hopen s length [] rfl rfl rfl
    | payload length buf n => exact hopen (s.take n) length _ rfl rfl rfl
    | headerError got err _ hpc =>
      cases err with
      | other => cases hclose
      | unexpectedEof =>
        -- the stream is dropped
        obtain ⟨stopping, heq⟩ := { s with reader := none }.stop_eq (some "channel_closed")
        have hclean := clean_of_eof hdec hlive (hfit hlive) ⟨got, Or.inl hpc⟩
        have hincoming : s.incoming = [] := by
          simp only [cleanClose, Bool.and_eq_true, List.isEmpty_iff] at hclose
          exact hclose.1
        right
        simp only [waitForFrame, again, heq]
        exact ⟨trivial, hincoming, hclean⟩
    | frameError length err _ hpc =>
      cases err with
      | other => cases hclose
      | unexpectedEof =>
        obtain ⟨stopping, heq⟩ :=
          { s with reader := none, pc := .idle }.stop_eq (some "channel_closed")
        simp only [cleanClose, Bool.and_eq_true, List.isEmpty_iff, Bool.not_eq_true'] at hclose
        -- `readable` does not meet the end of the stream
        have hpayload : ∃ buf, s.pc = .payload length buf := by
          rcases hpc with hpc | hpc
          · simp [atReadable, hpc] at hclose
          · exact hpc
        obtain ⟨buf, hpc⟩ := hpayload
        have hclean := clean_of_eof hdec hlive (hfit hlive) ⟨buf, Or.inr ⟨length, hpc⟩⟩
        right
        simp only [readFrame, heq]
        exact ⟨trivial, hclose.1, hclean⟩
    | takeStop reason _ _ hstop =>
      rw [hstopping] at hstop
      cases hstop
    | allocFails | stop | kill => cases hclose
  · obtain ⟨hreader', hincoming', hcons', hcasts'⟩ :=
      clean_of_dropped (hdec.dropped hreader) hreader hclose h
    right
    rw [hincoming', hcons', hcasts']
    exact ⟨hreader', hincoming, r, hcons, hr⟩

end Reader

/-! ## The writer -/

/-- The steps of a writer whose socket does not fail and which nobody stops. -/
def WriterEvent.cleanClose : WriterEvent → Bool
  | .ioError _ => false
  | .stop _ => false
  | .kill => false
  | _ => true

/-- Such a writer lives on. -/
theorem Writer.lives_of_step {s : Writer} {e : WriterEvent} {out : Writer × List UInt8}
    (hexit : s.exit = none) (hstopping : s.stopping = none) (hclose : e.cleanClose = true)
    (h : s.step e = some out) : out.1.exit = none ∧ out.1.stopping = none := by
  cases Writer.step_cases h with
  | handle msg rest =>
    obtain ⟨pc, heq, -⟩ := { s with queue := rest, begun := s.begun ++ [msg] }.write_eq msg
    rw [heq]
    exact ⟨hexit, hstopping⟩
  | ioError | stop | kill => cases hclose
  | takeStop reason _ _ hstop =>
    rw [hstopping] at hstop
    cases hstop
  | _ => exact ⟨hexit, hstopping⟩

namespace Endpoint

/-! ## Before the exit event of the reader -/

/-- The steps of an endpoint whose peer closes the connection after its last byte: no error
occurs but the end of the stream, the receiver returns `Ok`, and nobody but the session and the
reader themselves stops any of the three actors. -/
def cleanClose (s : Endpoint) : EndpointEvent → Bool
  | .reader e => s.reader.cleanClose e
  | .writer e => e.cleanClose
  | .returned (.error _) => false
  | .stop _ => false
  | .kill => false
  | _ => true

/-- The session is about to take an exit event. -/
def AtExit (s : Endpoint) : Prop :=
  ∃ evt rest id, s.session.supervision = evt :: rest ∧ evt.ended = some id

/-- The session is about to take the exit event of its reader. -/
def AtReaderExit (s : Endpoint) : Prop :=
  ∃ evt rest, s.session.supervision = evt :: rest ∧
    evt.ended = some s.session.state.reader.getId

/-- What holds on a stream of `frames` until the session takes an exit event. -/
structure Undisturbed (usizeBits : ℕ) (frames : List Frame) (s : Endpoint) : Prop where
  exit : s.session.exit = none
  stopping : s.session.stopping = none
  flow : Flow s
  decodes : s.reader.Decodes usizeBits
  bytes : s.reader.consumed ++ s.reader.incoming = encodeAll 8 frames
  clean : s.reader.Clean
  writer : s.writer.exit = none ∧ s.writer.stopping = none
  ended : ∀ evt ∈ s.session.supervision, ∀ id, evt.ended = some id →
    id = s.session.state.reader.getId ∧ s.reader.exit ≠ none

/-- An endpoint as it is started. -/
theorem undisturbed_preStart (usizeBits : ℕ) (frames : List Frame) (state : TcpSessionState)
    (read : ActorReadHalf) (write : ActorWriteHalf) :
    (preStart state read write (encodeAll 8 frames)).Undisturbed usizeBits frames where
  exit := rfl
  stopping := rfl
  flow := flow_preStart _ _ _ _
  decodes := Reader.decodes_preStart _ _ _
  bytes := rfl
  clean := Or.inl ⟨Option.some_ne_none read, rfl, rfl⟩
  writer := ⟨rfl, rfl⟩
  ended := fun evt hevt => by cases hevt

/-- A step of the reader leaves the life of the session alone. -/
theorem readerStepped_session (s : Endpoint) (out : Reader × Option Frame) :
    (s.readerStepped out).session.state = s.session.state ∧
      (s.readerStepped out).session.exit = s.session.exit ∧
      (s.readerStepped out).session.stopping = s.session.stopping ∧
      (s.readerStepped out).session.supervision = s.session.supervision := by
  obtain ⟨reader, buf⟩ := out
  cases buf with
  | none => exact ⟨rfl, rfl, rfl, rfl⟩
  | some buf =>
    simp only [Endpoint.readerStepped, Endpoint.post]
    split <;> exact ⟨rfl, rfl, rfl, rfl⟩

namespace Undisturbed

variable {usizeBits : ℕ} {frames : List Frame} {s s' : Endpoint}

/-- A step that leaves the reader alone. -/
theorem of_reader_eq (hs : s.Undisturbed usizeBits frames) (hflow : Flow s')
    (hreader : s'.reader = s.reader) (hstate : s'.session.state = s.session.state)
    (hexit : s'.session.exit = s.session.exit)
    (hstopping : s'.session.stopping = s.session.stopping)
    (hwriter : s'.writer.exit = none ∧ s'.writer.stopping = none)
    (hended : ∀ evt ∈ s'.session.supervision, evt ∈ s.session.supervision ∨
      ∀ id, evt.ended = some id → id = s.session.state.reader.getId ∧ s.reader.exit ≠ none) :
    s'.Undisturbed usizeBits frames where
  exit := hexit.trans hs.exit
  stopping := hstopping.trans hs.stopping
  flow := hflow
  decodes := hreader ▸ hs.decodes
  bytes := hreader ▸ hs.bytes
  clean := hreader ▸ hs.clean
  writer := hwriter
  ended := by
    intro evt hevt id hid
    rw [hreader, hstate]
    rcases hended evt hevt with hold | hnew
    · exact hs.ended evt hold id hid
    · exact hnew id hid

/-- A supervision event is posted. -/
theorem tell (hs : s.Undisturbed usizeBits frames) {evt : SupervisionEvent}
    (hevt : ∀ id, evt.ended = some id →
      id = s.session.state.reader.getId ∧ s.reader.exit ≠ none) :
    (s.tell evt).Undisturbed usizeBits frames := by
  have hflow := hs.flow.tell evt
  unfold Endpoint.tell at hflow ⊢
  simp only [hs.exit] at hflow ⊢
  refine hs.of_reader_eq hflow rfl rfl hs.exit.symm rfl hs.writer ?_
  intro evt' hevt'
  rcases List.mem_append.mp hevt' with hold | hnew
  · exact Or.inl hold
  · rw [List.mem_singleton] at hnew
    exact Or.inr (hnew ▸ hevt)

/-- The reader takes a step. -/
theorem readerStepped (hs : s.Undisturbed usizeBits frames)
    (hframes : ∀ f ∈ frames, f.length < 2 ^ 64 ∧ f.length < 2 ^ usizeBits) {e : ReaderEvent}
    {out : Reader × Option Frame} (hclose : s.reader.cleanClose e = true)
    (hstep : s.reader.step usizeBits (s.session.exit = none) e = some out) :
    (s.readerStepped out).Undisturbed usizeBits frames := by
  have hflow := hs.flow.readerStepped hstep
  rw [decide_eq_true hs.exit] at hstep
  have hfit (hlive : s.reader.Live) (length : UInt64) (h : s.reader.announced = some length) :
      asUsize usizeBits length = length.toNat :=
    Reader.asUsize_of_announced hs.decodes hframes hs.bytes hlive h
  have herror : s.reader.errorClean e = true := by
    cases e with
    | ioError err => cases err with
      | unexpectedEof => rfl
      | other => cases hclose
    | _ => rfl
  have hdec :=
    Reader.decodes_of_step hs.decodes (fun hlive length h _ => hfit hlive length h) herror hstep
  have hbytes := (Reader.fields_of_step hstep).1.trans hs.bytes
  have hclean := hs.clean.step hs.decodes hfit hclose hstep
  obtain ⟨hstate, hexit, hstopping, hsup⟩ := s.readerStepped_session out
  obtain ⟨hreader, hwriter⟩ := s.readerStepped_reader out
  exact {
    exit := hexit.trans hs.exit
    stopping := hstopping.trans hs.stopping
    flow := hflow
    decodes := hreader ▸ hdec
    bytes := hreader ▸ hbytes
    clean := hreader ▸ hclean
    writer := hwriter ▸ hs.writer
    ended := by
      -- a reader that has ended would not have taken the step
      intro evt hevt id hid
      rw [hsup] at hevt
      exact absurd (Reader.exit_eq_none hclose hstep) (hs.ended evt hevt id hid).2 }

/-- **Step lemma.** Up to the exit event of the reader, the close is clean. -/
theorem step (hs : s.Undisturbed usizeBits frames)
    (hframes : ∀ f ∈ frames, f.length < 2 ^ 64 ∧ f.length < 2 ^ usizeBits) {e : EndpointEvent}
    (hclose : s.cleanClose e = true) (hexit : e = .supervise → ¬ s.AtExit)
    (h : s.step usizeBits e = some s') : s'.Undisturbed usizeBits frames := by
  have hflow := hs.flow.step h
  cases step_cases h with
  | send msg =>
    refine hs.of_reader_eq hflow (post_reader _ _).1 ?_ ?_ ?_ ?_ ?_
    all_goals simp only [Endpoint.post, hs.exit]
    · exact hs.writer
    · exact fun evt hevt => Or.inl hevt
  | forward msg rest =>
    refine hs.of_reader_eq hflow (send_reader _ msg) ?_ ?_ ?_ ?_ ?_
    all_goals simp only [Endpoint.send, Writer.cast, hs.writer.1, if_true]
    · exact ⟨trivial, hs.writer.2⟩
    · exact fun evt hevt => Or.inl hevt
  | receive msg rest =>
    exact hs.of_reader_eq hflow rfl rfl rfl rfl hs.writer fun evt hevt => Or.inl hevt
  | returned result =>
    cases result with
    | ok _ => exact hs.of_reader_eq hflow rfl rfl rfl rfl hs.writer fun evt hevt => Or.inl hevt
    | error err => cases hclose
  | supervise evt rest hfree hsup =>
    rcases handleSupervisorEvt_cases
      { s with session := { s.session with supervision := rest } } evt with
      ⟨-, heq⟩ | ⟨id, _, _, hended, -⟩
    · -- an event that reports no end is ignored
      rw [heq] at hflow ⊢
      refine hs.of_reader_eq hflow rfl rfl rfl rfl hs.writer fun evt' hevt' => Or.inl ?_
      rw [hsup]
      exact List.mem_cons_of_mem evt hevt'
    · exact absurd ⟨evt, rest, id, hsup, hended⟩ (hexit rfl)
  | notify evt hevt =>
    refine hs.tell fun id hid => ?_
    rw [hevt] at hid
    cases hid
  | reader e out hreader => exact hs.readerStepped hframes hclose hreader
  | writer e writer bytes _ hwriter =>
    exact hs.of_reader_eq hflow rfl rfl rfl rfl
      (Writer.lives_of_step hs.writer.1 hs.writer.2 hclose hwriter) fun evt hevt => Or.inl hevt
  | reportReader exit hreader =>
    have hflag : ({ s with readerReported := true } : Endpoint).Undisturbed usizeBits frames :=
      { hs with flow := ⟨hs.flow.sends_eq, hs.flow.forwarded_le, hs.flow.writes_eq,
          hs.flow.begun_le, hs.flow.frames_eq, hs.flow.received_le⟩ }
    refine hflag.tell fun id hid => ?_
    rw [ended_event, Option.some.injEq] at hid
    exact ⟨hid.symm, by rw [hreader]; exact Option.some_ne_none exit⟩
  -- the writer has not ended
  | reportWriter exit hwriter =>
    rw [hs.writer.1] at hwriter
    cases hwriter
  | stop | kill => cases hclose
  | takeStop reason _ _ hstop =>
    rw [hs.stopping] at hstop
    cases hstop
  | late hne => exact absurd hs.exit hne

/-- When the session takes an exit event, it is that of its reader, which has cast all frames. -/
theorem atReaderExit (hs : s.Undisturbed usizeBits frames)
    (hframes : ∀ f ∈ frames, f.length < 2 ^ 64 ∧ f.length < 2 ^ usizeBits) (hexit : s.AtExit) :
    s.AtReaderExit ∧ s.session.received ++ framesReady s.session.queue = frames := by
  obtain ⟨evt, rest, id, hsup, hended⟩ := hexit
  obtain ⟨rfl, hreader⟩ := hs.ended evt (by simp [hsup]) id hended
  refine ⟨⟨evt, rest, hsup, hended⟩, ?_⟩
  rw [hs.flow.frames_eq hs.exit]
  rcases hs.clean with ⟨-, hlive, -⟩ | ⟨-, hincoming, r, hcons, hr⟩
  · exact absurd hlive hreader
  · -- the bytes consumed are all that were sent, and split into frames in one way
    have hbytes : encodeAll 8 s.reader.casts ++ r = encodeAll 8 frames ++ [] := by
      rw [← hcons, List.append_nil, ← hs.bytes, hincoming, List.append_nil]
    exact (encodeAll_append_unique hs.decodes.fits (fun f hf => (hframes f hf).1) hr
      (incomplete_of_length_lt (by decide)) hbytes).1

end Undisturbed

/-! ## After the exit event of the reader -/

/-- The session is about to stop or has stopped, and `received` is all it has passed on. -/
def Ending (received : List Frame) (s : Endpoint) : Prop :=
  s.session.received = received ∧
    (s.session.exit = none → s.session.pc = .idle ∧ s.session.stopping ≠ none)

/-- The session that takes an exit event is about to stop. -/
theorem ending_of_supervise {usizeBits : ℕ} {s s' : Endpoint} (hexit : s.AtExit)
    (h : s.step usizeBits .supervise = some s') : s'.Ending s.session.received := by
  obtain ⟨evt, rest, id, hsup, hended⟩ := hexit
  cases step_cases h with
  | supervise evt' rest' hfree hsup' =>
    rw [hsup, List.cons.injEq] at hsup'
    obtain ⟨rfl, rfl⟩ := hsup'
    rcases handleSupervisorEvt_cases
      { s with session := { s.session with supervision := rest } } evt with
      ⟨hnone, -⟩ | ⟨_, toChildren, toSession, -, heq⟩
    · rw [hended] at hnone
      cases hnone
    · rw [heq]
      simp only [Endpoint.stop, stopChildren, hfree.1, hfree.2.2]
      exact ⟨rfl, fun _ => ⟨hfree.2.1, Option.some_ne_none toSession⟩⟩

/-- **Step lemma.** A session that is about to stop passes on nothing. -/
theorem Ending.step {usizeBits : ℕ} {received : List Frame} {s s' : Endpoint}
    {e : EndpointEvent} (hs : s.Ending received) (h : s.step usizeBits e = some s') :
    s'.Ending received := by
  obtain ⟨hreceived, hstopping⟩ := hs
  -- a session with a pending stop takes neither a message nor a supervision event
  have hbusy : ¬ s.Free := fun hfree => (hstopping hfree.1).2 hfree.2.2
  have hpost (s : Endpoint) (hs : s.Ending received) (msg : TcpSessionMessage) :
      (s.post msg).Ending received := by
    unfold Endpoint.post
    split <;> exact hs
  have htell (s : Endpoint) (hs : s.Ending received) (evt : SupervisionEvent) :
      (s.tell evt).Ending received := by
    unfold Endpoint.tell
    split <;> exact hs
  cases step_cases h with
  | send msg =>
    apply hpost
    exact ⟨hreceived, hstopping⟩
  | forward _ _ hfree | receive _ _ hfree | supervise _ _ hfree => exact absurd hfree hbusy
  | returned _ hexit hpc =>
    rw [(hstopping hexit).1] at hpc
    cases hpc
  | notify evt => exact htell s ⟨hreceived, hstopping⟩ evt
  | reader e out =>
    obtain ⟨reader, buf⟩ := out
    cases buf with
    | none => exact ⟨hreceived, hstopping⟩
    | some buf => exact hpost { s with reader } ⟨hreceived, hstopping⟩ (.frameReady buf)
  | writer => exact ⟨hreceived, hstopping⟩
  | reportReader | reportWriter =>
    apply htell
    exact ⟨hreceived, hstopping⟩
  | stop reason =>
    unfold Endpoint.stop
    split
    · rename_i hexit hnone
      exact absurd hnone (hstopping hexit).2
    · exact ⟨hreceived, hstopping⟩
  | takeStop | kill => exact ⟨hreceived, fun hnone => (Option.some_ne_none _ hnone).elim⟩
  | late => exact ⟨hreceived, hstopping⟩

/-! ## The whole run -/

/-- **What a clean close delivers.** The bytes of some frames (whose lengths fit `usize`) reach a
session and the peer closes the connection. In every run in which no other error occurs, the
receiver returns `Ok` and nobody else stops the actors, a session that has stopped has taken
the exit event of its reader; the frames passed to the receiver, followed by those that were
queued in its mailbox at that moment, are the frames sent. So all of them were passed on exactly
if none was queued. -/
theorem received_on_close {usizeBits : ℕ} {frames : List Frame}
    (hframes : ∀ f ∈ frames, f.length < 2 ^ 64 ∧ f.length < 2 ^ usizeBits)
    {state : TcpSessionState} {read : ActorReadHalf} {write : ActorWriteHalf}
    {es : List EndpointEvent} {s : Endpoint}
    (h : Run (step usizeBits) (fun s e => s.cleanClose e = true)
      (preStart state read write (encodeAll 8 frames)) es s)
    (hstopped : s.session.exit ≠ none) :
    ∃ es₁ es₂ t, es = es₁ ++ .supervise :: es₂ ∧
      exec (step usizeBits) (preStart state read write (encodeAll 8 frames)) es₁ = some t ∧
      t.AtReaderExit ∧
      s.session.received ++ framesReady t.session.queue = frames ∧
      (s.session.received = frames ↔ framesReady t.session.queue = []) := by
  have h₀ := undisturbed_preStart usizeBits frames state read write
  have hstep : ∀ s e s', s.Undisturbed usizeBits frames → (e = .supervise → ¬ s.AtExit) →
      checked cleanClose (step usizeBits) s e = some s' → s'.Undisturbed usizeBits frames := by
    intro s e s' hs hexit hchecked
    obtain ⟨hclose, hs'⟩ := checked_eq_some_iff.mp hchecked
    exact hs.step hframes hclose hexit hs'
  rw [run_iff_exec_checked] at h
  -- the first exit event that the session takes
  rcases exec_iff_run_or_breaks (G := fun s e => e = .supervise → ¬ s.AtExit) h with
    hrun | ⟨es₁, e, es₂, t, t', rfl, hrun, hexit, ht, hrest⟩
  · exact absurd (hrun.invariant h₀ hstep).exit hstopped
  · simp only [Classical.not_imp, not_not] at hexit
    obtain ⟨rfl, hexit⟩ := hexit
    obtain ⟨hreader, hframes'⟩ := (hrun.invariant h₀ hstep).atReaderExit hframes hexit
    have hending : t'.Ending t.session.received :=
      ending_of_supervise hexit (checked_eq_some_iff.mp ht).2
    -- from there on nothing is passed on
    have hlast : s.Ending t.session.received :=
      exec_invariant (run_iff_exec_checked.mpr hrest).exec_eq hending
        fun _ _ _ hs hs' => hs.step hs'
    rw [← hlast.1] at hframes'
    refine ⟨es₁, es₂, t, rfl, (run_iff_exec_checked.mpr hrun.exec_eq).exec_eq, hreader,
      hframes', ?_⟩
    constructor
    · intro hall
      rw [hall] at hframes'
      exact List.append_right_eq_self.mp hframes'
    · intro hnone
      rw [hnone, List.append_nil] at hframes'
      exact hframes'

/-- The peer sends a frame and an empty frame and closes the connection. The session handles one
of them before the exit event of its reader. -/
def closeAfterTwo : List EndpointEvent :=
  [.reader .handle, .reader (.read 8), .reader .handle, .reader .ready, .reader (.read 1),
    .reader .handle, .reader (.read 8), .reader .handle, .reader .ready, .handle,
    .reader .handle, .reader (.ioError .unexpectedEof), .returned (.ok ()), .reader .takeStop,
    .reportReader, .supervise, .takeStop]

/-- One of the two frames was passed on, the other one was queued. -/
theorem received_on_close_two_frames :
    ∃ s es₁ es₂ t, exec (step 64) (preStart ⟨⟨.loc 1⟩, ⟨.loc 2⟩⟩ .regular .regular
        (encodeAll 8 [[7], []])) closeAfterTwo = some s ∧
      closeAfterTwo = es₁ ++ .supervise :: es₂ ∧
      exec (step 64) (preStart ⟨⟨.loc 1⟩, ⟨.loc 2⟩⟩ .regular .regular
        (encodeAll 8 [[7], []])) es₁ = some t ∧
      t.AtReaderExit ∧
      s.session.received ++ framesReady t.session.queue = [[7], []] ∧
      (s.session.received = [[7], []] ↔ framesReady t.session.queue = []) := by
  have hrun : (exec (checked cleanClose (step 64)) (preStart ⟨⟨.loc 1⟩, ⟨.loc 2⟩⟩ .regular
      .regular (encodeAll 8 [[7], []])) closeAfterTwo).any
      (fun s => s.session.exit.isSome) = true := by decide
  obtain ⟨s, hs, hexit⟩ := (Option.any_eq_true _ _).mp hrun
  have hclose := run_iff_exec_checked.mpr hs
  obtain ⟨es₁, es₂, t, hsplit⟩ :=
    received_on_close (by simp) hclose (Option.isSome_iff_ne_none.mp hexit)
  exact ⟨s, es₁, es₂, t, hclose.exec_eq, hsplit⟩

/-- **A lost frame.** The peer sends one frame and closes the connection. The reader casts the
frame, meets the end of the stream and stops before the session has handled the frame; the
session takes the exit event first, and stops. -/
theorem frame_lost_on_close :
    ¬ ∀ (frames : List Frame) (es : List EndpointEvent) (s : Endpoint),
        (∀ f ∈ frames, f.length < 2 ^ 32) →
          Run (step 64) (fun s e => s.cleanClose e = true)
            (preStart ⟨⟨.loc 1⟩, ⟨.loc 2⟩⟩ .regular .regular (encodeAll 8 frames)) es s →
          s.session.exit ≠ none → s.session.received = frames := by
  intro hall
  have hrun : (exec (checked cleanClose (step 64)) (preStart ⟨⟨.loc 1⟩, ⟨.loc 2⟩⟩ .regular
      .regular (encodeAll 8 [[7]])) [.reader .handle, .reader (.read 8), .reader .handle,
        .reader .ready, .reader (.read 1), .reader .handle, .reader (.ioError .unexpectedEof),
        .reader .takeStop, .reportReader, .supervise, .takeStop]).any
      (fun s => s.session.exit.isSome && s.session.received.isEmpty) = true := by decide
  obtain ⟨s, hs, hfinal⟩ := (Option.any_eq_true _ _).mp hrun
  rw [Bool.and_eq_true, List.isEmpty_iff] at hfinal
  have hreceived := hall [[7]] _ s (by simp) (run_iff_exec_checked.mpr hs)
    (Option.isSome_iff_ne_none.mp hfinal.1)
  rw [hfinal.2] at hreceived
  cases hreceived

end Endpoint

end RactorActors.Net.Tcp
