import RactorActors.Net.Tcp.Close
import RactorActors.Net.Tcp.Delivery

/-!
# Everything that is sent is delivered

Two sessions joined by a connection that does not fail, whose six actors nobody stops or kills
and whose receivers return `Ok`. What is left for the actors and the connection to do shrinks
with every step of theirs, and as long as a frame is on its way one of them can take a step.

* `Serving`: the three actors of an endpoint run and none of them is about to stop;
* `Writer.load`, `Reader.load` and `Session.load`: what an actor still has to do for the frames
  that pass it, kept by each of the other actors and made less by its own steps;
* `settled_of_stuck`: a network in which no step is left is settled, so that no frame is held up
  half-way;
* `eventual_delivery`: from every state of a run, whatever order the steps are taken in, a bounded
  number of them gives each receiver all that was sent.
-/

namespace RactorActors.Net.Tcp

open LabelledRun LengthPrefix

/-- No operation on the socket fails, the buffer can be allocated, and nobody stops or kills the
reader. -/
def ReaderEvent.smooth : ReaderEvent → Bool
  | .allocFails => false
  | .ioError _ => false
  | .stop _ => false
  | .kill => false
  | _ => true

/-- No operation on the sockets fails, the receiver returns `Ok`, and nobody stops or kills an
actor. A frame that is sent is a vector, which holds at most `isize::MAX` bytes. -/
def EndpointEvent.smooth : EndpointEvent → Bool
  | .send msg => msg.length < 2 ^ 63
  | .returned (.error _) => false
  | .reader e => e.smooth
  | .writer e => e.cleanClose
  | .stop _ => false
  | .kill => false
  | _ => true

/-- A smooth step of one of the endpoints, or a delivery. -/
def NetworkEvent.smooth : NetworkEvent → Bool
  | .endpoint _ e => e.smooth
  | .deliver _ _ => true

/-- A smooth step of the actors themselves: nobody casts a frame to the session or notifies it. -/
def EndpointEvent.own : EndpointEvent → Bool
  | .send _ => false
  | .notify _ => false
  | e => e.smooth

/-- A smooth step of the actors, or the delivery of at least one byte. -/
def NetworkEvent.own : NetworkEvent → Bool
  | .endpoint _ e => e.own
  | .deliver _ n => 0 < n

theorem EndpointEvent.smooth_of_own {e : EndpointEvent} (h : e.own = true) : e.smooth = true := by
  cases e <;> first | exact h | cases h

theorem NetworkEvent.smooth_of_own {e : NetworkEvent} (h : e.own = true) : e.smooth = true := by
  cases e with
  | endpoint side e => exact EndpointEvent.smooth_of_own h
  | deliver => rfl

/-- A smooth step is no error. -/
theorem NetworkEvent.calm_of_smooth {s : Network} {e : NetworkEvent} (h : e.smooth = true) :
    s.calm e = true := by
  cases e with
  | deliver => rfl
  | endpoint side e =>
    cases e with
    | send msg =>
      have hlen : msg.length < 2 ^ 63 := of_decide_eq_true h
      exact decide_eq_true (by omega)
    | reader e =>
      cases e with
      | ioError => cases h
      | _ => rfl
    | writer e =>
      cases e with
      | ioError => cases h
      | _ => rfl
    | _ => rfl

/-! ## The actors run on -/

/-- The reader runs, reads its stream and is not about to stop. -/
def Reader.Serving (s : Reader) : Prop := s.exit = none ∧ s.stopping = none ∧ s.reader ≠ none

/-- The three actors of an endpoint run and none of them is about to stop. -/
structure Endpoint.Serving (s : Endpoint) : Prop where
  session : s.session.exit = none ∧ s.session.stopping = none
  supervision : ∀ evt ∈ s.session.supervision, evt.ended = none
  reader : s.reader.Serving
  writer : s.writer.exit = none ∧ s.writer.stopping = none
  frames : ∀ f ∈ s.session.sent, f.length < 2 ^ 63

/-- The head of the reading loop lets a reader of a session that runs serve on. -/
theorem Reader.Serving.readNBytes {s : Reader} (hs : s.Serving) (usizeBits : ℕ) (length : UInt64)
    (buf : List UInt8) : (readNBytes usizeBits true s length buf).1.Serving := by
  obtain ⟨hreader, hexit, hstopping⟩ := readNBytes_open usizeBits s length buf
  exact ⟨hexit.trans hs.1, hstopping.trans hs.2.1, hreader ▸ hs.2.2⟩

/-- A reader whose session runs serves on. -/
theorem Reader.Serving.step {usizeBits : ℕ} {s : Reader} {e : ReaderEvent}
    {out : Reader × Option Frame} (hs : s.Serving) (he : e.smooth = true)
    (h : s.step usizeBits true e = some out) : out.1.Serving := by
  cases step_cases h with
  | wait | readable | headerMore | headerDone => exact hs
  | retry msg rest _ hnone => exact absurd hnone hs.2.2
  | fill length rest =>
    exact Reader.Serving.readNBytes (s := { s with queue := rest }) hs usizeBits length []
  | ready length => exact hs.readNBytes usizeBits length []
  | payload length buf n =>
    exact Reader.Serving.readNBytes (s := s.take n) hs usizeBits length _
  | takeStop reason _ _ hstop =>
    rw [hs.2.1] at hstop
    cases hstop
  | allocFails | headerError | frameError | stop | kill => cases he

namespace Endpoint

/-- A session that runs queues the messages it is sent. -/
theorem post_of_running {s : Endpoint} (hexit : s.session.exit = none)
    (msg : TcpSessionMessage) :
    s.post msg = { s with session := { s.session with queue := s.session.queue ++ [msg] } } := by
  unfold Endpoint.post
  rw [hexit]

/-- A session that runs queues the supervision events it is sent. -/
theorem tell_of_running {s : Endpoint} (hexit : s.session.exit = none) (evt : SupervisionEvent) :
    s.tell evt =
      { s with session := { s.session with supervision := s.session.supervision ++ [evt] } } := by
  unfold Endpoint.tell
  rw [hexit]

/-- A writer that runs queues the frames that the session forwards. -/
theorem send_of_running {s : Endpoint} (hexit : s.writer.exit = none) (msg : Frame) :
    s.send msg =
      { s with
        session := { s.session with forwarded := s.session.forwarded ++ [msg] }
        writer := { s.writer with queue := s.writer.queue ++ [.write msg] } } := by
  simp only [Endpoint.send, Writer.cast, if_pos hexit]

/-- An endpoint as it is started. -/
theorem serving_preStart (state : TcpSessionState) (read : ActorReadHalf)
    (write : ActorWriteHalf) (incoming : List UInt8) :
    (preStart state read write incoming).Serving where
  session := ⟨rfl, rfl⟩
  supervision := fun evt hevt => by cases hevt
  reader := ⟨rfl, rfl, Option.some_ne_none read⟩
  writer := ⟨rfl, rfl⟩
  frames := fun f hf => by cases hf

/-- **Step lemma.** Smooth steps let the actors run on. -/
theorem Serving.step {s s' : Endpoint} {e : EndpointEvent} (hs : s.Serving)
    (he : e.smooth = true) (h : s.step 64 e = some s') : s'.Serving := by
  have hexit := hs.session.1
  cases step_cases h with
  | send msg =>
    rw [post_of_running (by exact hexit)]
    refine ⟨hs.session, hs.supervision, hs.reader, hs.writer, fun f hf => ?_⟩
    rcases List.mem_append.mp hf with hf | hf
    · exact hs.frames f hf
    · rw [List.mem_singleton] at hf
      exact hf ▸ of_decide_eq_true he
  | forward msg rest =>
    rw [send_of_running (by exact hs.writer.1)]
    exact ⟨hs.session, hs.supervision, hs.reader, hs.writer, hs.frames⟩
  | receive msg rest => exact ⟨hs.session, hs.supervision, hs.reader, hs.writer, hs.frames⟩
  | returned result =>
    cases result with
    | ok _ => exact ⟨hs.session, hs.supervision, hs.reader, hs.writer, hs.frames⟩
    | error err => cases he
  | supervise evt rest hfree hsup =>
    have hmem {evt' : SupervisionEvent} (h : evt' = evt ∨ evt' ∈ rest) :
        evt' ∈ s.session.supervision := by
      rw [hsup]
      exact List.mem_cons.mpr h
    rcases handleSupervisorEvt_cases
      { s with session := { s.session with supervision := rest } } evt with
      ⟨-, heq⟩ | ⟨id, _, _, hended, -⟩
    · rw [heq]
      exact ⟨hs.session, fun evt' hevt' => hs.supervision evt' (hmem (Or.inr hevt')), hs.reader,
        hs.writer, hs.frames⟩
    · -- no actor has ended
      rw [hs.supervision evt (hmem (Or.inl rfl))] at hended
      cases hended
  | notify evt hevt =>
    rw [tell_of_running hexit]
    refine ⟨hs.session, fun evt' hevt' => ?_, hs.reader, hs.writer, hs.frames⟩
    rcases List.mem_append.mp hevt' with hold | hnew
    · exact hs.supervision evt' hold
    · rw [List.mem_singleton] at hnew
      exact hnew ▸ hevt
  | reader e' out hstep =>
    rw [decide_eq_true hexit] at hstep
    have hserving := hs.reader.step he hstep
    obtain ⟨reader, buf⟩ := out
    cases buf with
    | none => exact ⟨hs.session, hs.supervision, hserving, hs.writer, hs.frames⟩
    | some buf =>
      rw [Endpoint.readerStepped, post_of_running (s := { s with reader }) hexit]
      exact ⟨hs.session, hs.supervision, hserving, hs.writer, hs.frames⟩
  | writer e' writer bytes _ hstep =>
    exact ⟨hs.session, hs.supervision, hs.reader,
      Writer.lives_of_step hs.writer.1 hs.writer.2 he hstep, hs.frames⟩
  | reportReader exit hended =>
    rw [hs.reader.1] at hended
    cases hended
  | reportWriter exit hended =>
    rw [hs.writer.1] at hended
    cases hended
  | stop | kill => cases he
  | takeStop reason _ _ hstop =>
    rw [hs.session.2] at hstop
    cases hstop
  | late hne => exact absurd hexit hne

end Endpoint

/-! ## What is left to do -/

/-- The operations, besides putting bytes, that are left for the frame in hand. -/
def WriterPc.rank : WriterPc → ℕ
  | .idle => 0
  | .flush => 1
  | .payload _ => 2
  | .header _ _ => 3
  | .writable _ => 4

/-- What is left for a writer to do for `frames` frames of `bytes` bytes. -/
def Writer.load (frames bytes : ℕ) (s : Writer) : ℕ :=
  5 * (frames - s.begun.length) + (bytes - s.wire.length) + s.pc.rank

/-- The steps of its loop that separate the reader from casting the frame in hand. -/
def Reader.place (s : Reader) : ℕ :=
  match s.pc with
  | .payload _ _ => 0
  | .readable _ => 1
  | .header _ => 3
  | .idle => if s.queue = [.waitForFrame] then 4 else 2

/-- What is left for a reader to do for `frames` frames of `bytes` bytes. -/
def Reader.load (frames bytes : ℕ) (s : Reader) : ℕ :=
  5 * (frames - s.casts.length) + (bytes - s.consumed.length) + s.place

/-- What is left for a session to do for `out` frames sent to it and `into` frames read for it. -/
def Session.load (out into : ℕ) (s : Session) : ℕ :=
  (out - s.forwarded.length) + 2 * (into - s.received.length) +
    (if s.pc = .receiving then 1 else 0) + s.supervision.length

/-- What is left for an endpoint to do for the frames `out`, which it sends, and the frames
`into`, which it is sent. -/
def Endpoint.load (out into : List Frame) (s : Endpoint) : ℕ :=
  s.session.load out.length into.length + s.writer.load out.length (encodeAll 8 out).length +
    s.reader.load into.length (encodeAll 8 into).length

/-- An endpoint has done no more than there is to do. -/
structure Endpoint.Within (out into : List Frame) (s : Endpoint) : Prop where
  forwarded : s.session.forwarded.length ≤ out.length
  begun : s.writer.begun.length ≤ out.length
  wire : s.writer.wire.length ≤ (encodeAll 8 out).length
  casts : s.reader.casts.length ≤ into.length
  consumed : s.reader.consumed.length ≤ (encodeAll 8 into).length
  received : s.session.received.length ≤ into.length

/-- A step of a writer leaves it less to do. -/
theorem Writer.load_lt_of_step (frames bytes : ℕ) {s : Writer} {e : WriterEvent}
    {out : Writer × List UInt8} (hstopping : s.stopping = none) (hown : e.isOwn = true)
    (he : e.cleanClose = true) (h : s.step e = some out) (hbegun : out.1.begun.length ≤ frames)
    (hwire : out.1.wire.length ≤ bytes) : out.1.load frames bytes < s.load frames bytes := by
  have hput {rest : List UInt8} {n : ℕ} (hn : 0 < n ∧ n ≤ rest.length) :
      (s.wire ++ rest.take n).length = s.wire.length + n := by
    rw [List.length_append, List.length_take_of_le hn.2]
  cases step_cases h with
  | cast | lost => cases hown
  | handle msg rest hexit hpc =>
    -- the frame is begun at a price of five
    obtain ⟨pc, heq, -⟩ := { s with queue := rest, begun := s.begun ++ [msg] }.write_eq msg
    have hrank : pc.rank ≤ 4 := by cases pc <;> simp [WriterPc.rank]
    have hidle : s.pc.rank = 0 := by rw [hpc, WriterPc.rank]
    rw [heq] at hbegun ⊢
    simp only [load, hidle, List.length_append, List.length_singleton] at hbegun ⊢
    omega
  | ready msg _ hpc => simp [load, hpc, WriterPc.rank]
  | putHeader msg rest n _ hpc hn =>
    simp only [Writer.put, hput hn] at hwire
    simp only [load, Writer.put, hput hn, hpc, WriterPc.rank]
    omega
  | putPayload rest n _ hpc hn =>
    simp only [Writer.put, hput hn] at hwire
    simp only [load, Writer.put, hput hn, hpc, WriterPc.rank]
    omega
  | wroteHeader msg _ hpc => simp [load, hpc, WriterPc.rank]
  | wrotePayload _ hpc => simp [load, hpc, WriterPc.rank]
  | flushed _ hpc => simp [load, hpc, WriterPc.rank]
  | takeStop reason _ _ hstop =>
    rw [hstopping] at hstop
    cases hstop
  | ioError | stop | kill => cases he

/-- A reader at the head of its reading loop is nearer to its cast, or has made it. -/
theorem Reader.load_readNBytes_le {frames : ℕ} (bytes usizeBits : ℕ) {s : Reader}
    (length : UInt64) (buf : List UInt8) (hqueue : s.queue = [])
    (hcasts : (readNBytes usizeBits true s length buf).1.casts.length ≤ frames) :
    (readNBytes usizeBits true s length buf).1.load frames bytes ≤
      5 * (frames - s.casts.length) + (bytes - s.consumed.length) := by
  unfold readNBytes at hcasts ⊢
  split
  · simp [load, place]
  · rename_i hfull
    simp only [if_neg hfull, readFrame, again, if_true, List.length_append,
      List.length_singleton] at hcasts
    simp only [load, readFrame, again, if_true, place, hqueue, List.nil_append,
      List.length_append, List.length_singleton]
    omega

/-- A step of a reader that serves a session that runs leaves it less to do. -/
theorem Reader.load_lt_of_step (frames bytes : ℕ) {s : Reader} {e : ReaderEvent}
    {out : Reader × Option Frame} (hs : s.Serving) (hdec : s.Decodes 64)
    (he : e.smooth = true) (h : s.step 64 true e = some out)
    (hcasts : out.1.casts.length ≤ frames) (hconsumed : out.1.consumed.length ≤ bytes) :
    out.1.load frames bytes < s.load frames bytes := by
  have hlive : s.Live := ⟨hs.1, hs.2.2⟩
  obtain ⟨held, hholds, -⟩ := hdec.live hlive
  have htake {n : ℕ} (hn : n ≤ s.incoming.length) :
      (s.consumed ++ s.incoming.take n).length = s.consumed.length + n := by
    rw [List.length_append, List.length_take_of_le hn]
  cases step_cases h with
  | wait half rest htakes =>
    obtain ⟨rfl, -⟩ := hdec.of_takes htakes hs.2.2
    simp [load, place, htakes.2.1, htakes.2.2.2]
  | retry msg rest _ hnone => exact absurd hnone hs.2.2
  | readable length rest htakes =>
    obtain ⟨rfl, -⟩ := hdec.of_takes htakes hs.2.2
    simp [load, place, htakes.2.1, htakes.2.2.2]
  | fill length rest half htakes =>
    obtain ⟨rfl, -⟩ := hdec.of_takes htakes hs.2.2
    have hle := load_readNBytes_le (s := { s with queue := [] }) bytes 64 length [] rfl
      hcasts
    have hplace : s.place = 2 := by simp [place, htakes.2.1, htakes.2.2.2]
    simp only [load, hplace] at hle ⊢
    omega
  | ready length _ hpc =>
    obtain ⟨hqueue, -⟩ := hholds.of_readable hpc
    have hle := load_readNBytes_le bytes 64 length [] hqueue hcasts
    have hplace : s.place = 1 := by simp [place, hpc]
    simp only [load, hplace] at hle ⊢
    omega
  | headerMore got n _ hpc hn =>
    simp only [Reader.take, htake hn.2.2] at hconsumed
    simp only [load, Reader.take, htake hn.2.2, place, hpc]
    omega
  | headerDone got n _ hpc hn =>
    obtain ⟨hqueue, -⟩ := hholds.of_header hpc
    simp only [waitForFrame, Reader.take, htake hn.2.2] at hconsumed
    have hplace : s.place = 3 := by simp [place, hpc]
    have hplace' : ((s.take n).waitForFrame
        (.ok (UInt64.ofNat (bigEndianValue (got ++ s.incoming.take n))))).place = 2 := by
      simp [place, waitForFrame, Reader.take, hqueue]
    simp only [load, hplace, hplace']
    simp only [waitForFrame, Reader.take, htake hn.2.2]
    omega
  | payload length buf n _ hpc hn =>
    obtain ⟨hqueue, -⟩ := hholds.of_payload hpc
    have hle := load_readNBytes_le (s := s.take n) bytes 64 length
      (buf ++ s.incoming.take n) hqueue hcasts
    rw [(readNBytes_fields 64 true (s.take n) length _).1] at hconsumed
    simp only [Reader.take, htake hn.2.2] at hconsumed hle
    simp only [load, Reader.take] at hle ⊢
    omega
  | takeStop reason _ _ hstop =>
    rw [hs.2.1] at hstop
    cases hstop
  | allocFails | headerError | frameError | stop | kill => cases he

/-- **Step lemma.** A step of the actors of an endpoint leaves them less to do. -/
theorem Endpoint.load_lt_of_step {out into : List Frame} {s s' : Endpoint} {e : EndpointEvent}
    (hs : s.Serving) (hdec : s.reader.Decodes 64) (he : e.own = true)
    (h : s.step 64 e = some s') (hwithin : s'.Within out into) :
    s'.load out into < s.load out into := by
  have hexit := hs.session.1
  cases step_cases h with
  | send | notify => cases he
  | forward msg rest hfree =>
    rw [send_of_running (by exact hs.writer.1)] at hwithin ⊢
    have hle := hwithin.forwarded
    simp only [List.length_append, List.length_singleton] at hle
    simp only [load, Session.load, Writer.load, List.length_append, List.length_singleton]
    omega
  | receive msg rest hfree =>
    have hle := hwithin.received
    simp only [frameReady, List.length_append, List.length_singleton] at hle
    simp only [load, Session.load, frameReady, List.length_append, List.length_singleton, hfree.2.1]
    simp
    omega
  | returned result _ hpc =>
    cases result with
    | ok _ => simp [load, Session.load, frameReadyReturned, hpc]
    | error err => cases he
  | supervise evt rest hfree hsup =>
    rcases handleSupervisorEvt_cases
      { s with session := { s.session with supervision := rest } } evt with
      ⟨-, heq⟩ | ⟨id, _, _, hended, -⟩
    · rw [heq]
      simp only [load, Session.load, hsup, List.length_cons]
      omega
    · -- no actor has ended
      rw [hs.supervision evt (by simp [hsup])] at hended
      cases hended
  | reader e' out' hstep =>
    rw [decide_eq_true hexit] at hstep
    have hlt := Reader.load_lt_of_step into.length (encodeAll 8 into).length hs.reader hdec he hstep
    obtain ⟨reader, buf⟩ := out'
    cases buf with
    | none =>
      have hlt' := hlt hwithin.casts hwithin.consumed
      simp only [load, readerStepped] at hlt' ⊢
      omega
    | some buf =>
      rw [readerStepped, post_of_running (s := { s with reader }) hexit] at hwithin ⊢
      have hlt' := hlt hwithin.casts hwithin.consumed
      simp only [load, Session.load] at hlt' ⊢
      omega
  | writer e' writer bytes hown hstep =>
    have hlt := Writer.load_lt_of_step out.length (encodeAll 8 out).length hs.writer.2 hown he
      hstep hwithin.begun hwithin.wire
    simp only [load] at hlt ⊢
    omega
  | reportReader exit hended =>
    rw [hs.reader.1] at hended
    cases hended
  | reportWriter exit hended =>
    rw [hs.writer.1] at hended
    cases hended
  | stop | kill => cases he
  | takeStop reason _ _ hstop =>
    rw [hs.session.2] at hstop
    cases hstop
  | late hne => exact absurd hexit hne

/-! ## Where no step is left -/

/-- A writer that runs and can take no step is between two handlers, with nothing to write. -/
theorem Writer.idle_of_stuck {s : Writer} (hs : s.exit = none ∧ s.stopping = none)
    (hstuck : ∀ e : WriterEvent, e.isOwn = true → e.cleanClose = true → s.step e = none) :
    s.pc = .idle ∧ s.queue = [] := by
  obtain ⟨hexit, hstopping⟩ := hs
  cases hpc : s.pc with
  | idle =>
    refine ⟨rfl, ?_⟩
    cases hqueue : s.queue with
    | nil => rfl
    | cons msg rest =>
      obtain ⟨msg⟩ := msg
      have hnone := hstuck .handle rfl rfl
      simp [step, hexit, hpc, hstopping, hqueue] at hnone
  | writable msg =>
    have hnone := hstuck .ready rfl rfl
    simp [step, hexit, hpc] at hnone
  | header msg rest =>
    cases rest with
    | nil =>
      have hnone := hstuck .wrote rfl rfl
      simp [step, hexit, hpc] at hnone
    | cons byte rest =>
      have hnone := hstuck (.put 1) rfl rfl
      simp [step, hexit, hpc] at hnone
  | payload rest =>
    cases rest with
    | nil =>
      have hnone := hstuck .wrote rfl rfl
      simp [step, hexit, hpc] at hnone
    | cons byte rest =>
      have hnone := hstuck (.put 1) rfl rfl
      simp [step, hexit, hpc] at hnone
  | flush =>
    have hnone := hstuck .flushed rfl rfl
    simp [step, hexit, hpc] at hnone

/-- A reader that serves a session that runs and can take no step waits for bytes, inside a header
or a payload. -/
theorem Reader.waits_of_stuck {s : Reader} (hs : s.Serving) (hdec : s.Decodes 64)
    (hfit : ∀ length, s.announced = some length → length.toNat < 2 ^ 63)
    (hstuck : ∀ e : ReaderEvent, e.smooth = true → s.step 64 true e = none) :
    s.incoming = [] ∧ ∃ held, s.pc = .header held ∨ ∃ length, s.pc = .payload length held := by
  obtain ⟨hexit, hstopping, hreader⟩ := hs
  obtain ⟨half, hhalf⟩ := Option.ne_none_iff_exists'.mp hreader
  obtain ⟨held, hholds, -⟩ := hdec.live ⟨hexit, hreader⟩
  cases hholds with
  | waiting hpc hqueue =>
    have hnone := hstuck .handle rfl
    simp [step, hexit, hpc, hstopping, hqueue, hhalf] at hnone
  | announced length hpc hqueue =>
    -- the buffer for the frame can be allocated
    have hlen : asUsize 64 length < 2 ^ (64 - 1) := by
      rw [asUsize_64]
      exact hfit length (by simp [Reader.announced, hpc, hqueue])
    have hnone := hstuck .handle rfl
    cases half <;> simp [step, hexit, hpc, hstopping, hqueue, hhalf] at hnone <;> omega
  | readable length hpc hqueue =>
    have hnone := hstuck .ready rfl
    simp [step, hexit, hpc] at hnone
  | header got hpc hqueue hshort =>
    refine ⟨?_, held, Or.inl hpc⟩
    cases hincoming : s.incoming with
    | nil => rfl
    | cons byte rest =>
      have hnone := hstuck (.read 1) rfl
      have hn : 1 ≤ 8 - held.length := by omega
      simp only [step, hexit, hpc, hincoming, List.length_cons] at hnone
      rw [if_pos ⟨Nat.one_pos, hn, by omega⟩] at hnone
      split at hnone <;> cases hnone
  | payload length buf hpc hqueue hshort =>
    refine ⟨?_, buf, Or.inr ⟨length, hpc⟩⟩
    cases hincoming : s.incoming with
    | nil => rfl
    | cons byte rest =>
      have hnone := hstuck (.read 1) rfl
      have hn : 1 ≤ asUsize 64 length - buf.length := by omega
      simp only [step, hexit, hpc, hincoming, List.length_cons] at hnone
      rw [if_pos ⟨Nat.one_pos, hn, by omega⟩] at hnone
      cases hnone

/-- A session that runs and can take no step is between two handlers and has no message. -/
theorem Endpoint.idle_of_stuck {s : Endpoint} (hs : s.Serving)
    (hstuck : ∀ e : EndpointEvent, e.own = true → s.step 64 e = none) :
    s.session.pc = .idle ∧ s.session.queue = [] := by
  obtain ⟨hexit, hstopping⟩ := hs.session
  cases hpc : s.session.pc with
  | receiving =>
    have hnone := hstuck (.returned (.ok ())) rfl
    simp [step, hexit, hpc] at hnone
  | idle =>
    cases hsup : s.session.supervision with
    | cons evt rest =>
      have hnone := hstuck .supervise rfl
      simp [step, hexit, hpc, hstopping, hsup] at hnone
    | nil =>
      refine ⟨rfl, ?_⟩
      cases hqueue : s.session.queue with
      | nil => rfl
      | cons msg rest =>
        have hnone := hstuck .handle rfl
        cases msg <;> simp [step, hexit, hpc, hstopping, hsup, hqueue] at hnone

/-! ## The network -/

namespace Network

/-- A network in which no error has occurred and whose actors run. -/
structure Serving (s : Network) : Prop where
  linked : s.Linked
  ends : ∀ side, (s.ends side).Serving

/-- A network as it is started. -/
theorem serving_start (state : Side → TcpSessionState) (read : Side → ActorReadHalf)
    (write : Side → ActorWriteHalf) : (start state read write).Serving where
  linked := linked_start _ _ _
  ends := fun _ => Endpoint.serving_preStart _ _ _ _

/-- **Step lemma.** -/
theorem Serving.step {s s' : Network} {e : NetworkEvent} (hs : s.Serving)
    (he : e.smooth = true) (h : s.step e = some s') : s'.Serving := by
  refine ⟨hs.linked.step (NetworkEvent.calm_of_smooth he) h, fun side => ?_⟩
  cases e with
  | endpoint side₀ e =>
    simp only [Network.step, Option.map_eq_some_iff] at h
    obtain ⟨endpoint, hstep, rfl⟩ := h
    by_cases hside : side = side₀
    · subst hside
      simp only [Function.update_self]
      exact (hs.ends side).step he hstep
    · simp only [Function.update_of_ne hside]
      exact hs.ends side
  | deliver side₀ n =>
    simp only [Network.step] at h
    split at h
    · rw [Option.some.injEq] at h
      subst h
      by_cases hside : side = side₀.other
      · subst hside
        have hend := hs.ends side₀.other
        simp only [Function.update_self]
        exact ⟨hend.session, hend.supervision, hend.reader, hend.writer, hend.frames⟩
      · simp only [Function.update_of_ne hside]
        exact hs.ends side
    · cases h

/-! ### It comes to rest -/

/-- What is left to do at `side` and on the wire away from it. -/
def loadAt (s : Network) (side : Side) : ℕ :=
  (s.ends side).load (s.ends side).session.sent (s.ends side.other).session.sent +
    ((encodeAll 8 (s.ends side).session.sent).length - s.delivered side)

/-- What is left to do. -/
def load (s : Network) : ℕ := s.loadAt .a + s.loadAt .b

theorem load_eq (s : Network) (side : Side) : s.load = s.loadAt side + s.loadAt side.other := by
  cases side with
  | a => rfl
  | b => exact Nat.add_comm _ _

/-- What has been done is among what there is to do. -/
theorem Linked.within {s : Network} (hs : s.Linked) (side : Side) :
    (s.ends side).Within (s.ends side).session.sent (s.ends side.other).session.sent := by
  have hwire (side : Side) :
      (s.ends side).writer.wire <+: encodeAll 8 (s.ends side).session.sent :=
    (hs.sound side).framed.past.trans (encodeAll_le (hs.begun_le side))
  have hcasts := (hs.casts_le side.other).trans (hs.begun_le side.other)
  have hconsumed := (hs.consumed_le side.other).trans (hwire side.other)
  have hreceived := hs.received_le side.other
  rw [Side.other_other] at hcasts hconsumed hreceived
  exact ⟨(hs.sound side).flow.forwarded_le.length_le, (hs.begun_le side).length_le,
    (hwire side).length_le, hcasts.length_le, hconsumed.length_le, hreceived.length_le⟩

/-- **Step lemma.** A step of the actors or of the connection leaves less to do, and sends
nothing. -/
theorem Serving.load_lt_of_step {s s' : Network} {e : NetworkEvent} (hs : s.Serving)
    (he : e.own = true) (h : s.step e = some s') :
    s'.load < s.load ∧ ∀ side, (s'.ends side).session.sent = (s.ends side).session.sent := by
  have hlinked' := (hs.step (NetworkEvent.smooth_of_own he) h).linked
  cases e with
  | endpoint side₀ e =>
    simp only [Network.step, Option.map_eq_some_iff] at h
    obtain ⟨endpoint, hstep, rfl⟩ := h
    have hsent : endpoint.session.sent = (s.ends side₀).session.sent := by
      rcases Endpoint.sent_of_step hstep with hsame | ⟨msg, rfl, -⟩
      · exact hsame
      · cases he
    have hother : Function.update s.ends side₀ endpoint side₀.other = s.ends side₀.other :=
      Function.update_of_ne side₀.other_ne _ _
    have hwithin := hlinked'.within side₀
    simp only [Function.update_self, hother] at hwithin
    -- the other side has as much to do as before
    have hlt := Endpoint.load_lt_of_step (hs.ends side₀) (hs.linked.sound side₀).decodes he hstep
      hwithin
    refine ⟨?_, fun side => ?_⟩
    · rw [load_eq _ side₀, load_eq s side₀]
      simp only [loadAt, Function.update_self, hother, hsent, Side.other_other] at hlt ⊢
      omega
    · by_cases hside : side = side₀
      · subst hside
        simp only [Function.update_self, hsent]
      · simp only [Function.update_of_ne hside]
  | deliver side₀ n =>
    have hn : 0 < n := of_decide_eq_true he
    have harrived := (hlinked'.arrived side₀).1
    have hbytes := (hlinked'.within side₀).wire
    simp only [Network.step] at h
    split at h
    · rename_i hle
      rw [Option.some.injEq] at h
      subst h
      have hsame : Function.update s.ends side₀.other
          ((s.ends side₀.other).arrive (((s.ends side₀).writer.wire.drop
            (s.delivered side₀)).take n)) side₀ = s.ends side₀ :=
        Function.update_of_ne side₀.other_ne.symm _ _
      refine ⟨?_, fun side => ?_⟩
      · rw [load_eq _ side₀, load_eq s side₀]
        simp only [hsame, Function.update_self] at hbytes harrived
        simp only [loadAt, hsame, Function.update_self, Side.other_other,
          Function.update_of_ne side₀.other_ne]
        show _ + ((s.ends side₀.other).load _ _ + _) < _
        simp only [Endpoint.arrive]
        omega
      · by_cases hside : side = side₀.other
        · subst hside
          simp only [Function.update_self, Endpoint.arrive]
        · simp only [Function.update_of_ne hside]
    · cases h

/-! ### It rests only when all is delivered -/

/-- The length that a header announces is that of a frame sent. -/
theorem Serving.announced_lt {s : Network} (hs : s.Serving) (side : Side) {length : UInt64}
    (hlength : (s.ends side.other).reader.announced = some length) : length.toNat < 2 ^ 63 := by
  have hsender := hs.linked.sound side
  have hreceiver := hs.linked.sound side.other
  obtain ⟨hexit, -, hreader⟩ := (hs.ends side.other).reader
  obtain ⟨held, hholds, hcons⟩ := hreceiver.decodes.live ⟨hexit, hreader⟩
  obtain ⟨buf, rfl⟩ := hholds.of_announced hlength
  -- the bytes consumed begin the stream of the frames begun
  obtain ⟨rest, hrest⟩ := (hs.linked.consumed_le side).trans hsender.framed.past
  rw [hcons, List.append_assoc, List.append_assoc] at hrest
  obtain ⟨f, hf, hvalue⟩ := exists_length_of_header (by decide) hreceiver.decodes.fits
    (hs.linked.begun_fits side) (length_bigEndian _ _) hrest
  rw [bigEndianValue_bigEndian length.toNat_lt] at hvalue
  exact hvalue ▸ (hs.ends side).frames f ((hs.linked.begun_le side).subset hf)

/-- **No frame is held up.** A network in which neither the actors nor the connection can take a
step is settled: in both directions nothing is under way. -/
theorem Serving.settled_of_stuck {s : Network} (hs : s.Serving)
    (hstuck : ∀ e : NetworkEvent, e.own = true → s.step e = none) (side : Side) :
    s.Settled side := by
  have hends (side : Side) (e : EndpointEvent) (he : e.own = true) :
      (s.ends side).step 64 e = none := by
    have hnone := hstuck (.endpoint side e) he
    simpa only [Network.step, Option.map_eq_none_iff] using hnone
  have hsession (side : Side) := Endpoint.idle_of_stuck (hs.ends side) (hends side)
  have hwriter := Writer.idle_of_stuck (hs.ends side).writer fun e hown he => by
    have hnone := hends side (.writer e) he
    simpa only [Endpoint.step, hown, if_true, Option.map_eq_none_iff] using hnone
  have htransit : s.delivered side = (s.ends side).writer.wire.length := by
    have hle := (hs.linked.arrived side).1
    by_contra hne
    have hnone := hstuck (.deliver side 1) rfl
    simp only [Network.step] at hnone
    rw [if_pos (by omega)] at hnone
    cases hnone
  have hexit := (hs.ends side.other).session.1
  obtain ⟨hincoming, held, hpc⟩ := Reader.waits_of_stuck (hs.ends side.other).reader
    (hs.linked.sound side.other).decodes (fun length => hs.announced_lt side) fun e he => by
      have hnone := hends side.other (.reader e) he
      simpa only [Endpoint.step, hexit, decide_true, Option.map_eq_none_iff] using hnone
  refine ⟨⟨(hs.ends side).session.1, hsession side⟩, ⟨(hs.ends side).writer.1, hwriter⟩, htransit,
    ⟨(hs.ends side.other).reader.1, ?_, hincoming⟩, ⟨hexit, hsession side.other⟩⟩
  -- all bytes of the frames begun have been consumed, and hold no part of a frame
  have hsender := hs.linked.sound side
  have hdecodes := (hs.linked.sound side.other).decodes
  have hlive : (s.ends side.other).reader.Live :=
    ⟨(hs.ends side.other).reader.1, (hs.ends side.other).reader.2.2⟩
  obtain ⟨r, hcons, hr⟩ := Reader.clean_of_eof hdecodes hlive
    (fun length _ => asUsize_64 length) ⟨held, hpc⟩
  have hconsumed : (s.ends side.other).reader.consumed =
      encodeAll 8 (s.ends side).writer.begun := by
    have harrived := (hs.linked.arrived side).2
    have hexact := hsender.framed.exact (hs.ends side).writer.1
    rw [hwriter.1, WriterPc.owed, List.append_nil] at hexact
    rw [hincoming, List.append_nil, htransit, List.take_length, hexact] at harrived
    exact harrived
  obtain ⟨-, rfl⟩ := encodeAll_append_unique hdecodes.fits (hs.linked.begun_fits side) hr
    (incomplete_of_length_lt (by decide))
    ((hcons.symm.trans hconsumed).trans (List.append_nil _).symm)
  obtain ⟨held', hholds, hcons'⟩ := hdecodes.live hlive
  obtain rfl : held' = [] := List.append_cancel_left (hcons'.symm.trans hcons)
  rcases hpc with hpc | ⟨length, hpc⟩
  · obtain ⟨-, -, rfl⟩ := hholds.of_header hpc
    exact hpc
  · obtain ⟨-, -, hnil⟩ := hholds.of_payload hpc
    have hlen := congrArg List.length hnil
    rw [List.length_append, length_bigEndian, List.length_nil] at hlen
    omega

/-- **Eventual delivery.** Two sessions joined by a connection that does not fail, whose actors
nobody stops or kills and whose receivers return `Ok`. From every state of a run, in whatever
order the actors and the connection take their steps and whatever pieces the bytes come in, the
number of these steps is bounded; and where none is left, the frames passed to the receiver of
each side are all the frames sent to the other side. -/
theorem eventual_delivery {state : Side → TcpSessionState} {read : Side → ActorReadHalf}
    {write : Side → ActorWriteHalf} {es : List NetworkEvent} {s : Network}
    (h : Run step (fun _ e => e.smooth = true) (start state read write) es s) :
    Attains step (fun _ e => e.own = true) s fun s' => ∀ side,
      (s'.ends side).session.sent = (s.ends side).session.sent ∧
        (s'.ends side.other).session.received = (s.ends side).session.sent := by
  have hs : s.Serving :=
    h.invariant (serving_start state read write) fun _ _ _ hs he hstep => hs.step he hstep
  refine attains_of_measure (I := fun s' => s'.Serving ∧
    ∀ side, (s'.ends side).session.sent = (s.ends side).session.sent) load ⟨hs, fun _ => rfl⟩ ?_
    ?_ ?_
  · rintro s₁ e s₂ ⟨hs₁, hsent⟩ he hstep
    exact ⟨hs₁.step (NetworkEvent.smooth_of_own he) hstep,
      fun side => ((hs₁.load_lt_of_step he hstep).2 side).trans (hsent side)⟩
  · rintro s₁ e s₂ ⟨hs₁, -⟩ he hstep
    exact (hs₁.load_lt_of_step he hstep).1
  · rintro s₁ ⟨hs₁, hsent⟩ hstuck side
    refine ⟨hsent side, ?_⟩
    rw [hs₁.linked.received_eq (hs₁.settled_of_stuck hstuck side), hsent side]

/-- Side `a` sends a frame and an empty frame, of which three bytes are on the wire. From there
some run gives both to the receiver. -/
theorem eventual_delivery_in_transit :
    ∃ s es s', exec step (start (fun _ => ⟨⟨.loc 1⟩, ⟨.loc 2⟩⟩) (fun _ => .regular)
        (fun _ => .clientTls))
        ([EndpointEvent.send [7], .send [], .handle, .writer .handle,
          .writer (.put 3)].map (.endpoint .a)) = some s ∧
      exec step s es = some s' ∧ (s'.ends .b).session.received = [[7], []] := by
  have hrun : (exec (checked (fun _ e => e.smooth) step) (start (fun _ => ⟨⟨.loc 1⟩, ⟨.loc 2⟩⟩)
      (fun _ => .regular) (fun _ => .clientTls))
      ([EndpointEvent.send [7], .send [], .handle, .writer .handle,
        .writer (.put 3)].map (.endpoint .a))).any
      (fun s => (s.ends .a).session.sent = [[7], []]) = true := by decide
  obtain ⟨s, hs, hsent⟩ := (Option.any_eq_true _ _).mp hrun
  have hsmooth := run_iff_exec_checked.mpr hs
  obtain ⟨es, s', hes, hdelivered⟩ := (eventual_delivery hsmooth).exists_run
  exact ⟨s, es, s', hsmooth.exec_eq, hes.exec_eq,
    (hdelivered .a).2.trans (of_decide_eq_true hsent)⟩

end Network

end RactorActors.Net.Tcp
