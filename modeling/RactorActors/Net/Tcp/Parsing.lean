import RactorActors.Net.Tcp.Loop

/-!
# The reader as a parser

A reader on a socket that delivers finitely many bytes, in pieces of any size, and then the end of
the stream (`peerOnly`). Nobody but the reader itself stops it, and a buffer that is too large to
allocate ends it.

* `Tracks`: the bytes delivered are those of the frames cast, what the reader holds, and what is
  still to come; `Tracks.step`: kept by every step that casts no frame of a wrong length;
* `work`: a measure of what is left to do, so that every run ends;
* `Splits`: the bytes are the longest list of frames and a rest that begins with no frame;
* `reader_parses_frames`: in every run on 64 bits the reader casts the frames of this splitting
  and then stops, whatever the pieces are.
-/

namespace RactorActors.Net.Tcp

open LabelledRun LengthPrefix

namespace Reader

/-- The next read meets the end of the stream. Waiting for `readable` reads nothing. -/
def atEnd (s : Reader) : Bool :=
  match s.pc with
  | .readable _ => false
  | _ => s.incoming.isEmpty

/-- The steps of a reader whose peer sends finitely many bytes and closes, while the session takes
its frames. -/
def peerOnly (usizeBits : ℕ) (tooLarge : ℕ → Bool) (s : Reader) (e : Bool × ReaderEvent) : Bool :=
  e.1 && match e.2 with
    | .read _ => true
    | .ioError .unexpectedEof => s.atEnd
    | e => s.runsOn usizeBits tooLarge e

/-- A run of a reader on the bytes `b`. -/
def PeerRun (usizeBits : ℕ) (tooLarge : ℕ → Bool) (half : ActorReadHalf) (b : List UInt8)
    (es : List (Bool × ReaderEvent)) (s : Reader) : Prop :=
  Run (stepAlone usizeBits) (fun s e => s.peerOnly usizeBits tooLarge e = true)
    (preStart half b) es s

/-- The reader can take no further step. -/
def Done (usizeBits : ℕ) (tooLarge : ℕ → Bool) (s : Reader) : Prop :=
  ∀ e, s.peerOnly usizeBits tooLarge e = true → stepAlone usizeBits s e = none

/-- The bytes end within a header or a payload, or in a header whose buffer is too large. -/
def Ends (usizeBits : ℕ) (tooLarge : ℕ → Bool) (r : List UInt8) : Prop :=
  r.length < 8 ∨ ∃ (length : UInt64) (rest : List UInt8),
    r = bigEndian 8 length.toNat ++ rest ∧
      (rest.length < asUsize usizeBits length ∨ tooLarge (asUsize usizeBits length) = true)

/-- **The invariant.** What a reader has made of the bytes `b` so far. -/
structure Tracks (usizeBits : ℕ) (tooLarge : ℕ → Bool) (b : List UInt8) (s : Reader) : Prop where
  decodes : s.Decodes usizeBits
  orderly : s.Orderly usizeBits
  bytes : s.consumed ++ s.incoming = b
  /-- The frames cast were allocated. -/
  small : ∀ f ∈ s.casts, f.length < 2 ^ usizeBits ∧ tooLarge f.length = false
  /-- The buffer of the frame that is being read was allocated. -/
  admitted : s.pc ≠ .idle → ∀ length, s.announced = some length →
    tooLarge (asUsize usizeBits length) = false
  running : s.Live → s.stopping = none
  /-- Once the stream is dropped, no frame is left to cast. -/
  rest : s.reader = none → ∃ r, b = encodeAll 8 s.casts ++ r ∧ Ends usizeBits tooLarge r

section Step

variable {usizeBits : ℕ} {tooLarge : ℕ → Bool} {b : List UInt8} {s : Reader}

/-- A frame that the reading loop casts fills its buffer. -/
theorem of_readNBytes_cast {sessionOpen : Bool} {length : UInt64} {buf f : List UInt8}
    (h : (readNBytes usizeBits sessionOpen s length buf).2 = some f) :
    f = buf ∧ asUsize usizeBits length ≤ buf.length := by
  unfold readNBytes at h
  split at h
  · cases h
  · rename_i hfull
    cases sessionOpen with
    | false => cases h
    | true =>
      simp only [readFrame, if_true, Option.some.injEq] at h
      exact ⟨h.symm, Nat.le_of_not_lt hfull⟩

/-- What is known of a frame that a step casts. -/
structure CastCase (usizeBits : ℕ) (s : Reader) (e : ReaderEvent) (f : Frame) (length : UInt64) :
    Prop where
  live : s.Live
  announced : s.announced = some length
  /-- The frame has the length announced, as a `usize`. -/
  size : f.length = asUsize usizeBits length
  /-- A frame that is cast at once was allocated in the same step. -/
  handled : s.pc = .idle → e = .handle ∧ s.queue.head? = some (.readFrame length)
  /-- The frame is made of bytes that were delivered. -/
  delivered : ∀ held, s.Holds usizeBits held → f.length + 8 ≤ held.length + s.incoming.length

/-- **The frame of a step.** -/
theorem cast_case {sessionOpen : Bool} {e : ReaderEvent} {out : Reader × Option Frame}
    {f : Frame} (ho : s.Orderly usizeBits) (h : s.step usizeBits sessionOpen e = some out)
    (hcast : out.2 = some f) : ∃ length, CastCase usizeBits s e f length := by
  cases step_cases h with
  | fill length rest half htakes hreader =>
    obtain ⟨rfl, hfull⟩ := of_readNBytes_cast hcast
    obtain ⟨hexit, hpc, -, hqueue⟩ := htakes
    refine ⟨length, ⟨hexit, by simp [hreader]⟩, by simp [Reader.announced, hpc, hqueue], ?_, ?_, ?_⟩
    · exact (Nat.le_zero.mp hfull).symm
    · exact fun _ => ⟨rfl, by rw [hqueue, List.head?_cons]⟩
    · intro held hholds
      rcases hholds.of_idle hpc with ⟨hq, -⟩ | ⟨length', -, rfl⟩
      · rw [hqueue, List.cons.injEq] at hq
        cases hq.1
      · simp
  | ready length hexit hpc =>
    obtain ⟨rfl, hfull⟩ := of_readNBytes_cast hcast
    have hbusy : s.pc ≠ .idle := by simp [hpc]
    refine ⟨length, ho.live_of_pc hexit hbusy, by simp [Reader.announced, hpc], ?_, ?_, ?_⟩
    · exact (Nat.le_zero.mp hfull).symm
    · exact fun hidle => absurd hidle hbusy
    · intro held hholds
      obtain ⟨-, rfl⟩ := hholds.of_readable hpc
      simp
  | payload length buf n hexit hpc hn =>
    obtain ⟨rfl, hfull⟩ := of_readNBytes_cast hcast
    have hbusy : s.pc ≠ .idle := by simp [hpc]
    have hlive := ho.live_of_pc hexit hbusy
    have htake : (buf ++ s.incoming.take n).length = buf.length + n := by
      rw [List.length_append, List.length_take_of_le hn.2.2]
    refine ⟨length, hlive, by simp [Reader.announced, hpc], ?_, ?_, ?_⟩
    · -- the read returned at most the bytes that were missing
      obtain ⟨held, hholds⟩ := ho.live hlive
      obtain ⟨-, hshort, -⟩ := hholds.of_payload hpc
      omega
    · exact fun hidle => absurd hidle hbusy
    · intro held hholds
      obtain ⟨-, -, rfl⟩ := hholds.of_payload hpc
      rw [htake, List.length_append, length_bigEndian]
      omega
  | frameError length err =>
    rw [(s.readFrame_error_fields sessionOpen err).2.2.2] at hcast
    cases hcast
  | wait | retry | readable | allocFails | headerMore | headerDone | headerError | stop | takeStop
  | kill => cases hcast

/-- A number of bytes that fits `usize`. -/
theorem asUsize_lt (usizeBits : ℕ) (length : UInt64) :
    asUsize usizeBits length < 2 ^ usizeBits :=
  Nat.mod_lt _ (Nat.two_pow_pos usizeBits)

/-- The event is one that a reader can meet while its peer is all that acts on it. -/
theorem peerOnly_cases {e : Bool × ReaderEvent} (h : s.peerOnly usizeBits tooLarge e = true) :
    e.1 = true ∧ ((∃ n, e.2 = .read n) ∨ (e.2 = .ioError .unexpectedEof ∧ s.atEnd = true) ∨
      s.runsOn usizeBits tooLarge e.2 = true) := by
  obtain ⟨sessionOpen, e⟩ := e
  rw [peerOnly, Bool.and_eq_true] at h
  refine ⟨h.1, ?_⟩
  have hrest := h.2
  split at hrest
  · rename_i n he
    exact Or.inl ⟨n, he⟩
  · rename_i he
    exact Or.inr (Or.inl ⟨he, hrest⟩)
  · exact Or.inr (Or.inr hrest)

/-- Frames that are cast in an allocated buffer are small. -/
theorem Tracks.small_of_step (hs : s.Tracks usizeBits tooLarge b) {e : ReaderEvent}
    {out : Reader × Option Frame} (hguard : s.peerOnly usizeBits tooLarge (true, e) = true)
    (h : s.step usizeBits true e = some out) :
    ∀ f ∈ out.1.casts, f.length < 2 ^ usizeBits ∧ tooLarge f.length = false := by
  intro f hf
  rw [(fields_of_step h).2] at hf
  rcases List.mem_append.mp hf with hold | hnew
  · exact hs.small f hold
  · rw [Option.mem_toList] at hnew
    obtain ⟨length, hcast⟩ := cast_case hs.orderly h hnew
    rw [hcast.size]
    refine ⟨asUsize_lt usizeBits length, ?_⟩
    by_cases hpc : s.pc = .idle
    · -- the buffer was allocated in this very step
      obtain ⟨rfl, hhead⟩ := hcast.handled hpc
      obtain ⟨rest, hqueue⟩ := List.head?_eq_some_iff.mp hhead
      simpa [peerOnly, runsOn, unallocatable, hqueue] using hguard
    · exact hs.admitted hpc length hcast.announced

/-- While a buffer is filled, it is the one that was allocated. -/
theorem admitted_readNBytes (sessionOpen : Bool) {length : UInt64} (buf : List UInt8)
    (hfit : tooLarge (asUsize usizeBits length) = false) :
    (readNBytes usizeBits sessionOpen s length buf).1.pc ≠ .idle → ∀ length',
      (readNBytes usizeBits sessionOpen s length buf).1.announced = some length' →
        tooLarge (asUsize usizeBits length') = false := by
  unfold readNBytes
  split
  · intro _ length' hannounced
    rw [announced, Option.some.injEq] at hannounced
    exact hannounced ▸ hfit
  · intro hbusy
    cases sessionOpen <;> exact absurd rfl hbusy

/-- The buffer of the frame that is read next is an allocated one. -/
theorem Tracks.admitted_of_step (hs : s.Tracks usizeBits tooLarge b) {e : ReaderEvent}
    {out : Reader × Option Frame} (hguard : s.peerOnly usizeBits tooLarge (true, e) = true)
    (h : s.step usizeBits true e = some out) :
    out.1.pc ≠ .idle → ∀ length, out.1.announced = some length →
      tooLarge (asUsize usizeBits length) = false := by
  have hhandle (he : e = .handle) {length : UInt64} {rest : List SessionReaderMessage}
      (hqueue : s.queue = .readFrame length :: rest) :
      tooLarge (asUsize usizeBits length) = false := by
    subst he
    simpa [peerOnly, runsOn, unallocatable, hqueue] using hguard
  cases step_cases h with
  -- `ReadFrame` is handled only if its buffer can be allocated
  | readable length rest htakes =>
    intro _ length' hannounced
    rw [announced, Option.some.injEq] at hannounced
    exact hannounced ▸ hhandle rfl htakes.2.2.2
  | fill length rest half htakes =>
    exact admitted_readNBytes true [] (hhandle rfl htakes.2.2.2)
  | ready length hexit hpc =>
    exact admitted_readNBytes true []
      (hs.admitted (by simp [hpc]) length (by simp [announced, hpc]))
  | payload length buf n hexit hpc =>
    exact admitted_readNBytes true _
      (hs.admitted (by simp [hpc]) length (by simp [announced, hpc]))
  -- before a header is read, nothing is announced
  | wait | headerMore =>
    intro _ length hannounced
    cases hannounced
  | retry | allocFails | headerDone | takeStop =>
    intro hbusy
    exact absurd rfl hbusy
  | headerError got err hexit =>
    intro hbusy
    cases err with
    | unexpectedEof =>
      rw [waitForFrame_eof hexit] at hbusy
      exact absurd rfl hbusy
    | other => exact absurd rfl hbusy
  | frameError length err hexit =>
    intro hbusy
    cases err with
    | unexpectedEof =>
      rw [readFrame_eof hexit] at hbusy
      exact absurd rfl hbusy
    | other => exact absurd rfl hbusy
  | stop | kill => simp [peerOnly, runsOn] at hguard

/-- A reader that is reading was not told to stop. -/
theorem Tracks.running_of_step (hs : s.Tracks usizeBits tooLarge b) {e : ReaderEvent}
    {out : Reader × Option Frame} (hguard : s.peerOnly usizeBits tooLarge (true, e) = true)
    (h : s.step usizeBits true e = some out) : out.1.Live → out.1.stopping = none := by
  rintro ⟨hexit', hreader'⟩
  have hkeep (hexit : out.1.exit = s.exit) (hreader : out.1.reader = s.reader)
      (hstop : out.1.stopping = s.stopping) : out.1.stopping = none := by
    rw [hstop]
    exact hs.running ⟨hexit ▸ hexit', hreader ▸ hreader'⟩
  cases step_cases h with
  | wait | retry | readable | headerMore | headerDone => exact hkeep rfl rfl rfl
  | fill length rest =>
    obtain ⟨hreader, hexit, hstop⟩ :=
      readNBytes_open usizeBits { s with queue := rest } length []
    exact hkeep hexit hreader hstop
  | ready length =>
    obtain ⟨hreader, hexit, hstop⟩ := readNBytes_open usizeBits s length []
    exact hkeep hexit hreader hstop
  | payload length buf n =>
    obtain ⟨hreader, hexit, hstop⟩ :=
      readNBytes_open usizeBits (s.take n) length (buf ++ s.incoming.take n)
    exact hkeep hexit hreader hstop
  | headerError got err hexit =>
    cases err with
    | unexpectedEof =>
      rw [waitForFrame_eof hexit] at hreader'
      exact absurd rfl hreader'
    | other => exact hkeep rfl rfl rfl
  | frameError length err hexit =>
    cases err with
    | unexpectedEof =>
      rw [readFrame_eof hexit] at hreader'
      exact absurd rfl hreader'
    | other => exact hkeep rfl rfl rfl
  | allocFails | takeStop => exact absurd rfl hreader'
  | stop | kill => simp [peerOnly, runsOn] at hguard

/-- What is left of the bytes when the reader drops its stream begins with no frame. -/
theorem Tracks.rest_of_step (hs : s.Tracks usizeBits tooLarge b) {e : ReaderEvent}
    {out : Reader × Option Frame} (hguard : s.peerOnly usizeBits tooLarge (true, e) = true)
    (h : s.step usizeBits true e = some out) (hnone : out.1.reader = none) :
    ∃ r, b = encodeAll 8 out.1.casts ++ r ∧ Ends usizeBits tooLarge r := by
  have hbusy (hexit : s.exit = none) (hpc : s.pc ≠ .idle) :
      ∃ held, s.Holds usizeBits held ∧ s.consumed = encodeAll 8 s.casts ++ held :=
    hs.decodes.live (hs.orderly.live_of_pc hexit hpc)
  have hkeep (hreader : out.1.reader = s.reader) (hlive : s.reader ≠ none) :
      ∃ r, b = encodeAll 8 out.1.casts ++ r ∧ Ends usizeBits tooLarge r :=
    absurd (hreader.symm.trans hnone) hlive
  -- at the end of the stream all bytes are consumed
  have hend {err : IoErr} (he : e = .ioError err) (hpc : s.pc ≠ .idle) :
      err = .unexpectedEof ∧ s.atEnd = true := by
    subst he
    cases err with
    | unexpectedEof => exact ⟨rfl, by simpa [peerOnly] using hguard⟩
    | other => simp [peerOnly, runsOn] at hguard
  cases step_cases h with
  | wait half rest htakes hreader => exact hkeep rfl (by simp [hreader])
  | retry msg rest htakes hreader =>
    exact absurd htakes.2.2.1 (hs.orderly.stops htakes.1 hreader)
  | readable length rest htakes hreader => exact hkeep rfl (by simp [hreader])
  | fill length rest half htakes hreader =>
    exact hkeep (readNBytes_open usizeBits _ length []).1 (by simp [hreader])
  | ready length hexit hpc =>
    exact hkeep (readNBytes_open usizeBits s length []).1
      (hs.orderly.live_of_pc hexit (by simp [hpc])).2
  | headerMore got n hexit hpc | headerDone got n hexit hpc =>
    exact hkeep rfl (hs.orderly.live_of_pc hexit (by simp [hpc])).2
  | payload length buf n hexit hpc =>
    exact hkeep (readNBytes_open usizeBits (s.take n) length _).1
      (hs.orderly.live_of_pc hexit (by simp [hpc])).2
  | allocFails length rest htakes =>
    -- the header is consumed, and its buffer is too large
    have hreader : s.reader ≠ none := fun hnone => hs.orderly.stops htakes.1 hnone htakes.2.2.1
    obtain ⟨-, hcons⟩ := hs.decodes.of_takes htakes hreader
    refine ⟨bigEndian 8 length.toNat ++ s.incoming, ?_, Or.inr ⟨length, s.incoming, rfl, ?_⟩⟩
    · rw [← hs.bytes, hcons, List.append_assoc]
      rfl
    · right
      simpa [peerOnly, runsOn, unallocatable, htakes.2.2.2] using hguard
  | headerError got err hexit hpc =>
    obtain ⟨rfl, heof⟩ := hend rfl (by simp [hpc])
    obtain ⟨held, hholds, hcons⟩ := hbusy hexit (by simp [hpc])
    -- what is left are the bytes of a header that is cut short
    obtain ⟨-, hshort, rfl⟩ := hholds.of_header hpc
    have hincoming : s.incoming = [] := by simpa [atEnd, hpc] using heof
    refine ⟨held, ?_, Or.inl hshort⟩
    rw [waitForFrame_eof hexit, ← hs.bytes, hincoming, List.append_nil, hcons]
  | frameError length err hexit hpc =>
    have hpc' : s.pc ≠ .idle := by
      rcases hpc with hpc | ⟨buf, hpc⟩ <;> simp [hpc]
    obtain ⟨rfl, heof⟩ := hend rfl hpc'
    obtain ⟨held, hholds, hcons⟩ := hbusy hexit hpc'
    rcases hpc with hpc | ⟨buf, hpc⟩
    · simp [atEnd, hpc] at heof
    · -- what is left is a header, and a payload that is cut short
      obtain ⟨-, hshort, rfl⟩ := hholds.of_payload hpc
      have hincoming : s.incoming = [] := by simpa [atEnd, hpc] using heof
      refine ⟨_, ?_, Or.inr ⟨length, buf, rfl, Or.inl hshort⟩⟩
      rw [readFrame_eof hexit, ← hs.bytes, hincoming, List.append_nil, hcons]
  | takeStop reason hexit hpc hstop =>
    -- a reader that was told to stop has dropped its stream before
    apply hs.rest
    by_contra hreader
    rw [hs.running ⟨hexit, hreader⟩] at hstop
    cases hstop
  | stop | kill => simp [peerOnly, runsOn] at hguard

/-- **Step lemma.** A step that casts no frame of a length other than the one announced keeps
track of the bytes. -/
theorem Tracks.step (hs : s.Tracks usizeBits tooLarge b) {e : ReaderEvent}
    {out : Reader × Option Frame}
    (hfit : s.Live → ∀ length, s.announced = some length → out.2 ≠ none →
      asUsize usizeBits length = length.toNat)
    (hguard : s.peerOnly usizeBits tooLarge (true, e) = true)
    (h : s.step usizeBits true e = some out) : out.1.Tracks usizeBits tooLarge b where
  decodes := by
    refine decodes_of_step hs.decodes hfit ?_ h
    cases e with
    | ioError err =>
      cases err with
      | unexpectedEof => rfl
      | other => simp [peerOnly, runsOn] at hguard
    | _ => rfl
  orderly := hs.orderly.step h
  bytes := (fields_of_step h).1.trans hs.bytes
  small := hs.small_of_step hguard h
  admitted := hs.admitted_of_step hguard h
  running := hs.running_of_step hguard h
  rest := hs.rest_of_step hguard h

/-- A reader that was just started has all bytes before it. -/
theorem tracks_preStart (usizeBits : ℕ) (tooLarge : ℕ → Bool) (half : ActorReadHalf)
    (b : List UInt8) : (preStart half b).Tracks usizeBits tooLarge b where
  decodes := decodes_preStart usizeBits half b
  orderly := orderly_preStart usizeBits half b
  bytes := rfl
  small := by simp [preStart]
  admitted := fun hbusy => absurd rfl hbusy
  running := fun _ => rfl
  rest := fun hnone => absurd hnone (Option.some_ne_none half)

/-! ## Every run ends -/

/-- What a reader has left to do. -/
def work (s : Reader) : ℕ := 4 * s.incoming.length + s.rank

/-- Only a read takes bytes. -/
theorem incoming_of_step {sessionOpen : Bool} {e : ReaderEvent} {out : Reader × Option Frame}
    (hread : ∀ n, e ≠ .read n) (h : s.step usizeBits sessionOpen e = some out) :
    out.1.incoming = s.incoming := by
  cases step_cases h with
  | wait | retry | readable | allocFails | takeStop => rfl
  | fill length rest => exact (readNBytes_fields usizeBits sessionOpen _ length []).2.1
  | ready length => exact (readNBytes_fields usizeBits sessionOpen s length []).2.1
  | headerMore got n | headerDone got n | payload length buf n => exact absurd rfl (hread n)
  | headerError got err hexit =>
    cases err with
    | unexpectedEof => rw [waitForFrame_eof hexit]
    | other => rfl
  | frameError length err => exact (readFrame_error_fields s sessionOpen err).2.1
  | stop reason =>
    obtain ⟨stopping, heq⟩ := s.stop_eq reason
    rw [heq]
  | kill =>
    unfold Reader.kill
    split <;> rfl

/-- A read takes bytes, and leaves the rank at most three higher. -/
theorem work_of_read (ho : s.Orderly usizeBits) {sessionOpen : Bool} {n : ℕ}
    {out : Reader × Option Frame} (h : s.step usizeBits sessionOpen (.read n) = some out) :
    out.1.work < s.work := by
  have hdrop : (s.incoming.drop n).length = s.incoming.length - n := List.length_drop
  cases step_cases h with
  | headerMore got n hexit hpc hn =>
    simp only [work, rank, Reader.take, hexit, hpc, hdrop]
    omega
  | headerDone got n hexit hpc hn =>
    have hrank : ((s.take n).waitForFrame
        (.ok (UInt64.ofNat (bigEndianValue (got ++ s.incoming.take n))))).rank ≤ 5 := by
      simp only [waitForFrame, rank, Reader.take, hexit]
      split
      · omega
      · split <;> omega
    have hrank' : s.rank = 2 := by simp [rank, hexit, hpc]
    simp only [work, hrank']
    simp only [waitForFrame, Reader.take, hdrop] at hrank ⊢
    omega
  | payload length buf n hexit hpc hn =>
    have hrank := rank_readNBytes usizeBits sessionOpen (s := s.take n) length
      (buf ++ s.incoming.take n) hexit (ho.queue_eq_nil hexit (by simp [hpc]))
    have hincoming := (readNBytes_fields usizeBits sessionOpen (s.take n) length
      (buf ++ s.incoming.take n)).2.1
    have hrank' : s.rank = 2 := by simp [rank, hexit, hpc]
    simp only [work, hrank', hincoming]
    simp only [Reader.take, hdrop] at hrank ⊢
    omega

/-- Every step of a reader that is left to its peer brings it nearer to its end. -/
theorem work_of_step (ho : s.Orderly usizeBits) {e : ReaderEvent} {out : Reader × Option Frame}
    (hguard : s.peerOnly usizeBits tooLarge (true, e) = true)
    (h : s.step usizeBits true e = some out) : out.1.work < s.work := by
  by_cases hread : ∃ n, e = .read n
  · obtain ⟨n, rfl⟩ := hread
    exact work_of_read ho h
  · -- any other step is one that a dead socket allows
    have hdead : s.deadSocket usizeBits tooLarge .unexpectedEof e = true := by
      rcases (peerOnly_cases hguard).2 with ⟨n, he⟩ | ⟨he, -⟩ | hown
      · exact absurd ⟨n, he⟩ hread
      · simp only at he
        simp [deadSocket, he]
      · simp only at hown
        simp [deadSocket, hown]
    have hlt := (Doomed.step (Or.inl rfl) ho hdead h).2
    have hincoming := incoming_of_step (fun n he => hread ⟨n, he⟩) h
    rw [work, work, hincoming]
    omega

/-- A reader that can do nothing more has not met the end of the stream, and reads no byte. -/
theorem Done.read_eq_none (hdone : s.Done usizeBits tooLarge)
    (hend : s.atEnd = s.incoming.isEmpty)
    (heof : stepAlone usizeBits s (true, .ioError .unexpectedEof) ≠ none) :
    1 ≤ s.incoming.length ∧ stepAlone usizeBits s (true, .read 1) = none := by
  refine ⟨List.length_pos_iff.mpr fun hincoming => ?_, hdone (true, .read 1) rfl⟩
  exact heof (hdone (true, .ioError .unexpectedEof) (by simp [peerOnly, hend, hincoming]))

/-- A reader that is left to its peer can take a step until it has ended. -/
theorem Done.exit_ne_none (ho : s.Orderly usizeBits)
    (hlarge : ∀ n, 2 ^ (usizeBits - 1) ≤ n → tooLarge n = true)
    (hdone : s.Done usizeBits tooLarge) : s.exit ≠ none := by
  intro hexit
  rcases ho.runsOn_or_reads hlarge hexit with
    ⟨e, hown, hne⟩ | ⟨got, hpc, hshort⟩ | ⟨length, buf, hpc, hshort⟩
  · refine hne (hdone (true, e) ?_)
    unfold peerOnly
    cases e with
    | handle | allocFails | ready | takeStop => simpa using hown
    | read | ioError | stop | kill => cases hown
  -- a read returns a byte, or meets the end of the stream
  · obtain ⟨hpos, hread⟩ := hdone.read_eq_none (by simp [atEnd, hpc])
      (by simp [stepAlone, Reader.step, hexit, hpc])
    have hroom : 1 ≤ 8 - got.length := by omega
    simp only [stepAlone, Reader.step, hexit, hpc, hroom, hpos, Nat.zero_lt_one, and_self,
      if_true, Option.map_eq_none_iff] at hread
    split at hread <;> cases hread
  · obtain ⟨hpos, hread⟩ := hdone.read_eq_none (by simp [atEnd, hpc])
      (by simp [stepAlone, Reader.step, hexit, hpc])
    have hroom : 1 ≤ asUsize usizeBits length - buf.length := by omega
    simp only [stepAlone, Reader.step, hexit, hpc, hroom, hpos, Nat.zero_lt_one, and_self,
      if_true, Option.map_eq_none_iff] at hread
    cases hread

/-- Bytes at which the reader ends begin with no frame that it could cast. -/
theorem Ends.no_frame {r : List UInt8} (h : Ends usizeBits tooLarge r) {g : Frame}
    (hfits : Fits 8 g) (hsize : g.length < 2 ^ usizeBits) (hsmall : tooLarge g.length = false) :
    ¬ encode 8 g <+: r := by
  rintro ⟨t, rfl⟩
  rcases h with hshort | ⟨length, rest, heq, hrest⟩
  · rw [List.length_append, length_encode] at hshort
    omega
  · -- the header that is there is that of the frame
    rw [encode, List.append_assoc] at heq
    obtain ⟨hheader, rfl⟩ := List.append_inj heq (by rw [length_bigEndian, length_bigEndian])
    have hlength : g.length = length.toNat := by
      have hvalue := congrArg bigEndianValue hheader
      rwa [bigEndianValue_bigEndian hfits, bigEndianValue_bigEndian length.toNat_lt] at hvalue
    have hsize' : asUsize usizeBits length = g.length := by
      rw [asUsize, ← hlength, Nat.mod_eq_of_lt hsize]
    rw [hsize', hsmall, List.length_append] at hrest
    rcases hrest with hlt | hfalse
    · omega
    · cases hfalse

/-- The frames cast come before every frame that the reader could cast of what is left. -/
theorem Tracks.casts_initial (hs : s.Tracks usizeBits tooLarge b) {gs : List Frame}
    {r : List UInt8} (hgs : ∀ g ∈ gs, Fits 8 g) (heq : b = encodeAll 8 gs ++ r)
    (hr : ∀ g, Fits 8 g → g.length < 2 ^ usizeBits → tooLarge g.length = false →
      ¬ encode 8 g <+: r) : s.casts <+: gs := by
  refine prefix_of_encodeAll_append hs.decodes.fits hgs (r := r) (fun f hf => ?_) ?_
  · exact hr f (hs.decodes.fits f hf) (hs.small f hf).1 (hs.small f hf).2
  · rw [← heq, ← hs.bytes]
    exact hs.decodes.past.trans (List.prefix_append _ _)

end Step

/-! ## The frames of a byte string -/

/-- The bytes `b` are the frames `gs`, each of which can be allocated, and a rest that begins with
no such frame. -/
structure Splits (tooLarge : ℕ → Bool) (b : List UInt8) (gs : List Frame) (r : List UInt8) :
    Prop where
  eq : b = encodeAll 8 gs ++ r
  small : ∀ g ∈ gs, tooLarge g.length = false
  rest : ∀ g : Frame, tooLarge g.length = false → ¬ encode 8 g <+: r
  /-- No longer list of frames begins the bytes. -/
  longest : ∀ (gs' : List Frame) (r' : List UInt8), b = encodeAll 8 gs' ++ r' →
    (∀ g ∈ gs', tooLarge g.length = false) → gs' <+: gs

section Run

variable {tooLarge : ℕ → Bool} {half : ActorReadHalf} {b : List UInt8}
  {es : List (Bool × ReaderEvent)} {s : Reader}

/-- On 64 bits a length is the same as a `usize`. -/
theorem asUsize_eq_toNat (length : UInt64) : asUsize 64 length = length.toNat :=
  Nat.mod_eq_of_lt length.toNat_lt

/-- On 64 bits the reader keeps track of the bytes in every step. -/
theorem tracks_of_stepAlone {s s' : Reader} {e : Bool × ReaderEvent} (hs : s.Tracks 64 tooLarge b)
    (hguard : s.peerOnly 64 tooLarge e = true) (h : stepAlone 64 s e = some s') :
    s'.Tracks 64 tooLarge b := by
  obtain ⟨sessionOpen, e⟩ := e
  obtain ⟨rfl, -⟩ := peerOnly_cases hguard
  rw [stepAlone, Option.map_eq_some_iff] at h
  obtain ⟨out, hout, rfl⟩ := h
  exact hs.step (fun _ length _ _ => asUsize_eq_toNat length) hguard hout

/-- Every step of a reader on 64 bits brings it nearer to its end. -/
theorem work_of_stepAlone {usizeBits : ℕ} {s s' : Reader} {e : Bool × ReaderEvent}
    (ho : s.Orderly usizeBits) (hguard : s.peerOnly usizeBits tooLarge e = true)
    (h : stepAlone usizeBits s e = some s') : s'.work < s.work := by
  obtain ⟨sessionOpen, e⟩ := e
  obtain ⟨rfl, -⟩ := peerOnly_cases hguard
  rw [stepAlone, Option.map_eq_some_iff] at h
  obtain ⟨out, hout, rfl⟩ := h
  exact work_of_step ho hguard hout

/-- What a reader has to do when it is started. -/
theorem work_preStart (half : ActorReadHalf) (b : List UInt8) :
    (preStart half b).work = 4 * b.length + 3 := rfl

/-- The reader keeps track of the bytes in every run on 64 bits. -/
theorem tracks_of_run (h : PeerRun 64 tooLarge half b es s) : s.Tracks 64 tooLarge b :=
  h.invariant (P := fun s => s.Tracks 64 tooLarge b) (tracks_preStart 64 tooLarge half b)
    fun _ _ _ hs hguard hstep => tracks_of_stepAlone hs hguard hstep

/-- A frame that can be allocated has a length of 64 bits. -/
theorem fits_of_small (hlarge : ∀ n, 2 ^ 63 ≤ n → tooLarge n = true) {g : Frame}
    (hsmall : tooLarge g.length = false) : Fits 8 g ∧ g.length < 2 ^ 64 := by
  have hlt : g.length < 2 ^ 63 := by
    apply Nat.lt_of_not_le
    intro hle
    rw [hlarge _ hle] at hsmall
    cases hsmall
  constructor
  · show g.length < 256 ^ 8
    omega
  · omega

/-- A run that has ended has split the bytes. -/
theorem splits_of_done (hlarge : ∀ n, 2 ^ 63 ≤ n → tooLarge n = true)
    (hs : s.Tracks 64 tooLarge b) (hdone : s.Done 64 tooLarge) :
    ∃ r, Splits tooLarge b s.casts r := by
  have hexit := hdone.exit_ne_none hs.orderly hlarge
  obtain ⟨r, heq, hends⟩ := hs.rest (hs.orderly.ended hexit)
  have hrest : ∀ g : Frame, tooLarge g.length = false → ¬ encode 8 g <+: r := by
    intro g hsmall
    obtain ⟨hfits, hsize⟩ := fits_of_small hlarge hsmall
    exact hends.no_frame hfits hsize hsmall
  refine ⟨r, heq, fun g hg => (hs.small g hg).2, hrest, ?_⟩
  intro gs' r' heq' hsmall
  refine prefix_of_encodeAll_append (r := r) (fun g hg => (fits_of_small hlarge (hsmall g hg)).1)
    hs.decodes.fits (fun g hg => hrest g (hsmall g hg)) ?_
  rw [← heq, heq']
  exact List.prefix_append _ _

/-- The bytes split in one way. -/
theorem Splits.unique {gs gs' : List Frame} {r r' : List UInt8} (h : Splits tooLarge b gs r)
    (h' : Splits tooLarge b gs' r') : gs = gs' := by
  have hle := h'.longest gs r h.eq h.small
  have hge := h.longest gs' r' h'.eq h'.small
  exact hle.eq_of_length (Nat.le_antisymm hle.length_le hge.length_le)

/-- A reader that is left to its peer comes to its end. -/
theorem exists_done (tooLarge : ℕ → Bool) (half : ActorReadHalf) (b : List UInt8) :
    ∃ es s, PeerRun 64 tooLarge half b es s ∧ s.Done 64 tooLarge :=
  exists_maximal (I := fun s => s.Tracks 64 tooLarge b) work (tracks_preStart 64 tooLarge half b)
    (fun _ _ _ hs hguard hstep => tracks_of_stepAlone hs hguard hstep)
    fun _ _ _ hs hguard hstep => work_of_stepAlone hs.orderly hguard hstep

end Run

/-- **The reader parses the length-prefix format.** Of every finite byte string, in every splitting
into reads, the reader on 64 bits casts frames of the longest list of frames that begins it, in
order and no other. Every run ends, and then the reader has cast all of them and has stopped. -/
theorem reader_parses_frames (tooLarge : ℕ → Bool) (hlarge : ∀ n, 2 ^ 63 ≤ n → tooLarge n = true)
    (b : List UInt8) :
    ∃ gs r, Splits tooLarge b gs r ∧
      ∀ half es s, PeerRun 64 tooLarge half b es s →
        s.casts <+: gs ∧ es.length ≤ 4 * b.length + 3 ∧
          (s.Done 64 tooLarge → s.casts = gs ∧ s.exit ≠ none) := by
  -- one run that has ended tells the splitting
  obtain ⟨es₀, s₀, hrun₀, hdone₀⟩ := exists_done tooLarge .regular b
  obtain ⟨r, hsplits⟩ := splits_of_done hlarge (tracks_of_run hrun₀) hdone₀
  refine ⟨s₀.casts, r, hsplits, fun half es s h => ?_⟩
  have hs := tracks_of_run h
  refine ⟨?_, ?_, fun hdone => ?_⟩
  · exact hs.casts_initial (fun g hg => (fits_of_small hlarge (hsplits.small g hg)).1) hsplits.eq
      fun g _ _ hsmall => hsplits.rest g hsmall
  · have hle := h.length_le (m := work) (tracks_preStart 64 tooLarge half b)
      (fun _ _ _ hs hguard hstep => tracks_of_stepAlone hs hguard hstep)
      (fun _ _ _ hs hguard hstep => work_of_stepAlone hs.orderly hguard hstep)
    rw [work_preStart] at hle
    omega
  · obtain ⟨r', hsplits'⟩ := splits_of_done hlarge hs hdone
    exact ⟨hsplits'.unique hsplits, hdone.exit_ne_none hs.orderly hlarge⟩

/-- A frame of one byte and an empty one, read in pieces of three and five bytes, and the beginning
of a third header. -/
theorem reader_parses_frames_truncated :
    ∃ gs r, Splits (fun n => decide (2 ^ 63 ≤ n)) (encodeAll 8 [[7], []] ++ [0, 0, 0]) gs r ∧
      [[7], []] <+: gs := by
  obtain ⟨gs, r, hsplits, hruns⟩ := reader_parses_frames (fun n => decide (2 ^ 63 ≤ n))
    (fun n hn => decide_eq_true hn) (encodeAll 8 [[7], []] ++ [0, 0, 0])
  let es : List (Bool × ReaderEvent) :=
    [(true, .handle), (true, .read 3), (true, .read 5), (true, .handle), (true, .read 1),
      (true, .handle), (true, .read 8), (true, .handle), (true, .handle), (true, .read 3),
      (true, .ioError .unexpectedEof), (true, .takeStop)]
  obtain ⟨s, hs, hcasts⟩ : ∃ s, exec (checked (peerOnly 64 fun n => decide (2 ^ 63 ≤ n))
      (stepAlone 64)) (preStart .serverTls (encodeAll 8 [[7], []] ++ [0, 0, 0])) es = some s ∧
      s.casts = [[7], []] := Option.map_eq_some_iff.mp (by decide)
  exact ⟨gs, r, hsplits, hcasts ▸ (hruns .serverTls es s (run_iff_exec_checked.mpr hs)).1⟩

end Reader

end RactorActors.Net.Tcp
