import RactorActors.Net.Tcp.Reader

/-!
# What the reader makes of the bytes

The reader hands the session the payloads of the length-prefixed frames it reads, as long as
every failed read leaves it at a frame boundary. An error of the socket other than the end of
the stream sends it back to waiting for a header wherever it stands: in the middle of a header
or before the end of a payload, what follows is then taken for a header.

* `Decodes`: the bytes consumed are the frames cast, followed by what the reader holds;
* `decodes_of_step`: kept by every step whose errors fall at a frame boundary (`errorClean`);
* `frames_cast_are_sent`: in every run of such steps the frames cast are at all times a prefix
  of the frames sent;
* `frame_invented`: a run with one other error, which casts a frame nobody sent.
-/

namespace RactorActors.Net.Tcp

open LabelledRun LengthPrefix

namespace Reader

/-- A socket error other than the end of the stream falls only on a `read_u64` that has consumed
nothing yet. -/
def errorClean (s : Reader) : ReaderEvent → Bool
  | .ioError .other => s.pc == .header []
  | _ => true

/-- The bytes `held` are what the reader has consumed of the frame it is reading. -/
inductive Holds (usizeBits : ℕ) (s : Reader) : List UInt8 → Prop
  | waiting (hpc : s.pc = .idle) (hqueue : s.queue = [.waitForFrame]) : Holds usizeBits s []
  | announced (length : UInt64) (hpc : s.pc = .idle) (hqueue : s.queue = [.readFrame length]) :
      Holds usizeBits s (bigEndian 8 length.toNat)
  | header (got : List UInt8) (hpc : s.pc = .header got) (hqueue : s.queue = [])
      (hshort : got.length < 8) : Holds usizeBits s got
  | readable (length : UInt64) (hpc : s.pc = .readable length) (hqueue : s.queue = []) :
      Holds usizeBits s (bigEndian 8 length.toNat)
  | payload (length : UInt64) (buf : List UInt8) (hpc : s.pc = .payload length buf)
      (hqueue : s.queue = []) (hshort : buf.length < asUsize usizeBits length) :
      Holds usizeBits s (bigEndian 8 length.toNat ++ buf)

/-- The length announced by the header that the reader has read last. -/
def announced (s : Reader) : Option UInt64 :=
  match s.pc, s.queue with
  | .idle, .readFrame length :: _ => some length
  | .readable length, _ => some length
  | .payload length _, _ => some length
  | _, _ => none

/-- The reader is reading its stream. -/
def Live (s : Reader) : Prop := s.exit = none ∧ s.reader ≠ none

/-- The bytes consumed are the frames cast and, while the reader is reading, what it holds. -/
structure Decodes (usizeBits : ℕ) (s : Reader) : Prop where
  fits : ∀ f ∈ s.casts, Fits 8 f
  past : encodeAll 8 s.casts <+: s.consumed
  live : s.Live → ∃ held, s.Holds usizeBits held ∧ s.consumed = encodeAll 8 s.casts ++ held
  dropped : s.reader = none → s.pc = .idle

/-! ## Bytes and frames of a step -/

/-- A stop that arrives is noted or ignored. -/
theorem stop_eq (s : Reader) (reason : Option String) :
    ∃ stopping, s.stop reason = { s with stopping := stopping } := by
  unfold Reader.stop
  split
  · exact ⟨some reason, rfl⟩
  · exact ⟨s.stopping, rfl⟩

/-- What the head of the reading loop does to bytes and frames. -/
theorem readNBytes_fields (usizeBits : ℕ) (sessionOpen : Bool) (s : Reader) (length : UInt64)
    (buf : List UInt8) :
    (readNBytes usizeBits sessionOpen s length buf).1.consumed = s.consumed ∧
    (readNBytes usizeBits sessionOpen s length buf).1.incoming = s.incoming ∧
    (readNBytes usizeBits sessionOpen s length buf).1.casts =
      s.casts ++ (readNBytes usizeBits sessionOpen s length buf).2.toList := by
  unfold readNBytes
  split
  · simp
  · cases sessionOpen <;> simp [readFrame, again, finish]

/-- With the mailbox of the session open, the loop of `read_n_bytes` leaves the life of the
reader alone. -/
theorem readNBytes_open (usizeBits : ℕ) (s : Reader) (length : UInt64) (buf : List UInt8) :
    (readNBytes usizeBits true s length buf).1.reader = s.reader ∧
      (readNBytes usizeBits true s length buf).1.exit = s.exit ∧
      (readNBytes usizeBits true s length buf).1.stopping = s.stopping := by
  unfold readNBytes
  split <;> exact ⟨rfl, rfl, rfl⟩

/-- What the end of `read_frame` after a failed read does to bytes and frames. -/
theorem readFrame_error_fields (s : Reader) (sessionOpen : Bool) (err : IoErr) :
    (s.readFrame sessionOpen (.error err)).1.consumed = s.consumed ∧
    (s.readFrame sessionOpen (.error err)).1.incoming = s.incoming ∧
    (s.readFrame sessionOpen (.error err)).1.casts = s.casts ∧
    (s.readFrame sessionOpen (.error err)).2 = none := by
  cases err with
  | other => exact ⟨rfl, rfl, rfl, rfl⟩
  | unexpectedEof =>
    obtain ⟨stopping, heq⟩ :=
      { s with reader := none, pc := .idle }.stop_eq (some "channel_closed")
    simp [readFrame, heq]

/-- **Bytes and frames of a step.** A step moves bytes from those that have arrived to those
consumed, and casts at most the frame it gives. -/
theorem fields_of_step {usizeBits : ℕ} {sessionOpen : Bool} {s : Reader} {e : ReaderEvent}
    {out : Reader × Option Frame} (h : s.step usizeBits sessionOpen e = some out) :
    out.1.consumed ++ out.1.incoming = s.consumed ++ s.incoming ∧
    out.1.casts = s.casts ++ out.2.toList := by
  -- a read moves bytes from one list to the other
  have htake (n : ℕ) : (s.take n).consumed ++ (s.take n).incoming = s.consumed ++ s.incoming := by
    simp [Reader.take]
  cases step_cases h with
  | wait | retry | readable | allocFails | takeStop => simp [again, finish]
  | fill length rest | ready length =>
    obtain ⟨hcons, hinc, hcasts⟩ := readNBytes_fields usizeBits sessionOpen _ length []
    rw [hcons, hinc, hcasts]
    exact ⟨rfl, rfl⟩
  | headerMore got n => exact ⟨htake n, by simp [Reader.take]⟩
  | headerDone got n => exact ⟨htake n, by simp [waitForFrame, Reader.take]⟩
  | payload length buf n =>
    obtain ⟨hcons, hinc, hcasts⟩ := readNBytes_fields usizeBits sessionOpen (s.take n) length
      (buf ++ s.incoming.take n)
    rw [hcons, hinc, hcasts]
    exact ⟨htake n, rfl⟩
  | headerError got err =>
    obtain ⟨stopping, heq⟩ := { s with reader := none }.stop_eq (some "channel_closed")
    cases err <;> simp [waitForFrame, again, heq]
  | frameError length err =>
    obtain ⟨hcons, hinc, hcasts, hnone⟩ := readFrame_error_fields s sessionOpen err
    rw [hcons, hinc, hcasts, hnone]
    simp
  | stop reason =>
    obtain ⟨stopping, heq⟩ := s.stop_eq reason
    simp [heq]
  | kill =>
    unfold Reader.kill
    split <;> simp [finish]

/-! ## The invariant -/

/-- A reader that has ended or dropped its stream keeps the frames it has cast. -/
theorem Decodes.of_dead {usizeBits : ℕ} {s s' : Reader} (hs : Decodes usizeBits s)
    (hdead : s'.reader = none) (hpc : s'.pc = .idle) (hcons : s'.consumed = s.consumed)
    (hcasts : s'.casts = s.casts) : Decodes usizeBits s' where
  fits := hcasts ▸ hs.fits
  past := by rw [hcons, hcasts]; exact hs.past
  live := fun hlive => absurd hdead hlive.2
  dropped := fun _ => hpc

/-- A reader that is reading and holds `held`. -/
theorem Decodes.of_holds {usizeBits : ℕ} {s : Reader} {held : List UInt8}
    (hfits : ∀ f ∈ s.casts, Fits 8 f) (hholds : s.Holds usizeBits held)
    (hcons : s.consumed = encodeAll 8 s.casts ++ held) (hreader : s.reader ≠ none) :
    Decodes usizeBits s where
  fits := hfits
  past := hcons ▸ List.prefix_append _ _
  live := fun _ => ⟨held, hholds, hcons⟩
  dropped := fun hnone => absurd hnone hreader

/-- **The end of a frame.** With the header of a frame and the bytes `buf` of its payload
consumed, the reader reads on or casts the whole frame. What the length is as a `usize` matters
only if a frame is cast. -/
theorem decodes_readNBytes {usizeBits : ℕ} (sessionOpen : Bool) {s : Reader} {length : UInt64}
    {buf : List UInt8} (hreader : s.reader ≠ none) (hqueue : s.queue = [])
    (hfits : ∀ f ∈ s.casts, Fits 8 f)
    (hlength : (readNBytes usizeBits sessionOpen s length buf).2 ≠ none →
      asUsize usizeBits length = length.toNat)
    (hle : buf.length ≤ asUsize usizeBits length)
    (hcons : s.consumed = encodeAll 8 s.casts ++ (bigEndian 8 length.toNat ++ buf)) :
    Decodes usizeBits (readNBytes usizeBits sessionOpen s length buf).1 := by
  unfold readNBytes
  split
  · rename_i hshort
    exact Decodes.of_holds hfits (Holds.payload length buf rfl hqueue hshort) hcons hreader
  · -- all bytes of the payload are there
    rename_i hfull
    cases sessionOpen with
    | true =>
      have hcast : (readNBytes usizeBits true s length buf).2 ≠ none := by
        simp [readNBytes, hfull, readFrame]
      have hlen : buf.length = length.toNat := by
        rw [← hlength hcast]
        omega
      have hencode : encode 8 buf = bigEndian 8 length.toNat ++ buf := by rw [encode, hlen]
      refine Decodes.of_holds ?_ (Holds.waiting rfl ?_) ?_ hreader
      · intro f hf
        rcases List.mem_append.mp hf with hf | hf
        · exact hfits f hf
        · rw [List.mem_singleton] at hf
          rw [hf, Fits, hlen]
          exact length.toNat_lt
      · show s.queue ++ [.waitForFrame] = [.waitForFrame]
        rw [hqueue, List.nil_append]
      · show s.consumed = encodeAll 8 (s.casts ++ [buf]) ++ []
        rw [hcons, encodeAll_append, encodeAll_singleton, hencode, List.append_nil]
    | false =>
      -- the cast fails, and with it the reader
      exact {
        fits := hfits
        past := by
          simp only [readFrame, finish, Bool.false_eq_true, if_false, hcons]
          exact List.prefix_append _ _
        live := fun hlive => absurd rfl hlive.2
        dropped := fun _ => rfl }

/-- A pending stop does not change what a reader holds. -/
theorem Holds.stopping {usizeBits : ℕ} {s : Reader} {held : List UInt8}
    (h : Holds usizeBits s held) (stopping : Option (Option String)) :
    Holds usizeBits { s with stopping := stopping } held := by
  cases h with
  | waiting hpc hqueue => exact Holds.waiting hpc hqueue
  | announced length hpc hqueue => exact Holds.announced length hpc hqueue
  | header _ hpc hqueue hshort => exact Holds.header _ hpc hqueue hshort
  | readable length hpc hqueue => exact Holds.readable length hpc hqueue
  | payload length buf hpc hqueue hshort => exact Holds.payload length buf hpc hqueue hshort

/-- Bytes that have arrived and were not read do not change what a reader holds. -/
theorem Holds.arrive {usizeBits : ℕ} {s : Reader} {held : List UInt8}
    (h : Holds usizeBits s held) (bytes : List UInt8) :
    Holds usizeBits { s with incoming := s.incoming ++ bytes } held := by
  cases h with
  | waiting hpc hqueue => exact Holds.waiting hpc hqueue
  | announced length hpc hqueue => exact Holds.announced length hpc hqueue
  | header _ hpc hqueue hshort => exact Holds.header _ hpc hqueue hshort
  | readable length hpc hqueue => exact Holds.readable length hpc hqueue
  | payload length buf hpc hqueue hshort => exact Holds.payload length buf hpc hqueue hshort

/-- What a reader holds between two handlers. -/
theorem Holds.of_idle {usizeBits : ℕ} {s : Reader} {held : List UInt8}
    (h : Holds usizeBits s held) (hpc : s.pc = .idle) :
    (s.queue = [.waitForFrame] ∧ held = []) ∨
      ∃ length, s.queue = [.readFrame length] ∧ held = bigEndian 8 length.toNat := by
  cases h with
  | waiting _ hqueue => exact Or.inl ⟨hqueue, rfl⟩
  | announced length _ hqueue => exact Or.inr ⟨length, hqueue, rfl⟩
  | header _ hpc' | readable _ hpc' | payload _ _ hpc' =>
    rw [hpc] at hpc'
    cases hpc'

/-- What a reader holds inside `read_u64`. -/
theorem Holds.of_header {usizeBits : ℕ} {s : Reader} {held got : List UInt8}
    (h : Holds usizeBits s held) (hpc : s.pc = .header got) :
    s.queue = [] ∧ got.length < 8 ∧ held = got := by
  cases h with
  | header got' hpc' hqueue hshort =>
    rw [hpc, ReaderPc.header.injEq] at hpc'
    exact ⟨hqueue, hpc' ▸ hshort, hpc'.symm⟩
  | waiting hpc' | announced _ hpc' | readable _ hpc' | payload _ _ hpc' =>
    rw [hpc] at hpc'
    cases hpc'

/-- What a reader holds at `readable`. -/
theorem Holds.of_readable {usizeBits : ℕ} {s : Reader} {held : List UInt8} {length : UInt64}
    (h : Holds usizeBits s held) (hpc : s.pc = .readable length) :
    s.queue = [] ∧ held = bigEndian 8 length.toNat := by
  cases h with
  | readable length' hpc' hqueue =>
    rw [hpc, ReaderPc.readable.injEq] at hpc'
    exact ⟨hqueue, by rw [hpc']⟩
  | waiting hpc' | announced _ hpc' | header _ hpc' | payload _ _ hpc' =>
    rw [hpc] at hpc'
    cases hpc'

/-- What a reader holds inside the loop of `read_n_bytes`. -/
theorem Holds.of_payload {usizeBits : ℕ} {s : Reader} {held buf : List UInt8} {length : UInt64}
    (h : Holds usizeBits s held) (hpc : s.pc = .payload length buf) :
    s.queue = [] ∧ buf.length < asUsize usizeBits length ∧
      held = bigEndian 8 length.toNat ++ buf := by
  cases h with
  | payload length' buf' hpc' hqueue hshort =>
    rw [hpc, ReaderPc.payload.injEq] at hpc'
    obtain ⟨rfl, rfl⟩ := hpc'
    exact ⟨hqueue, hshort, rfl⟩
  | waiting hpc' | announced _ hpc' | header _ hpc' | readable _ hpc' =>
    rw [hpc] at hpc'
    cases hpc'

/-- The reader that takes a message has no other, and holds what the message says. -/
theorem Decodes.of_takes {usizeBits : ℕ} {s : Reader} (hs : Decodes usizeBits s)
    {msg : SessionReaderMessage} {rest : List SessionReaderMessage} (htakes : s.Takes msg rest)
    (hreader : s.reader ≠ none) :
    rest = [] ∧ s.consumed = encodeAll 8 s.casts ++
      match msg with
      | .waitForFrame => []
      | .readFrame length => bigEndian 8 length.toNat := by
  obtain ⟨hexit, hpc, -, hqueue⟩ := htakes
  obtain ⟨held, hholds, hcons⟩ := hs.live ⟨hexit, hreader⟩
  rcases hholds.of_idle hpc with ⟨hq, rfl⟩ | ⟨length, hq, rfl⟩
  · rw [hqueue, List.cons.injEq] at hq
    obtain ⟨rfl, rfl⟩ := hq
    exact ⟨rfl, hcons⟩
  · rw [hqueue, List.cons.injEq] at hq
    obtain ⟨rfl, rfl⟩ := hq
    exact ⟨rfl, hcons⟩

/-- The eight bytes of a header are the digits of the length that is announced. -/
theorem bigEndian_announced {header : List UInt8} (hlen : header.length = 8) :
    bigEndian 8 (UInt64.ofNat (bigEndianValue header)).toNat = header := by
  have hlt : bigEndianValue header < 2 ^ 64 := by
    have hvalue := bigEndianValue_lt header
    rw [hlen] at hvalue
    exact hvalue
  have hdigits := bigEndian_bigEndianValue header
  rw [hlen] at hdigits
  rw [UInt64.toNat_ofNat_of_lt' hlt, hdigits]

/-- **Step lemma.** As long as errors fall at frame boundaries and a frame is cast only for a
length that fits `usize`, the bytes consumed are the frames cast and what the reader holds. -/
theorem decodes_of_step {usizeBits : ℕ} {sessionOpen : Bool} {s : Reader} {e : ReaderEvent}
    {out : Reader × Option Frame} (hs : Decodes usizeBits s)
    (hfit : s.Live → ∀ length, s.announced = some length → out.2 ≠ none →
      asUsize usizeBits length = length.toNat)
    (hclean : s.errorClean e = true) (h : s.step usizeBits sessionOpen e = some out) :
    Decodes usizeBits out.1 := by
  -- while a handler waits, the stream is there
  have hlive (hexit : s.exit = none) (hpc : s.pc ≠ .idle) : s.Live :=
    ⟨hexit, fun hnone => hpc (hs.dropped hnone)⟩
  cases step_cases h with
  | wait half rest htakes hreader =>
    obtain ⟨rfl, hcons⟩ := hs.of_takes htakes (by simp [hreader])
    exact Decodes.of_holds hs.fits (Holds.header [] rfl rfl (by decide)) hcons (by simp [hreader])
  -- a reader without a stream goes round and round
  | retry msg rest htakes hreader => exact hs.of_dead hreader rfl rfl rfl
  | readable length rest htakes hreader =>
    obtain ⟨rfl, hcons⟩ := hs.of_takes htakes (by simp [hreader])
    exact Decodes.of_holds hs.fits (Holds.readable length rfl rfl) hcons (by simp [hreader])
  | fill length rest half htakes hreader =>
    obtain ⟨rfl, hcons⟩ := hs.of_takes htakes (by simp [hreader])
    have hannounced : s.announced = some length := by
      simp [announced, htakes.2.1, htakes.2.2.2]
    exact decodes_readNBytes sessionOpen (by simp [hreader]) rfl hs.fits
      (hfit ⟨htakes.1, by simp [hreader]⟩ length hannounced) (Nat.zero_le _) (by simpa using hcons)
  | allocFails length rest => exact hs.of_dead rfl rfl rfl rfl
  | ready length hexit hpc =>
    have hl := hlive hexit (by simp [hpc])
    obtain ⟨held, hholds, hcons⟩ := hs.live hl
    obtain ⟨hqueue, rfl⟩ := hholds.of_readable hpc
    exact decodes_readNBytes sessionOpen hl.2 hqueue hs.fits
      (hfit hl length (by simp [announced, hpc])) (Nat.zero_le _) (by simpa using hcons)
  | headerMore got n hexit hpc hn hshort =>
    have hl := hlive hexit (by simp [hpc])
    obtain ⟨held, hholds, hcons⟩ := hs.live hl
    obtain ⟨hqueue, -, rfl⟩ := hholds.of_header hpc
    refine Decodes.of_holds hs.fits (Holds.header _ rfl hqueue hshort) ?_ hl.2
    simp only [Reader.take, hcons, List.append_assoc]
  | headerDone got n hexit hpc hn hfull =>
    have hl := hlive hexit (by simp [hpc])
    obtain ⟨held, hholds, hcons⟩ := hs.live hl
    obtain ⟨hqueue, hgot, rfl⟩ := hholds.of_header hpc
    have hlen : (held ++ s.incoming.take n).length = 8 := by
      have htake : (s.incoming.take n).length = n := List.length_take_of_le hn.2.2
      rw [List.length_append, htake] at hfull ⊢
      omega
    have hheader := bigEndian_announced hlen
    refine Decodes.of_holds hs.fits
      (Holds.announced (UInt64.ofNat (bigEndianValue (held ++ s.incoming.take n))) rfl ?_) ?_ hl.2
    · show s.queue ++ [_] = [_]
      rw [hqueue, List.nil_append]
    · rw [hheader]
      simp only [waitForFrame, Reader.take, hcons, List.append_assoc]
  | payload length buf n hexit hpc hn =>
    -- a read never returns more bytes than the buffer still takes
    have hl := hlive hexit (by simp [hpc])
    obtain ⟨held, hholds, hcons⟩ := hs.live hl
    obtain ⟨hqueue, hshort, rfl⟩ := hholds.of_payload hpc
    have htake : (s.incoming.take n).length = n := List.length_take_of_le hn.2.2
    refine decodes_readNBytes sessionOpen (s := s.take n) hl.2 hqueue hs.fits
      (hfit hl length (by simp [announced, hpc])) ?_ ?_
    · rw [List.length_append, htake]
      omega
    · simp only [Reader.take, hcons, List.append_assoc]
  | headerError got err hexit hpc =>
    cases err with
    | unexpectedEof =>
      obtain ⟨stopping, heq⟩ := { s with reader := none }.stop_eq (some "channel_closed")
      refine hs.of_dead ?_ rfl ?_ ?_ <;> simp [waitForFrame, again, heq]
    | other =>
      -- nothing of the header was consumed
      have hl := hlive hexit (by simp [hpc])
      obtain ⟨held, hholds, hcons⟩ := hs.live hl
      obtain ⟨hqueue, -, rfl⟩ := hholds.of_header hpc
      have hnil : held = [] := by simpa [errorClean, hpc] using hclean
      refine Decodes.of_holds hs.fits (Holds.waiting rfl ?_) (hnil ▸ hcons) hl.2
      show s.queue ++ [_] = [_]
      rw [hqueue, List.nil_append]
  | frameError length err hexit hpc =>
    cases err with
    | unexpectedEof =>
      obtain ⟨stopping, heq⟩ :=
        { s with reader := none, pc := .idle }.stop_eq (some "channel_closed")
      refine hs.of_dead ?_ ?_ ?_ ?_ <;> simp [readFrame, heq]
    | other =>
      -- inside `read_n_bytes` no error is clean
      have hheader : s.pc = .header [] := by simpa [errorClean] using hclean
      rcases hpc with hpc | ⟨buf, hpc⟩ <;> rw [hpc] at hheader <;> cases hheader
  | stop reason =>
    obtain ⟨stopping, heq⟩ := s.stop_eq reason
    rw [heq]
    refine ⟨hs.fits, hs.past, fun hl => ?_, hs.dropped⟩
    obtain ⟨held, hholds, hcons⟩ := hs.live hl
    exact ⟨held, hholds.stopping stopping, hcons⟩
  | takeStop reason => exact hs.of_dead rfl rfl rfl rfl
  | kill =>
    unfold Reader.kill
    split
    · exact hs.of_dead rfl rfl rfl rfl
    · exact hs

/-- A reader that was just started holds nothing. -/
theorem decodes_preStart (usizeBits : ℕ) (half : ActorReadHalf) (incoming : List UInt8) :
    Decodes usizeBits (preStart half incoming) := by
  refine Decodes.of_holds ?_ (Holds.waiting rfl rfl) rfl (Option.some_ne_none half)
  intro f hf
  cases hf

/-- A reader that has read the header of a frame holds it. -/
theorem Holds.of_announced {usizeBits : ℕ} {s : Reader} {held : List UInt8} {length : UInt64}
    (h : Holds usizeBits s held) (hlength : s.announced = some length) :
    ∃ buf, held = bigEndian 8 length.toNat ++ buf := by
  cases h with
  | waiting hpc hqueue | header _ hpc hqueue => simp [Reader.announced, hpc, hqueue] at hlength
  | announced length' hpc hqueue | readable length' hpc hqueue =>
    simp only [Reader.announced, hpc, hqueue, Option.some.injEq] at hlength
    exact ⟨[], by rw [hlength, List.append_nil]⟩
  | payload length' buf hpc hqueue =>
    simp only [Reader.announced, hpc, Option.some.injEq] at hlength
    exact ⟨buf, by rw [hlength]⟩

/-- **Lengths on a well-formed stream.** A length that is announced on a stream of frames is
that of one of them. -/
theorem asUsize_of_announced {usizeBits : ℕ} {s : Reader} {frames : List Frame}
    {rest : List UInt8} (hs : Decodes usizeBits s)
    (hframes : ∀ f ∈ frames, f.length < 2 ^ 64 ∧ f.length < 2 ^ usizeBits)
    (hbytes : s.consumed ++ rest = encodeAll 8 frames) (hlive : s.Live) {length : UInt64}
    (hlength : s.announced = some length) : asUsize usizeBits length = length.toNat := by
  obtain ⟨held, hholds, hcons⟩ := hs.live hlive
  obtain ⟨buf, rfl⟩ := hholds.of_announced hlength
  rw [hcons, List.append_assoc, List.append_assoc] at hbytes
  obtain ⟨f, hf, hvalue⟩ := exists_length_of_header (by decide) hs.fits
    (fun f hf => (hframes f hf).1) (length_bigEndian _ _) hbytes
  rw [bigEndianValue_bigEndian length.toNat_lt] at hvalue
  exact Nat.mod_eq_of_lt (hvalue ▸ (hframes f hf).2)

/-- **Frames cast are frames sent.** In every run of a reader on a stream of frames (whose
lengths fit `usize`), in which an error other than the end of the stream falls only on a
`read_u64` that has consumed nothing yet, the frames cast to the session are at every moment a
prefix of the frames sent, whatever pieces the reads return and whenever the stream ends. -/
theorem frames_cast_are_sent {usizeBits : ℕ} {half : ActorReadHalf} {frames : List Frame}
    (hframes : ∀ f ∈ frames, f.length < 2 ^ 64 ∧ f.length < 2 ^ usizeBits)
    {es : List (Bool × ReaderEvent)} {s : Reader}
    (h : Run (stepAlone usizeBits) (fun s e => s.errorClean e.2 = true)
      (preStart half (encodeAll 8 frames)) es s) :
    Throughout (stepAlone usizeBits) (fun s => s.casts <+: frames)
      (preStart half (encodeAll 8 frames)) es := by
  -- the frames cast are among the bytes consumed, which are the first of the bytes sent
  have hinv : Throughout (stepAlone usizeBits)
      (fun s => Decodes usizeBits s ∧ s.consumed ++ s.incoming = encodeAll 8 frames)
      (preStart half (encodeAll 8 frames)) es := by
    refine h.throughout ⟨decodes_preStart _ _ _, rfl⟩ ?_
    rintro s e s' ⟨hs, hbytes⟩ hclean hstep
    rw [stepAlone, Option.map_eq_some_iff] at hstep
    obtain ⟨out, hout, rfl⟩ := hstep
    refine ⟨decodes_of_step hs ?_ hclean hout, by rw [(fields_of_step hout).1, hbytes]⟩
    intro hlive length hlength _
    exact asUsize_of_announced hs hframes hbytes hlive hlength
  refine throughout_iff.mpr fun es₁ t hpre ht => ?_
  obtain ⟨hs, hbytes⟩ := throughout_iff.mp hinv es₁ t hpre ht
  refine prefix_of_encodeAll (by decide) hs.fits (fun f hf => (hframes f hf).1) ?_
  exact hs.past.trans (hbytes ▸ List.prefix_append _ _)

/-- The socket fails once before a header, which is then read in two pieces. -/
theorem frames_cast_are_sent_retry :
    Throughout (stepAlone 64) (fun s => s.casts <+: [[7]])
      (preStart .regular (encodeAll 8 [[7]]))
      [(true, .handle), (true, .ioError .other), (true, .handle), (true, .read 3),
        (true, .read 5), (true, .handle), (true, .ready), (true, .read 1)] := by
  let es : List (Bool × ReaderEvent) :=
    [(true, .handle), (true, .ioError .other), (true, .handle), (true, .read 3),
      (true, .read 5), (true, .handle), (true, .ready), (true, .read 1)]
  obtain ⟨s, hs⟩ : ∃ s, exec (checked (fun s e => s.errorClean e.2) (stepAlone 64))
      (preStart .regular (encodeAll 8 [[7]])) es = some s :=
    Option.isSome_iff_exists.mp (by decide)
  exact frames_cast_are_sent (by simp) (run_iff_exec_checked.mpr hs)

/-- **An invented frame.** The socket fails once after the header of a frame was read, and the
reader goes back to waiting for a header: it takes the payload, which looks like a frame of one
byte, for the next frame. -/
theorem frame_invented :
    ¬ ∀ (frames : List Frame) (es : List (Bool × ReaderEvent)) (s : Reader),
        (∀ f ∈ frames, f.length < 2 ^ 32) →
          exec (stepAlone 64) (preStart .regular (encodeAll 8 frames)) es = some s →
            s.casts <+: frames := by
  intro hall
  -- the payload begins with the bytes 0 0 0 0 0 0 0 1
  have hrun : (exec (stepAlone 64) (preStart .regular (encodeAll 8 [bigEndian 8 1 ++ [42]]))
      [(true, .handle), (true, .read 8), (true, .handle), (true, .ioError .other),
        (true, .handle), (true, .read 8), (true, .handle), (true, .ready), (true, .read 1)]).map
      (·.casts) = some [[42]] := by decide
  obtain ⟨s, hs, hcasts⟩ := Option.map_eq_some_iff.mp hrun
  have hpre := hall _ _ s (by simp) hs
  rw [hcasts] at hpre
  exact absurd hpre (by decide)

end Reader

end RactorActors.Net.Tcp
