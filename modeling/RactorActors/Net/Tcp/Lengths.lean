import RactorActors.Net.Tcp.Parsing

/-!
# The length of a frame and its header

The header of a frame is a `u64`, and `read_frame` narrows it to a `usize` before it allocates the
buffer and counts the bytes. On a 32-bit target a header from `2 ^ 32` on loses its upper half: the
reader casts a short frame and takes what follows for the next header.

* `Log`: a reader with a record of the headers it has read and the frame it cast for each;
* `Kept`: the frame of a header has the length that the header announces, and a header without a
  frame is the last one;
* `Misread`: the bytes that bring the reader to a header that wraps;
* `lengths_kept_iff`: on 32 and on 64 bits, every run keeps the lengths exactly if the bytes do not
  bring the reader there, which on 64 bits they never do;
* `length_truncated`: a header of `2 ^ 32 + 1`, for which a frame of one byte is cast.
-/

namespace RactorActors.Net.Tcp

open LabelledRun LengthPrefix

/-- A header that the reader has read. -/
structure Header where
  /-- The length that it announces. -/
  length : UInt64
  /-- How many bytes had been consumed once it was read. -/
  offset : ℕ
  /-- The frame that was cast for it. -/
  frame : Option Frame
deriving DecidableEq, Repr

/-- A reader and the headers it has read, newest first. -/
structure Log where
  reader : Reader
  headers : List Header
deriving DecidableEq, Repr

namespace Log

/-- The record after a step of the reader `s`. -/
def note (s : Reader) (out : Reader × Option Frame) (headers : List Header) : List Header :=
  match out.2, headers with
  | some frame, header :: older => { header with frame := some frame } :: older
  | some _, [] => []
  | none, _ =>
    -- `read_u64` has returned
    match s.pc, out.1.queue with
    | .header _, .readFrame length :: _ =>
      { length, offset := out.1.consumed.length, frame := none } :: headers
    | _, _ => headers

/-- One step of a reader with its record. -/
def step (usizeBits : ℕ) (l : Log) (e : Bool × ReaderEvent) : Option Log :=
  (l.reader.step usizeBits e.1 e.2).map fun out =>
    { reader := out.1, headers := note l.reader out l.headers }

/-- A reader that is started has read no header. -/
def preStart (half : ActorReadHalf) (b : List UInt8) : Log where
  reader := Reader.preStart half b
  headers := []

/-- A run of a reader on the bytes `b`, with its record. -/
def PeerRun (usizeBits : ℕ) (tooLarge : ℕ → Bool) (half : ActorReadHalf) (b : List UInt8)
    (es : List (Bool × ReaderEvent)) (l : Log) : Prop :=
  Run (step usizeBits) (fun l e => l.reader.peerOnly usizeBits tooLarge e = true)
    (preStart half b) es l

/-- Each header has a frame of the length that it announces, made of the bytes that follow it, or
it has no frame and no byte behind it is taken for a header. -/
def Kept (b : List UInt8) (l : Log) : Prop :=
  ∀ newer h older, l.headers = newer ++ h :: older →
    match h.frame with
    | some frame => frame.length = h.length.toNat ∧
        frame = (b.drop h.offset).take h.length.toNat
    | none => newer = [] ∧ ∀ got, l.reader.pc ≠ .header got

/-- In every run on the bytes `b` the lengths are kept; every run ends, and then the reader has
stopped. -/
def LengthsKept (usizeBits : ℕ) (tooLarge : ℕ → Bool) (half : ActorReadHalf) (b : List UInt8) :
    Prop :=
  ∀ es l, PeerRun usizeBits tooLarge half b es l →
    l.Kept b ∧ es.length ≤ 4 * b.length + 3 ∧
      (l.reader.Done usizeBits tooLarge → l.reader.exit ≠ none)

/-- Behind complete frames the bytes have a header that does not fit `usize`, whose lower bits
announce a buffer that can be allocated and filled. -/
def Misread (usizeBits : ℕ) (tooLarge : ℕ → Bool) (b : List UInt8) : Prop :=
  ∃ (gs : List Frame) (length : UInt64) (rest : List UInt8),
    b = encodeAll 8 gs ++ (bigEndian 8 length.toNat ++ rest) ∧
    (∀ g ∈ gs, g.length < 2 ^ usizeBits ∧ tooLarge g.length = false) ∧
    2 ^ usizeBits ≤ length.toNat ∧ tooLarge (asUsize usizeBits length) = false ∧
    asUsize usizeBits length ≤ rest.length

/-- On 64 bits every header fits. -/
theorem not_misread_64 (tooLarge : ℕ → Bool) (b : List UInt8) : ¬ Misread 64 tooLarge b := by
  rintro ⟨gs, length, rest, -, -, hwraps, -⟩
  exact absurd length.toNat_lt (Nat.not_lt_of_le hwraps)

/-! ## The record -/

/-- What the record has to do with the reader. -/
structure Sound (usizeBits : ℕ) (tooLarge : ℕ → Bool) (b : List UInt8) (l : Log) : Prop where
  tracks : l.reader.Tracks usizeBits tooLarge b
  /-- A frame that was cast is the one announced. -/
  cast : ∀ h ∈ l.headers, ∀ frame, h.frame = some frame →
    frame.length = h.length.toNat ∧ frame = (b.drop h.offset).take h.length.toNat
  /-- A header without a frame is the newest one, and the one that the reader works on. -/
  pending : ∀ newer h older, l.headers = newer ++ h :: older → h.frame = none →
    newer = [] ∧ (l.reader.Live → l.reader.announced = some h.length)
  /-- The header that the reader works on is the newest one, right behind the frames cast. -/
  current : l.reader.Live → ∀ length, l.reader.announced = some length →
    ∃ h older, l.headers = h :: older ∧ h.length = length ∧
      h.offset = (encodeAll 8 l.reader.casts).length + 8

variable {usizeBits : ℕ} {tooLarge : ℕ → Bool} {b : List UInt8} {l : Log}

/-- A sound record keeps the lengths. -/
theorem Sound.kept (hs : l.Sound usizeBits tooLarge b) : l.Kept b := by
  intro newer h older heq
  have hmem : h ∈ l.headers := by
    rw [heq]
    exact List.mem_append_right _ List.mem_cons_self
  split
  · rename_i frame hframe
    exact hs.cast h hmem frame hframe
  · rename_i hframe
    obtain ⟨hnewest, hworks⟩ := hs.pending newer h older heq hframe
    refine ⟨hnewest, fun got hpc => ?_⟩
    -- a reader inside `read_u64` works on no header
    have hreader : l.reader.reader ≠ none := by
      intro hnone
      have hidle := hs.tracks.orderly.dropped hnone
      rw [hpc] at hidle
      cases hidle
    have hexit : l.reader.exit = none := by
      by_contra hended
      exact hreader (hs.tracks.orderly.ended hended)
    have hannounced := hworks ⟨hexit, hreader⟩
    rw [Reader.announced, hpc] at hannounced
    cases hannounced

/-- What a step does to the record. -/
inductive NoteCase (s : Reader) (out : Reader × Option Frame) : Prop
  /-- `read_u64` has returned. -/
  | announce (length : UInt64) (hcast : out.2 = none) (hlive : s.Live ∧ out.1.Live)
      (hbefore : s.announced = none) (hpc : out.1.pc = .idle)
      (hqueue : out.1.queue = [.readFrame length])
      (hpush : ∀ headers, note s out headers =
        { length, offset := out.1.consumed.length, frame := none } :: headers)
  | cast (frame : Frame) (hcast : out.2 = some frame) (hafter : out.1.announced = none)
  /-- Whatever header the reader still works on, it has worked on before. -/
  | quiet (hcast : out.2 = none) (hsame : ∀ headers, note s out headers = headers)
      (hkeep : out.1.Live → s.Live ∧ out.1.announced = s.announced)

/-- The step is over with no header read. -/
theorem note_of_queue {s : Reader} {out : Reader × Option Frame} (hcast : out.2 = none)
    (hqueue : ∀ length rest, out.1.queue ≠ .readFrame length :: rest) (headers : List Header) :
    note s out headers = headers := by
  simp only [note, hcast]
  split
  · rename_i length rest _ hread
    exact absurd hread (hqueue length rest)
  · rfl

/-- The loop of `read_n_bytes` goes on with the header it works on, or casts its frame. -/
theorem noteCase_readNBytes {s s' : Reader} {length : UInt64} (buf : List UInt8)
    (hlive : s.Live) (hannounced : s.announced = some length) (hqueue : s'.queue = []) :
    NoteCase s (Reader.readNBytes usizeBits true s' length buf) := by
  unfold Reader.readNBytes
  split
  · refine .quiet rfl (note_of_queue rfl fun length' rest hread => ?_) fun _ => ⟨hlive, ?_⟩
    · rw [hqueue] at hread
      cases hread
    · rw [hannounced, Reader.announced]
  · refine .cast buf rfl ?_
    show Reader.announced { s' with pc := .idle, queue := s'.queue ++ [.waitForFrame], .. } = none
    rw [hqueue]
    rfl

/-- **The record of a step.** -/
theorem note_cases {s : Reader} {e : ReaderEvent} {out : Reader × Option Frame}
    (hs : s.Tracks usizeBits tooLarge b)
    (hguard : s.peerOnly usizeBits tooLarge (true, e) = true)
    (h : s.step usizeBits true e = some out) : NoteCase s out := by
  have ho := hs.orderly
  -- a reader whose queue is empty afterwards has read no header
  have hquiet {t : Reader} (hqueue : t.queue = []) (hkeep : t.Live → s.Live ∧
      t.announced = s.announced) : NoteCase s (t, none) := by
    refine .quiet rfl (note_of_queue rfl fun length rest hread => ?_) hkeep
    rw [hqueue] at hread
    cases hread
  cases Reader.step_cases h with
  | wait half rest htakes hreader =>
    obtain rfl := ho.rest_eq_nil htakes (by simp [hreader])
    refine hquiet rfl fun _ => ⟨⟨htakes.1, by simp [hreader]⟩, ?_⟩
    simp [Reader.announced, htakes.2.1, htakes.2.2.2]
  | retry msg rest htakes hreader => exact absurd htakes.2.2.1 (ho.stops htakes.1 hreader)
  | readable length rest htakes hreader =>
    obtain rfl := ho.rest_eq_nil htakes (by simp [hreader])
    refine hquiet rfl fun _ => ⟨⟨htakes.1, by simp [hreader]⟩, ?_⟩
    simp [Reader.announced, htakes.2.1, htakes.2.2.2]
  | fill length rest half htakes hreader =>
    obtain rfl := ho.rest_eq_nil htakes (by simp [hreader])
    refine noteCase_readNBytes [] ⟨htakes.1, by simp [hreader]⟩ ?_ rfl
    simp [Reader.announced, htakes.2.1, htakes.2.2.2]
  | allocFails length rest | takeStop reason =>
    exact hquiet rfl fun hlive => absurd rfl hlive.2
  | ready length hexit hpc =>
    have hbusy : s.pc ≠ .idle := by simp [hpc]
    exact noteCase_readNBytes [] (ho.live_of_pc hexit hbusy) (by simp [Reader.announced, hpc])
      (ho.queue_eq_nil hexit hbusy)
  | payload length buf n hexit hpc =>
    have hbusy : s.pc ≠ .idle := by simp [hpc]
    exact noteCase_readNBytes _ (ho.live_of_pc hexit hbusy) (by simp [Reader.announced, hpc])
      (ho.queue_eq_nil hexit hbusy)
  | headerMore got n hexit hpc =>
    have hbusy : s.pc ≠ .idle := by simp [hpc]
    refine hquiet (ho.queue_eq_nil hexit hbusy) fun _ => ⟨ho.live_of_pc hexit hbusy, ?_⟩
    simp [Reader.announced, hpc]
  | headerDone got n hexit hpc =>
    have hbusy : s.pc ≠ .idle := by simp [hpc]
    have hlive := ho.live_of_pc hexit hbusy
    have hqueue : s.queue = [] := ho.queue_eq_nil hexit hbusy
    refine .announce (UInt64.ofNat (bigEndianValue (got ++ s.incoming.take n))) rfl ⟨hlive, hlive⟩
      (by simp [Reader.announced, hpc]) rfl ?_ fun headers => ?_
    · show s.queue ++ [_] = [_]
      rw [hqueue, List.nil_append]
    · simp [note, hpc, Reader.waitForFrame, Reader.take, hqueue]
  | headerError got err hexit hpc =>
    cases err with
    | unexpectedEof =>
      -- the stream is dropped
      rw [Reader.waitForFrame_eof hexit]
      refine .quiet rfl (note_of_queue rfl fun length rest hread => ?_)
        fun hlive => absurd rfl hlive.2
      simp [ho.queue_eq_nil hexit (by simp [hpc])] at hread
    | other => simp [Reader.peerOnly, Reader.runsOn] at hguard
  | frameError length err hexit hpc =>
    cases err with
    | unexpectedEof =>
      rw [Reader.readFrame_eof hexit]
      refine hquiet (ho.queue_eq_nil hexit ?_) fun hlive => absurd rfl hlive.2
      rcases hpc with hpc | ⟨buf, hpc⟩ <;> simp [hpc]
    | other => simp [Reader.peerOnly, Reader.runsOn] at hguard
  | stop | kill => simp [Reader.peerOnly, Reader.runsOn] at hguard

/-- The frame that a step casts is made of the bytes right behind the frames cast before. -/
theorem frame_of_cast {s t : Reader} {frame : Frame} (ht : t.Tracks usizeBits tooLarge b)
    (hcasts : t.casts = s.casts ++ [frame]) :
    frame = (b.drop ((encodeAll 8 s.casts).length + 8)).take frame.length := by
  obtain ⟨rest, hrest⟩ := ht.decodes.past
  have hbytes : b = (encodeAll 8 s.casts ++ bigEndian 8 frame.length) ++
      (frame ++ (rest ++ t.incoming)) := by
    rw [← ht.bytes, ← hrest, hcasts, encodeAll_append, encodeAll_singleton, encode]
    simp only [List.append_assoc]
  have hdrop : b.drop ((encodeAll 8 s.casts).length + 8) = frame ++ (rest ++ t.incoming) := by
    rw [hbytes]
    exact List.drop_left' (by rw [List.length_append, length_bigEndian])
  rw [hdrop, List.take_left']
  rfl

/-- **Step lemma.** A step that casts no frame of a length other than the one announced keeps the
record sound. -/
theorem Sound.step (hs : l.Sound usizeBits tooLarge b) {e : ReaderEvent}
    {out : Reader × Option Frame}
    (hfit : l.reader.Live → ∀ length, l.reader.announced = some length → out.2 ≠ none →
      asUsize usizeBits length = length.toNat)
    (hguard : l.reader.peerOnly usizeBits tooLarge (true, e) = true)
    (h : l.reader.step usizeBits true e = some out) :
    Sound usizeBits tooLarge b ⟨out.1, note l.reader out l.headers⟩ := by
  have ht := hs.tracks.step hfit hguard h
  have hcasts := (Reader.fields_of_step h).2
  cases note_cases hs.tracks hguard h with
  | announce length hcast hlive hbefore hpc hqueue hpush =>
    have hannounced : out.1.announced = some length := by simp [Reader.announced, hpc, hqueue]
    rw [hpush]
    refine ⟨ht, ?_, ?_, ?_⟩
    · intro h' hmem frame hframe
      rcases List.mem_cons.mp hmem with rfl | hmem
      · cases hframe
      · exact hs.cast h' hmem frame hframe
    · -- no header was waiting for its frame before
      intro newer h' older heq hnone
      cases newer with
      | nil =>
        obtain ⟨rfl, -⟩ := List.cons.inj heq
        exact ⟨rfl, fun _ => hannounced⟩
      | cons _ newer =>
        have hworks := (hs.pending newer h' older (List.cons.inj heq).2 hnone).2 hlive.1
        rw [hbefore] at hworks
        cases hworks
    · intro hlive' length' hlength'
      obtain rfl : length = length' := Option.some.inj (hannounced.symm.trans hlength')
      refine ⟨_, _, rfl, rfl, ?_⟩
      obtain ⟨held, hholds, hcons⟩ := ht.decodes.live hlive'
      rcases hholds.of_idle hpc with ⟨hwaits, -⟩ | ⟨length', -, rfl⟩
      · rw [hqueue] at hwaits
        cases hwaits
      · show out.1.consumed.length = (encodeAll 8 out.1.casts).length + 8
        rw [hcons, List.length_append, length_bigEndian]
  | cast frame hcast hafter =>
    obtain ⟨length, hcase⟩ := Reader.cast_case hs.tracks.orderly h hcast
    obtain ⟨newest, older, hheaders, rfl, hoffset⟩ := hs.current hcase.live length hcase.announced
    have hsize : frame.length = newest.length.toNat := by
      rw [hcase.size, hfit hcase.live _ hcase.announced (by simp [hcast])]
    have hnote : note l.reader out l.headers = { newest with frame := some frame } :: older := by
      simp only [note, hcast, hheaders]
    rw [hnote]
    refine ⟨ht, ?_, ?_, ?_⟩
    · intro h' hmem frame' hframe
      rcases List.mem_cons.mp hmem with rfl | hmem
      · obtain rfl : frame = frame' := Option.some.inj hframe
        refine ⟨hsize, ?_⟩
        show frame = (b.drop newest.offset).take newest.length.toNat
        rw [hoffset, ← hsize]
        exact frame_of_cast ht (by rw [hcasts, hcast, Option.toList_some])
      · exact hs.cast h' (hheaders ▸ List.mem_cons_of_mem _ hmem) frame' hframe
    · -- a header without a frame would not have been the newest one
      intro newer h' older' heq hnone
      cases newer with
      | nil =>
        obtain ⟨rfl, -⟩ := List.cons.inj heq
        cases hnone
      | cons _ newer =>
        have hbehind : l.headers = (newest :: newer) ++ h' :: older' :=
          hheaders.trans (congrArg (newest :: ·) (List.cons.inj heq).2)
        exact absurd (hs.pending _ h' older' hbehind hnone).1 (List.cons_ne_nil _ _)
    · intro _ length' hlength'
      rw [hafter] at hlength'
      cases hlength'
  | quiet hcast hsame hkeep =>
    rw [hsame]
    refine ⟨ht, hs.cast, ?_, ?_⟩
    · intro newer h' older heq hnone
      obtain ⟨hnewest, hworks⟩ := hs.pending newer h' older heq hnone
      refine ⟨hnewest, fun hlive' => ?_⟩
      obtain ⟨hlive, hsame'⟩ := hkeep hlive'
      rw [hsame']
      exact hworks hlive
    · intro hlive' length hlength
      obtain ⟨hlive, hsame'⟩ := hkeep hlive'
      obtain ⟨h', older, hheaders, hlen, hoffset⟩ := hs.current hlive length (hsame' ▸ hlength)
      refine ⟨h', older, hheaders, hlen, ?_⟩
      rw [hoffset, hcasts, hcast, Option.toList_none, List.append_nil]

/-- The record of a reader that was just started is empty. -/
theorem sound_preStart (usizeBits : ℕ) (tooLarge : ℕ → Bool) (half : ActorReadHalf)
    (b : List UInt8) : (preStart half b).Sound usizeBits tooLarge b where
  tracks := Reader.tracks_preStart usizeBits tooLarge half b
  cast := fun h hmem => absurd hmem List.not_mem_nil
  pending := fun newer h older heq => by simp [preStart] at heq
  current := fun _ length hlength => by
    simp [preStart, Reader.preStart, Reader.announced] at hlength

/-! ## Runs -/

section Run

variable {half : ActorReadHalf} {es : List (Bool × ReaderEvent)} {e : Bool × ReaderEvent}
  {l' : Log}

/-- A step of a reader with its record is one of the reader. -/
theorem of_step (hguard : l.reader.peerOnly usizeBits tooLarge e = true)
    (h : step usizeBits l e = some l') :
    ∃ out, l.reader.peerOnly usizeBits tooLarge (true, e.2) = true ∧
      l.reader.step usizeBits true e.2 = some out ∧
      l' = ⟨out.1, note l.reader out l.headers⟩ := by
  obtain ⟨sessionOpen, e⟩ := e
  obtain ⟨rfl, -⟩ := Reader.peerOnly_cases hguard
  rw [step, Option.map_eq_some_iff] at h
  obtain ⟨out, hout, rfl⟩ := h
  exact ⟨out, hguard, hout, rfl⟩

/-- Every step keeps the shape of the loop and brings the reader nearer to its end. -/
theorem orderly_of_step (ho : l.reader.Orderly usizeBits)
    (hguard : l.reader.peerOnly usizeBits tooLarge e = true) (h : step usizeBits l e = some l') :
    l'.reader.Orderly usizeBits ∧ l'.reader.work < l.reader.work := by
  obtain ⟨out, hguard', hout, rfl⟩ := of_step hguard h
  exact ⟨ho.step hout, Reader.work_of_step ho hguard' hout⟩

/-- What every run satisfies, whatever lengths are announced. -/
theorem PeerRun.ends (hlarge : ∀ n, 2 ^ (usizeBits - 1) ≤ n → tooLarge n = true)
    (h : PeerRun usizeBits tooLarge half b es l) :
    es.length ≤ 4 * b.length + 3 ∧
      (l.reader.Done usizeBits tooLarge → l.reader.exit ≠ none) := by
  have h₀ := Reader.orderly_preStart usizeBits half b
  have hstep : ∀ (l : Log) (e : Bool × ReaderEvent) (l' : Log), l.reader.Orderly usizeBits →
      l.reader.peerOnly usizeBits tooLarge e = true → step usizeBits l e = some l' →
        l'.reader.Orderly usizeBits ∧ l'.reader.work < l.reader.work :=
    fun _ _ _ ho hguard hs => orderly_of_step ho hguard hs
  constructor
  · have hle := h.length_le (I := fun l => l.reader.Orderly usizeBits) (m := fun l => l.reader.work)
      h₀ (fun l e l' ho hg hs => (hstep l e l' ho hg hs).1)
      fun l e l' ho hg hs => (hstep l e l' ho hg hs).2
    have hwork : (preStart half b).reader.work = 4 * b.length + 3 := Reader.work_preStart half b
    omega
  · have ho : l.reader.Orderly usizeBits :=
      h.invariant (P := fun l => l.reader.Orderly usizeBits) h₀
        fun l e l' ho hg hs => (hstep l e l' ho hg hs).1
    exact fun hdone => hdone.exit_ne_none ho hlarge

/-- The frame that a step casts is that of the header announced. -/
theorem cast_of_announced {s : Reader} {e : ReaderEvent} {out : Reader × Option Frame}
    {length : UInt64} (ho : s.Orderly usizeBits) (h : s.step usizeBits true e = some out)
    (hannounced : s.announced = some length) (hcast : out.2 ≠ none) :
    ∃ frame, out.2 = some frame ∧ s.CastCase usizeBits e frame length := by
  obtain ⟨frame, hframe⟩ := Option.ne_none_iff_exists'.mp hcast
  obtain ⟨length', hcase⟩ := Reader.cast_case ho h hframe
  obtain rfl : length = length' := Option.some.inj (hannounced.symm.trans hcase.announced)
  exact ⟨frame, hframe, hcase⟩

/-- Where the bytes bring the reader to no header that wraps, a frame is cast only for a length
that fits. -/
theorem fits_of_not_misread (hmis : ¬ Misread usizeBits tooLarge b)
    (hs : l.Sound usizeBits tooLarge b) {e : ReaderEvent} {out : Reader × Option Frame}
    (hguard : l.reader.peerOnly usizeBits tooLarge (true, e) = true)
    (h : l.reader.step usizeBits true e = some out) (hlive : l.reader.Live) {length : UInt64}
    (hannounced : l.reader.announced = some length) (hcast : out.2 ≠ none) :
    asUsize usizeBits length = length.toNat := by
  apply Nat.mod_eq_of_lt
  by_contra hwraps
  obtain ⟨frame, hframe, hcase⟩ := cast_of_announced hs.tracks.orderly h hannounced hcast
  obtain ⟨held, hholds, hcons⟩ := hs.tracks.decodes.live hlive
  have hroom := hcase.delivered held hholds
  obtain ⟨buf, rfl⟩ := hholds.of_announced hannounced
  have hsmall : tooLarge frame.length = false := by
    refine (hs.tracks.small_of_step hguard h frame ?_).2
    rw [(Reader.fields_of_step h).2, hframe]
    exact List.mem_append_right _ (List.mem_singleton_self frame)
  -- the frame that is cast shows that the buffer was allocated and filled
  refine hmis ⟨l.reader.casts, length, buf ++ l.reader.incoming, ?_, hs.tracks.small,
    Nat.le_of_not_lt hwraps, hcase.size ▸ hsmall, ?_⟩
  · rw [← hs.tracks.bytes, hcons]
    simp only [List.append_assoc]
  · rw [List.length_append, length_bigEndian] at hroom
    rw [List.length_append, ← hcase.size]
    omega

/-- Where the lengths are kept, a frame is cast only for a length that fits. -/
theorem fits_of_kept (hkept : LengthsKept usizeBits tooLarge half b)
    (hrun : PeerRun usizeBits tooLarge half b es l) (hs : l.Sound usizeBits tooLarge b)
    {e : ReaderEvent} {out : Reader × Option Frame}
    (hguard : l.reader.peerOnly usizeBits tooLarge (true, e) = true)
    (h : l.reader.step usizeBits true e = some out) {length : UInt64}
    (hannounced : l.reader.announced = some length) (hcast : out.2 ≠ none) :
    asUsize usizeBits length = length.toNat := by
  obtain ⟨frame, hframe, hcase⟩ := cast_of_announced hs.tracks.orderly h hannounced hcast
  obtain ⟨newest, older, hheaders, rfl, -⟩ := hs.current hcase.live length hannounced
  -- the run goes on with this step, and its record says how long the frame is
  have hstep : step usizeBits l (true, e) = some ⟨out.1, note l.reader out l.headers⟩ := by
    rw [step, h, Option.map_some]
  have hnext := (hkept _ _ (hrun.append (Run.cons hguard hstep (Run.nil _)))).1
  have hsize := hnext [] { newest with frame := some frame } older
    (by simp only [note, hframe, hheaders, List.nil_append])
  exact hcase.size.symm.trans hsize.1

/-- The lengths are kept unless the bytes bring the reader to a header that wraps. -/
theorem lengthsKept_of_not_misread (hlarge : ∀ n, 2 ^ (usizeBits - 1) ≤ n → tooLarge n = true)
    (hmis : ¬ Misread usizeBits tooLarge b) : LengthsKept usizeBits tooLarge half b := by
  intro es l h
  have hs : l.Sound usizeBits tooLarge b :=
    h.invariant (P := fun l => l.Sound usizeBits tooLarge b)
      (sound_preStart usizeBits tooLarge half b) fun l e l' hs hguard hstep => by
        obtain ⟨out, hguard', hout, rfl⟩ := of_step hguard hstep
        exact hs.step (fun hlive _ => fits_of_not_misread hmis hs hguard' hout hlive) hguard' hout
  exact ⟨hs.kept, h.ends hlarge⟩

/-- Where the lengths are kept, some run comes to an end with a sound record. -/
theorem exists_maximal_of_lengthsKept (hkept : LengthsKept usizeBits tooLarge half b) :
    ∃ es l, (PeerRun usizeBits tooLarge half b es l ∧ l.Sound usizeBits tooLarge b) ∧
      ∀ e, l.reader.peerOnly usizeBits tooLarge e = true → step usizeBits l e = none := by
  let I : Log → Prop := fun l =>
    (∃ es, PeerRun usizeBits tooLarge half b es l) ∧ l.Sound usizeBits tooLarge b
  have h₀ : I (preStart half b) :=
    ⟨⟨[], Run.nil _⟩, sound_preStart usizeBits tooLarge half b⟩
  have hstep : ∀ l e l', I l → l.reader.peerOnly usizeBits tooLarge e = true →
      step usizeBits l e = some l' → I l' := by
    rintro l e l' ⟨⟨es, hrun⟩, hs⟩ hguard hnext
    refine ⟨⟨es ++ [e], hrun.append (Run.cons hguard hnext (Run.nil l'))⟩, ?_⟩
    obtain ⟨out, hguard', hout, rfl⟩ := of_step hguard hnext
    exact hs.step (fun _ _ => fits_of_kept hkept hrun hs hguard' hout) hguard' hout
  obtain ⟨es, l, hrun, hstuck⟩ := exists_maximal (fun l => l.reader.work) h₀ hstep
    fun _ _ _ hi hguard hnext => (orderly_of_step hi.2.tracks.orderly hguard hnext).2
  exact ⟨es, l, ⟨hrun, (hrun.invariant h₀ hstep).2⟩, hstuck⟩

/-- The bytes at which a reader ends are not a header and its complete frame. -/
theorem not_ends {length : UInt64} {rest : List UInt8}
    (hsmall : tooLarge (asUsize usizeBits length) = false)
    (hroom : asUsize usizeBits length ≤ rest.length) :
    ¬ Reader.Ends usizeBits tooLarge (bigEndian 8 length.toNat ++ rest) := by
  rintro (hshort | ⟨length', rest', heq, hends⟩)
  · rw [List.length_append, length_bigEndian] at hshort
    omega
  · obtain ⟨hheader, rfl⟩ := List.append_inj heq (by rw [length_bigEndian, length_bigEndian])
    have hlength : length = length' := by
      have hvalue := congrArg bigEndianValue hheader
      rw [bigEndianValue_bigEndian length.toNat_lt,
        bigEndianValue_bigEndian length'.toNat_lt] at hvalue
      exact UInt64.toNat_inj.mp hvalue
    rw [← hlength, hsmall] at hends
    rcases hends with hlt | hfalse
    · omega
    · cases hfalse

/-- A header that wraps is brought to the reader only by bytes for which some run breaks the
lengths. -/
theorem not_misread_of_lengthsKept (hbits : usizeBits ≤ 64)
    (hlarge : ∀ n, 2 ^ (usizeBits - 1) ≤ n → tooLarge n = true)
    (hkept : LengthsKept usizeBits tooLarge half b) : ¬ Misread usizeBits tooLarge b := by
  rintro ⟨gs, length, rest, hb, hgs, hwraps, hsmall, hroom⟩
  -- a run that cannot go on
  obtain ⟨es, l, ⟨-, hs⟩, hstuck⟩ := exists_maximal_of_lengthsKept hkept
  have hdone : l.reader.Done usizeBits tooLarge := by
    intro e hguard
    have hnone := hstuck e hguard
    rw [step, Option.map_eq_none_iff] at hnone
    rw [Reader.stepAlone, hnone, Option.map_none]
  have hexit := hdone.exit_ne_none hs.tracks.orderly hlarge
  obtain ⟨r, hr, hends⟩ := hs.tracks.rest (hs.tracks.orderly.ended hexit)
  -- it has cast the frames before the header, and the header is next
  have hfits : ∀ g ∈ gs, Fits 8 g := by
    intro g hg
    have hlt := (hgs g hg).1
    have hpow : 2 ^ usizeBits ≤ 2 ^ 64 := Nat.pow_le_pow_right (by decide) hbits
    show g.length < 256 ^ 8
    omega
  have hle : l.reader.casts <+: gs := by
    refine hs.tracks.casts_initial hfits hb fun g hg hlt _ hpre => ?_
    obtain ⟨t, ht⟩ := hpre
    rw [encode, List.append_assoc] at ht
    have hheader := (List.append_inj ht (by rw [length_bigEndian, length_bigEndian])).1
    have hvalue := congrArg bigEndianValue hheader
    rw [bigEndianValue_bigEndian hg, bigEndianValue_bigEndian length.toNat_lt] at hvalue
    omega
  have hge : gs <+: l.reader.casts := by
    refine prefix_of_encodeAll_append (r := r) hfits hs.tracks.decodes.fits
      (fun g hg => hends.no_frame (hfits g hg) (hgs g hg).1 (hgs g hg).2) ?_
    rw [← hr, hb]
    exact List.prefix_append _ _
  obtain rfl := hle.eq_of_length (Nat.le_antisymm hle.length_le hge.length_le)
  rw [hb] at hr
  rw [← List.append_cancel_left hr] at hends
  exact not_ends hsmall hroom hends

end Run

/-- **Frames have the length their header announces** on 64 bits, and on 32 bits exactly if the
bytes have no header that wraps, behind complete frames and with a frame of the wrapped length. -/
theorem lengths_kept_iff (usizeBits : ℕ) (hbits : usizeBits = 32 ∨ usizeBits = 64)
    (tooLarge : ℕ → Bool) (hlarge : ∀ n, 2 ^ (usizeBits - 1) ≤ n → tooLarge n = true)
    (half : ActorReadHalf) (b : List UInt8) :
    (LengthsKept usizeBits tooLarge half b ↔ ¬ Misread usizeBits tooLarge b) ∧
      (usizeBits = 64 → LengthsKept usizeBits tooLarge half b) := by
  have hle : usizeBits ≤ 64 := by omega
  refine ⟨⟨not_misread_of_lengthsKept hle hlarge, lengthsKept_of_not_misread hlarge⟩, ?_⟩
  rintro rfl
  exact lengthsKept_of_not_misread hlarge (not_misread_64 tooLarge b)

/-- A header of `2 ^ 32 + 1` with two bytes behind it. -/
theorem lengths_kept_iff_wrapped :
    ¬ LengthsKept 32 (fun n => decide (2 ^ 31 ≤ n)) .regular [0, 0, 0, 1, 0, 0, 0, 1, 42, 43] ∧
      LengthsKept 64 (fun n => decide (2 ^ 63 ≤ n)) .regular [0, 0, 0, 1, 0, 0, 0, 1, 42, 43] := by
  constructor
  · intro hkept
    refine (lengths_kept_iff 32 (Or.inl rfl) _ (fun n hn => decide_eq_true hn) .regular _).1.mp
      hkept ⟨[], 2 ^ 32 + 1, [42, 43], ?_⟩
    decide
  · exact (lengths_kept_iff 64 (Or.inr rfl) _ (fun n hn => decide_eq_true hn) .regular _).2 rfl

/-- **A short frame.** On 32 bits the header `2 ^ 32 + 1` is taken for 1: the reader casts a frame
of one byte and reads on behind it. -/
theorem length_truncated :
    ¬ ∀ (usizeBits : ℕ) (tooLarge : ℕ → Bool) (half : ActorReadHalf) (b : List UInt8),
        usizeBits = 32 ∨ usizeBits = 64 →
        (∀ n, 2 ^ (usizeBits - 1) ≤ n → tooLarge n = true) →
          LengthsKept usizeBits tooLarge half b := by
  intro hall
  let es : List (Bool × ReaderEvent) :=
    [(true, .handle), (true, .read 8), (true, .handle), (true, .ready), (true, .read 1)]
  have hkept := hall 32 (fun n => decide (2 ^ 31 ≤ n)) .regular [0, 0, 0, 1, 0, 0, 0, 1, 42, 43]
    (Or.inl rfl) fun n hn => decide_eq_true hn
  obtain ⟨l, hl, hheaders⟩ : ∃ l, exec (checked (fun l e => l.reader.peerOnly 32
      (fun n => decide (2 ^ 31 ≤ n)) e) (step 32)) (preStart .regular
        [0, 0, 0, 1, 0, 0, 0, 1, 42, 43]) es = some l ∧
      l.headers = [⟨2 ^ 32 + 1, 8, some [42]⟩] := Option.map_eq_some_iff.mp (by decide)
  -- the frame of the header has one byte
  have hsize := (hkept es l (run_iff_exec_checked.mpr hl)).1 [] ⟨2 ^ 32 + 1, 8, some [42]⟩ []
    hheaders
  exact absurd hsize.1 (by decide)

end Log

end RactorActors.Net.Tcp
