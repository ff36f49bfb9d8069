import Mathlib.Algebra.Group.Nat.Defs
import Mathlib.Data.List.Induction
import Mathlib.Tactic.Common

/-!
# Length-prefixed frames

A frame of bytes on a stream: a header of `k` bytes, the length of the payload as a big-endian
number, followed by the payload.

* `bigEndian` and `bigEndianValue`: big-endian numbers of a fixed width, inverse to each other;
* `encode` and `encodeAll`: one frame, and frames one after the other;
* `encode_append_inj`: the code is prefix-free on payloads whose length fits the header;
* `prefix_of_encodeAll_append`: a stream that is a prefix of another one carries a prefix of its
  frames;
* `Incomplete` and `encodeAll_append_unique`: a stream splits in one way into frames and a rest
  that does not begin with a frame.
-/

namespace LengthPrefix

/-! ## Big-endian numbers -/

/-- The last `k` base-256 digits of `n`, most significant first. -/
def bigEndian : ℕ → ℕ → List UInt8
  | 0, _ => []
  | k + 1, n => bigEndian k (n / 256) ++ [UInt8.ofNat (n % 256)]

/-- The number with the given base-256 digits, most significant first. -/
def bigEndianValue (bytes : List UInt8) : ℕ :=
  bytes.foldl (fun value byte => value * 256 + byte.toNat) 0

@[simp]
theorem length_bigEndian (k n : ℕ) : (bigEndian k n).length = k := by
  induction k generalizing n with
  | zero => rfl
  | succ k ih => rw [bigEndian, List.length_append, ih, List.length_singleton]

@[simp]
theorem bigEndianValue_nil : bigEndianValue [] = 0 := rfl

@[simp]
theorem bigEndianValue_snoc (bytes : List UInt8) (byte : UInt8) :
    bigEndianValue (bytes ++ [byte]) = bigEndianValue bytes * 256 + byte.toNat := by
  rw [bigEndianValue, List.foldl_append, List.foldl_cons, List.foldl_nil, bigEndianValue]

/-- Digits of a number that fits their width give the number back. -/
theorem bigEndianValue_bigEndian {k n : ℕ} (h : n < 256 ^ k) :
    bigEndianValue (bigEndian k n) = n := by
  induction k generalizing n with
  | zero =>
    rw [Nat.pow_zero, Nat.lt_one_iff] at h
    rw [h, bigEndian, bigEndianValue_nil]
  | succ k ih =>
    have hdiv : n / 256 < 256 ^ k := by
      rw [Nat.pow_succ, Nat.mul_comm] at h
      exact Nat.div_lt_of_lt_mul h
    have hmod : (UInt8.ofNat (n % 256)).toNat = n % 256 :=
      UInt8.toNat_ofNat_of_lt' (Nat.mod_lt n (by decide))
    rw [bigEndian, bigEndianValue_snoc, ih hdiv, hmod]
    omega

/-- The digits of the number that some bytes stand for are these bytes. -/
theorem bigEndian_bigEndianValue (bytes : List UInt8) :
    bigEndian bytes.length (bigEndianValue bytes) = bytes := by
  induction bytes using List.reverseRecOn with
  | nil => rfl
  | append_singleton bytes byte ih =>
    have hlt : byte.toNat < 256 := byte.toNat_lt
    have hdiv : (bigEndianValue bytes * 256 + byte.toNat) / 256 = bigEndianValue bytes := by omega
    have hmod : (bigEndianValue bytes * 256 + byte.toNat) % 256 = byte.toNat := by omega
    rw [List.length_append, List.length_singleton, bigEndianValue_snoc, bigEndian, hdiv, hmod, ih,
      UInt8.ofNat_toNat]

/-- A number of `k` digits is less than `256 ^ k`. -/
theorem bigEndianValue_lt (bytes : List UInt8) : bigEndianValue bytes < 256 ^ bytes.length := by
  induction bytes using List.reverseRecOn with
  | nil => simp
  | append_singleton bytes byte ih =>
    have hlt : byte.toNat < 256 := byte.toNat_lt
    rw [List.length_append, List.length_singleton, bigEndianValue_snoc, Nat.pow_succ]
    omega

/-! ## Frames -/

variable {k : ℕ}

/-- A frame with a header of `k` bytes. -/
def encode (k : ℕ) (payload : List UInt8) : List UInt8 := bigEndian k payload.length ++ payload

/-- Frames one after the other. -/
def encodeAll (k : ℕ) (frames : List (List UInt8)) : List UInt8 := frames.flatMap (encode k)

/-- The length of the payload fits the header. -/
def Fits (k : ℕ) (payload : List UInt8) : Prop := payload.length < 256 ^ k

@[simp]
theorem length_encode (payload : List UInt8) :
    (encode k payload).length = k + payload.length := by
  rw [encode, List.length_append, length_bigEndian]

@[simp]
theorem encodeAll_nil : encodeAll k [] = [] := rfl

@[simp]
theorem encodeAll_cons (payload : List UInt8) (frames : List (List UInt8)) :
    encodeAll k (payload :: frames) = encode k payload ++ encodeAll k frames :=
  List.flatMap_cons

@[simp]
theorem encodeAll_append (frames frames' : List (List UInt8)) :
    encodeAll k (frames ++ frames') = encodeAll k frames ++ encodeAll k frames' :=
  List.flatMap_append

theorem encodeAll_singleton (payload : List UInt8) :
    encodeAll k [payload] = encode k payload := by
  rw [encodeAll_cons, encodeAll_nil, List.append_nil]

/-- No frame is without a byte. -/
theorem length_le_length_encodeAll (hk : 0 < k) (frames : List (List UInt8)) :
    frames.length ≤ (encodeAll k frames).length := by
  induction frames with
  | nil => exact Nat.le_refl 0
  | cons payload frames ih =>
    rw [encodeAll_cons, List.length_append, length_encode, List.length_cons]
    omega

/-- More frames make a longer stream. -/
theorem encodeAll_le {frames frames' : List (List UInt8)} (h : frames <+: frames') :
    encodeAll k frames <+: encodeAll k frames' := by
  obtain ⟨rest, rfl⟩ := h
  rw [encodeAll_append]
  exact List.prefix_append _ _

/-- **Prefix-freeness.** Two frames that begin one stream are the same frame. -/
theorem encode_append_inj {f g r r' : List UInt8} (hf : Fits k f) (hg : Fits k g)
    (h : encode k f ++ r = encode k g ++ r') : f = g ∧ r = r' := by
  rw [encode, encode, List.append_assoc, List.append_assoc] at h
  obtain ⟨hheader, hrest⟩ := List.append_inj h (by rw [length_bigEndian, length_bigEndian])
  have hlength : f.length = g.length := by
    have hvalue := congrArg bigEndianValue hheader
    rwa [bigEndianValue_bigEndian hf, bigEndianValue_bigEndian hg] at hvalue
  exact List.append_inj hrest hlength

/-- The stream of at least one frame is not empty. -/
theorem encode_append_ne_nil (hk : 0 < k) (f r : List UInt8) : encode k f ++ r ≠ [] := by
  intro h
  have hlength := congrArg List.length h
  rw [List.length_append, length_encode, List.length_nil] at hlength
  omega

/-- **Prefixes of streams.** The frames that begin a stream of frames and a rest are the first of
these frames, if none of them begins the rest. -/
theorem prefix_of_encodeAll_append {fs gs : List (List UInt8)} {r : List UInt8}
    (hfs : ∀ f ∈ fs, Fits k f) (hgs : ∀ g ∈ gs, Fits k g) (hr : ∀ f ∈ fs, ¬ encode k f <+: r)
    (h : encodeAll k fs <+: encodeAll k gs ++ r) : fs <+: gs := by
  induction fs generalizing gs with
  | nil => exact List.nil_prefix
  | cons f fs ih =>
    obtain ⟨t, ht⟩ := h
    rw [encodeAll_cons, List.append_assoc] at ht
    cases gs with
    | nil =>
      rw [encodeAll_nil, List.nil_append] at ht
      exact absurd ⟨_, ht⟩ (hr f (by simp))
    | cons g gs =>
      -- both streams begin with one frame, the same one
      rw [encodeAll_cons, List.append_assoc] at ht
      obtain ⟨rfl, hrest⟩ := encode_append_inj (hfs f (by simp)) (hgs g (by simp)) ht
      have htail : fs <+: gs :=
        ih (fun f' hf' => hfs f' (List.mem_cons_of_mem _ hf'))
          (fun g' hg' => hgs g' (List.mem_cons_of_mem _ hg'))
          (fun f' hf' => hr f' (List.mem_cons_of_mem _ hf')) ⟨t, hrest⟩
      exact List.cons_prefix_cons.mpr ⟨rfl, htail⟩

/-- If one stream of frames begins another one, its frames begin the frames of the other. -/
theorem prefix_of_encodeAll (hk : 0 < k) {fs gs : List (List UInt8)}
    (hfs : ∀ f ∈ fs, Fits k f) (hgs : ∀ g ∈ gs, Fits k g)
    (h : encodeAll k fs <+: encodeAll k gs) : fs <+: gs := by
  refine prefix_of_encodeAll_append (r := []) hfs hgs (fun f _ hf => ?_) (by simpa using h)
  -- no frame is empty
  have hlength := hf.length_le
  rw [length_encode, List.length_nil] at hlength
  omega

/-- A stream of frames determines them. -/
theorem encodeAll_injective (hk : 0 < k) {fs gs : List (List UInt8)}
    (hfs : ∀ f ∈ fs, Fits k f) (hgs : ∀ g ∈ gs, Fits k g)
    (h : encodeAll k fs = encodeAll k gs) : fs = gs := by
  have hle := prefix_of_encodeAll hk hfs hgs (h ▸ List.prefix_rfl)
  have hge := prefix_of_encodeAll hk hgs hfs (h ▸ List.prefix_rfl)
  exact hle.eq_of_length (Nat.le_antisymm hle.length_le hge.length_le)

/-- The header that follows complete frames in a stream of frames announces one of them. -/
theorem exists_length_of_header {fs gs : List (List UInt8)} {header rest : List UInt8}
    (hk : 0 < k) (hfs : ∀ f ∈ fs, Fits k f) (hgs : ∀ g ∈ gs, Fits k g)
    (hheader : header.length = k)
    (h : encodeAll k fs ++ (header ++ rest) = encodeAll k gs) :
    ∃ g ∈ gs, bigEndianValue header = g.length := by
  induction fs generalizing gs with
  | nil =>
    rw [encodeAll_nil, List.nil_append] at h
    cases gs with
    | nil =>
      have hlength := congrArg List.length h
      rw [List.length_append, encodeAll_nil, List.length_nil] at hlength
      omega
    | cons g gs =>
      -- the header is that of the next frame
      rw [encodeAll_cons, encode, List.append_assoc] at h
      obtain ⟨rfl, -⟩ := List.append_inj h (by rw [length_bigEndian, hheader])
      exact ⟨g, by simp, bigEndianValue_bigEndian (hgs g (by simp))⟩
  | cons f fs ih =>
    rw [encodeAll_cons, List.append_assoc] at h
    cases gs with
    | nil => exact absurd h (encode_append_ne_nil hk f _)
    | cons g gs =>
      rw [encodeAll_cons] at h
      obtain ⟨-, hrest⟩ := encode_append_inj (hfs f (by simp)) (hgs g (by simp)) h
      obtain ⟨g', hg', hvalue⟩ := ih (fun f' hf' => hfs f' (List.mem_cons_of_mem _ hf'))
        (fun g' hg' => hgs g' (List.mem_cons_of_mem _ hg')) hrest
      exact ⟨g', List.mem_cons_of_mem _ hg', hvalue⟩

/-! ## What is left of a stream -/

/-- The bytes do not begin with a complete frame. -/
def Incomplete (k : ℕ) (rest : List UInt8) : Prop :=
  ∀ g, Fits k g → ¬ encode k g <+: rest

/-- Fewer bytes than a header. -/
theorem incomplete_of_length_lt {rest : List UInt8} (h : rest.length < k) :
    Incomplete k rest := by
  intro g _ hpre
  have hlength := hpre.length_le
  rw [length_encode] at hlength
  omega

/-- A header with fewer bytes behind it than it announces. -/
theorem incomplete_of_length_lt_value {header rest : List UInt8} (hheader : header.length = k)
    (h : rest.length < bigEndianValue header) : Incomplete k (header ++ rest) := by
  rintro g hg ⟨r, hr⟩
  rw [encode, List.append_assoc] at hr
  -- the header of the frame would be the one that is there
  obtain ⟨hsame, hrest⟩ := List.append_inj hr (by rw [length_bigEndian, hheader])
  rw [← hsame, bigEndianValue_bigEndian hg, ← hrest, List.length_append] at h
  omega

/-- **Splitting a stream.** A stream splits in one way into frames and a rest that does not begin
with a complete frame. -/
theorem encodeAll_append_unique {fs gs : List (List UInt8)} {r r' : List UInt8}
    (hfs : ∀ f ∈ fs, Fits k f) (hgs : ∀ g ∈ gs, Fits k g) (hr : Incomplete k r)
    (hr' : Incomplete k r') (h : encodeAll k fs ++ r = encodeAll k gs ++ r') :
    fs = gs ∧ r = r' := by
  have hle : fs <+: gs :=
    prefix_of_encodeAll_append hfs hgs (fun f hf => hr' f (hfs f hf)) (h ▸ List.prefix_append _ _)
  have hge : gs <+: fs :=
    prefix_of_encodeAll_append hgs hfs (fun g hg => hr g (hgs g hg)) (h ▸ List.prefix_append _ _)
  obtain rfl := hle.eq_of_length (Nat.le_antisymm hle.length_le hge.length_le)
  exact ⟨rfl, List.append_cancel_left h⟩

end LengthPrefix
