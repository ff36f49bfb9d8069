import Mathlib.Algebra.Group.Nat.Defs
import Mathlib.Data.List.Basic
import Mathlib.Data.Prod.Lex

/-!
# Semantic versions

Versions with pre-release and build tags, how they are written and read, their order, and the
versions that a caret requirement admits. Text is a list of characters; a number has no leading
zeros and fits 64 bits.

* `Version`: its tags are dot-separated identifiers, checked when a version is built;
* `Version.compare`: the order of releases, and of tags one identifier at a time;
* `Version.matchesCaret`: compatible versions have the same leftmost component other than zero;
* `parse_toString`: a version that is written is read back;
* `parse_intercalate`: numbers with dots between them are a version if they are three;
* `Version.latest`: the highest version of a list;
* `Version.Incompatible`: what `matchesCaret` refuses among newer releases
  (`matchesCaret_eq_false_iff`). A version above an incompatible one is incompatible too
  (`Incompatible.mono`).
-/

namespace Semver

/-! ## Identifiers and numbers -/

/-- Digits only. -/
def isNumeric (cs : List Char) : Bool := cs.all Char.isDigit

/-- At most one digit, or no zero in front. -/
def noLeadingZero (cs : List Char) : Bool := cs.length ≤ 1 || cs.head? != some '0'

/-- An identifier of a build tag: letters, digits and hyphens. -/
def isIdentifier (cs : List Char) : Bool := !cs.isEmpty && cs.all fun c => c.isAlphanum || c == '-'

/-- An identifier of a pre-release tag. -/
def isPreIdentifier (cs : List Char) : Bool :=
  isIdentifier cs && (!isNumeric cs || noLeadingZero cs)

/-- A version. -/
structure Version where
  major : UInt64
  minor : UInt64
  patch : UInt64
  /-- The identifiers of the pre-release tag, none in a release. -/
  pre : List (List Char)
  /-- The identifiers of the build tag. -/
  build : List (List Char)
  pre_valid : pre.all isPreIdentifier = true
  build_valid : build.all isIdentifier = true
deriving DecidableEq

/-- A version without tags. -/
def Version.release (major minor patch : UInt64) : Version where
  major := major
  minor := minor
  patch := patch
  pre := []
  build := []
  pre_valid := rfl
  build_valid := rfl

/-! ## Writing -/

/-- A number in decimal digits. -/
def showNumber (n : UInt64) : List Char := Nat.toDigits 10 n.toNat

/-- A tag, behind the character that begins it. -/
def showTag (mark : Char) (ids : List (List Char)) : List Char :=
  match ids with
  | [] => []
  | _ => mark :: ['.'].intercalate ids

/-- The three numbers of a version. -/
def Version.core (v : Version) : List (List Char) :=
  [showNumber v.major, showNumber v.minor, showNumber v.patch]

/-- A version as text. -/
def Version.toString (v : Version) : String :=
  String.ofList (['.'].intercalate v.core ++ showTag '-' v.pre ++ showTag '+' v.build)

/-! ## Reading -/

/-- A number without leading zeros that fits 64 bits. -/
def parseNumber (cs : List Char) : Option UInt64 :=
  if !cs.isEmpty && isNumeric cs && noLeadingZero cs && Nat.ofDigitChars 10 cs 0 < 2 ^ 64 then
    some (UInt64.ofNat (Nat.ofDigitChars 10 cs 0))
  else none

/-- The text before the first `mark`, and the identifiers behind it. -/
def splitTag (mark : Char) (cs : List Char) : List Char × List (List Char) :=
  (cs.takeWhile (· != mark),
    match cs.dropWhile (· != mark) with
    | [] => []
    | _ :: tag => tag.splitOn '.')

/-- Read a version. -/
def parse (s : String) : Option Version :=
  let (text, build) := splitTag '+' s.toList
  let (core, pre) := splitTag '-' text
  match core.splitOn '.' with
  | [major, minor, patch] =>
    match parseNumber major, parseNumber minor, parseNumber patch with
    | some major, some minor, some patch =>
      if h : pre.all isPreIdentifier = true ∧ build.all isIdentifier = true then
        some { major, minor, patch, pre, build, pre_valid := h.1, build_valid := h.2 }
      else none
    | _, _, _ => none
  | _ => none

/-! ## Order and compatibility -/

/-- Numbers come before words. -/
def compareIdentifier (a b : List Char) : Ordering :=
  match isNumeric a, isNumeric b with
  | true, true =>
    (compare (Nat.ofDigitChars 10 a 0) (Nat.ofDigitChars 10 b 0)).then (compare a.length b.length)
  | true, false => .lt
  | false, true => .gt
  | false, false => List.compareLex compare a b

/-- A release comes after its pre-releases. -/
def comparePre (a b : List (List Char)) : Ordering :=
  match a, b with
  | [], [] => .eq
  | [], _ :: _ => .gt
  | _ :: _, [] => .lt
  | a, b => List.compareLex compareIdentifier a b

/-- The order of versions. -/
def Version.compare (v w : Version) : Ordering :=
  ((((Ord.compare v.major w.major).then (Ord.compare v.minor w.minor)).then
    (Ord.compare v.patch w.patch)).then (comparePre v.pre w.pre)).then
      (List.compareLex compareIdentifier v.build w.build)

/-- The version `v` is admitted by the requirement `^req`. -/
def Version.matchesCaret (req v : Version) : Bool :=
  let atLeast := comparePre req.pre v.pre != .gt
  let compatible :=
    if v.major ≠ req.major then false
    else if 0 < req.major then
      if v.minor ≠ req.minor then decide (req.minor < v.minor)
      else if v.patch ≠ req.patch then decide (req.patch < v.patch)
      else atLeast
    else if 0 < req.minor then
      if v.minor ≠ req.minor then false
      else if v.patch ≠ req.patch then decide (req.patch < v.patch)
      else atLeast
    else if v.minor ≠ req.minor ∨ v.patch ≠ req.patch then false
    else atLeast
  -- a pre-release is admitted only by one of the same numbers
  compatible && (v.pre.isEmpty || (v.major == req.major && v.minor == req.minor &&
    v.patch == req.patch && !req.pre.isEmpty))

instance : Std.ReflCmp compareIdentifier where
  compare_self := by
    intro a
    unfold compareIdentifier
    cases isNumeric a
    · exact Std.ReflCmp.compare_self
    · simp

/-- No version comes before itself. -/
theorem Version.compare_self (v : Version) : v.compare v = .eq := by
  have hpre : comparePre v.pre v.pre = .eq := by
    cases v.pre with
    | nil => rfl
    | cons id ids =>
      show List.compareLex compareIdentifier (id :: ids) (id :: ids) = .eq
      exact Std.ReflCmp.compare_self
  have hbuild : List.compareLex compareIdentifier v.build v.build = .eq :=
    Std.ReflCmp.compare_self
  simp [Version.compare, hpre, hbuild]

/-! ## What is written is read back -/

/-- The first digit of a number other than zero is not zero. -/
theorem head?_toDigits {n : ℕ} (hn : 0 < n) : (Nat.toDigits 10 n).head? ≠ some '0' := by
  induction n using Nat.strongRecOn with
  | ind n ih =>
    by_cases hlt : n < 10
    · -- a single digit
      rw [Nat.toDigits_of_lt_base hlt, List.head?_cons]
      simp only [ne_eq, Option.some.injEq, Nat.digitChar_eq_zero]
      omega
    · -- the digits in front are those of a tenth
      have hten := ih (n / 10) (by omega) (by omega)
      rw [Nat.toDigits_of_base_le (by decide) (by omega),
        List.head?_append_of_ne_nil _ Nat.toDigits_ne_nil]
      exact hten

/-- The text of a number is a number. -/
theorem parseNumber_showNumber (n : UInt64) : parseNumber (showNumber n) = some n := by
  have hdigits : isNumeric (showNumber n) = true :=
    List.all_eq_true.mpr fun c hc => Nat.isDigit_of_mem_toDigits (by decide) (by decide) hc
  have hzero : noLeadingZero (showNumber n) = true := by
    rw [noLeadingZero, Bool.or_eq_true]
    rcases Nat.eq_zero_or_pos n.toNat with hn | hn
    · left
      rw [showNumber, hn, Nat.toDigits_zero]
      rfl
    · right
      exact bne_iff_ne.mpr (head?_toDigits hn)
  have hvalue : Nat.ofDigitChars 10 (showNumber n) 0 = n.toNat := Nat.ofDigitChars_ten_toDigits
  have hnonempty : (showNumber n).isEmpty = false := by simp [showNumber]
  -- nothing that was written is too large to be read
  have hlt : decide (n.toNat < 2 ^ 64) = true := decide_eq_true n.toNat_lt
  rw [parseNumber, hnonempty, hdigits, hzero, hvalue, hlt, UInt64.ofNat_toNat]
  rfl

/-- A text without the mark has no tag. -/
theorem splitTag_append {mark : Char} {cs : List Char} {ids : List (List Char)}
    (hcs : mark ∉ cs) (hids : ∀ id ∈ ids, '.' ∉ id) :
    splitTag mark (cs ++ showTag mark ids) = (cs, ids) := by
  have hpos : ∀ c ∈ cs, (c != mark) = true := by
    intro c hc
    exact bne_iff_ne.mpr (fun heq => hcs (heq ▸ hc))
  rw [splitTag, List.takeWhile_append_of_pos hpos, List.dropWhile_append_of_pos hpos]
  cases ids with
  | nil => simp [showTag]
  | cons id ids =>
    -- no identifier has a dot of its own
    have hsplit : (['.'].intercalate (id :: ids)).splitOn '.' = id :: ids :=
      List.splitOn_intercalate '.' hids (List.cons_ne_nil _ _)
    simp [showTag, hsplit]

/-- The characters of an identifier. -/
theorem of_mem_identifier {cs : List Char} (h : isIdentifier cs = true) {c : Char} (hc : c ∈ cs) :
    c ≠ '.' ∧ c ≠ '+' := by
  rw [isIdentifier, Bool.and_eq_true] at h
  have hchar := List.all_eq_true.mp h.2 c hc
  constructor
  · rintro rfl
    exact absurd hchar (by decide)
  · rintro rfl
    exact absurd hchar (by decide)

/-- The characters of a number. -/
theorem of_mem_showNumber {n : UInt64} {c : Char} (hc : c ∈ showNumber n) :
    c ≠ '.' ∧ c ≠ '-' ∧ c ≠ '+' := by
  have hdigit : c.isDigit = true := Nat.isDigit_of_mem_toDigits (by decide) (by decide) hc
  refine ⟨?_, ?_, ?_⟩
  all_goals
    rintro rfl
    exact absurd hdigit (by decide)

/-- A character of identifiers with dots between them is a dot or belongs to one of them. -/
theorem of_mem_intercalate {ids : List (List Char)} {c : Char} (h : c ∈ ['.'].intercalate ids) :
    c = '.' ∨ ∃ id ∈ ids, c ∈ id := by
  induction ids with
  | nil => simp at h
  | cons id ids ih =>
    cases ids with
    | nil => exact Or.inr ⟨id, List.mem_cons_self, by simpa using h⟩
    | cons id' ids =>
      rw [List.intercalate_cons_cons, List.mem_append, List.mem_append, List.mem_singleton] at h
      rcases h with (hid | rfl) | hrest
      · exact Or.inr ⟨id, List.mem_cons_self, hid⟩
      · exact Or.inl rfl
      · rcases ih hrest with rfl | ⟨other, hother, hc⟩
        · exact Or.inl rfl
        · exact Or.inr ⟨other, List.mem_cons_of_mem _ hother, hc⟩

/-- No character of the three numbers begins a tag. -/
theorem not_mem_core (v : Version) :
    '-' ∉ ['.'].intercalate v.core ∧ '+' ∉ ['.'].intercalate v.core := by
  have hcore {c : Char} (hc : c ∈ ['.'].intercalate v.core) : c ≠ '-' ∧ c ≠ '+' := by
    rcases of_mem_intercalate hc with rfl | ⟨digits, hdigits, hc'⟩
    · decide
    · simp only [Version.core, List.mem_cons, List.not_mem_nil, or_false] at hdigits
      rcases hdigits with rfl | rfl | rfl <;> exact (of_mem_showNumber hc').2
  exact ⟨fun h => (hcore h).1 rfl, fun h => (hcore h).2 rfl⟩

/-- No character of a pre-release tag begins a build tag. -/
theorem not_mem_showTag {ids : List (List Char)} (h : ids.all isPreIdentifier = true) :
    '+' ∉ showTag '-' ids := by
  intro hmem
  have hplus : '+' ∈ '-' :: ['.'].intercalate ids := by
    cases ids with
    | nil => simp [showTag] at hmem
    | cons => exact hmem
  rcases List.mem_cons.mp hplus with hmark | hin
  · exact absurd hmark (by decide)
  · rcases of_mem_intercalate hin with hdot | ⟨id, hid, hc⟩
    · exact absurd hdot (by decide)
    · have hpre := List.all_eq_true.mp h id hid
      rw [isPreIdentifier, Bool.and_eq_true] at hpre
      exact (of_mem_identifier hpre.1 hc).2 rfl

/-- **Round trip.** A version that is written is read back. -/
theorem parse_toString (v : Version) : parse v.toString = some v := by
  obtain ⟨hminus, hplus⟩ := not_mem_core v
  have hpre : ∀ id ∈ v.pre, '.' ∉ id := by
    intro id hid hdot
    have hvalid := List.all_eq_true.mp v.pre_valid id hid
    rw [isPreIdentifier, Bool.and_eq_true] at hvalid
    exact (of_mem_identifier hvalid.1 hdot).1 rfl
  have hbuild : ∀ id ∈ v.build, '.' ∉ id := fun id hid hdot =>
    (of_mem_identifier (List.all_eq_true.mp v.build_valid id hid) hdot).1 rfl
  -- the tags are split off from the end
  have hfirst : splitTag '+' v.toString.toList =
      (['.'].intercalate v.core ++ showTag '-' v.pre, v.build) := by
    rw [Version.toString, String.toList_ofList]
    refine splitTag_append (fun h => ?_) hbuild
    rcases List.mem_append.mp h with hcore | htag
    · exact hplus hcore
    · exact not_mem_showTag v.pre_valid htag
  have hsecond : splitTag '-' (['.'].intercalate v.core ++ showTag '-' v.pre) =
      (['.'].intercalate v.core, v.pre) := splitTag_append hminus hpre
  -- and the three numbers are what is in front of both
  have hcore : (['.'].intercalate v.core).splitOn '.' =
      [showNumber v.major, showNumber v.minor, showNumber v.patch] := by
    refine List.splitOn_intercalate '.' (fun digits hdigits hdot => ?_) (List.cons_ne_nil _ _)
    simp only [Version.core, List.mem_cons, List.not_mem_nil, or_false] at hdigits
    rcases hdigits with rfl | rfl | rfl <;> exact (of_mem_showNumber hdot).1 rfl
  simp only [parse, hfirst, hsecond, hcore, parseNumber_showNumber]
  rw [dif_pos ⟨v.pre_valid, v.build_valid⟩]

/-- Different versions are written differently. -/
theorem toString_injective {v w : Version} (h : v.toString = w.toString) : v = w := by
  have hv := parse_toString v
  rw [h, parse_toString] at hv
  exact (Option.some.inj hv).symm

/-- A version begins with a digit. -/
theorem toList_toString (v : Version) :
    ∃ c cs, v.toString.toList = c :: cs ∧ c.isDigit = true := by
  obtain ⟨c, cs, hdigits⟩ : ∃ c cs, showNumber v.major = c :: cs :=
    List.exists_cons_of_ne_nil Nat.toDigits_ne_nil
  have hc : c ∈ Nat.toDigits 10 v.major.toNat := by
    rw [show Nat.toDigits 10 v.major.toNat = c :: cs from hdigits]
    exact List.mem_cons_self
  rw [Version.toString, String.toList_ofList, Version.core, List.intercalate_cons_cons, hdigits]
  exact ⟨c, _, rfl, Nat.isDigit_of_mem_toDigits (by decide) (by decide) hc⟩

/-! ## Numbers with dots between them -/

/-- The text `cs` is the number `n` in decimal digits, without leading zeros. -/
structure IsNumber (cs : List Char) (n : UInt64) : Prop where
  nonempty : cs ≠ []
  digits : ∀ c ∈ cs, c.isDigit = true
  noLeadingZero : cs.length = 1 ∨ cs.head? ≠ some '0'
  value : Nat.ofDigitChars 10 cs 0 = n.toNat

/-- Such a text is read as the number. -/
theorem IsNumber.parseNumber {cs : List Char} {n : UInt64} (h : IsNumber cs n) :
    parseNumber cs = some n := by
  have hnonempty : cs.isEmpty = false := by simpa using h.nonempty
  have hnumeric : isNumeric cs = true := List.all_eq_true.mpr h.digits
  have hzero : Semver.noLeadingZero cs = true := by
    rw [Semver.noLeadingZero, Bool.or_eq_true]
    rcases h.noLeadingZero with hone | hhead
    · exact Or.inl (decide_eq_true (Nat.le_of_eq hone))
    · exact Or.inr (bne_iff_ne.mpr hhead)
  have hlt : decide (n.toNat < 2 ^ 64) = true := decide_eq_true n.toNat_lt
  rw [Semver.parseNumber, hnonempty, hnumeric, hzero, h.value, hlt, UInt64.ofNat_toNat]
  rfl

/-- Three numbers as a release. -/
def releaseOf : List (List Char) → Option Version
  | [major, minor, patch] =>
    match parseNumber major, parseNumber minor, parseNumber patch with
    | some major, some minor, some patch => some (.release major minor patch)
    | _, _, _ => none
  | _ => none

/-- Numbers with dots between them are a release if they are three, and no version otherwise. -/
theorem parse_intercalate {ds : List (List Char)} (hne : ds ≠ [])
    (hds : ∀ d ∈ ds, ∀ c ∈ d, c.isDigit = true) :
    parse (String.ofList (['.'].intercalate ds)) = releaseOf ds := by
  have hchar {c : Char} (hc : c ∈ ['.'].intercalate ds) : c ≠ '-' ∧ c ≠ '+' := by
    rcases of_mem_intercalate hc with rfl | ⟨d, hd, hcd⟩
    · decide
    · have hdigit := hds d hd c hcd
      constructor
      · rintro rfl
        exact absurd hdigit (by decide)
      · rintro rfl
        exact absurd hdigit (by decide)
  -- there is no tag to split off
  have htag {mark : Char} (hmark : mark ∉ ['.'].intercalate ds) :
      splitTag mark (['.'].intercalate ds) = (['.'].intercalate ds, []) := by
    have happend : splitTag mark (['.'].intercalate ds ++ showTag mark []) =
        (['.'].intercalate ds, []) :=
      splitTag_append hmark fun id hid => absurd hid List.not_mem_nil
    rwa [showTag, List.append_nil] at happend
  have hsplit : (['.'].intercalate ds).splitOn '.' = ds := by
    refine List.splitOn_intercalate '.' (fun d hd hdot => ?_) hne
    exact absurd (hds d hd '.' hdot) (by decide)
  rw [parse, String.toList_ofList, htag fun h => (hchar h).2 rfl]
  simp only [htag fun h => (hchar h).1 rfl, hsplit]
  unfold releaseOf
  split <;> rfl

/-! ## The order of the numbers -/

/-- The numbers of a version, the first one counting most. -/
def Version.numbers (v : Version) : ℕ ×ₗ ℕ ×ₗ ℕ :=
  toLex (v.major.toNat, toLex (v.minor.toNat, v.patch.toNat))

/-- Higher numbers make a higher version, whatever the tags. -/
theorem compare_eq_lt_of_numbers_lt {v w : Version} (h : v.numbers < w.numbers) :
    v.compare w = .lt := by
  simp only [Version.numbers, Prod.Lex.toLex_lt_toLex] at h
  simp only [Version.compare, Ordering.then_eq_lt, Ordering.then_eq_eq, Std.compare_eq_lt,
    Std.LawfulEqOrd.compare_eq_iff_eq, UInt64.lt_iff_toNat_lt, ← UInt64.toNat_inj]
  omega

/-- A version that is not above another one has no higher numbers. -/
theorem numbers_le_of_compare {v w : Version} (h : v.compare w ≠ .gt) :
    v.numbers ≤ w.numbers := by
  by_contra hlt
  apply h
  rw [not_le] at hlt
  simp only [Version.numbers, Prod.Lex.toLex_lt_toLex] at hlt
  simp only [Version.compare, Ordering.then_eq_gt, Ordering.then_eq_eq, Std.compare_eq_gt,
    Std.LawfulEqOrd.compare_eq_iff_eq, UInt64.lt_iff_toNat_lt, ← UInt64.toNat_inj]
  omega

/-! ## The highest version -/

/-- The higher of two versions, the second one if they are equal. -/
def Version.max (v w : Version) : Version := if v.compare w = .gt then v else w

/-- The highest version of a list, the last one among equals. -/
def Version.latest : List Version → Option Version
  | [] => none
  | v :: vs => some (vs.foldl Version.max v)

theorem le_max_left (v w : Version) : v.numbers ≤ (v.max w).numbers := by
  unfold Version.max
  split
  · exact le_refl _
  · rename_i h
    exact numbers_le_of_compare h

theorem le_max_right (v w : Version) : w.numbers ≤ (v.max w).numbers := by
  unfold Version.max
  split
  · -- if the second one were higher, the comparison would have said so
    rename_i h
    by_contra hlt
    rw [not_le] at hlt
    rw [compare_eq_lt_of_numbers_lt hlt] at h
    cases h
  · exact le_refl _

/-- The running maximum is one of the versions. -/
theorem foldl_max_mem (v : Version) (vs : List Version) : vs.foldl Version.max v ∈ v :: vs := by
  induction vs generalizing v with
  | nil => exact List.mem_singleton_self v
  | cons w vs ih =>
    have hmem := ih (v.max w)
    rw [List.foldl_cons]
    rcases List.mem_cons.mp hmem with heq | hrest
    · rw [heq, Version.max]
      split
      · exact List.mem_cons_self
      · exact List.mem_cons_of_mem _ List.mem_cons_self
    · exact List.mem_cons_of_mem _ (List.mem_cons_of_mem _ hrest)

/-- The running maximum bounds all versions. -/
theorem le_foldl_max {u v : Version} {vs : List Version} (h : u ∈ v :: vs) :
    u.numbers ≤ (vs.foldl Version.max v).numbers := by
  induction vs generalizing u v with
  | nil =>
    rw [List.mem_singleton.mp h]
    exact le_refl _
  | cons w vs ih =>
    have hmax : (v.max w).numbers ≤ (vs.foldl Version.max (v.max w)).numbers :=
      ih List.mem_cons_self
    rw [List.foldl_cons]
    rcases List.mem_cons.mp h with rfl | h
    · exact (le_max_left u w).trans hmax
    · rcases List.mem_cons.mp h with rfl | hrest
      · exact (le_max_right v u).trans hmax
      · exact ih (List.mem_cons_of_mem _ hrest)

/-- The highest version of a list is in it. -/
theorem latest_mem {v : Version} {vs : List Version} (h : Version.latest vs = some v) :
    v ∈ vs := by
  cases vs with
  | nil => cases h
  | cons w vs =>
    rw [← Option.some.inj h]
    exact foldl_max_mem w vs

/-- A list with a version in it has a highest one, with no lower numbers. -/
theorem exists_latest {v : Version} {vs : List Version} (h : v ∈ vs) :
    ∃ w, Version.latest vs = some w ∧ v.numbers ≤ w.numbers := by
  cases vs with
  | nil => cases h
  | cons w vs => exact ⟨_, rfl, le_foldl_max h⟩

/-! ## Compatibility -/

/-- The version `w` differs from `v` in the leftmost component of `v` that is not zero or in one
to the left of it; in any component, if all of them but the last are zero. -/
def Version.Incompatible (v w : Version) : Prop :=
  w.major ≠ v.major ∨
    v.major = 0 ∧ (w.minor ≠ v.minor ∨ v.minor = 0 ∧ w.patch ≠ v.patch)

/-- An incompatible version that is higher has higher numbers. -/
theorem numbers_lt_of_incompatible {v w : Version} (hlt : v.compare w = .lt)
    (h : v.Incompatible w) : v.numbers < w.numbers := by
  have hle := numbers_le_of_compare (hlt.trans_ne Ordering.noConfusion)
  refine lt_of_le_of_ne hle fun heq => ?_
  simp only [Version.numbers, EmbeddingLike.apply_eq_iff_eq, Prod.mk.injEq, UInt64.toNat_inj]
    at heq
  rcases h with hmajor | ⟨-, hminor | ⟨-, hpatch⟩⟩
  · exact hmajor heq.1.symm
  · exact hminor heq.2.1.symm
  · exact hpatch heq.2.2.symm

/-- **Upward closure.** What is above a higher incompatible version is incompatible. -/
theorem Version.Incompatible.mono {u v w : Version} (h : u.Incompatible v)
    (hlt : u.numbers < v.numbers) (hle : v.numbers ≤ w.numbers) : u.Incompatible w := by
  simp only [Version.Incompatible, ne_eq, ← UInt64.toNat_inj, UInt64.toNat_zero] at h ⊢
  simp only [Version.numbers, Prod.Lex.toLex_lt_toLex, Prod.Lex.toLex_le_toLex] at hlt hle
  omega

/-- No pre-release tag comes after a release. -/
theorem comparePre_nil (a : List (List Char)) : (comparePre a [] != .gt) = true := by
  cases a <;> rfl

/-- **What a caret requirement refuses.** Of the releases that are higher than its version, those
that are incompatible with it. -/
theorem matchesCaret_eq_false_iff {v w : Version} (hlt : v.compare w = .lt) (hpre : w.pre = []) :
    v.matchesCaret w = false ↔ v.Incompatible w := by
  have hle := numbers_le_of_compare (hlt.trans_ne Ordering.noConfusion)
  simp only [Version.numbers, Prod.Lex.toLex_le_toLex] at hle
  simp only [Version.matchesCaret, Version.Incompatible, hpre, comparePre_nil, List.isEmpty_nil,
    Bool.true_or, Bool.and_true]
  simp only [ne_eq, UInt64.lt_iff_toNat_lt, ← UInt64.toNat_inj, UInt64.toNat_zero]
  -- the components that are compared are those to the right of the leftmost one
  split_ifs
  all_goals simp only [decide_eq_false_iff_not, false_iff, true_iff]
  all_goals omega

end Semver
