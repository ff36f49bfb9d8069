import Mathlib.Data.List.AList

/-!
# Association lists without duplicate keys

What Mathlib's `AList` holds under a key, seen from its list of entries: an entry with a key is
the only one with that key, so filtering by a key finds the value that is looked up, and removing a
key filters it out. What is found once a key was removed or inserted was there before, or is what
was inserted.
-/

namespace AssociationList

variable {κ ν : Type*} [DecidableEq κ]

omit [DecidableEq κ] in
/-- No later entry has the key of the first one. -/
theorem fst_ne_of_nodupKeys_cons {entry other : (_ : κ) × ν} {l : List ((_ : κ) × ν)}
    (h : (entry :: l).NodupKeys) (hother : other ∈ l) : other.1 ≠ entry.1 := by
  intro hsame
  have hin := List.mem_keys_of_mem hother
  rw [hsame] at hin
  exact (List.nodupKeys_cons.mp h).1 hin

/-- The values of the entries with a key are what is looked up. -/
theorem map_snd_filter_fst {l : List ((_ : κ) × ν)} (h : l.NodupKeys) (k : κ) :
    (l.filter (·.1 = k)).map (·.2) = (l.dlookup k).toList := by
  induction l with
  | nil => rfl
  | cons entry l ih =>
    obtain ⟨k', v⟩ := entry
    by_cases hk : k' = k
    · subst hk
      have hnone : l.filter (·.1 = k') = [] := by
        rw [List.filter_eq_nil_iff]
        intro other hother
        rw [decide_eq_true_eq]
        exact fst_ne_of_nodupKeys_cons h hother
      rw [List.filter_cons_of_pos (by simp), hnone, List.dlookup_cons_eq]
      rfl
    · rw [List.filter_cons_of_neg (by simpa using hk), ih (List.nodupKeys_cons.mp h).2,
        List.dlookup_cons_ne _ _ (Ne.symm hk)]

/-- Removing a key filters out its entry. -/
theorem kerase_eq_filter {l : List ((_ : κ) × ν)} (h : l.NodupKeys) (k : κ) :
    l.kerase k = l.filter (·.1 ≠ k) := by
  induction l with
  | nil => rfl
  | cons entry l ih =>
    by_cases hk : k = entry.1
    · rw [List.kerase_cons_eq hk, List.filter_cons_of_neg (by simp [hk])]
      rw [List.filter_eq_self.mpr]
      intro other hother
      rw [decide_eq_true_eq, hk]
      exact fst_ne_of_nodupKeys_cons h hother
    · rw [List.kerase_cons_ne hk, List.filter_cons_of_pos (by simpa using Ne.symm hk),
        ih (List.nodupKeys_cons.mp h).2]

/-- The entries that are left when a key is removed. -/
theorem entries_erase (k : κ) (s : AList fun _ : κ => ν) :
    (s.erase k).entries = s.entries.filter (·.1 ≠ k) :=
  kerase_eq_filter s.nodupKeys k

/-- A key that is not there is not removed. -/
theorem entries_erase_of_lookup_eq_none {k : κ} {s : AList fun _ : κ => ν}
    (h : s.lookup k = none) : (s.erase k).entries = s.entries :=
  List.kerase_of_notMem_keys (AList.lookup_eq_none.mp h)

/-- Inserting what is there already changes nothing. -/
theorem entries_insert_perm {k : κ} {v : ν} {s : AList fun _ : κ => ν}
    (h : s.lookup k = some v) : (s.insert k v).entries.Perm s.entries := by
  refine List.lookup_ext (AList.nodupKeys _) (AList.nodupKeys _) fun k' v' => ?_
  change v' ∈ (s.insert k v).lookup k' ↔ v' ∈ s.lookup k'
  by_cases hk : k' = k
  · rw [hk, AList.lookup_insert, h]
  · rw [AList.lookup_insert_ne hk]

/-- What is found once a key was removed was there before, under another key. -/
theorem of_lookup_erase {k k' : κ} {v : ν} {s : AList fun _ : κ => ν}
    (h : (s.erase k').lookup k = some v) : k ≠ k' ∧ s.lookup k = some v := by
  have hk : k ≠ k' := by
    rintro rfl
    rw [AList.lookup_erase] at h
    cases h
  rw [AList.lookup_erase_ne hk] at h
  exact ⟨hk, h⟩

/-- What is found once a value was inserted is that value, or was there before. -/
theorem of_lookup_insert {k k' : κ} {v v' : ν} {s : AList fun _ : κ => ν}
    (h : (s.insert k' v').lookup k = some v) :
    k = k' ∧ v = v' ∨ k ≠ k' ∧ s.lookup k = some v := by
  by_cases hk : k = k'
  · rw [hk, AList.lookup_insert, Option.some.injEq] at h
    exact Or.inl ⟨hk, h.symm⟩
  · rw [AList.lookup_insert_ne hk] at h
    exact Or.inr ⟨hk, h⟩

end AssociationList
