import Mathlib.Data.List.Basic

/-!
# Documents of nested tables

A document is a value or a table of named documents, as configuration formats have them. A path of
names leads into it.

* `look`: what stands at a path, a value or the names of a table;
* `setAt`: put a document at a path;
* `look_setAt`: replacing one value changes what stands at its path, and at no other.
-/

/-- A document with names of type `κ` and values of type `α`. -/
inductive Document (κ α : Type)
  | leaf (value : α)
  | table (entries : List (κ × Document κ α))

namespace Document

section DecidableEq

variable {κ α : Type} [DecidableEq κ] [DecidableEq α]

mutual
/-- Equality of documents is decided from the leaves up. -/
def decEq : (d e : Document κ α) → Decidable (d = e)
  | leaf x, leaf y => decidable_of_iff (x = y) (by rw [leaf.injEq])
  | leaf _, table _ => isFalse (by simp)
  | table _, leaf _ => isFalse (by simp)
  | table xs, table ys => @decidable_of_iff _ _ (by rw [table.injEq]) (decEqEntries xs ys)

/-- Equality of the entries of two tables. -/
def decEqEntries : (xs ys : List (κ × Document κ α)) → Decidable (xs = ys)
  | [], [] => isTrue rfl
  | [], _ :: _ => isFalse (by simp)
  | _ :: _, [] => isFalse (by simp)
  | (name, d) :: xs, (name', e) :: ys =>
    match decEq d e, decEqEntries xs ys with
    | isTrue hd, isTrue hxs => decidable_of_iff (name = name') (by simp [hd, hxs])
    | isFalse hd, _ => isFalse (by simp [hd])
    | _, isFalse hxs => isFalse (by simp [hxs])
end

instance : DecidableEq (Document κ α) := decEq

end DecidableEq

variable {κ α : Type} [DecidableEq κ]

/-- What stands at a place of a document. -/
inductive Node (κ α : Type)
  | value (value : α)
  | names (names : List κ)
deriving DecidableEq

/-- The entry of a table with a name. -/
def get (d : Document κ α) (name : κ) : Option (Document κ α) :=
  match d with
  | leaf _ => none
  | table entries => entries.lookup name

/-- What stands at a path. -/
def look : List κ → Document κ α → Option (Node κ α)
  | [], leaf value => some (.value value)
  | [], table entries => some (.names (entries.map (·.1)))
  | name :: path, d => (d.get name).bind (look path)

/-- Change the entry with a name. A new entry begins as an empty table. -/
def alter (name : κ) (f : Document κ α → Document κ α) :
    List (κ × Document κ α) → List (κ × Document κ α)
  | [] => [(name, f (table []))]
  | (name', d) :: entries =>
    if name' = name then (name', f d) :: entries else (name', d) :: alter name f entries

/-- Put a document at a path, making tables on the way. -/
def setAt : List κ → Document κ α → Document κ α → Document κ α
  | [], _, new => new
  | _ :: _, leaf value, _ => leaf value
  | name :: path, table entries, new => table (alter name (fun d => setAt path d new) entries)

@[simp]
theorem look_nil_leaf (value : α) : look [] (leaf value : Document κ α) = some (.value value) := rfl

@[simp]
theorem look_cons (name : κ) (path : List κ) (d : Document κ α) :
    look (name :: path) d = (d.get name).bind (look path) := rfl

/-- The first entry has the name looked up, or a later one is found. -/
theorem lookup_cons_eq_if (name other : κ) (d : Document κ α)
    (entries : List (κ × Document κ α)) :
    ((name, d) :: entries).lookup other =
      if other = name then some d else entries.lookup other := by
  by_cases h : other = name
  · rw [if_pos h, h, List.lookup_cons_self]
  · rw [if_neg h, List.lookup_cons, beq_false_of_ne h]

/-- The entry with a name is changed, and no other. -/
theorem lookup_alter {name : κ} {f : Document κ α → Document κ α}
    {entries : List (κ × Document κ α)} {d : Document κ α} (h : entries.lookup name = some d)
    (other : κ) :
    (alter name f entries).lookup other =
      if other = name then some (f d) else entries.lookup other := by
  induction entries with
  | nil => cases h
  | cons entry entries ih =>
    obtain ⟨name', d'⟩ := entry
    rw [lookup_cons_eq_if] at h
    by_cases hname : name' = name
    · subst hname
      rw [if_pos rfl, Option.some.injEq] at h
      rw [alter, if_pos rfl, lookup_cons_eq_if, lookup_cons_eq_if, h]
      split <;> rfl
    · rw [if_neg (Ne.symm hname)] at h
      rw [alter, if_neg hname, lookup_cons_eq_if, lookup_cons_eq_if, ih h]
      -- the first entry is not the one that is changed
      by_cases hother : other = name'
      · rw [if_pos hother, if_pos hother, if_neg (hother ▸ hname)]
      · rw [if_neg hother, if_neg hother]

/-- An entry that is changed keeps its place. -/
theorem names_alter {name : κ} {f : Document κ α → Document κ α}
    {entries : List (κ × Document κ α)} {d : Document κ α} (h : entries.lookup name = some d) :
    (alter name f entries).map (·.1) = entries.map (·.1) := by
  induction entries with
  | nil => cases h
  | cons entry entries ih =>
    obtain ⟨name', d'⟩ := entry
    rw [lookup_cons_eq_if] at h
    by_cases hname : name' = name
    · rw [alter, if_pos hname]
      rfl
    · rw [if_neg (Ne.symm hname)] at h
      rw [alter, if_neg hname, List.map_cons, List.map_cons, ih h]

/-- **Replacing a value.** What stands at its path is the new value, and everything else is as it
was. -/
theorem look_setAt {path : List κ} {old a : α} {d : Document κ α}
    (h : look path d = some (.value old)) (other : List κ) :
    look other (d.setAt path (leaf a)) =
      if other = path then some (.value a) else look other d := by
  -- the path leads to the value that is there, so no table is made on the way
  induction path generalizing d other with
  | nil =>
    cases d with
    | table entries => cases h
    | leaf value => cases other <;> simp [setAt, get]
  | cons name path ih =>
    cases d with
    | leaf value => cases h
    | table entries =>
      rw [look_cons, get, Option.bind_eq_some_iff] at h
      obtain ⟨d', hd', hvalue⟩ := h
      cases other with
      | nil => simp [setAt, look, names_alter hd']
      | cons other rest =>
        rw [setAt, look_cons, look_cons, get, get, lookup_alter hd']
        by_cases hname : other = name
        · subst hname
          simp [hd', ih hvalue rest]
        · simp [hname]

end Document
