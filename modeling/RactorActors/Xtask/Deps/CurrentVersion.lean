import RactorActors.Xtask.Deps.Updater

/-!
# Reading the version of a dependency

What `get_current_version` should make of every manifest, and of which manifests it does. Its
first lookup indexes the entry of the dependency by `version`, which panics unless the entry is a
table with that key. The lookup of a plain entry stands behind it and is never reached.

* `Numbers` and `IsRequirement`: the requirements that are a version, complete or not;
* `parseRequirement_of_isRequirement`: they are read, with zeros for what is missing;
* `ReadsVersion`: both shapes of an entry are read alike, what is missing is an error, and nothing
  panics;
* `reads_version_iff`: so it is exactly if the entry is a table with a `version`.
-/

namespace RactorActors.Xtask.Deps

open Semver

/-! ## Requirements -/

/-- One, two or three numbers with dots between them, as a version. -/
inductive Numbers : List Char → Version → Prop
  | one {as : List Char} {a : UInt64} (ha : IsNumber as a) : Numbers as (.release a 0 0)
  | two {as bs : List Char} {a b : UInt64} (ha : IsNumber as a) (hb : IsNumber bs b) :
      Numbers (as ++ '.' :: bs) (.release a b 0)
  | three {as bs cs : List Char} {a b c : UInt64} (ha : IsNumber as a) (hb : IsNumber bs b)
      (hc : IsNumber cs c) : Numbers (as ++ '.' :: (bs ++ '.' :: cs)) (.release a b c)

/-- Numbers, or `^` or `~` and numbers. -/
def IsRequirement (s : String) (v : Version) : Prop :=
  ∃ cs, Numbers cs v ∧ (s.toList = cs ∨ s.toList = '^' :: cs ∨ s.toList = '~' :: cs)

/-- Numbers begin with a digit. -/
theorem Numbers.exists_cons {cs : List Char} {v : Version} (h : Numbers cs v) :
    ∃ d rest, cs = d :: rest ∧ d.isDigit = true := by
  have hfirst {as : List Char} {a : UInt64} (ha : IsNumber as a) (rest : List Char) :
      ∃ d rest', as ++ rest = d :: rest' ∧ d.isDigit = true := by
    obtain ⟨d, as', rfl⟩ := List.exists_cons_of_ne_nil ha.nonempty
    exact ⟨d, as' ++ rest, rfl, ha.digits d List.mem_cons_self⟩
  cases h with
  | one ha =>
    have hcons := hfirst ha []
    rwa [List.append_nil] at hcons
  | two ha | three ha => exact hfirst ha _

/-- The operator is cut off. -/
theorem trimRequirement_of_numbers {s : String} {cs : List Char} {v : Version}
    (h : Numbers cs v) (hs : s.toList = cs ∨ s.toList = '^' :: cs ∨ s.toList = '~' :: cs) :
    trimRequirement s.toList = cs := by
  obtain ⟨d, rest, rfl, hd⟩ := h.exists_cons
  obtain ⟨hcaret, htilde⟩ := DependencyUpdater.digit_ne_operator hd
  rcases hs with heq | heq | heq
  · rw [heq, DependencyUpdater.trimRequirement_cons hd]
  all_goals simp [heq, trimRequirement, hcaret, htilde]

/-- Dot-separated texts of digits, completed with zeros. -/
theorem complete_intercalate {ds : List (List Char)} (hne : ds ≠ [])
    (hds : ∀ d ∈ ds, ∀ c ∈ d, c.isDigit = true) (hlen : ds.length ≤ 3) :
    complete (['.'].intercalate ds) =
      ['.'].intercalate (ds ++ List.replicate (3 - ds.length) ['0']) := by
  have hsplit : (['.'].intercalate ds).splitOn '.' = ds := by
    refine List.splitOn_intercalate '.' (fun d hd hdot => ?_) hne
    exact absurd (hds d hd '.' hdot) (by decide)
  rw [complete, hsplit]
  match ds, hne, hlen with
  | [as], _, _ => simp [List.replicate]
  | [as, bs], _, _ => simp
  | [as, bs, cs], _, _ => rfl

/-- Numbers are one, two or three texts of digits. With zeros for what is missing they are the
version; without, they are the version or none. -/
theorem Numbers.exists_parts {cs : List Char} {v : Version} (h : Numbers cs v) :
    ∃ ds, cs = ['.'].intercalate ds ∧ ds ≠ [] ∧ ds.length ≤ 3 ∧
      (∀ d ∈ ds, ∀ c ∈ d, c.isDigit = true) ∧
      (releaseOf ds = none ∨ releaseOf ds = some v) ∧
      releaseOf (ds ++ List.replicate (3 - ds.length) ['0']) = some v := by
  have hzero : parseNumber ['0'] = some 0 := by decide
  cases h with
  | one ha =>
    refine ⟨[cs], ?_, List.cons_ne_nil _ _, by simp, ?_, Or.inl rfl, ?_⟩
    · simp
    · simpa using ha.digits
    · simp [releaseOf, ha.parseNumber, hzero]
  | @two as bs a b ha hb =>
    refine ⟨[as, bs], ?_, List.cons_ne_nil _ _, by simp, ?_, Or.inl rfl, ?_⟩
    · simp
    · simpa using ⟨ha.digits, hb.digits⟩
    · simp [releaseOf, ha.parseNumber, hb.parseNumber, hzero]
  | @three as bs cs a b c ha hb hc =>
    have hrelease : releaseOf [as, bs, cs] = some (.release a b c) := by
      simp [releaseOf, ha.parseNumber, hb.parseNumber, hc.parseNumber]
    refine ⟨[as, bs, cs], ?_, List.cons_ne_nil _ _, by simp, ?_, Or.inr hrelease, hrelease⟩
    · simp
    · simpa using ⟨ha.digits, hb.digits, hc.digits⟩

/-- **Requirements are read.** Missing components are zero. -/
theorem parseRequirement_of_isRequirement {s : String} {v : Version} (h : IsRequirement s v) :
    parseRequirement s = some v := by
  obtain ⟨cs, hcs, hs⟩ := h
  have htrim := trimRequirement_of_numbers hcs hs
  obtain ⟨ds, rfl, hne, hlen, hds, hfirst, hcompleted⟩ := hcs.exists_parts
  -- what is completed consists of digits as well
  have hne' : ds ++ List.replicate (3 - ds.length) ['0'] ≠ [] :=
    List.append_ne_nil_of_left_ne_nil hne _
  have hds' : ∀ d ∈ ds ++ List.replicate (3 - ds.length) ['0'], ∀ c ∈ d, c.isDigit = true := by
    intro d hd c hc
    rcases List.mem_append.mp hd with hd | hd
    · exact hds d hd c hc
    · rw [List.eq_of_mem_replicate hd, List.mem_singleton] at hc
      exact hc ▸ rfl
  rw [parseRequirement, htrim, complete_intercalate hne hds hlen, parse_intercalate hne hds,
    parse_intercalate hne' hds', hcompleted]
  rcases hfirst with hnone | hsome
  · rw [hnone]
  · rw [hsome]

/-! ## The entry of a dependency -/

/-- Where the entry of a dependency stands. -/
def entryPath (depName : String) : List String := ["dependencies", depName]

open DependencyUpdater

/-- Every parsed manifest is read as it should be. -/
structure ReadsVersion (doc : Manifest) (depName : String) : Prop where
  noPanic : ∀ message, getCurrentVersion true doc depName ≠ .error (.panic message)
  /-- A plain entry is read like a table entry with that version. -/
  plain : ∀ s, doc.look (entryPath depName) = some (.value (.str s)) →
    getCurrentVersion true doc depName =
      getCurrentVersion true
        (doc.setAt (entryPath depName) (.table [("version", .leaf (.str s))])) depName
  missing : doc.look (entryPath depName) = none →
    ∃ message, getCurrentVersion true doc depName = .error (.error message)
  noVersion : ∀ names, doc.look (entryPath depName) = some (.names names) →
    doc.look (dependencyPath depName) = none →
      ∃ message, getCurrentVersion true doc depName = .error (.error message)
  /-- A requirement of either shape is read as its version. -/
  completes : ∀ s v, IsRequirement s v →
    doc.look (entryPath depName) = some (.value (.str s)) ∨
      doc.look (dependencyPath depName) = some (.value (.str s)) →
        getCurrentVersion true doc depName = .ok v

/-- Something stands at every path that leads into the document. -/
theorem look_nil_ne_none (item : Manifest) : item.look [] ≠ none := by
  cases item <;> exact Option.some_ne_none _

/-- The string that stands at a place. -/
def nodeStr : Document.Node String TomlValue → Option String
  | .value (.str s) => some s
  | _ => none

/-- **What the indexing does to a missing version.** -/
theorem getCurrentVersion_of_none {doc : Manifest} {depName : String}
    (h : doc.look (dependencyPath depName) = none) :
    getCurrentVersion true doc depName = .error (.panic "index not found") := by
  simp only [dependencyPath, Document.look_cons, Option.bind_eq_none_iff] at h
  -- the first of the three lookups that finds nothing panics
  unfold getCurrentVersion index
  cases hdependencies : doc.get "dependencies" with
  | none => rfl
  | some dependencies =>
    cases hentry : dependencies.get depName with
    | none =>
      simp only [Bool.not_true, Bool.false_eq_true, if_false, bind, Except.bind, hentry]
    | some entry =>
      cases hversion : entry.get "version" with
      | none =>
        simp only [Bool.not_true, Bool.false_eq_true, if_false, bind, Except.bind, hentry,
          hversion]
      | some version =>
        exact absurd (h dependencies hdependencies entry hentry version hversion)
          (look_nil_ne_none version)

/-- A version that is there is read, if it is a string that can be parsed. -/
theorem getCurrentVersion_of_some {doc : Manifest} {depName : String}
    {node : Document.Node String TomlValue}
    (h : doc.look (dependencyPath depName) = some node) :
    getCurrentVersion true doc depName =
      (context s!"Dependency {depName} not found" (nodeStr node) >>= fun versionStr =>
        context s!"Failed to parse version: {versionStr}" (parseRequirement versionStr)) := by
  simp only [dependencyPath, Document.look_cons, Option.bind_eq_some_iff] at h
  obtain ⟨dependencies, hdependencies, entry, hentry, version, hversion, hnode⟩ := h
  have hstr : asStr version = nodeStr node := by
    cases version with
    | leaf value =>
      rw [← Option.some.inj hnode]
      cases value <;> rfl
    | table entries =>
      rw [← Option.some.inj hnode]
      rfl
  simp only [getCurrentVersion, index, hdependencies, hentry, hversion, asStr_of_get hversion,
    hstr, Option.or_none, Bool.not_true, Bool.false_eq_true, if_false, bind, Except.bind]

/-- A version that is there is read without a panic. -/
theorem getCurrentVersion_ne_panic {doc : Manifest} {depName : String}
    {node : Document.Node String TomlValue}
    (h : doc.look (dependencyPath depName) = some node) (message : String) :
    getCurrentVersion true doc depName ≠ .error (.panic message) := by
  rw [getCurrentVersion_of_some h]
  cases nodeStr node with
  | none => simp [context, bind, Except.bind]
  | some versionStr =>
    cases hparse : parseRequirement versionStr <;> simp [context, bind, Except.bind, hparse]

/-- An entry with a version is a table. -/
theorem look_entryPath {doc : Manifest} {depName : String}
    {node : Document.Node String TomlValue}
    (h : doc.look (dependencyPath depName) = some node) :
    ∃ names, doc.look (entryPath depName) = some (.names names) := by
  simp only [dependencyPath, Document.look_cons, Option.bind_eq_some_iff] at h
  obtain ⟨dependencies, hdependencies, entry, hentry, version, hversion, -⟩ := h
  cases entry with
  | leaf value => cases hversion
  | table entries =>
    refine ⟨entries.map (·.1), ?_⟩
    simp only [entryPath, Document.look_cons, hdependencies, hentry, Option.bind_some]
    rfl

/-- **Which manifests are read as they should be.** Those in which the entry of the dependency is
a table with a `version`. -/
theorem reads_version_iff (doc : Manifest) (depName : String) :
    ReadsVersion doc depName ↔ doc.look (dependencyPath depName) ≠ none := by
  constructor
  · intro hreads hnone
    exact hreads.noPanic _ (getCurrentVersion_of_none hnone)
  · intro hsome
    obtain ⟨node, hnode⟩ := Option.ne_none_iff_exists'.mp hsome
    obtain ⟨names, hentry⟩ := look_entryPath hnode
    -- the other shapes of an entry do not occur
    refine ⟨getCurrentVersion_ne_panic hnode, fun s hplain => ?_, fun hmissing => ?_,
      fun _ _ hno => absurd hno hsome, fun s v hs hstr => ?_⟩
    · rw [hentry] at hplain
      cases hplain
    · rw [hentry] at hmissing
      cases hmissing
    · rcases hstr with hplain | hversion
      · rw [hentry] at hplain
        cases hplain
      · rw [getCurrentVersion_of_some hversion]
        simp [nodeStr, context, bind, Except.bind, parseRequirement_of_isRequirement hs]

/-- A manifest whose one dependency has a plain entry. -/
def plainDependency : Manifest :=
  .table [("dependencies", .table [("cron", .leaf (.str "0.17"))])]

/-- **A plain entry panics.** The same requirement in a table is read. -/
theorem plain_entry_panics :
    ¬ (∀ doc depName, ReadsVersion doc depName) ∧
      getCurrentVersion true plainDependency "cron" = .error (.panic "index not found") ∧
      getCurrentVersion true
        (plainDependency.setAt (entryPath "cron") (.table [("version", .leaf (.str "0.17"))]))
        "cron" = .ok (.release 0 17 0) := by
  have hpanic : getCurrentVersion true plainDependency "cron" =
      .error (.panic "index not found") := rfl
  refine ⟨fun hall => ?_, hpanic, by decide +kernel⟩
  exact (hall plainDependency "cron").noPanic _ hpanic

end RactorActors.Xtask.Deps
