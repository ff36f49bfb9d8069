import RactorActors.Xtask.Deps.CheckDependencies
import RactorActors.Xtask.Deps.CurrentVersion

/-!
# An update is all or nothing

`update_dependency` changes two versions of the manifest and writes the file, and then runs
`cargo update`. Every failure before the write leaves the file alone. The last step can fail too,
and the file keeps what was written.

* `AllOrNothing`: an update that returns `Ok` has changed the two versions and nothing else, and
  one that returns an error has left the file as it was;
* `all_or_nothing_iff`: so it is exactly if `cargo update` succeeds or the file is never written;
* `failed_cargo_update_keeps_write`: a `cargo update` that fails.
-/

namespace RactorActors.Xtask.Deps

open Semver DependencyUpdater VersionChecker

/-- The version of the package, if the manifest has one. -/
def packageVersion (doc : Manifest) : Option Version :=
  match doc.look packagePath with
  | some (.value (.str s)) => parse s
  | _ => none

/-- What `update_dependency` should leave in the file that held `doc`, given what it returns. A
panic is neither. -/
structure AllOrNothing (doc : Manifest) (depName : String) (newVersion : Version)
    (outcome : Manifest × Except Failure Unit) : Prop where
  dependency : outcome.2 = .ok () → getCurrentVersion true outcome.1 depName = .ok newVersion
  bumped : outcome.2 = .ok () → ∃ v w, packageVersion doc = some v ∧
    packageVersion outcome.1 = some w ∧ v.compare w = .lt
  others : outcome.2 = .ok () → ∀ path, path ≠ dependencyPath depName → path ≠ packagePath →
    outcome.1.look path = doc.look path
  nothing : ∀ message, outcome.2 = .error (.error message) → outcome.1 = doc

/-- The component that a strategy raises. -/
def component (v : Version) (strategy : String) : UInt64 :=
  match strategy with
  | "major" => v.major
  | "minor" => v.minor
  | _ => v.patch

/-- The manifest has a package version, whose component can be raised. -/
def Bumpable (doc : Manifest) (strategy : String) : Prop :=
  ∃ v, packageVersion doc = some v ∧ (component v strategy).toNat + 1 < 2 ^ 64

/-! ## The bump -/

/-- A component is raised unless it is the largest number. -/
theorem bumpVersion_isSome_iff {v : Version} {strategy : String}
    (hknown : strategy ∈ bumpStrategies) :
    (∃ w, bumpVersion v strategy = some w) ↔ (component v strategy).toNat + 1 < 2 ^ 64 := by
  have hincrement (n : UInt64) : (∃ m, increment n = some m) ↔ n.toNat + 1 < 2 ^ 64 := by
    unfold increment
    split <;> simp_all
  simp only [bumpStrategies, List.mem_cons, List.not_mem_nil, or_false] at hknown
  rcases hknown with rfl | rfl | rfl
  all_goals
    rw [← hincrement]
    simp [bumpVersion, component, Option.map_eq_some_iff]

/-- A bumped version is higher. -/
theorem Bump.compare {v w : Version} (h : Bump v w) : v.compare w = .lt := by
  apply compare_eq_lt_of_numbers_lt
  simp only [Version.numbers, Prod.Lex.toLex_lt_toLex]
  rcases h.component with ⟨hmajor, -, -⟩ | ⟨hmajor, hminor, -⟩ | ⟨hmajor, hminor, hpatch⟩
  · left
    omega
  · right
    exact ⟨by rw [hmajor], Or.inl (by omega)⟩
  · right
    exact ⟨by rw [hmajor], Or.inr ⟨by rw [hminor], by omega⟩⟩

/-! ## The manifest that is written -/

/-- The package version stands in the manifest as text. -/
theorem packageVersion_eq_some {doc : Manifest} {v : Version} :
    packageVersion doc = some v ↔
      ∃ s, doc.look packagePath = some (.value (.str s)) ∧ parse s = some v := by
  constructor
  · intro h
    unfold packageVersion at h
    split at h
    · rename_i s hs
      exact ⟨s, hs, h⟩
    · cases h
  · rintro ⟨s, hs, hv⟩
    rw [packageVersion, hs]
    exact hv

/-- A string at the package's path is found by the two lookups. -/
theorem get_of_look_packagePath {doc : Manifest} {s : String}
    (h : doc.look packagePath = some (.value (.str s))) :
    ∃ package, doc.get "package" = some package ∧
      package.get "version" = some (.leaf (.str s)) := by
  simp only [packagePath, Document.look_cons, Option.bind_eq_some_iff] at h
  obtain ⟨package, hpackage, version, hversion, hs⟩ := h
  cases version with
  | leaf value =>
    rw [Document.look_nil_leaf, Option.some.injEq, Document.Node.value.injEq] at hs
    exact ⟨package, hpackage, hs ▸ hversion⟩
  | table entries => cases hs

/-- There is a new manifest when the version of the package can be bumped. -/
theorem exists_updated {doc : Manifest} {depName strategy old : String} {v w : Version}
    (newVersion : String)
    (hold : doc.look (dependencyPath depName) = some (.value (.str old)))
    (hv : packageVersion doc = some v) (hw : bumpVersion v strategy = some w) :
    ∃ doc', updated doc depName newVersion strategy = .ok doc' := by
  obtain ⟨s, hs, hparse⟩ := packageVersion_eq_some.mp hv
  -- the package is looked up in the manifest with the new dependency
  have hs' : (doc.setAt (dependencyPath depName) (.leaf (.str newVersion))).look packagePath =
      some (.value (.str s)) := by
    rw [Document.look_setAt hold, if_neg (dependencyPath_ne_packagePath depName).symm, hs]
  obtain ⟨package, hpackage, hversion⟩ := get_of_look_packagePath hs'
  refine ⟨(doc.setAt (dependencyPath depName) (.leaf (.str newVersion))).setAt packagePath
    (.leaf (.str w.toString)), ?_⟩
  simp only [updated, bind_eq_ok, index_eq_ok, context_eq_ok]
  refine ⟨_, setDependency_of_look hold, package, hpackage, _, hversion, s, rfl, v, hparse, ?_⟩
  rw [hw]

/-- **When there is a new manifest.** For a dependency with a version, exactly if the version of
the package can be raised. -/
theorem exists_updated_iff {doc : Manifest} {depName newVersion strategy old : String}
    (hold : doc.look (dependencyPath depName) = some (.value (.str old)))
    (hknown : strategy ∈ bumpStrategies) :
    (∃ doc', updated doc depName newVersion strategy = .ok doc') ↔ Bumpable doc strategy := by
  constructor
  · rintro ⟨doc', hdoc'⟩
    obtain ⟨s, v, w, hs, hv, hw, -⟩ := look_updated hold hdoc'
    exact ⟨v, packageVersion_eq_some.mpr ⟨s, hs, hv⟩,
      (bumpVersion_isSome_iff hknown).mp ⟨w, hw⟩⟩
  · rintro ⟨v, hv, hlt⟩
    obtain ⟨w, hw⟩ := (bumpVersion_isSome_iff hknown).mpr hlt
    exact exists_updated newVersion hold hv hw

/-! ## What becomes of the file -/

/-- A failure that leaves the file alone. -/
theorem allOrNothing_of_error (doc : Manifest) (depName : String) (newVersion : Version)
    (failure : Failure) : AllOrNothing doc depName newVersion (doc, .error failure) where
  dependency h := by cases h
  bumped h := by cases h
  others h := by cases h
  nothing _ _ := rfl

/-- A success that has written the new manifest. -/
theorem allOrNothing_of_updated {doc doc' : Manifest} {depName strategy old : String}
    {newVersion : Version} (hold : doc.look (dependencyPath depName) = some (.value (.str old)))
    (hknown : strategy ∈ bumpStrategies)
    (h : updated doc depName newVersion.toString strategy = .ok doc') :
    AllOrNothing doc depName newVersion (doc', .ok ()) := by
  obtain ⟨s, v, w, hs, hv, hw, hlook⟩ := look_updated hold h
  have hdep : doc'.look (dependencyPath depName) = some (.value (.str newVersion.toString)) := by
    rw [hlook, if_neg (dependencyPath_ne_packagePath depName), if_pos rfl]
  have hpackage : doc'.look packagePath = some (.value (.str w.toString)) := by
    rw [hlook, if_pos rfl]
  refine ⟨fun _ => ?_, fun _ => ?_, fun _ path hpath hpath' => ?_, fun _ herr => ?_⟩
  · -- the new version is read back
    rw [getCurrentVersion_of_some hdep]
    simp [nodeStr, context, bind, Except.bind, parseRequirement_toString]
  · exact ⟨v, w, packageVersion_eq_some.mpr ⟨s, hs, hv⟩,
      packageVersion_eq_some.mpr ⟨w.toString, hpackage, parse_toString w⟩,
      (bump_of_mem hknown hw).compare⟩
  · rw [hlook, if_neg hpath', if_neg hpath]
  · cases herr

/-- The new manifest is not the old one. -/
theorem updated_ne {doc doc' : Manifest} {depName newVersion strategy old : String}
    (hold : doc.look (dependencyPath depName) = some (.value (.str old)))
    (hknown : strategy ∈ bumpStrategies)
    (h : updated doc depName newVersion strategy = .ok doc') : doc' ≠ doc := by
  rintro rfl
  obtain ⟨s, v, w, hs, hv, hw, hlook⟩ := look_updated hold h
  -- the package would have its own bump as its version
  have hpackage := hlook packagePath
  rw [if_pos rfl, hs, Option.some.injEq, Document.Node.value.injEq, TomlValue.str.injEq] at hpackage
  rw [hpackage, parse_toString, Option.some.injEq] at hv
  subst hv
  exact not_bump_self w (bump_of_mem hknown hw)

/-- **When an update is all or nothing.** If `get_current_version` succeeds, an update with a
known strategy is all or nothing exactly if `cargo update` succeeds or the file is not written:
because it cannot be read or written, or because there is no package version to raise. -/
theorem all_or_nothing_iff {doc : Manifest} {depName strategy : String} {current : Version}
    (hcurrent : getCurrentVersion true doc depName = .ok current)
    (hknown : strategy ∈ bumpStrategies) (newVersion : Version) (readable writable : Bool)
    (cargo : CommandOutcome) :
    AllOrNothing doc depName newVersion
        (updateDependency readable writable cargo doc depName newVersion.toString strategy) ↔
      cargo = .success ∨ readable = false ∨ writable = false ∨ ¬ Bumpable doc strategy := by
  obtain ⟨old, hold, -⟩ := look_of_getCurrentVersion hcurrent
  have hupdated : (∃ doc', updated doc depName newVersion.toString strategy = .ok doc') ↔
      Bumpable doc strategy := exists_updated_iff hold hknown
  constructor
  · intro hall
    by_contra hnot
    push Not at hnot
    obtain ⟨hcargo, hreadable, hwritable, hbump⟩ := hnot
    rw [Bool.ne_false_iff] at hreadable hwritable
    obtain ⟨doc', hdoc'⟩ := hupdated.mpr hbump
    -- the file is written and then an error is returned
    obtain ⟨message, herror⟩ : ∃ message, updateLockfile cargo = .error (.error message) := by
      cases cargo with
      | success => exact absurd rfl hcargo
      | exits stderr => exact ⟨_, rfl⟩
      | spawnFails => exact ⟨_, rfl⟩
    have houtcome : updateDependency readable writable cargo doc depName newVersion.toString
        strategy = (doc', .error (.error message)) := by
      simp [updateDependency, hreadable, hwritable, hdoc', herror]
    rw [houtcome] at hall
    exact updated_ne hold hknown hdoc' (hall.nothing message rfl)
  · intro hcases
    unfold updateDependency
    split
    · exact allOrNothing_of_error doc depName newVersion _
    · rename_i hreadable
      split
      · exact allOrNothing_of_error doc depName newVersion _
      · rename_i doc' hdoc'
        split
        · rename_i hwritable
          -- the file is written, so only a `cargo update` that succeeds is left
          have hbump : Bumpable doc strategy := hupdated.mp ⟨doc', hdoc'⟩
          have hcargo : cargo = .success := by simp_all
          rw [hcargo]
          exact allOrNothing_of_updated hold hknown hdoc'
        · exact allOrNothing_of_error doc depName newVersion _

/-- An update of one of two dependencies, all of whose steps succeed. -/
theorem all_or_nothing_iff_success :
    AllOrNothing twoDependencies "cron" (.release 0 18 0)
      (updateDependency true true .success twoDependencies "cron"
        (Version.release 0 18 0).toString "minor") := by
  have hcurrent : getCurrentVersion true twoDependencies "cron" = .ok (.release 0 17 0) := by
    decide +kernel
  exact (all_or_nothing_iff hcurrent (by decide) (.release 0 18 0) true true .success).mpr
    (Or.inl rfl)

/-- **A `cargo update` that fails.** The error is returned, and the manifest has the new version
of the dependency and the new version of the package. -/
theorem failed_cargo_update_keeps_write :
    ¬ ∀ (doc : Manifest) (depName strategy : String) (current newVersion : Version)
      (readable writable : Bool) (cargo : CommandOutcome),
      getCurrentVersion true doc depName = .ok current → strategy ∈ bumpStrategies →
        AllOrNothing doc depName newVersion
          (updateDependency readable writable cargo doc depName newVersion.toString strategy) := by
  intro hall
  have hdoc := (hall twoDependencies "cron" "minor" (.release 0 17 0) (.release 0 18 0) true true
    (.exits "no matching package") (by decide +kernel) (by decide)).nothing
      "cargo update failed: no matching package" (by decide +kernel)
  -- the file has the new version of the dependency
  have hlook := congrArg (Document.look (dependencyPath "cron")) hdoc
  exact absurd hlook (by decide +kernel)

end RactorActors.Xtask.Deps
