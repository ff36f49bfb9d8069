import RactorActors.Foundations.Document
import RactorActors.Foundations.Semver

/-!
# Updating a dependency in the manifest

`deps/version.rs` and `deps/updater.rs` of the `xtask` crate. The manifest is the document that
`toml_edit` makes of `ractor_actors/Cargo.toml`. Indexing it immutably panics when the key is
absent or the item is no table; indexing it mutably panics when the item is no table.

* `getCurrentVersion`: the version that the manifest requires of a dependency;
* `updated` and `updateDependency`: the manifest with a new version, and what becomes of the file;
* `look_updated`: the two places where the new manifest differs.
-/

namespace RactorActors.Xtask.Deps

open Semver

/-- The values of the manifest. Those that are no strings are never looked into. -/
inductive TomlValue
  | str (s : String)
  | other (text : String)
deriving DecidableEq

/-- `ractor_actors/Cargo.toml` -/
abbrev Manifest := Document String TomlValue

/-- How a function of the tool ends when it gives no result. -/
inductive Failure
  /-- It returns an error. -/
  | error (message : String)
  | panic (message : String)
deriving DecidableEq

/-- How a command that was run ended. -/
inductive CommandOutcome
  | success
  /-- It ended with another exit code, and this on its standard error. -/
  | exits (stderr : String)
  | spawnFails
deriving DecidableEq

/-! ## Versions -/

namespace VersionChecker

/-- `VersionChecker::is_major_update` -/
def isMajorUpdate (current latest : Version) : Bool :=
  current.compare latest == .lt && !current.matchesCaret latest

/-- `n + 1`, with the overflow checks of the profile that `cargo xtask` is built in. -/
def increment (n : UInt64) : Option UInt64 :=
  if n.toNat + 1 < 2 ^ 64 then some (n + 1) else none

/-- `VersionChecker::bump_version` -/
def bumpVersion (current : Version) (strategy : String) : Option Version :=
  match strategy with
  | "major" => (increment current.major).map fun major => .release major 0 0
  | "minor" => (increment current.minor).map fun minor => .release current.major minor 0
  | "patch" =>
    (increment current.patch).map fun patch => .release current.major current.minor patch
  | _ => some current

end VersionChecker

/-! ## The manifest -/

/-- `doc[key]` -/
def index (doc : Manifest) (key : String) : Except Failure Manifest :=
  match doc.get key with
  | some item => .ok item
  | none => .error (.panic "index not found")

/-- `Item::as_str` -/
def asStr : Manifest → Option String
  | .leaf (.str s) => some s
  | _ => none

/-- `.context(message)` on an option. -/
def context {α : Type} (message : String) : Option α → Except Failure α
  | some a => .ok a
  | none => .error (.error message)

/-- Where the version that is required of a dependency stands. -/
def dependencyPath (depName : String) : List String := ["dependencies", depName, "version"]

/-- Where the version of `ractor_actors` stands. -/
def packagePath : List String := ["package", "version"]

/-- `.trim_start_matches('^').trim_start_matches('~')` -/
def trimRequirement (cs : List Char) : List Char :=
  (cs.dropWhile (· == '^')).dropWhile (· == '~')

/-- A requirement of one or two numbers is completed with zeros. -/
def complete (cs : List Char) : List Char :=
  match cs.splitOn '.' with
  | [major] => major ++ ".0.0".toList
  | [major, minor] => major ++ '.' :: (minor ++ ".0".toList)
  | _ => cs

/-- A version requirement read as a version: as it stands without its operator, or else completed
with zeros. -/
def parseRequirement (versionStr : String) : Option Version :=
  let versionReq := trimRequirement versionStr.toList
  match parse (String.ofList versionReq) with
  | some v => some v
  | none => parse (String.ofList (complete versionReq))

namespace DependencyUpdater

/-- `DependencyUpdater::get_current_version`, of a file that can be read or not. -/
def getCurrentVersion (readable : Bool) (doc : Manifest) (depName : String) :
    Except Failure Version :=
  if !readable then .error (.error "Failed to read Cargo.toml")
  else do
    let dependencies ← index doc "dependencies"
    let entry ← index dependencies depName
    let version ← index entry "version"
    let versionStr ← context s!"Dependency {depName} not found" ((asStr version).or (asStr entry))
    context s!"Failed to parse version: {versionStr}" (parseRequirement versionStr)

/-- The dependency gets its new version, as an entry of its table or in place of its string. -/
def setDependency (doc : Manifest) (depName newVersion : String) : Except Failure Manifest := do
  let dependencies ← index doc "dependencies"
  match ← index dependencies depName with
  | .table _ => .ok (doc.setAt (dependencyPath depName) (.leaf (.str newVersion)))
  | .leaf (.str _) => .ok (doc.setAt ["dependencies", depName] (.leaf (.str newVersion)))
  | .leaf (.other _) =>
    .error (.error s!"Dependency {depName} not found or has unexpected format")

/-- The manifest that `update_dependency` writes. -/
def updated (doc : Manifest) (depName newVersion bumpStrategy : String) :
    Except Failure Manifest := do
  let doc ← setDependency doc depName newVersion
  let package ← index doc "package"
  let version ← index package "version"
  let currentVersionStr ← context "Failed to get current ractor_actors version" (asStr version)
  let currentVersion ← context "Failed to parse current version" (parse currentVersionStr)
  match VersionChecker.bumpVersion currentVersion bumpStrategy with
  | none => .error (.panic "attempt to add with overflow")
  | some newRactorVersion => .ok (doc.setAt packagePath (.leaf (.str newRactorVersion.toString)))

/-- `DependencyUpdater::update_lockfile` -/
def updateLockfile : CommandOutcome → Except Failure Unit
  | .success => .ok ()
  | .exits stderr => .error (.error s!"cargo update failed: {stderr}")
  | .spawnFails => .error (.error "Failed to run cargo update")

/-- `DependencyUpdater::update_dependency`, with what is in the file afterwards. A write that fails
leaves the file as it was. -/
def updateDependency (readable writable : Bool) (cargo : CommandOutcome) (doc : Manifest)
    (depName newVersion bumpStrategy : String) : Manifest × Except Failure Unit :=
  if !readable then (doc, .error (.error "Failed to read Cargo.toml"))
  else
    match updated doc depName newVersion bumpStrategy with
    | .error failure => (doc, .error failure)
    | .ok doc' =>
      if writable then (doc', updateLockfile cargo)
      else (doc, .error (.error "Failed to write Cargo.toml"))

/-! ## What is read and what is written -/

/-- A computation of two parts succeeds if both do. -/
theorem bind_eq_ok {α β : Type} {x : Except Failure α} {f : α → Except Failure β} {b : β} :
    (x >>= f) = .ok b ↔ ∃ a, x = .ok a ∧ f a = .ok b := by
  cases x with
  | error failure => simp [bind, Except.bind]
  | ok a => simp [bind, Except.bind]

theorem index_eq_ok {doc item : Manifest} {key : String} :
    index doc key = .ok item ↔ doc.get key = some item := by
  unfold index
  cases doc.get key <;> simp

theorem context_eq_ok {α : Type} {message : String} {o : Option α} {a : α} :
    context message o = .ok a ↔ o = some a := by
  cases o <;> simp [context]

theorem asStr_eq_some {item : Manifest} {s : String} :
    asStr item = some s ↔ item = .leaf (.str s) := by
  constructor
  · intro h
    unfold asStr at h
    split at h
    · rw [Option.some.injEq] at h
      rw [h]
    · cases h
  · rintro rfl
    rfl

/-- An entry that has a `version` is no string itself. -/
theorem asStr_of_get {entry item : Manifest} {key : String} (h : entry.get key = some item) :
    asStr entry = none := by
  cases entry with
  | leaf value => cases h
  | table entries => rfl

/-- The version of a dependency is read where it stands. -/
theorem look_of_getCurrentVersion {readable : Bool} {doc : Manifest} {depName : String}
    {v : Version} (h : getCurrentVersion readable doc depName = .ok v) :
    ∃ s, doc.look (dependencyPath depName) = some (.value (.str s)) ∧
      parseRequirement s = some v := by
  unfold getCurrentVersion at h
  split at h
  · cases h
  · simp only [bind_eq_ok, index_eq_ok, context_eq_ok] at h
    obtain ⟨dependencies, hdependencies, entry, hentry, version, hversion, s, hs, hv⟩ := h
    rw [asStr_of_get hversion, Option.or_none, asStr_eq_some] at hs
    refine ⟨s, ?_, hv⟩
    simp [dependencyPath, hdependencies, hentry, hversion, hs]

/-- A digit is no operator. -/
theorem digit_ne_operator {d : Char} (hd : d.isDigit = true) :
    (d == '^') = false ∧ (d == '~') = false := by
  constructor
  · apply beq_false_of_ne
    rintro rfl
    exact absurd hd (by decide)
  · apply beq_false_of_ne
    rintro rfl
    exact absurd hd (by decide)

/-- A requirement that begins with a digit has no operator. -/
theorem trimRequirement_cons {d : Char} {cs : List Char} (hd : d.isDigit = true) :
    trimRequirement (d :: cs) = d :: cs := by
  obtain ⟨hcaret, htilde⟩ := digit_ne_operator hd
  rw [trimRequirement, List.dropWhile_cons, hcaret]
  simp [htilde]

/-- A version that the tool has written is read back as it is. -/
theorem parseRequirement_toString (v : Version) : parseRequirement v.toString = some v := by
  -- no operator stands before the first digit
  have htrim : trimRequirement v.toString.toList = v.toString.toList := by
    obtain ⟨c, cs, htext, hdigit⟩ := toList_toString v
    rw [htext, trimRequirement_cons hdigit]
  rw [parseRequirement, htrim, String.ofList_toList, parse_toString]

/-- A dependency whose entry has a version gets the new one in its place. -/
theorem setDependency_of_look {doc : Manifest} {depName newVersion old : String}
    (hold : doc.look (dependencyPath depName) = some (.value (.str old))) :
    setDependency doc depName newVersion =
      .ok (doc.setAt (dependencyPath depName) (.leaf (.str newVersion))) := by
  simp only [dependencyPath, Document.look_cons, Option.bind_eq_some_iff] at hold
  obtain ⟨dependencies, hdependencies, entry, hentry, version, hversion, -⟩ := hold
  cases entry with
  | leaf value => cases hversion
  | table entries =>
    rw [setDependency, index_eq_ok.mpr hdependencies]
    show (index dependencies depName >>= _) = _
    rw [index_eq_ok.mpr hentry]
    rfl

/-- **The two places where the new manifest differs.** -/
theorem look_updated {doc doc' : Manifest} {depName newVersion bumpStrategy old : String}
    (hold : doc.look (dependencyPath depName) = some (.value (.str old)))
    (h : updated doc depName newVersion bumpStrategy = .ok doc') :
    ∃ currentVersionStr v w, doc.look packagePath = some (.value (.str currentVersionStr)) ∧
      parse currentVersionStr = some v ∧ VersionChecker.bumpVersion v bumpStrategy = some w ∧
      ∀ path, doc'.look path =
        if path = packagePath then some (.value (.str w.toString))
        else if path = dependencyPath depName then some (.value (.str newVersion))
        else doc.look path := by
  simp only [updated, bind_eq_ok, index_eq_ok, context_eq_ok] at h
  obtain ⟨doc₁, hset, package, hpackage, version, hversion, currentVersionStr, hstr, v, hv, h⟩ := h
  rw [setDependency_of_look hold, Except.ok.injEq] at hset
  subst hset
  split at h
  · cases h
  · rename_i w hw
    rw [Except.ok.injEq] at h
    subst h
    -- the version of the package is read after the dependency was written
    have hlook := Document.look_setAt (a := .str newVersion) hold
    have hpackage' : (doc.setAt (dependencyPath depName) (.leaf (.str newVersion))).look
        packagePath = some (.value (.str currentVersionStr)) := by
      simp [packagePath, hpackage, hversion, asStr_eq_some.mp hstr]
    have hne : packagePath ≠ dependencyPath depName := by simp [packagePath, dependencyPath]
    refine ⟨currentVersionStr, v, w, ?_, hv, hw, fun path => ?_⟩
    · rw [← hpackage', hlook, if_neg hne]
    · rw [Document.look_setAt hpackage', hlook]

/-- The file is as it was, or it has the new manifest. -/
theorem updateDependency_fst (readable writable : Bool) (cargo : CommandOutcome) (doc : Manifest)
    (depName newVersion bumpStrategy : String) :
    (updateDependency readable writable cargo doc depName newVersion bumpStrategy).1 = doc ∨
      updated doc depName newVersion bumpStrategy =
        .ok (updateDependency readable writable cargo doc depName newVersion bumpStrategy).1 := by
  unfold updateDependency
  split
  · exact Or.inl rfl
  · split
    · exact Or.inl rfl
    · rename_i doc' hdoc'
      split
      · exact Or.inr hdoc'
      · exact Or.inl rfl

/-- An update that succeeds has written the new manifest. -/
theorem updated_of_ok {readable writable : Bool} {cargo : CommandOutcome} {doc doc' : Manifest}
    {depName newVersion bumpStrategy : String}
    (h : updateDependency readable writable cargo doc depName newVersion bumpStrategy =
      (doc', .ok ())) : updated doc depName newVersion bumpStrategy = .ok doc' := by
  unfold updateDependency at h
  split at h
  · cases h
  · split at h
    · cases h
    · rename_i doc'' hdoc
      split at h
      · rw [Prod.mk.injEq] at h
        rw [hdoc, h.1]
      · cases h

end DependencyUpdater

end RactorActors.Xtask.Deps
