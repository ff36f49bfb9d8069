import RactorActors.Xtask.Deps.Updater

/-!
# The latest version on crates.io

`deps/crates_io.rs` of the `xtask` crate: the published versions of a crate, and the highest
stable one among them, against which the tool checks for a breaking update.

* `CratesIoClient.getLatestMajorVersion`: the highest stable version, or the error;
* `Published`: the versions that count, read off the list one by one;
* `update_check_complete`: the check against the highest one finds an update exactly if some
  version that counts is newer and incompatible.
-/

namespace RactorActors.Xtask.Deps

open Semver

/-- `VersionInfo` -/
structure VersionInfo where
  num : String
  yanked : Bool
deriving DecidableEq, Repr

/-- `CrateResponse` -/
structure CrateResponse where
  versions : List VersionInfo
deriving DecidableEq, Repr

/-- How a request to crates.io ends. -/
inductive Response
  | sendFails
  /-- The status is no success. -/
  | status (status : String)
  /-- The body is not the JSON that is expected. -/
  | undecodable
  | success (body : CrateResponse)
deriving DecidableEq, Repr

/-- `CRATES_IO_API` -/
def cratesIoApi : String := "https://crates.io/api/v1"

namespace CratesIoClient

/-- The versions among which the latest one is looked for: not yanked, parseable and stable. -/
def stableVersions (versions : List VersionInfo) : List Version :=
  ((versions.filter fun info => !info.yanked).filterMap fun info => parse info.num).filter
    fun v => v.pre.isEmpty

/-- `CratesIoClient::get_latest_major_version`, of a client that answers `get`. -/
def getLatestMajorVersion (get : String → Response) (crateName : String) :
    Except Failure Version :=
  let url := cratesIoApi ++ "/crates/" ++ crateName
  match get url with
  | .sendFails => .error (.error "Failed to send request to crates.io")
  | .status status => .error (.error s!"crates.io API returned error: {status}")
  | .undecodable => .error (.error "Failed to parse crates.io response")
  | .success crateInfo =>
    context "No stable versions found" (Version.latest (stableVersions crateInfo.versions))

/-! ## What the check against the latest version finds -/

/-- The list contains `v` as a version that is not yanked, can be parsed and is stable. -/
def Published (versions : List VersionInfo) (v : Version) : Prop :=
  ∃ info ∈ versions, info.yanked = false ∧ parse info.num = some v ∧ v.pre = []

theorem mem_stableVersions {versions : List VersionInfo} {v : Version} :
    v ∈ stableVersions versions ↔ Published versions v := by
  simp only [stableVersions, List.mem_filter, List.mem_filterMap, List.isEmpty_iff, Published,
    Bool.not_eq_true']
  constructor
  · rintro ⟨⟨info, ⟨hmem, hyanked⟩, hparse⟩, hpre⟩
    exact ⟨info, hmem, hyanked, hparse, hpre⟩
  · rintro ⟨info, hmem, hyanked, hparse, hpre⟩
    exact ⟨⟨info, ⟨hmem, hyanked⟩, hparse⟩, hpre⟩

/-- The latest version is published, and no published one has higher numbers. -/
theorem latest_stableVersions {versions : List VersionInfo} {latest : Version}
    (h : Version.latest (stableVersions versions) = some latest) :
    Published versions latest ∧
      ∀ v, Published versions v → v.numbers ≤ latest.numbers := by
  refine ⟨mem_stableVersions.mp (latest_mem h), fun v hv => ?_⟩
  obtain ⟨w, hw, hle⟩ := exists_latest (mem_stableVersions.mpr hv)
  rw [h, Option.some.injEq] at hw
  exact hw ▸ hle

/-- `is_major_update` to a release asks for a newer and incompatible one. -/
theorem isMajorUpdate_iff {current latest : Version} (hpre : latest.pre = []) :
    VersionChecker.isMajorUpdate current latest = true ↔
      current.compare latest = .lt ∧ current.Incompatible latest := by
  rw [VersionChecker.isMajorUpdate, Bool.and_eq_true, beq_iff_eq, Bool.not_eq_true']
  exact and_congr_right fun hlt => matchesCaret_eq_false_iff hlt hpre

/-- **The update check misses no breaking release.** For every list of published versions and
every current version, the check against the latest one alone finds an update exactly if some
published version that is not yanked, stable and parseable is newer than the current one and
incompatible with it. -/
theorem update_check_complete (versions : List VersionInfo) (crateName : String)
    (current : Version) :
    (∃ latest, getLatestMajorVersion (fun _ => .success ⟨versions⟩) crateName = .ok latest ∧
        VersionChecker.isMajorUpdate current latest = true) ↔
      ∃ info ∈ versions, ∃ v, info.yanked = false ∧ parse info.num = some v ∧ v.pre = [] ∧
        current.compare v = .lt ∧ current.Incompatible v := by
  simp only [getLatestMajorVersion, DependencyUpdater.context_eq_ok]
  constructor
  · rintro ⟨latest, hlatest, hmajor⟩
    obtain ⟨info, hmem, hyanked, hparse, hpre⟩ := (latest_stableVersions hlatest).1
    obtain ⟨hnewer, hbreaking⟩ := (isMajorUpdate_iff hpre).mp hmajor
    exact ⟨info, hmem, latest, hyanked, hparse, hpre, hnewer, hbreaking⟩
  · rintro ⟨info, hmem, v, hyanked, hparse, hpre, hnewer, hbreaking⟩
    have hv : Published versions v := ⟨info, hmem, hyanked, hparse, hpre⟩
    obtain ⟨latest, hlatest, hle⟩ := exists_latest (mem_stableVersions.mpr hv)
    obtain ⟨_, -, -, -, hstable⟩ := (latest_stableVersions hlatest).1
    -- the latest version is above the breaking one
    have hlt := numbers_lt_of_incompatible hnewer hbreaking
    refine ⟨latest, hlatest, (isMajorUpdate_iff hstable).mpr ⟨?_, hbreaking.mono hlt hle⟩⟩
    exact compare_eq_lt_of_numbers_lt (lt_of_lt_of_le hlt hle)

end CratesIoClient

end RactorActors.Xtask.Deps
