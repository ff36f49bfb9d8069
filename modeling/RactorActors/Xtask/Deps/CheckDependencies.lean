import RactorActors.Foundations.LabelledRun
import RactorActors.Xtask.Deps.PrGenerator

/-!
# One pull request for each dependency

`check_dependencies` of `deps/mod.rs`: the loop over the configured dependencies, which goes on
after every failure in the repository as the last one has left it. Only a pull request that was
opened to its end goes back to the branch that it began on, and only there is the manifest the one
of that branch again.

* `checkDependency` and `step`: one turn of the loop, with the outcome of everything that it calls;
* `OnlyUpdate`: a branch that was pushed changes one dependency and bumps the package once;
* `Residue`: what the dependencies that were checked before may have left in a manifest;
* `own_update_iff`: every branch that is pushed is such a branch exactly if each of them begins on
  the manifest of the base branch, with a bump strategy that there is;
* `update_of_another`: a pull request that could not be opened, and the next one.
-/

namespace RactorActors.Xtask.Deps

open LabelledRun Semver

/-- `CheckDepsOptions` -/
structure CheckDepsOptions where
  dryRun : Bool
  noPush : Bool
  ci : Bool
deriving DecidableEq

/-- `DependencyConfig` -/
structure DependencyConfig where
  enabled : Bool
  bumpStrategy : String
deriving DecidableEq

/-- A configured dependency, and how everything ends that the loop does for it. -/
structure Attempt where
  depName : String
  config : DependencyConfig
  /-- What `get_latest_major_version` returns. -/
  latest : Except String Version
  /-- The manifest can be read for its current version, and for its update. -/
  readable : Bool × Bool
  writable : Bool
  cargo : CommandOutcome
  pr : PrOutcomes

/-- A branch that was pushed for an update. -/
structure Push where
  depName : String
  newVersion : String
  manifest : Manifest
deriving DecidableEq

/-- A run of the tool. -/
structure State where
  repo : Repo
  /-- The dependencies that the loop has come to. -/
  checked : List String
  pushes : List Push
  panicked : Bool
deriving DecidableEq

open DependencyUpdater PrGenerator VersionChecker

/-- The end of the loop's body, once a major update was found. -/
def performUpdate (options : CheckDepsOptions) (s : State) (a : Attempt)
    (latestVersion : Version) : State :=
  if options.dryRun then s
  else
    match updateDependency a.readable.2 a.writable a.cargo s.repo.worktree a.depName
      latestVersion.toString a.config.bumpStrategy with
    | (manifest, .error (.error _)) => { s with repo.worktree := manifest }
    | (manifest, .error (.panic _)) => { s with repo.worktree := manifest, panicked := true }
    | (manifest, .ok ()) =>
      if !options.noPush && options.ci then
        let out := createPr a.depName latestVersion.toString a.pr
          { s.repo with worktree := manifest }
        { s with
          repo := out.1
          pushes := s.pushes ++ out.2.1.toList.map fun branch =>
            { depName := a.depName
              newVersion := latestVersion.toString
              manifest := branch.manifest } }
      else { s with repo.worktree := manifest }

/-- The body of the loop of `check_dependencies`. -/
def checkDependency (options : CheckDepsOptions) (s : State) (a : Attempt) : State :=
  if !a.config.enabled then s
  else
    match a.latest with
    | .error _ => s
    | .ok latestVersion =>
      match getCurrentVersion a.readable.1 s.repo.worktree a.depName with
      | .error (.error _) => s
      | .error (.panic _) => { s with panicked := true }
      | .ok currentVersion =>
        if isMajorUpdate currentVersion latestVersion then
          performUpdate options s a latestVersion
        else s

/-- One turn of the loop. The configuration has each dependency once. -/
def step (options : CheckDepsOptions) (s : State) (a : Attempt) : Option State :=
  if s.panicked || s.checked.contains a.depName then none
  else some { checkDependency options s a with checked := a.depName :: s.checked }

/-- The options of a CI run. -/
def ciRun : CheckDepsOptions where
  dryRun := false
  noPush := false
  ci := true

/-- Nothing is uncommitted. -/
def Repo.Clean (r : Repo) : Prop := r.index = r.head.manifest ∧ r.worktree = r.head.manifest

/-- The loop begins. -/
def start (repo : Repo) : State where
  repo := repo
  checked := []
  pushes := []
  panicked := false

/-! ## What a branch should contain -/

/-- One component is one higher, and those behind it are zero. -/
structure Bump (v w : Version) : Prop where
  release : w.pre = [] ∧ w.build = []
  component :
    (w.major.toNat = v.major.toNat + 1 ∧ w.minor = 0 ∧ w.patch = 0) ∨
    (w.major = v.major ∧ w.minor.toNat = v.minor.toNat + 1 ∧ w.patch = 0) ∨
    (w.major = v.major ∧ w.minor = v.minor ∧ w.patch.toNat = v.patch.toNat + 1)

/-- The manifest that was pushed differs from the base one in the version of its dependency and in
one bump of the package, and nowhere else. -/
structure OnlyUpdate (base : Manifest) (p : Push) : Prop where
  dependency : (∃ old, base.look (dependencyPath p.depName) = some (.value (.str old)) ∧
      old ≠ p.newVersion) ∧
    p.manifest.look (dependencyPath p.depName) = some (.value (.str p.newVersion))
  bumped : ∃ old v w, base.look packagePath = some (.value (.str old)) ∧ parse old = some v ∧
    Bump v w ∧ p.manifest.look packagePath = some (.value (.str w.toString))
  others : ∀ path, path ≠ dependencyPath p.depName → path ≠ packagePath →
    p.manifest.look path = base.look path

/-- The strategies that bump the version. -/
def bumpStrategies : List String := ["major", "minor", "patch"]

/-- The turn of a dependency comes to the push of its branch. -/
def Pushes (s : State) (a : Attempt) : Prop :=
  a.config.enabled = true ∧ ∃ latestVersion currentVersion manifest,
    a.latest = .ok latestVersion ∧
    getCurrentVersion a.readable.1 s.repo.worktree a.depName = .ok currentVersion ∧
    isMajorUpdate currentVersion latestVersion = true ∧
    updateDependency a.readable.2 a.writable a.cargo s.repo.worktree a.depName
      latestVersion.toString a.config.bumpStrategy = (manifest, .ok ()) ∧
    a.pr.ReachesPush s.repo.locals (branchName a.depName latestVersion.toString)

/-- The branch that a turn pushes begins on the manifest of the base branch, and its dependency
has a bump strategy that there is. -/
def OwnUpdate (base : Manifest) (s : State) (a : Attempt) : Prop :=
  Pushes s a → s.repo.worktree = base ∧ a.config.bumpStrategy ∈ bumpStrategies

/-! ## Bumps -/

theorem increment_eq_some {n m : UInt64} (h : increment n = some m) :
    m.toNat = n.toNat + 1 := by
  unfold increment at h
  split at h
  · rename_i hlt
    rw [Option.some.injEq] at h
    subst h
    rw [UInt64.toNat_add, UInt64.toNat_one]
    exact Nat.mod_eq_of_lt hlt
  · cases h

/-- A known strategy bumps the version once. -/
theorem bump_of_mem {v w : Version} {strategy : String} (hknown : strategy ∈ bumpStrategies)
    (h : bumpVersion v strategy = some w) : Bump v w := by
  simp only [bumpStrategies, List.mem_cons, List.not_mem_nil, or_false] at hknown
  rcases hknown with rfl | rfl | rfl
  all_goals
    simp only [bumpVersion, Option.map_eq_some_iff] at h
    obtain ⟨n, hn, rfl⟩ := h
    have hvalue := increment_eq_some hn
  · exact ⟨⟨rfl, rfl⟩, Or.inl ⟨hvalue, rfl, rfl⟩⟩
  · exact ⟨⟨rfl, rfl⟩, Or.inr (Or.inl ⟨rfl, hvalue, rfl⟩)⟩
  · exact ⟨⟨rfl, rfl⟩, Or.inr (Or.inr ⟨rfl, rfl, hvalue⟩)⟩

/-- Any other strategy leaves the version as it is. -/
theorem bumpVersion_of_not_mem {v : Version} {strategy : String}
    (hunknown : strategy ∉ bumpStrategies) : bumpVersion v strategy = some v := by
  unfold bumpVersion
  split
  · exact absurd (by decide) hunknown
  · exact absurd (by decide) hunknown
  · exact absurd (by decide) hunknown
  · rfl

/-- A version is no bump of itself. -/
theorem not_bump_self (v : Version) : ¬ Bump v v := by
  rintro ⟨-, h | h | h⟩ <;> omega

/-! ## One turn of the loop -/

/-- A turn that can be taken. -/
theorem eq_of_step {options : CheckDepsOptions} {s s' : State} {a : Attempt}
    (h : step options s a = some s') : s.panicked = false ∧ a.depName ∉ s.checked ∧
      s' = { checkDependency options s a with checked := a.depName :: s.checked } := by
  unfold step at h
  split at h
  · cases h
  · rename_i hgo
    rw [Bool.or_eq_true, not_or, Bool.not_eq_true, List.contains_iff_mem] at hgo
    rw [Option.some.injEq] at h
    exact ⟨hgo.1, hgo.2, h.symm⟩

/-- The turn of a dependency writes a manifest. -/
structure Writes (s : State) (a : Attempt) (latestVersion : Version) (manifest : Manifest) :
    Prop where
  major : ∃ readable currentVersion,
    getCurrentVersion readable s.repo.worktree a.depName = .ok currentVersion ∧
      isMajorUpdate currentVersion latestVersion = true
  updated : updated s.repo.worktree a.depName latestVersion.toString a.config.bumpStrategy =
    .ok manifest

/-- What one turn of the loop makes of the repository and of the branches pushed in a CI run. -/
inductive CheckCase (s : State) (a : Attempt) (repo : Repo) (pushes : List Push) : Prop
  | kept (hno : ¬ Pushes s a) (hrepo : repo = s.repo) (hpushes : pushes = s.pushes)
  /-- The manifest is written, and `cargo update` fails. -/
  | dirty (latestVersion : Version) (manifest : Manifest) (hno : ¬ Pushes s a)
      (hwrites : Writes s a latestVersion manifest)
      (hrepo : repo = { s.repo with worktree := manifest }) (hpushes : pushes = s.pushes)
  | unpushed (latestVersion : Version) (manifest : Manifest) (hno : ¬ Pushes s a)
      (hwrites : Writes s a latestVersion manifest)
      (hhead : repo.head.manifest = s.repo.head.manifest ∨ repo.head.manifest = manifest)
      (hworktree : repo.worktree = manifest) (hpushes : pushes = s.pushes)
  | pushed (latestVersion : Version) (manifest : Manifest) (hyes : Pushes s a)
      (hwrites : Writes s a latestVersion manifest)
      (hrepo : (repo.head.manifest = manifest ∧ repo.worktree = manifest) ∨
        (repo.head.manifest = s.repo.head.manifest ∧ repo.worktree = s.repo.head.manifest))
      (hpushes : pushes = s.pushes ++ [⟨a.depName, latestVersion.toString, manifest⟩])

/-- The turn of a dependency that has a major update. -/
theorem performUpdate_cases {s : State} {a : Attempt} {latestVersion currentVersion : Version}
    (henabled : a.config.enabled = true) (hlatest : a.latest = .ok latestVersion)
    (hcurrent : getCurrentVersion a.readable.1 s.repo.worktree a.depName = .ok currentVersion)
    (hmajor : isMajorUpdate currentVersion latestVersion = true) :
    CheckCase s a (performUpdate ciRun s a latestVersion).repo
      (performUpdate ciRun s a latestVersion).pushes := by
  have hpushes : Pushes s a ↔ ∃ manifest,
      updateDependency a.readable.2 a.writable a.cargo s.repo.worktree a.depName
        latestVersion.toString a.config.bumpStrategy = (manifest, .ok ()) ∧
      a.pr.ReachesPush s.repo.locals (branchName a.depName latestVersion.toString) := by
    constructor
    · rintro ⟨-, latestVersion', -, manifest, hok, -, -, hupdate, hreach⟩
      rw [hlatest, Except.ok.injEq] at hok
      subst hok
      exact ⟨manifest, hupdate, hreach⟩
    · rintro ⟨manifest, hupdate, hreach⟩
      exact ⟨henabled, latestVersion, currentVersion, manifest, hlatest, hcurrent, hmajor,
        hupdate, hreach⟩
  have hfst := updateDependency_fst a.readable.2 a.writable a.cargo s.repo.worktree a.depName
    latestVersion.toString a.config.bumpStrategy
  unfold performUpdate
  generalize hupdate : updateDependency a.readable.2 a.writable a.cargo s.repo.worktree a.depName
    latestVersion.toString a.config.bumpStrategy = out at hpushes hfst
  obtain ⟨manifest, result⟩ := out
  have hwrites (hok : updated s.repo.worktree a.depName latestVersion.toString
      a.config.bumpStrategy = .ok manifest) : Writes s a latestVersion manifest :=
    ⟨⟨a.readable.1, currentVersion, hcurrent, hmajor⟩, hok⟩
  cases result with
  | error failure =>
    have hno : ¬ Pushes s a := by
      rw [hpushes]
      rintro ⟨_, hok, -⟩
      cases hok
    -- the file may be written nevertheless
    rcases hfst with hsame | hok
    · obtain rfl : manifest = s.repo.worktree := hsame
      cases failure <;> exact .kept hno rfl rfl
    · cases failure <;> exact .dirty latestVersion manifest hno (hwrites hok) rfl rfl
  | ok _ =>
    have hwrites := hwrites (updated_of_ok hupdate)
    have hcase := createPr_cases a.depName latestVersion.toString a.pr
      { s.repo with worktree := manifest }
    show CheckCase s a (createPr a.depName latestVersion.toString a.pr
        { s.repo with worktree := manifest }).1
      (s.pushes ++ (createPr a.depName latestVersion.toString a.pr
        { s.repo with worktree := manifest }).2.1.toList.map fun branch =>
          { depName := a.depName
            newVersion := latestVersion.toString
            manifest := branch.manifest })
    generalize createPr a.depName latestVersion.toString a.pr
      { s.repo with worktree := manifest } = out at hcase
    cases hcase with
    | unpushed r' result hno hhead hworktree =>
      refine .unpushed latestVersion manifest ?_ hwrites hhead hworktree (by simp)
      rw [hpushes]
      rintro ⟨_, -, hreach⟩
      exact hno hreach
    | left r' failure hok hhead hworktree =>
      exact .pushed latestVersion manifest (hpushes.mpr ⟨manifest, rfl, hok⟩) hwrites
        (Or.inl ⟨hhead, hworktree⟩) rfl
    | returned r' hok hhead hworktree =>
      exact .pushed latestVersion manifest (hpushes.mpr ⟨manifest, rfl, hok⟩) hwrites
        (Or.inr ⟨congrArg Branch.manifest hhead, hworktree⟩) rfl

theorem checkDependency_cases (s : State) (a : Attempt) :
    CheckCase s a (checkDependency ciRun s a).repo (checkDependency ciRun s a).pushes := by
  unfold checkDependency
  split
  · rename_i hdisabled
    refine .kept (fun hpushes => ?_) rfl rfl
    rw [hpushes.1] at hdisabled
    cases hdisabled
  · rename_i henabled
    rw [Bool.not_eq_true', Bool.not_eq_false] at henabled
    split
    · rename_i message hlatest
      refine .kept (fun ⟨_, latestVersion, _, _, hok, _⟩ => ?_) rfl rfl
      rw [hok] at hlatest
      cases hlatest
    · rename_i latestVersion hlatest
      have hno {failure : Failure}
          (hcurrent : getCurrentVersion a.readable.1 s.repo.worktree a.depName = .error failure) :
          ¬ Pushes s a := by
        rintro ⟨-, -, currentVersion, -, -, hok, -⟩
        rw [hok] at hcurrent
        cases hcurrent
      split
      · rename_i message hcurrent
        exact .kept (hno hcurrent) rfl rfl
      · rename_i message hcurrent
        exact .kept (hno hcurrent) rfl rfl
      · rename_i currentVersion hcurrent
        split
        · rename_i hmajor
          exact performUpdate_cases henabled hlatest hcurrent hmajor
        · rename_i hminor
          refine .kept (fun ⟨_, latestVersion', currentVersion', _, hok, hok', hmajor, _⟩ => ?_)
            rfl rfl
          rw [hlatest, Except.ok.injEq] at hok
          rw [hcurrent, Except.ok.injEq] at hok'
          rw [← hok, ← hok'] at hmajor
          exact hminor hmajor

/-! ## What the dependencies before have left -/

/-- What may be left in a manifest by the dependencies that were checked. -/
structure Residue (base : Manifest) (checked : List String) (doc : Manifest) : Prop where
  unchecked : ∀ depName, depName ∉ checked →
    doc.look (dependencyPath depName) = base.look (dependencyPath depName)
  /-- If anything is left, then an update of one of them. -/
  left : doc = base ∨ ∃ depName ∈ checked,
    doc.look (dependencyPath depName) ≠ base.look (dependencyPath depName)

theorem dependencyPath_ne {depName depName' : String} (h : depName ≠ depName') :
    dependencyPath depName ≠ dependencyPath depName' := by
  simp [dependencyPath, h]

theorem dependencyPath_ne_packagePath (depName : String) :
    dependencyPath depName ≠ packagePath := by
  simp [dependencyPath, packagePath]

/-- The base manifest has no residue. -/
theorem residue_base (base : Manifest) (checked : List String) : Residue base checked base where
  unchecked := fun _ _ => rfl
  left := Or.inl rfl

/-- A residue stays one when more dependencies are checked. -/
theorem Residue.cons {base doc : Manifest} {checked : List String}
    (h : Residue base checked doc) (depName : String) : Residue base (depName :: checked) doc where
  unchecked := fun other hother => h.unchecked other fun hin => hother (List.mem_cons_of_mem _ hin)
  left := by
    rcases h.left with hsame | ⟨other, hother, hne⟩
    · exact Or.inl hsame
    · exact Or.inr ⟨other, List.mem_cons_of_mem _ hother, hne⟩

/-- What a turn writes. -/
theorem Writes.look {s : State} {a : Attempt} {latestVersion : Version} {manifest : Manifest}
    (h : Writes s a latestVersion manifest) :
    ∃ old currentVersionStr v w,
      s.repo.worktree.look (dependencyPath a.depName) = some (.value (.str old)) ∧
      old ≠ latestVersion.toString ∧
      s.repo.worktree.look packagePath = some (.value (.str currentVersionStr)) ∧
      parse currentVersionStr = some v ∧ bumpVersion v a.config.bumpStrategy = some w ∧
      ∀ path, manifest.look path =
        if path = packagePath then some (.value (.str w.toString))
        else if path = dependencyPath a.depName then some (.value (.str latestVersion.toString))
        else s.repo.worktree.look path := by
  obtain ⟨readable, currentVersion, hcurrent, hmajor⟩ := h.major
  obtain ⟨old, hold, hparsed⟩ := look_of_getCurrentVersion hcurrent
  obtain ⟨currentVersionStr, v, w, hpackage, hv, hw, hlook⟩ := look_updated hold h.updated
  refine ⟨old, currentVersionStr, v, w, hold, ?_, hpackage, hv, hw, hlook⟩
  -- the version that is there already is no update of itself
  rintro rfl
  rw [parseRequirement_toString, Option.some.injEq] at hparsed
  rw [isMajorUpdate, ← hparsed, latestVersion.compare_self] at hmajor
  cases hmajor

/-- The manifest that a turn writes has its update as a residue. -/
theorem Residue.of_writes {base : Manifest} {s : State} {a : Attempt} {latestVersion : Version}
    {manifest : Manifest} (h : Residue base s.checked s.repo.worktree)
    (hnew : a.depName ∉ s.checked) (hwrites : Writes s a latestVersion manifest) :
    Residue base (a.depName :: s.checked) manifest := by
  obtain ⟨old, -, -, w, hold, hne, -, -, -, hlook⟩ := hwrites.look
  constructor
  · intro depName hunchecked
    rw [List.mem_cons, not_or] at hunchecked
    rw [hlook, if_neg (dependencyPath_ne_packagePath depName),
      if_neg (dependencyPath_ne hunchecked.1), h.unchecked depName hunchecked.2]
  · -- the dependency was not checked before, so its version was the base one
    refine Or.inr ⟨a.depName, List.mem_cons_self, ?_⟩
    rw [hlook, if_neg (dependencyPath_ne_packagePath a.depName), if_pos rfl,
      ← h.unchecked a.depName hnew, hold]
    intro heq
    simp only [Option.some.injEq, Document.Node.value.injEq, TomlValue.str.injEq] at heq
    exact hne heq.symm

/-- **The invariant.** What the dependencies before may have left in the worktree and in the commit
that is checked out. -/
structure Leftover (base : Manifest) (s : State) : Prop where
  worktree : Residue base s.checked s.repo.worktree
  head : Residue base s.checked s.repo.head.manifest

/-- One turn of the loop that can be taken. -/
theorem of_step {s s' : State} {a : Attempt} (h : step ciRun s a = some s') :
    a.depName ∉ s.checked ∧ s'.checked = a.depName :: s.checked ∧
      CheckCase s a s'.repo s'.pushes := by
  obtain ⟨-, hnew, rfl⟩ := eq_of_step h
  exact ⟨hnew, rfl, checkDependency_cases s a⟩

/-- **Step lemma.** -/
theorem Leftover.step {base : Manifest} {s s' : State} {a : Attempt} (hs : Leftover base s)
    (h : step ciRun s a = some s') : Leftover base s' := by
  obtain ⟨hnew, hchecked, hcase⟩ := of_step h
  have hworktree := hs.worktree.cons a.depName
  have hhead := hs.head.cons a.depName
  cases hcase with
  | kept hno hrepo =>
    constructor
    · rw [hchecked, hrepo]
      exact hworktree
    · rw [hchecked, hrepo]
      exact hhead
  | dirty latestVersion manifest hno hwrites hrepo =>
    constructor
    · rw [hchecked, hrepo]
      exact hs.worktree.of_writes hnew hwrites
    · rw [hchecked, hrepo]
      exact hhead
  | unpushed latestVersion manifest hno hwrites hhead' hworktree' =>
    have hwritten := hs.worktree.of_writes hnew hwrites
    constructor
    · rw [hchecked, hworktree']
      exact hwritten
    · rw [hchecked]
      rcases hhead' with hsame | hcommitted
      · exact hsame ▸ hhead
      · exact hcommitted ▸ hwritten
  | pushed latestVersion manifest hyes hwrites hrepo =>
    have hwritten := hs.worktree.of_writes hnew hwrites
    rw [← hchecked] at hhead hwritten
    -- the tool stays on the branch, or goes back to the one that it began on
    rcases hrepo with ⟨hhead', hworktree'⟩ | ⟨hhead', hworktree'⟩
    · exact ⟨hworktree' ▸ hwritten, hhead' ▸ hwritten⟩
    · exact ⟨hworktree' ▸ hhead, hhead' ▸ hhead⟩

/-! ## Each branch is an update of its own -/

/-- An update of the base manifest with a known strategy is an update of its own. -/
theorem Writes.onlyUpdate {s : State} {a : Attempt} {latestVersion : Version} {manifest : Manifest}
    (h : Writes s a latestVersion manifest) (hknown : a.config.bumpStrategy ∈ bumpStrategies) :
    OnlyUpdate s.repo.worktree ⟨a.depName, latestVersion.toString, manifest⟩ := by
  obtain ⟨old, currentVersionStr, v, w, hold, hne, hpackage, hv, hw, hlook⟩ := h.look
  constructor
  · refine ⟨⟨old, hold, hne⟩, ?_⟩
    rw [hlook, if_neg (dependencyPath_ne_packagePath a.depName), if_pos rfl]
  · refine ⟨currentVersionStr, v, w, hpackage, hv, bump_of_mem hknown hw, ?_⟩
    rw [hlook, if_pos rfl]
  · intro path hdependency hpackagePath
    rw [hlook, if_neg hpackagePath, if_neg hdependency]

/-- Only on the base manifest and with a known strategy does an update come out as one of its
own. -/
theorem Writes.of_onlyUpdate {base : Manifest} {s : State} {a : Attempt} {latestVersion : Version}
    {manifest : Manifest} (h : Writes s a latestVersion manifest)
    (hres : Residue base s.checked s.repo.worktree) (hnew : a.depName ∉ s.checked)
    (honly : OnlyUpdate base ⟨a.depName, latestVersion.toString, manifest⟩) :
    s.repo.worktree = base ∧ a.config.bumpStrategy ∈ bumpStrategies := by
  obtain ⟨-, currentVersionStr, v, w, -, -, hpackage, hv, hw, hlook⟩ := h.look
  have hbase : s.repo.worktree = base := by
    rcases hres.left with hsame | ⟨other, hother, hne⟩
    · exact hsame
    · -- what another dependency has left would be in the branch too
      have hdiff : other ≠ a.depName := fun heq => hnew (heq ▸ hother)
      have hkept := honly.others (dependencyPath other) (dependencyPath_ne hdiff)
        (dependencyPath_ne_packagePath other)
      rw [hlook, if_neg (dependencyPath_ne_packagePath other),
        if_neg (dependencyPath_ne hdiff)] at hkept
      exact absurd hkept hne
  refine ⟨hbase, ?_⟩
  by_contra hunknown
  -- the version of the package is written again as it was
  obtain ⟨old, v', w', hold, hv', hbump, hwritten⟩ := honly.bumped
  rw [← hbase, hpackage] at hold
  simp only [Option.some.injEq, Document.Node.value.injEq, TomlValue.str.injEq] at hold
  rw [← hold, hv, Option.some.injEq] at hv'
  rw [bumpVersion_of_not_mem hunknown, Option.some.injEq] at hw
  rw [hlook, if_pos rfl] at hwritten
  simp only [Option.some.injEq, Document.Node.value.injEq, TomlValue.str.injEq] at hwritten
  rw [← toString_injective hwritten, ← hw, ← hv'] at hbump
  exact not_bump_self v hbump

/-- A turn keeps every branch pushed an update of its own exactly if the one that it pushes is. -/
theorem onlyUpdate_step {base : Manifest} {s s' : State} {a : Attempt} (hs : Leftover base s)
    (hpushes : ∀ p ∈ s.pushes, OnlyUpdate base p) (h : step ciRun s a = some s') :
    (∀ p ∈ s'.pushes, OnlyUpdate base p) ↔ OwnUpdate base s a := by
  obtain ⟨hnew, -, hcase⟩ := of_step h
  cases hcase with
  | kept hno _ hsame | dirty _ _ hno _ _ hsame | unpushed _ _ hno _ _ _ hsame =>
    rw [hsame]
    exact ⟨fun _ hyes => absurd hyes hno, fun _ => hpushes⟩
  | pushed latestVersion manifest hyes hwrites _ hmore =>
    rw [hmore]
    constructor
    · intro hall _
      -- the branch that is pushed now is an update of its own
      exact hwrites.of_onlyUpdate hs.worktree hnew
        (hall _ (List.mem_append_right _ (List.mem_singleton_self _)))
    · intro hown p hp
      obtain ⟨hbase, hknown⟩ := hown hyes
      rcases List.mem_append.mp hp with hbefore | hnow
      · exact hpushes p hbefore
      · rw [List.mem_singleton.mp hnow, ← hbase]
        exact hwrites.onlyUpdate hknown

/-- **Each pull request is an update of its own** throughout a run from a clean checkout, exactly
if each branch that is pushed begins on the base manifest, with a strategy that bumps the
version. -/
theorem own_update_iff (repo : Repo) (hclean : repo.Clean) (es : List Attempt) (s : State)
    (h : exec (step ciRun) (start repo) es = some s) :
    Run (step ciRun) (OwnUpdate repo.head.manifest) (start repo) es s ↔
      Throughout (step ciRun) (fun s => ∀ p ∈ s.pushes, OnlyUpdate repo.head.manifest p)
        (start repo) es := by
  refine run_iff_throughout (I := Leftover repo.head.manifest) h ?_ ?_ ?_ ?_
  · constructor
    · show Residue repo.head.manifest [] repo.worktree
      rw [hclean.2]
      exact residue_base _ _
    · exact residue_base _ _
  · intro p hp
    cases hp
  · exact fun _ _ _ hs _ _ hstep => hs.step hstep
  · exact fun _ _ _ hs hpushes hstep => onlyUpdate_step hs hpushes hstep

/-- A manifest with two dependencies. -/
def twoDependencies : Manifest :=
  .table [
    ("package", .table [
      ("name", .leaf (.str "ractor_actors")), ("version", .leaf (.str "0.7.0"))]),
    ("dependencies", .table [
      ("ractor", .table [
        ("version", .leaf (.str "0.16.0")), ("features", .leaf (.other "actor-macros"))]),
      ("cron", .table [
        ("version", .leaf (.str "0.17")), ("optional", .leaf (.other "true"))])])]

/-- A clean checkout of the base branch. -/
def baseCheckout : Repo where
  locals := ["main"]
  head := ⟨"main", twoDependencies⟩
  previous := none
  index := twoDependencies
  worktree := twoDependencies

/-- A major update of which every command succeeds but perhaps `gh pr create`. -/
def attempt (depName : String) (latestVersion : Version) (ghPrCreate : CommandOutcome) :
    Attempt where
  depName := depName
  config := { enabled := true, bumpStrategy := "minor" }
  latest := .ok latestVersion
  readable := (true, true)
  writable := true
  cargo := .success
  pr := {
    revParse := true
    checkoutNew := .success
    add := .success
    commit := .success
    push := .success
    ghPrCreate := ghPrCreate
    checkoutPrevious := .success }

/-- Two updates, each of which opens its pull request. -/
theorem own_update_iff_two :
    ∃ s, exec (step ciRun) (start baseCheckout)
      [attempt "ractor" (.release 0 17 0) .success, attempt "cron" (.release 0 18 0) .success] =
        some s ∧ s.pushes.length = 2 ∧ ∀ p ∈ s.pushes, OnlyUpdate twoDependencies p := by
  obtain ⟨s₁, h₁, hfirst⟩ : ∃ s₁, step ciRun (start baseCheckout)
      (attempt "ractor" (.release 0 17 0) .success) = some s₁ ∧
      (s₁.repo.worktree, (step ciRun s₁ (attempt "cron" (.release 0 18 0) .success)).map
        (·.pushes.length)) = (twoDependencies, some 2) :=
    Option.map_eq_some_iff.mp (by decide +kernel)
  obtain ⟨hworktree, hsecond⟩ := Prod.mk.inj hfirst
  obtain ⟨s₂, h₂, hlength⟩ := Option.map_eq_some_iff.mp hsecond
  -- the second update begins on the base manifest again
  have hrun : Run (step ciRun) (OwnUpdate twoDependencies) (start baseCheckout)
      [attempt "ractor" (.release 0 17 0) .success, attempt "cron" (.release 0 18 0) .success] s₂ :=
    .cons (fun _ => ⟨rfl, by decide⟩) h₁ (.cons (fun _ => ⟨hworktree, by decide⟩) h₂ (.nil s₂))
  exact ⟨s₂, hrun.exec_eq, hlength,
    ((own_update_iff baseCheckout ⟨rfl, rfl⟩ _ s₂ hrun.exec_eq).mp hrun).last hrun.exec_eq⟩

/-- **An update of another dependency.** The label of the first pull request does not exist, so it
is not opened and the tool stays on its branch: the branch of the second one has both updates and
two bumps. -/
theorem update_of_another :
    ¬ ∀ (repo : Repo) (es : List Attempt) (s : State), repo.Clean →
        exec (step ciRun) (start repo) es = some s →
          ∀ p ∈ s.pushes, OnlyUpdate repo.head.manifest p := by
  intro hall
  -- both branches are pushed, and the second one has the first one's update
  obtain ⟨s, hs, hpushes⟩ : ∃ s, exec (step ciRun) (start baseCheckout)
      [attempt "ractor" (.release 0 17 0) (.exits "could not add label: not found"),
        attempt "cron" (.release 0 18 0) .success] = some s ∧
      s.pushes.map (fun p => (p.depName, p.manifest.look (dependencyPath "ractor"))) =
        [("ractor", some (.value (.str "0.17.0"))), ("cron", some (.value (.str "0.17.0")))] :=
    Option.map_eq_some_iff.mp (by decide +kernel)
  obtain ⟨p, hp, hlook⟩ : ∃ p ∈ s.pushes,
      (p.depName, p.manifest.look (dependencyPath "ractor")) =
        ("cron", some (.value (.str "0.17.0"))) := by
    rw [← List.mem_map, hpushes]
    exact List.mem_cons_of_mem _ (List.mem_singleton_self _)
  obtain ⟨hname, hractor⟩ := Prod.mk.inj hlook
  have hkept := (hall baseCheckout _ s ⟨rfl, rfl⟩ hs p hp).others (dependencyPath "ractor")
    (by rw [hname]; decide) (by decide)
  rw [hractor] at hkept
  exact absurd hkept (by decide)

end RactorActors.Xtask.Deps
