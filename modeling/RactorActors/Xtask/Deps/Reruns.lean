import RactorActors.Xtask.Deps.CheckDependencies
import RactorActors.Xtask.Deps.CratesIo

/-!
# Any number of runs of the dependency tracker

`check-deps` is run again and again, each time with any options and in a checkout as the run before
has left it: on `main`, or on the branch of a pull request that could not be opened, with or without
changes that are not committed. Whatever fails on the way, what is in the manifest is the one that
it began with and a list of updates.

* `Turn` and `turn`: the runs, one dependency at a time;
* `Made`: a manifest is another one with a list of updates, each of which asks for a version that
  is newer than the one before and incompatible with it, and one bump of the package for each;
* `runs_only_update`: so it is with the manifest in the worktree, and with every branch pushed;
* `updates_rise_and_stay`: the updates in the worktree stay there and only higher ones come, until
  a pull request is opened and the tool goes back to the branch before;
* `branches_are_new`: no branch that was there before is ever committed to or pushed.
-/

namespace RactorActors.Xtask.Deps

open LabelledRun Semver DependencyUpdater PrGenerator VersionChecker

/-- An update of a dependency. -/
structure Update where
  depName : String
  version : Version
  bumpStrategy : String

/-- A step of the runs. -/
inductive Turn
  /-- The loop comes to a dependency. -/
  | check (a : Attempt)
  /-- The tool is run again, with these options. -/
  | rerun (options : CheckDepsOptions)

/-- The runs in one checkout, with the options of the one that is going on. -/
structure Runs extends State where
  options : CheckDepsOptions

/-- The first run begins. -/
def Runs.start (options : CheckDepsOptions) (repo : Repo) : Runs where
  toState := Deps.start repo
  options

/-- The update that a turn is for, if the dependency is enabled and there is a version of it. -/
def Turn.update : Turn → Option Update
  | .check a =>
    match a.config.enabled, a.latest with
    | true, .ok latestVersion => some ⟨a.depName, latestVersion, a.config.bumpStrategy⟩
    | _, _ => none
  | .rerun _ => none

/-- The versions come from crates.io. -/
def Turn.Fetched : Turn → Prop
  | .check a => ∀ latestVersion, a.latest = .ok latestVersion →
    ∃ get, CratesIoClient.getLatestMajorVersion get a.depName = .ok latestVersion
  | .rerun _ => True

/-- One step of the runs. A run that has panicked is over, and the next one begins afresh. -/
def turn (r : Runs) : Turn → Option Runs
  | .check a => (step r.options r.toState a).map fun s => { r with toState := s }
  | .rerun options => some { r with checked := [], panicked := false, options }

/-- No pull request is to be opened. -/
def CheckDepsOptions.isLocal (options : CheckDepsOptions) : Bool :=
  options.dryRun || options.noPush || !options.ci

/-- The turn opens its pull request, and goes back to the branch that it began on. -/
def OpensPr (r : Runs) : Turn → Prop
  | .check a => r.options.isLocal = false ∧ Pushes r.toState a ∧ a.pr.Opens
  | .rerun _ => False

/-- The branch that was pushed. -/
def Push.branch (p : Push) : String := branchName p.depName p.newVersion

/-! ## A manifest and the updates made to it -/

/-- What a manifest requires of a dependency after `updates`, the newest of which comes first. -/
def required (base : Manifest) (depName : String) (updates : List Update) :
    Option (Document.Node String TomlValue) :=
  match updates.find? (·.depName == depName) with
  | some u => some (.value (.str u.version.toString))
  | none => base.look (dependencyPath depName)

/-- Each update asks for a newer and incompatible version. -/
def Ascending (base : Manifest) : List Update → Prop
  | [] => True
  | u :: updates =>
    (∃ old current, required base u.depName updates = some (.value (.str old)) ∧
      parseRequirement old = some current ∧ isMajorUpdate current u.version = true) ∧
    Ascending base updates

/-- The version of the package after its bumps. -/
def bumped (v : Version) : List Update → Option Version
  | [] => some v
  | u :: updates => (bumped v updates).bind (bumpVersion · u.bumpStrategy)

/-- `doc` is `base` with `updates`, and differs from it nowhere else. -/
structure Made (base : Manifest) (updates : List Update) (doc : Manifest) : Prop where
  dependency : ∀ depName, doc.look (dependencyPath depName) = required base depName updates
  ascending : Ascending base updates
  package : (updates = [] ∧ doc.look packagePath = base.look packagePath) ∨
    ∃ text v w, base.look packagePath = some (.value (.str text)) ∧ parse text = some v ∧
      bumped v updates = some w ∧ doc.look packagePath = some (.value (.str w.toString))
  others : ∀ path, path ≠ packagePath → (∀ u ∈ updates, path ≠ dependencyPath u.depName) →
    doc.look path = base.look path

/-- Nothing is updated at first. -/
theorem made_base (base : Manifest) : Made base [] base where
  dependency _ := rfl
  ascending := trivial
  package := Or.inl ⟨rfl, rfl⟩
  others _ _ _ := rfl

/-- A dependency that was not updated has the version that it began with. -/
theorem Made.look {base doc : Manifest} {updates : List Update} (h : Made base updates doc)
    {depName : String} (hnew : ∀ u ∈ updates, u.depName ≠ depName) :
    doc.look (dependencyPath depName) = base.look (dependencyPath depName) := by
  have hnone : updates.find? (·.depName == depName) = none :=
    List.find?_eq_none.mpr fun u hu hsame => hnew u hu (beq_iff_eq.mp hsame)
  rw [h.dependency, required, hnone]

/-- **One more update.** -/
theorem Made.of_writes {base manifest : Manifest} {updates : List Update} {s : State} {a : Attempt}
    {latestVersion : Version} (h : Made base updates s.repo.worktree)
    (hwrites : Writes s a latestVersion manifest) :
    Made base (⟨a.depName, latestVersion, a.config.bumpStrategy⟩ :: updates) manifest := by
  obtain ⟨old, text, v, w, hold, -, hpackage, hv, hw, hlook⟩ := hwrites.look
  obtain ⟨readable, current, hcurrent, hmajor⟩ := hwrites.major
  refine ⟨fun depName => ?_, ⟨?_, h.ascending⟩, Or.inr ?_, fun path hpath hothers => ?_⟩
  · rw [hlook, if_neg (dependencyPath_ne_packagePath depName), required, List.find?_cons]
    by_cases hsame : a.depName = depName
    · rw [hsame, if_pos rfl, beq_self_eq_true]
    · rw [if_neg (Ne.symm (dependencyPath_ne hsame)), h.dependency, beq_false_of_ne hsame]
      rfl
  · -- the version that it found there is what the updates before have left
    obtain ⟨old', hold', hparse⟩ := look_of_getCurrentVersion hcurrent
    exact ⟨old', current, h.dependency a.depName ▸ hold', hparse, hmajor⟩
  · rcases h.package with ⟨rfl, hbase⟩ | ⟨text₀, v₀, w₀, htext, hv₀, hbumped, hdoc⟩
    · exact ⟨text, v, w, hbase ▸ hpackage, hv, by simpa [bumped] using hw,
        by rw [hlook, if_pos rfl]⟩
    · -- the package's version is read back as the last bump has written it
      rw [hdoc] at hpackage
      simp only [Option.some.injEq, Document.Node.value.injEq, TomlValue.str.injEq] at hpackage
      rw [← hpackage, parse_toString, Option.some.injEq] at hv
      refine ⟨text₀, v₀, w, htext, hv₀, ?_, by rw [hlook, if_pos rfl]⟩
      rw [bumped, hbumped, Option.bind_some, hv, hw]
  · rw [hlook, if_neg hpath, if_neg (hothers _ List.mem_cons_self)]
    exact h.others path hpath fun u hu => hothers u (List.mem_cons_of_mem _ hu)

/-- **Updates rise.** Among the updates of one dependency to stable versions, the later
one has the higher numbers. -/
theorem Ascending.pairwise {base : Manifest} {updates : List Update} (h : Ascending base updates)
    (hstable : ∀ u ∈ updates, u.version.pre = []) :
    updates.Pairwise fun newer older =>
      older.depName = newer.depName → older.version.numbers < newer.version.numbers := by
  induction updates with
  | nil => exact List.Pairwise.nil
  | cons u updates ih =>
    obtain ⟨⟨old, current, hrequired, hparse, hmajor⟩, hrest⟩ := h
    have hpairwise := ih hrest fun u' hu' => hstable u' (List.mem_cons_of_mem _ hu')
    refine List.Pairwise.cons (fun older holder hsame => ?_) hpairwise
    obtain ⟨hnewer, hbreaking⟩ := (CratesIoClient.isMajorUpdate_iff
      (hstable u List.mem_cons_self)).mp hmajor
    have hlt := numbers_lt_of_incompatible hnewer hbreaking
    unfold required at hrequired
    cases hfind : updates.find? (·.depName == u.depName) with
    | none =>
      have hnone := List.find?_eq_none.mp hfind older holder
      rw [hsame, beq_self_eq_true] at hnone
      exact absurd rfl hnone
    | some last =>
      -- the version before is the one that the last update of the dependency has written
      simp only [hfind, Option.some.injEq, Document.Node.value.injEq, TomlValue.str.injEq]
        at hrequired
      rw [← hrequired, parseRequirement_toString, Option.some.injEq] at hparse
      rw [← hparse] at hlt
      obtain ⟨-, before, after, hsplit, hbefore⟩ := List.find?_eq_some_iff_append.mp hfind
      rw [hsplit, List.mem_append, List.mem_cons] at holder
      rcases holder with hin | rfl | hin
      · have hne := hbefore older hin
        rw [hsame, beq_self_eq_true] at hne
        cases hne
      · exact hlt
      · rw [hsplit] at hpairwise
        have hlast := (List.find?_some hfind)
        have hlater := (List.pairwise_cons.mp (List.pairwise_append.mp hpairwise).2.1).1 older hin
        exact lt_trans (hlater (hsame.trans (beq_iff_eq.mp hlast).symm)) hlt

/-! ## One turn -/

/-- What a turn makes of the repository and of the branches that were pushed. -/
inductive TurnCase (r r' : Runs) : Turn → Prop
  | kept (t : Turn) (hrepo : r'.repo = r.repo) (hpushes : r'.pushes = r.pushes) : TurnCase r r' t
  /-- The manifest is written. -/
  | written (a : Attempt) (latestVersion : Version) (manifest : Manifest)
      (hupdate : (Turn.check a).update =
        some ⟨a.depName, latestVersion, a.config.bumpStrategy⟩)
      (hwrites : Writes r.toState a latestVersion manifest)
      (hrepo : r'.repo = { r.repo with worktree := manifest }) (hpushes : r'.pushes = r.pushes) :
      TurnCase r r' (.check a)
  /-- The manifest is written, and a pull request is begun. -/
  | requested (a : Attempt) (latestVersion : Version) (manifest : Manifest)
      (hci : r.options.isLocal = false)
      (hupdate : (Turn.check a).update =
        some ⟨a.depName, latestVersion, a.config.bumpStrategy⟩)
      (hwrites : Writes r.toState a latestVersion manifest)
      (hpushing : a.pr.ReachesPush r.repo.locals (branchName a.depName latestVersion.toString) →
        Pushes r.toState a)
      (out : Repo × Option Branch × Except Failure Unit)
      (hout : out = createPr a.depName latestVersion.toString a.pr
        { r.repo with worktree := manifest })
      (hrepo : r'.repo = out.1)
      (hpushes : r'.pushes = r.pushes ++ out.2.1.toList.map fun branch =>
        { depName := a.depName
          newVersion := latestVersion.toString
          manifest := branch.manifest }) :
      TurnCase r r' (.check a)

/-- A dependency that has a major update. -/
theorem turn_cases_update {r : Runs} {a : Attempt} {latestVersion currentVersion : Version}
    (henabled : a.config.enabled = true) (hlatest : a.latest = .ok latestVersion)
    (hcurrent : getCurrentVersion a.readable.1 r.repo.worktree a.depName = .ok currentVersion)
    (hmajor : isMajorUpdate currentVersion latestVersion = true) (checked : List String) :
    TurnCase r
      { r with
        toState := { performUpdate r.options r.toState a latestVersion with checked } }
      (.check a) := by
  have hupdate : (Turn.check a).update =
      some ⟨a.depName, latestVersion, a.config.bumpStrategy⟩ := by
    simp only [Turn.update, henabled, hlatest]
  have hwrites {manifest : Manifest} (hok : updated r.repo.worktree a.depName
      latestVersion.toString a.config.bumpStrategy = .ok manifest) :
      Writes r.toState a latestVersion manifest :=
    ⟨⟨a.readable.1, currentVersion, hcurrent, hmajor⟩, hok⟩
  have hfst := updateDependency_fst a.readable.2 a.writable a.cargo r.repo.worktree a.depName
    latestVersion.toString a.config.bumpStrategy
  unfold performUpdate
  split
  · exact .kept _ rfl rfl
  · rename_i hdry
    rw [Bool.not_eq_true] at hdry
    generalize hout : updateDependency a.readable.2 a.writable a.cargo r.repo.worktree a.depName
      latestVersion.toString a.config.bumpStrategy = out at hfst
    obtain ⟨manifest, result⟩ := out
    cases result with
    | error failure =>
      -- the file may be written nevertheless
      rcases hfst with hsame | hok
      · obtain rfl : manifest = r.repo.worktree := hsame
        cases failure <;> exact .kept _ rfl rfl
      · cases failure <;>
          exact .written a latestVersion manifest hupdate (hwrites hok) rfl rfl
    | ok _ =>
      have hok := hwrites (updated_of_ok hout)
      dsimp only
      split
      · rename_i hci
        refine .requested a latestVersion manifest ?_ hupdate hok (fun hreach => ?_) _ rfl rfl rfl
        · rw [Bool.and_eq_true, Bool.not_eq_true'] at hci
          rw [CheckDepsOptions.isLocal, hdry, hci.1, hci.2]
          rfl
        · exact ⟨henabled, latestVersion, currentVersion, manifest, hlatest, hcurrent, hmajor, hout,
            hreach⟩
      · exact .written a latestVersion manifest hupdate hok rfl rfl

theorem turn_cases {r r' : Runs} {t : Turn} (h : turn r t = some r') : TurnCase r r' t := by
  cases t with
  | rerun options =>
    cases h
    exact .kept _ rfl rfl
  | check a =>
    rw [turn, Option.map_eq_some_iff] at h
    obtain ⟨s, hstep, rfl⟩ := h
    obtain ⟨-, -, rfl⟩ := eq_of_step hstep
    unfold checkDependency
    split
    · exact .kept _ rfl rfl
    · rename_i henabled
      rw [Bool.not_eq_true', Bool.not_eq_false] at henabled
      split
      · exact .kept _ rfl rfl
      · rename_i latestVersion hlatest
        split
        · exact .kept _ rfl rfl
        · exact .kept _ rfl rfl
        · rename_i currentVersion hcurrent
          split
          · rename_i hmajor
            exact turn_cases_update henabled hlatest hcurrent hmajor _
          · exact .kept _ rfl rfl

/-- What a turn makes of the manifests. -/
inductive ManifestCase (r r' : Runs) (t : Turn) : Prop
  | same (hworktree : r'.repo.worktree = r.repo.worktree) (hhead : r'.repo.head = r.repo.head)
      (hpushes : r'.pushes = r.pushes)
  /-- An update is written, and perhaps committed and pushed. -/
  | written (a : Attempt) (latestVersion : Version)
      (hupdate : t.update = some ⟨a.depName, latestVersion, a.config.bumpStrategy⟩)
      (hwrites : Writes r.toState a latestVersion r'.repo.worktree)
      (hhead : r'.repo.head.manifest = r.repo.head.manifest ∨
        r'.repo.head.manifest = r'.repo.worktree)
      (hpushes : r'.pushes = r.pushes ∨
        r'.pushes = r.pushes ++ [⟨a.depName, latestVersion.toString, r'.repo.worktree⟩])
  /-- Its pull request is opened, and the files are those of the branch before. -/
  | opened (a : Attempt) (latestVersion : Version) (manifest : Manifest) (hopens : OpensPr r t)
      (hupdate : t.update = some ⟨a.depName, latestVersion, a.config.bumpStrategy⟩)
      (hwrites : Writes r.toState a latestVersion manifest)
      (hhead : r'.repo.head = r.repo.head) (hworktree : r'.repo.worktree = r.repo.head.manifest)
      (hpushes : r'.pushes = r.pushes ++ [⟨a.depName, latestVersion.toString, manifest⟩])

theorem manifest_cases {r r' : Runs} {t : Turn} (h : turn r t = some r') :
    ManifestCase r r' t := by
  cases turn_cases h with
  | kept _ hrepo hpushes => exact .same (by rw [hrepo]) (by rw [hrepo]) hpushes
  | written a latestVersion manifest hupdate hwrites hrepo hpushes =>
    refine .written a latestVersion hupdate ?_ (Or.inl (by rw [hrepo])) (Or.inl hpushes)
    rw [hrepo]
    exact hwrites
  | requested a latestVersion manifest hci hupdate hwrites hpushing out hout hrepo hpushes =>
    have hcase := createPr_cases a.depName latestVersion.toString a.pr
      { r.repo with worktree := manifest }
    rw [← hout] at hcase
    cases hcase with
    | unpushed repo result _ hhead hworktree =>
      obtain rfl : r'.repo = repo := hrepo
      obtain rfl : r'.repo.worktree = manifest := hworktree
      refine .written a latestVersion hupdate hwrites hhead (Or.inl ?_)
      rw [hpushes]
      exact List.append_nil _
    | left repo failure _ hhead hworktree =>
      obtain rfl : r'.repo = repo := hrepo
      obtain rfl : r'.repo.worktree = manifest := hworktree
      exact .written a latestVersion hupdate hwrites (Or.inr hhead) (Or.inr hpushes)
    | returned repo hok hhead hworktree hopens =>
      obtain rfl : r'.repo = repo := hrepo
      exact .opened a latestVersion manifest ⟨hci, hpushing hok, hopens⟩ hupdate hwrites hhead
        hworktree hpushes

/-! ## The manifest after any number of runs -/

/-- `doc` is `base` with updates that some of the turns `ts` are for. -/
def MadeBy (ts : List Turn) (base : Manifest) (updates : List Update) (doc : Manifest) : Prop :=
  Made base updates doc ∧ ∀ u ∈ updates, ∃ t ∈ ts, t.update = some u

/-- More turns are for the same updates. -/
theorem MadeBy.mono {ts ts' : List Turn} {base doc : Manifest} {updates : List Update}
    (h : MadeBy ts base updates doc) (hsub : ts ⊆ ts') : MadeBy ts' base updates doc := by
  refine ⟨h.1, fun u hu => ?_⟩
  obtain ⟨t, ht, hupdate⟩ := h.2 u hu
  exact ⟨t, hsub ht, hupdate⟩

/-- **One more update.** -/
theorem MadeBy.of_writes {ts : List Turn} {base manifest : Manifest} {updates : List Update}
    {s : State} (h : MadeBy ts base updates s.repo.worktree) {t : Turn} (ht : t ∈ ts)
    {a : Attempt} {latestVersion : Version}
    (hupdate : t.update = some ⟨a.depName, latestVersion, a.config.bumpStrategy⟩)
    (hwrites : Writes s a latestVersion manifest) :
    MadeBy ts base (⟨a.depName, latestVersion, a.config.bumpStrategy⟩ :: updates) manifest :=
  ⟨h.1.of_writes hwrites, List.forall_mem_cons.mpr ⟨⟨t, ht, hupdate⟩, h.2⟩⟩

/-- The updates in the worktree, in the commit that is checked out and in the branches pushed. -/
structure Updates (ts : List Turn) (base : Manifest) (s : State) : Prop where
  worktree : ∃ updates, MadeBy ts base updates s.repo.worktree
  head : ∃ updates, MadeBy ts base updates s.repo.head.manifest
  pushes : ∀ p ∈ s.pushes, ∃ u updates, u.depName = p.depName ∧
    u.version.toString = p.newVersion ∧ MadeBy ts base (u :: updates) p.manifest

/-- **Step lemma.** -/
theorem Updates.turn {ts : List Turn} {base : Manifest} {r r' : Runs} {t : Turn}
    (hs : Updates ts base r.toState) (ht : t ∈ ts) (h : turn r t = some r') :
    Updates ts base r'.toState := by
  obtain ⟨updates, hmade⟩ := hs.worktree
  have hpushed {u : Update} {manifest : Manifest} (hnew : MadeBy ts base (u :: updates) manifest)
      (hpushes : r'.pushes = r.pushes ++ [⟨u.depName, u.version.toString, manifest⟩]) :
      ∀ p ∈ r'.pushes, ∃ u updates, u.depName = p.depName ∧
        u.version.toString = p.newVersion ∧ MadeBy ts base (u :: updates) p.manifest := by
    rw [hpushes]
    exact List.forall_mem_append.mpr ⟨hs.pushes,
      List.forall_mem_singleton.mpr ⟨u, updates, rfl, rfl, hnew⟩⟩
  cases manifest_cases h with
  | same hworktree hhead hpushes =>
    exact ⟨hworktree ▸ hs.worktree, hhead ▸ hs.head, hpushes ▸ hs.pushes⟩
  | written a latestVersion hupdate hwrites hhead hpushes =>
    have hnew := hmade.of_writes ht hupdate hwrites
    refine ⟨⟨_, hnew⟩, ?_, ?_⟩
    · -- the commit may have gone through
      rcases hhead with hsame | hcommitted
      · exact hsame ▸ hs.head
      · exact hcommitted ▸ ⟨_, hnew⟩
    · rcases hpushes with hsame | hpushes
      · exact hsame ▸ hs.pushes
      · exact hpushed hnew hpushes
  | opened a latestVersion manifest _ hupdate hwrites hhead hworktree hpushes =>
    exact ⟨hworktree ▸ hs.head, hhead ▸ hs.head,
      hpushed (hmade.of_writes ht hupdate hwrites) hpushes⟩

/-- The updates after any number of runs that begin in a clean checkout. -/
theorem updates_of_exec {options : CheckDepsOptions} {repo : Repo} (hclean : repo.Clean)
    {ts : List Turn} {r : Runs} (h : exec turn (Runs.start options repo) ts = some r) :
    Updates ts repo.head.manifest r.toState := by
  have hrun := run_of_forall_mem (G := fun _ t => t ∈ ts) h fun t ht _ => ht
  refine hrun.invariant (P := fun r => Updates ts repo.head.manifest r.toState)
    ⟨?_, ?_, fun _ hp => absurd hp List.not_mem_nil⟩ fun s t s' hs ht hstep => hs.turn ht hstep
  · exact ⟨[], hclean.2 ▸ made_base _, fun _ hu => absurd hu List.not_mem_nil⟩
  · exact ⟨[], made_base _, fun _ hu => absurd hu List.not_mem_nil⟩

/-- **Runs only update.** In a clean checkout, after any number of runs with any options each and
whatever has failed in them: the manifest in the worktree, and that of every branch that was pushed,
is the one of the base branch with a list of updates and one bump for each. In a branch that was
pushed, the last of them is the one that it is named after. -/
theorem runs_only_update {options : CheckDepsOptions} {repo : Repo} (hclean : repo.Clean)
    {ts : List Turn} {r : Runs} (h : exec turn (Runs.start options repo) ts = some r) :
    (∃ updates, MadeBy ts repo.head.manifest updates r.repo.worktree) ∧
    ∀ p ∈ r.pushes, ∃ u updates, u.depName = p.depName ∧ u.version.toString = p.newVersion ∧
      MadeBy ts repo.head.manifest (u :: updates) p.manifest :=
  ⟨(updates_of_exec hclean h).worktree, (updates_of_exec hclean h).pushes⟩

/-- An update whose pull request could not be opened, a second run that finds its branch, and an
update of another dependency. -/
theorem runs_only_update_two_runs :
    ∃ ts r, exec turn (Runs.start ciRun baseCheckout) ts = some r ∧ r.pushes.length = 2 ∧
      ∀ p ∈ r.pushes, ∃ u updates, u.depName = p.depName ∧ u.version.toString = p.newVersion ∧
        MadeBy ts twoDependencies (u :: updates) p.manifest := by
  let ts : List Turn :=
    [.check (attempt "ractor" (.release 0 17 0) (.exits "could not add label: not found")),
      .rerun ciRun, .check (attempt "ractor" (.release 0 17 0) .success),
      .check (attempt "cron" (.release 0 18 0) .success)]
  obtain ⟨r, hr, hlength⟩ : ∃ r, exec turn (Runs.start ciRun baseCheckout) ts = some r ∧
      r.pushes.length = 2 := Option.map_eq_some_iff.mp (by decide +kernel)
  exact ⟨ts, r, hr, hlength, (runs_only_update ⟨rfl, rfl⟩ hr).2⟩

/-- The later update has the higher numbers, if they are of one dependency. -/
def Update.Overtakes (newer older : Update) : Prop :=
  older.depName = newer.depName → older.version.numbers < newer.version.numbers

/-- What is updated to versions from crates.io is updated to stable ones. -/
theorem stable_of_fetched {ts : List Turn} (hfetched : ∀ t ∈ ts, t.Fetched) {u : Update}
    (hu : ∃ t ∈ ts, t.update = some u) : u.version.pre = [] := by
  obtain ⟨t, ht, hupdate⟩ := hu
  cases t with
  | rerun => cases hupdate
  | check a =>
    simp only [Turn.update] at hupdate
    split at hupdate
    · rename_i latestVersion _ hlatest
      rw [Option.some.injEq] at hupdate
      subst hupdate
      obtain ⟨get, hget⟩ := hfetched _ ht latestVersion hlatest
      simp only [CratesIoClient.getLatestMajorVersion] at hget
      split at hget
      · cases hget
      · cases hget
      · cases hget
      · obtain ⟨_, -, -, -, hpre⟩ :=
          (CratesIoClient.latest_stableVersions (context_eq_ok.mp hget)).1
        exact hpre
    · cases hupdate

/-- The updates that turns with versions from crates.io make overtake each other. -/
theorem MadeBy.overtakes {ts : List Turn} (hfetched : ∀ t ∈ ts, t.Fetched) {base doc : Manifest}
    {updates : List Update} (h : MadeBy ts base updates doc) :
    updates.Pairwise Update.Overtakes :=
  h.1.ascending.pairwise fun u hu => stable_of_fetched hfetched (h.2 u hu)

/-- **Updates stay.** A turn that opens no pull request to its end leaves the updates in the
worktree, and puts at most its own on top. -/
theorem MadeBy.stays {ts : List Turn} {base : Manifest} {updates : List Update} {r r' : Runs}
    {t : Turn} (h : MadeBy ts base updates r.repo.worktree) (ht : t ∈ ts)
    (hopens : ¬ OpensPr r t) (hturn : turn r t = some r') :
    ∃ new, MadeBy ts base (new ++ updates) r'.repo.worktree ∧ ∀ u ∈ new, t.update = some u := by
  cases manifest_cases hturn with
  | same hworktree =>
    exact ⟨[], hworktree ▸ h, fun _ hu => absurd hu List.not_mem_nil⟩
  | written a latestVersion hupdate hwrites =>
    exact ⟨[_], h.of_writes ht hupdate hwrites, List.forall_mem_singleton.mpr hupdate⟩
  | opened _ _ _ hopened => exact absurd hopened hopens

/-- The updates in the worktree stay there while no pull request is opened to its end. -/
theorem MadeBy.stays_of_run {ts ts' : List Turn} {base : Manifest} {updates : List Update}
    {r r' : Runs} (h : MadeBy ts base updates r.repo.worktree)
    (hrun : Run turn (fun r t => ¬ OpensPr r t) r ts' r') :
    ∃ new, MadeBy (ts ++ ts') base (new ++ updates) r'.repo.worktree ∧
      ∀ u ∈ new, ∃ t ∈ ts', t.update = some u := by
  have hlabels : Run turn (fun _ t => t ∈ ts') r ts' r' :=
    run_of_forall_mem hrun.exec_eq fun t ht _ => ht
  refine (hrun.and hlabels).invariant (P := fun r' : Runs => ∃ new,
    MadeBy (ts ++ ts') base (new ++ updates) r'.repo.worktree ∧
      ∀ u ∈ new, ∃ t ∈ ts', t.update = some u)
    ⟨[], h.mono (List.subset_append_left _ _), fun _ hu => absurd hu List.not_mem_nil⟩ ?_
  rintro r₁ t r₂ ⟨new, hmade, hnew⟩ ⟨hopens, ht⟩ hturn
  obtain ⟨more, hmore, hown⟩ := hmade.stays (List.mem_append_right _ ht) hopens hturn
  refine ⟨more ++ new, ?_, List.forall_mem_append.mpr ⟨fun u hu => ⟨t, ht, hown u hu⟩, hnew⟩⟩
  rw [List.append_assoc]
  exact hmore

/-- **Updates rise and stay.** With the versions that crates.io has, whatever it answers from one
run to the next and whatever the options of each run are. In every branch that was pushed, each
update of a dependency is to higher numbers than all of its updates before, and the branch has the
version that it is named after. In the worktree it is the same, and the updates that are there stay:
over any number of further runs only such higher ones come, up to the turn that opens its pull
request and goes back to the branch before. That branch lacks the updates that were not committed
to it, and they may be made again. -/
theorem updates_rise_and_stay {options : CheckDepsOptions} {repo : Repo} (hclean : repo.Clean)
    {ts : List Turn} (hfetched : ∀ t ∈ ts, t.Fetched) {r : Runs}
    (h : exec turn (Runs.start options repo) ts = some r) :
    (∀ p ∈ r.pushes, ∃ updates, MadeBy ts repo.head.manifest updates p.manifest ∧
      updates.Pairwise Update.Overtakes ∧
      p.manifest.look (dependencyPath p.depName) = some (.value (.str p.newVersion))) ∧
    ∃ updates, MadeBy ts repo.head.manifest updates r.repo.worktree ∧
      updates.Pairwise Update.Overtakes ∧
      ∀ ts' r', (∀ t ∈ ts', t.Fetched) → Run turn (fun r t => ¬ OpensPr r t) r ts' r' →
        ∃ new, MadeBy (ts ++ ts') repo.head.manifest (new ++ updates) r'.repo.worktree ∧
          (∀ u ∈ new, ∃ t ∈ ts', t.update = some u) ∧
          (new ++ updates).Pairwise Update.Overtakes := by
  have hupdates := updates_of_exec hclean h
  obtain ⟨updates, hmade⟩ := hupdates.worktree
  refine ⟨fun p hp => ?_, updates, hmade, hmade.overtakes hfetched, fun ts' r' hfetched' hrun => ?_⟩
  · obtain ⟨u, older, hname, hversion, hmade⟩ := hupdates.pushes p hp
    refine ⟨u :: older, hmade, hmade.overtakes hfetched, ?_⟩
    rw [hmade.1.dependency, required, List.find?_cons, hname, beq_self_eq_true, ← hversion]
  · obtain ⟨new, hnew, hby⟩ := hmade.stays_of_run hrun
    exact ⟨new, hnew, hby, hnew.overtakes (List.forall_mem_append.mpr ⟨hfetched, hfetched'⟩)⟩

/-- A local run, and then one in CI mode whose pull request cannot be opened, between which
crates.io has got another version. -/
theorem updates_rise_and_stay_two_versions :
    ∃ ts ts' r r', exec turn (Runs.start { ciRun with noPush := true } baseCheckout) ts = some r ∧
      Run turn (fun r t => ¬ OpensPr r t) r ts' r' ∧
      r'.repo.worktree.look (dependencyPath "ractor") = some (.value (.str "0.18.0")) ∧
      ∃ updates new, updates.Pairwise Update.Overtakes ∧
        MadeBy (ts ++ ts') twoDependencies (new ++ updates) r'.repo.worktree ∧
        (new ++ updates).Pairwise Update.Overtakes := by
  let published (num : String) : Response := .success ⟨[⟨num, false⟩]⟩
  let first : Attempt := attempt "ractor" (.release 0 17 0) .success
  let second : Attempt := attempt "ractor" (.release 0 18 0) (.exits "could not add label")
  obtain ⟨r, hr, r', hr', hlook⟩ : ∃ r,
      exec turn (Runs.start { ciRun with noPush := true } baseCheckout) [.check first] = some r ∧
      ∃ r', exec turn r [.rerun ciRun, .check second] = some r' ∧
        r'.repo.worktree.look (dependencyPath "ractor") = some (.value (.str "0.18.0")) := by
    have hboth : ((exec turn (Runs.start { ciRun with noPush := true } baseCheckout)
        [.check first]).bind fun r => (exec turn r [.rerun ciRun, .check second]).map fun r' =>
          r'.repo.worktree.look (dependencyPath "ractor")) =
        some (some (.value (.str "0.18.0"))) := by decide +kernel
    obtain ⟨r, hr, hrest⟩ := Option.bind_eq_some_iff.mp hboth
    exact ⟨r, hr, Option.map_eq_some_iff.mp hrest⟩
  -- `gh` fails in the second run
  have hopens : ∀ t ∈ [Turn.rerun ciRun, .check second], ∀ r, ¬ OpensPr r t := by
    simp only [List.forall_mem_cons, List.not_mem_nil, false_imp_iff, implies_true, and_true]
    exact ⟨fun _ h => h, fun _ h => absurd h.2.2.ghPrCreate (by decide)⟩
  have hfetched (num : String) (a : Attempt) (v : Version) (hlatest : a.latest = .ok v)
      (hget : CratesIoClient.getLatestMajorVersion (fun _ => published num) a.depName = .ok v) :
      (Turn.check a).Fetched := by
    intro latestVersion hok
    rw [hlatest, Except.ok.injEq] at hok
    exact ⟨_, hok ▸ hget⟩
  have hfirst : ∀ t ∈ [Turn.check first], t.Fetched :=
    List.forall_mem_singleton.mpr (hfetched "0.17.0" first _ rfl (by decide +kernel))
  have hsecond : ∀ t ∈ [Turn.rerun ciRun, .check second], t.Fetched :=
    List.forall_mem_cons.mpr ⟨trivial,
      List.forall_mem_singleton.mpr (hfetched "0.18.0" second _ rfl (by decide +kernel))⟩
  have hrun := run_of_forall_mem hr' hopens
  obtain ⟨-, updates, -, hbefore, hmore⟩ := updates_rise_and_stay ⟨rfl, rfl⟩ hfirst hr
  obtain ⟨new, hmade, -, hafter⟩ := hmore _ r' hsecond hrun
  exact ⟨_, _, r, r', hr, hrun, hlook, updates, new, hbefore, hmade, hafter⟩

/-! ## The branches after any number of runs -/

/-- What the runs make of the branches that were there at first. -/
structure Branches (ts : List Turn) (repo : Repo) (s : State) : Prop where
  /-- The branches that are made are new ones, each for an update. -/
  locals : ∃ new, s.repo.locals = new ++ repo.locals ∧ new.Nodup ∧ ∀ name ∈ new,
    name ∉ repo.locals ∧ ∃ t ∈ ts, ∃ u, t.update = some u ∧
      name = branchName u.depName u.version.toString
  /-- Of the others only the one that it began on is ever checked out, as it was. -/
  head : s.repo.head.name ∈ repo.locals → s.repo.head = repo.head
  /-- No branch is pushed twice. -/
  pushes : (s.pushes.map Push.branch).Nodup
  pushed : ∀ p ∈ s.pushes, p.branch ∉ repo.locals ∧ p.branch ∈ s.repo.locals

/-- A branch is made for an update, and perhaps pushed. -/
theorem Branches.add {ts : List Turn} {repo : Repo} {s s' : State} (hs : Branches ts repo s)
    {t : Turn} (ht : t ∈ ts) {u : Update} (hupdate : t.update = some u) {name : String}
    (hname : name = branchName u.depName u.version.toString) (hfresh : name ∉ s.repo.locals)
    (hlocals : s'.repo.locals = name :: s.repo.locals)
    (hhead : s'.repo.head = s.repo.head ∨ s'.repo.head.name = name)
    (hpushes : s'.pushes = s.pushes ∨ ∃ p, p.branch = name ∧ s'.pushes = s.pushes ++ [p]) :
    Branches ts repo s' := by
  obtain ⟨new, hnew, hnodup, hnames⟩ := hs.locals
  have hpushed : ∀ p ∈ s.pushes, p.branch ∉ repo.locals ∧ p.branch ∈ s'.repo.locals := by
    intro p hp
    obtain ⟨hbefore, hmem⟩ := hs.pushed p hp
    exact ⟨hbefore, hlocals ▸ List.mem_cons_of_mem _ hmem⟩
  have hother : name ∉ repo.locals := fun hin => hfresh (hnew ▸ List.mem_append_right _ hin)
  refine ⟨⟨name :: new, by rw [hlocals, hnew]; rfl, ?_, ?_⟩, fun hin => ?_, ?_, ?_⟩
  · exact List.nodup_cons.mpr ⟨fun hin => hfresh (hnew ▸ List.mem_append_left _ hin), hnodup⟩
  · exact List.forall_mem_cons.mpr ⟨⟨hother, t, ht, u, hupdate, hname⟩, hnames⟩
  · rcases hhead with hback | hon
    · rw [hback] at hin ⊢
      exact hs.head hin
    · rw [hon] at hin
      exact absurd hin hother
  · rcases hpushes with hsame | ⟨p, hbranch, hpushes⟩
    · rw [hsame]
      exact hs.pushes
    · rw [hpushes, List.map_append, List.map_singleton, hbranch, List.nodup_append]
      refine ⟨hs.pushes, List.pairwise_singleton _ name, fun other hin name' hname' hsame => ?_⟩
      -- what was pushed before is another branch
      obtain ⟨p', hp', rfl⟩ := List.mem_map.mp hin
      rw [List.mem_singleton.mp hname'] at hsame
      exact hfresh (hsame ▸ (hs.pushed p' hp').2)
  · rcases hpushes with hsame | ⟨p, hbranch, hpushes⟩
    · rw [hsame]
      exact hpushed
    · rw [hpushes]
      refine List.forall_mem_append.mpr ⟨hpushed, List.forall_mem_singleton.mpr ?_⟩
      rw [hbranch, hlocals]
      exact ⟨hother, List.mem_cons_self⟩

/-- **Step lemma.** -/
theorem Branches.turn {ts : List Turn} {repo : Repo} {r r' : Runs} {t : Turn}
    (hs : Branches ts repo r.toState) (ht : t ∈ ts) (h : turn r t = some r') :
    Branches ts repo r'.toState := by
  have hsame (hlocals : r'.repo.locals = r.repo.locals) (hhead : r'.repo.head = r.repo.head)
      (hpushes : r'.pushes = r.pushes) : Branches ts repo r'.toState := by
    refine ⟨?_, ?_, ?_, ?_⟩
    · rw [hlocals]
      exact hs.locals
    · rw [hhead]
      exact hs.head
    · rw [hpushes]
      exact hs.pushes
    · rw [hpushes, hlocals]
      exact hs.pushed
  cases turn_cases h with
  | kept _ hrepo hpushes => exact hsame (by rw [hrepo]) (by rw [hrepo]) hpushes
  | written a latestVersion manifest _ _ hrepo hpushes =>
    exact hsame (by rw [hrepo]) (by rw [hrepo]) hpushes
  | requested a latestVersion manifest _ hupdate _ _ out hout hrepo hpushes =>
    have hcase := createPr_branches a.depName latestVersion.toString a.pr
      { r.repo with worktree := manifest }
    rw [← hout] at hcase
    cases hcase with
    | none repo' result hlocals hhead =>
      exact hsame (by rw [hrepo, hlocals]) (by rw [hrepo, hhead]) (by rw [hpushes]; simp)
    | new repo' pushed result hfresh hlocals hhead =>
      refine hs.add ht hupdate rfl hfresh (by rw [hrepo, hlocals]) (hrepo ▸ hhead) ?_
      cases pushed with
      | none => exact Or.inl (hpushes.trans (List.append_nil _))
      | some branch =>
        refine Or.inr ⟨⟨a.depName, latestVersion.toString, branch.manifest⟩, ?_, hpushes⟩
        rw [Push.branch]

/-- **Only new branches.** From any checkout, after any number of runs with any options each and
whatever has failed in them: every branch that was made is a new one with the name of an update,
none is pushed twice and none that was there before is ever pushed, committed to or checked out but
the one that the runs began on, which is as it was. -/
theorem branches_are_new {options : CheckDepsOptions} {repo : Repo} {ts : List Turn} {r : Runs}
    (h : exec turn (Runs.start options repo) ts = some r) : Branches ts repo r.toState := by
  have hrun := run_of_forall_mem (G := fun _ t => t ∈ ts) h fun t ht _ => ht
  refine hrun.invariant (P := fun r => Branches ts repo r.toState) ?_
    fun s t s' hs ht hstep => hs.turn ht hstep
  exact ⟨⟨[], rfl, List.nodup_nil, fun _ hin => absurd hin List.not_mem_nil⟩, fun _ => rfl,
    List.nodup_nil, fun _ hp => absurd hp List.not_mem_nil⟩

/-- A pull request that could not be opened, a local run that finds the next update, and a run in CI
mode that finds the branch of the first and makes that of another one. -/
theorem branches_are_new_two_runs :
    ∃ ts r, exec turn (Runs.start ciRun baseCheckout) ts = some r ∧
      r.repo.locals = ["auto-deps/cron-0.18.0", "auto-deps/ractor-0.17.0", "main"] ∧
      Branches ts baseCheckout r.toState := by
  let ts : List Turn :=
    [.check (attempt "ractor" (.release 0 17 0) (.exits "could not add label: not found")),
      .rerun { ciRun with noPush := true }, .check (attempt "ractor" (.release 0 18 0) .success),
      .rerun ciRun, .check (attempt "ractor" (.release 0 17 0) .success),
      .check (attempt "cron" (.release 0 18 0) .success)]
  obtain ⟨r, hr, hlocals⟩ : ∃ r, exec turn (Runs.start ciRun baseCheckout) ts = some r ∧
      r.repo.locals = ["auto-deps/cron-0.18.0", "auto-deps/ractor-0.17.0", "main"] :=
    Option.map_eq_some_iff.mp (by decide +kernel)
  exact ⟨ts, r, hr, hlocals, branches_are_new hr⟩

end RactorActors.Xtask.Deps
