import RactorActors.Xtask.Deps.AllOrNothing
import RactorActors.Xtask.Deps.Report

/-!
# Local runs

A run that is not in CI mode, or must not push, and that can read and write the manifest. It makes
every update that there is, also those whose `cargo update` fails behind the write, and so it leaves
none for a run after it, whatever the options of that one are.

* `foretold`: the updates that there are against a manifest;
* `Raisable` and `Room`: the version of the package can be bumped so many times;
* `Settled`: what a local run keeps, and `Settled.snoc`, its step lemma;
* `local_run_settles`: the manifest after a local run, and the runs after it.

`cargo update` rewrites `Cargo.lock` in such a run too. Of the files only the manifest is kept track
of.
-/

namespace RactorActors.Xtask.Deps

open LabelledRun Semver DependencyUpdater VersionChecker

/-- The update of a dependency that there is against this manifest. -/
def foretoldUpdate (doc : Manifest) (a : Attempt) : Option Update :=
  (found doc a).map fun (depName, version) =>
    { depName, version, bumpStrategy := a.config.bumpStrategy }

/-- The updates that there are, the last one first. -/
def foretold (doc : Manifest) (as : List Attempt) : List Update :=
  (as.filterMap (foretoldUpdate doc)).reverse

/-- Each number of a version can be raised `n` times. -/
structure Raisable (v : Version) (n : ℕ) : Prop where
  major : v.major.toNat + n < 2 ^ 64
  minor : v.minor.toNat + n < 2 ^ 64
  patch : v.patch.toNat + n < 2 ^ 64

/-- The package has a version that can be bumped `n` times. -/
def Room (doc : Manifest) (n : ℕ) : Prop := ∃ v, packageVersion doc = some v ∧ Raisable v n

/-- The loop comes to a dependency once more, with the same answer from crates.io. -/
structure Attempt.Repeats (a' a : Attempt) : Prop where
  depName : a'.depName = a.depName
  config : a'.config = a.config
  latest : a'.latest = a.latest

/-- A turn of runs that repeat the attempts `as`. -/
def Turn.Repeats (as : List Attempt) : Turn → Prop
  | .check a' => ∃ a ∈ as, a'.Repeats a
  | .rerun _ => True

/-! ## Bumps -/

/-- A bump takes one of the times. -/
theorem Raisable.exists_bumpVersion {v : Version} {n : ℕ} (h : Raisable v (n + 1))
    (strategy : String) : ∃ w, bumpVersion v strategy = some w ∧ Raisable w n := by
  obtain ⟨hmajor, hminor, hpatch⟩ := h
  by_cases hknown : strategy ∈ bumpStrategies
  · have hcomponent : (component v strategy).toNat + 1 < 2 ^ 64 := by
      unfold component
      split <;> omega
    obtain ⟨w, hw⟩ := (bumpVersion_isSome_iff hknown).mpr hcomponent
    refine ⟨w, hw, ?_⟩
    rcases (bump_of_mem hknown hw).component with
      ⟨hraised, hzero, hzero'⟩ | ⟨hsame, hraised, hzero⟩ | ⟨hsame, hsame', hraised⟩
    · refine ⟨by omega, ?_, ?_⟩
      · rw [hzero, UInt64.toNat_zero]
        omega
      · rw [hzero', UInt64.toNat_zero]
        omega
    · refine ⟨by rw [hsame]; omega, by omega, ?_⟩
      rw [hzero, UInt64.toNat_zero]
      omega
    · exact ⟨by rw [hsame]; omega, by rw [hsame']; omega, by omega⟩
  · exact ⟨v, bumpVersion_of_not_mem hknown, ⟨by omega, by omega, by omega⟩⟩

/-- Fewer bumps need less room. -/
theorem Room.mono {doc : Manifest} {n n' : ℕ} (h : Room doc n) (hle : n' ≤ n) : Room doc n' := by
  obtain ⟨v, hv, hmajor, hminor, hpatch⟩ := h
  exact ⟨v, hv, ⟨by omega, by omega, by omega⟩⟩

/-- An update takes the room of one bump. -/
theorem Room.of_writes {s : State} {a : Attempt} {latestVersion : Version} {manifest : Manifest}
    {n : ℕ} (h : Room s.repo.worktree (n + 1)) (hwrites : Writes s a latestVersion manifest) :
    Room manifest n := by
  obtain ⟨-, text, v, w, -, -, htext, hv, hw, hlook⟩ := hwrites.look
  obtain ⟨v', hv', hroom⟩ := h
  rw [packageVersion_eq_some.mpr ⟨text, htext, hv⟩, Option.some.injEq] at hv'
  subst hv'
  obtain ⟨w', hw', hless⟩ := hroom.exists_bumpVersion a.config.bumpStrategy
  rw [hw, Option.some.injEq] at hw'
  subst hw'
  refine ⟨w, packageVersion_eq_some.mpr ⟨w.toString, ?_, parse_toString w⟩, hless⟩
  rw [hlook, if_pos rfl]

/-! ## What is found -/

/-- There are updates of the dependencies that the loop has come to, and of no other. -/
theorem mem_foretold {doc : Manifest} {as : List Attempt} {u : Update} (h : u ∈ foretold doc as) :
    ∃ a ∈ as, u.depName = a.depName := by
  rw [foretold, List.mem_reverse, List.mem_filterMap] at h
  obtain ⟨a, ha, hupdate⟩ := h
  rw [foretoldUpdate, Option.map_eq_some_iff] at hupdate
  obtain ⟨⟨depName, latestVersion⟩, hfound, rfl⟩ := hupdate
  exact ⟨a, ha, (found_eq_some_iff.mp hfound).1⟩

/-- One more dependency. -/
theorem foretold_snoc (doc : Manifest) (as : List Attempt) (a : Attempt) :
    foretold doc (as ++ [a]) = (foretoldUpdate doc a).toList ++ foretold doc as := by
  rw [foretold, List.filterMap_append, List.reverse_append, foretold]
  cases hupdate : foretoldUpdate doc a <;> simp [hupdate]

/-- An update that is written is found no more. -/
theorem found_of_writes {s : State} {a : Attempt} {latestVersion : Version} {manifest : Manifest}
    (hlatest : a.latest = .ok latestVersion) (hwrites : Writes s a latestVersion manifest) :
    found manifest a = none := by
  obtain ⟨-, -, -, w, -, -, -, -, -, hlook⟩ := hwrites.look
  rw [Option.eq_none_iff_forall_ne_some]
  rintro ⟨depName, latestVersion'⟩ hfound
  obtain ⟨-, -, hlatest', currentVersion, hcurrent, hmajor⟩ := found_eq_some_iff.mp hfound
  obtain ⟨text, htext, hparse⟩ := look_of_getCurrentVersion hcurrent
  rw [hlook, if_neg (dependencyPath_ne_packagePath a.depName), if_pos rfl] at htext
  simp only [Option.some.injEq, Document.Node.value.injEq, TomlValue.str.injEq] at htext
  -- the version that it would update is the one that it would update to
  rw [← htext, parseRequirement_toString, Option.some.injEq] at hparse
  rw [hlatest, Except.ok.injEq] at hlatest'
  rw [isMajorUpdate, ← hlatest', ← hparse, Version.compare_self] at hmajor
  cases hmajor

/-- What is not found once is not found with the same answer. -/
theorem found_of_repeats {doc : Manifest} {a a' : Attempt} (hrepeats : a'.Repeats a)
    (hreadable : a.readable.1 = true) (h : found doc a = none) : found doc a' = none := by
  rw [Option.eq_none_iff_forall_ne_some]
  rintro ⟨depName, latestVersion⟩ hfound
  obtain ⟨-, henabled, hlatest, currentVersion, hcurrent, hmajor⟩ := found_eq_some_iff.mp hfound
  have hreadable' : a'.readable.1 = true := by
    cases hunreadable : a'.readable.1 with
    | true => rfl
    | false =>
      rw [hunreadable] at hcurrent
      cases hcurrent
  rw [hreadable', ← hreadable, hrepeats.depName] at hcurrent
  rw [hrepeats.config] at henabled
  rw [hrepeats.latest] at hlatest
  rw [found_eq_some_iff.mpr ⟨rfl, henabled, hlatest, currentVersion, hcurrent, hmajor⟩] at h
  cases h

/-! ## One turn -/

/-- A dependency without an update changes nothing. -/
theorem quiet_of_found (options : CheckDepsOptions) {s : State} {a : Attempt}
    (h : found s.repo.worktree a = none) :
    (checkDependency options s a).repo = s.repo ∧
      (checkDependency options s a).pushes = s.pushes := by
  rw [checkDependency_eq, h]
  dsimp only
  split <;> exact ⟨rfl, rfl⟩

/-- **A local update.** It is written, and nothing else is done with the repository. -/
theorem writes_of_found {options : CheckDepsOptions} (hlocal : options.isLocal = true)
    (hreal : options.dryRun = false) {s : State} {a : Attempt}
    (hfiles : a.readable = (true, true) ∧ a.writable = true) (hroom : Room s.repo.worktree 1)
    {depName : String} {latestVersion : Version}
    (h : found s.repo.worktree a = some (depName, latestVersion)) :
    ∃ manifest, Writes s a latestVersion manifest ∧
      (checkDependency options s a).repo = { s.repo with worktree := manifest } ∧
      (checkDependency options s a).pushes = s.pushes := by
  obtain ⟨-, -, -, currentVersion, hcurrent, hmajor⟩ := found_eq_some_iff.mp h
  obtain ⟨old, hold, -⟩ := look_of_getCurrentVersion hcurrent
  obtain ⟨v, hv, hraisable⟩ := hroom
  obtain ⟨w, hw, -⟩ := hraisable.exists_bumpVersion a.config.bumpStrategy
  obtain ⟨manifest, hupdated⟩ := exists_updated latestVersion.toString hold hv hw
  refine ⟨manifest, ⟨⟨_, _, hcurrent, hmajor⟩, hupdated⟩, ?_⟩
  have hout : updateDependency a.readable.2 a.writable a.cargo s.repo.worktree a.depName
      latestVersion.toString a.config.bumpStrategy = (manifest, updateLockfile a.cargo) := by
    simp only [updateDependency, hfiles.1, hfiles.2, hupdated, Bool.not_true, Bool.false_eq_true,
      if_false, if_true]
  have hci : (!options.noPush && options.ci) = false := by
    rw [CheckDepsOptions.isLocal, hreal, Bool.false_or, Bool.or_eq_true] at hlocal
    rcases hlocal with hno | hno
    · rw [hno, Bool.not_true, Bool.false_and]
    · rw [Bool.not_eq_true'] at hno
      rw [hno, Bool.and_false]
  rw [checkDependency_eq, h]
  simp only [performUpdate, hreal, Bool.false_eq_true, if_false, hout, hci]
  -- whatever becomes of `cargo update`, the file is written
  cases a.cargo <;> exact ⟨rfl, rfl⟩

/-- What a local run has done that began in `repo`. -/
structure Settled (repo : Repo) (as : List Attempt) (s : State) : Prop where
  checked : s.checked = (as.map (·.depName)).reverse
  git : s.repo = { repo with worktree := s.repo.worktree }
  pushes : s.pushes = []
  made : Made repo.worktree (foretold repo.worktree as) s.repo.worktree
  room : ∀ n, Room repo.worktree (as.length + n) → Room s.repo.worktree n
  nothing : ∀ a ∈ as, found s.repo.worktree a = none

/-- Nothing is done at first. -/
theorem settled_start (repo : Repo) : Settled repo [] (start repo) where
  checked := rfl
  git := rfl
  pushes := rfl
  made := made_base repo.worktree
  room n h := by rwa [List.length_nil, Nat.zero_add] at h
  nothing _ ha := absurd ha List.not_mem_nil

/-- A dependency that the run has not come to has the version that the run began with. -/
theorem Settled.look {repo : Repo} {as : List Attempt} {s : State} (hs : Settled repo as s)
    {depName : String} (hnew : depName ∉ as.map (·.depName)) :
    s.repo.worktree.look (dependencyPath depName) =
      repo.worktree.look (dependencyPath depName) := by
  refine hs.made.look fun u hu hsame => ?_
  obtain ⟨a, ha, hname⟩ := mem_foretold hu
  exact hnew (List.mem_map.mpr ⟨a, ha, hname.symm.trans hsame⟩)

/-- **Step lemma.** -/
theorem Settled.snoc {options : CheckDepsOptions} (hlocal : options.isLocal = true)
    (hreal : options.dryRun = false) {repo : Repo} {as : List Attempt} {s s' : State}
    (hs : Settled repo as s) {a : Attempt} (hfiles : a.readable = (true, true) ∧ a.writable = true)
    (hroom : Room repo.worktree (as.length + 1)) (h : step options s a = some s') :
    Settled repo (as ++ [a]) s' := by
  obtain ⟨-, hnew, rfl⟩ := eq_of_step h
  rw [hs.checked, List.mem_reverse] at hnew
  have hchecked : a.depName :: s.checked = ((as ++ [a]).map (·.depName)).reverse := by
    rw [hs.checked, List.map_append, List.reverse_append]
    rfl
  -- what there is to find is what there was at first
  have hfirst : foretoldUpdate repo.worktree a = foretoldUpdate s.repo.worktree a := by
    rw [foretoldUpdate, foretoldUpdate, (check_congr (hs.look hnew)).1]
  have hforetold := foretold_snoc repo.worktree as a
  rw [hfirst] at hforetold
  cases hfound : found s.repo.worktree a with
  | none =>
    obtain ⟨hrepo, hpushes⟩ := quiet_of_found options hfound
    rw [foretoldUpdate, hfound, Option.map_none, Option.toList_none, List.nil_append] at hforetold
    refine ⟨hchecked, ?_, hpushes.trans hs.pushes, ?_, fun n hn => ?_, ?_⟩
    · rw [hrepo]
      exact hs.git
    · rw [hforetold, hrepo]
      exact hs.made
    · rw [hrepo]
      exact hs.room n (hn.mono (by simp))
    · rw [hrepo]
      exact List.forall_mem_append.mpr ⟨hs.nothing, List.forall_mem_singleton.mpr hfound⟩
  | some update =>
    obtain ⟨depName, latestVersion⟩ := update
    obtain ⟨manifest, hwrites, hrepo, hpushes⟩ :=
      writes_of_found hlocal hreal hfiles (hs.room 1 hroom) hfound
    obtain ⟨rfl, -, hlatest, -⟩ := found_eq_some_iff.mp hfound
    rw [foretoldUpdate, hfound] at hforetold
    refine ⟨hchecked, ?_, hpushes.trans hs.pushes, ?_, fun n hn => ?_, ?_⟩
    · rw [hrepo, hs.git]
    · rw [hforetold, hrepo]
      exact hs.made.of_writes hwrites
    · rw [hrepo]
      refine (hs.room (n + 1) ?_).of_writes hwrites
      rwa [List.length_append, List.length_singleton, Nat.add_assoc, Nat.add_comm 1] at hn
    · rw [hrepo]
      refine List.forall_mem_append.mpr ⟨fun a' ha' => ?_,
        List.forall_mem_singleton.mpr (found_of_writes hlatest hwrites)⟩
      -- the entries of the others are as they were
      obtain ⟨-, -, -, w, -, -, -, -, -, hlook⟩ := hwrites.look
      have hother : a'.depName ≠ a.depName := by
        rintro hsame
        exact hnew (List.mem_map.mpr ⟨a', ha', hsame⟩)
      have hsame : manifest.look (dependencyPath a'.depName) =
          s.repo.worktree.look (dependencyPath a'.depName) := by
        rw [hlook, if_neg (dependencyPath_ne_packagePath a'.depName),
          if_neg (dependencyPath_ne hother)]
      rw [(check_congr hsame).1]
      exact hs.nothing a' ha'

/-- **Run lemma.** -/
theorem settled_of_exec {options : CheckDepsOptions} (hlocal : options.isLocal = true)
    (hreal : options.dryRun = false) {repo : Repo} {as : List Attempt}
    (hfiles : ∀ a ∈ as, a.readable = (true, true) ∧ a.writable = true)
    (hroom : Room repo.worktree as.length) {s : State}
    (h : exec (step options) (start repo) as = some s) : Settled repo as s := by
  induction as using List.reverseRecOn generalizing s with
  | nil =>
    cases h
    exact settled_start repo
  | append_singleton as a ih =>
    rw [exec_append, Option.bind_eq_some_iff] at h
    obtain ⟨s₀, hbefore, hlast⟩ := h
    rw [exec_cons, Option.bind_eq_some_iff] at hlast
    obtain ⟨s₁, hstep, hend⟩ := hlast
    cases hend
    rw [List.forall_mem_append] at hfiles
    rw [List.length_append, List.length_singleton] at hroom
    have hs := ih hfiles.1 (hroom.mono (Nat.le_succ _)) hbefore
    exact hs.snoc hlocal hreal (hfiles.2 a List.mem_cons_self) hroom hstep

/-! ## The runs behind it -/

/-- Runs that find nothing change nothing. -/
theorem repo_of_nothing {options : CheckDepsOptions} {repo : Repo} {ts : List Turn} {r : Runs}
    (hnothing : ∀ t ∈ ts, ∀ a, t = .check a → found repo.worktree a = none)
    (h : exec turn (Runs.start options repo) ts = some r) : r.repo = repo ∧ r.pushes = [] := by
  have hrun := run_of_forall_mem (G := fun _ t => t ∈ ts) h fun t ht _ => ht
  refine hrun.invariant (P := fun r => r.repo = repo ∧ r.pushes = []) ⟨rfl, rfl⟩ ?_
  rintro r t r' ⟨hrepo, hpushes⟩ ht hturn
  cases t with
  | rerun options =>
    cases hturn
    exact ⟨hrepo, hpushes⟩
  | check a =>
    rw [turn, Option.map_eq_some_iff] at hturn
    obtain ⟨s, hstep, rfl⟩ := hturn
    obtain ⟨-, -, rfl⟩ := eq_of_step hstep
    obtain ⟨hsame, hsame'⟩ := quiet_of_found r.options (s := r.toState)
      (hrepo ▸ hnothing _ ht a rfl)
    exact ⟨hsame.trans hrepo, hsame'.trans hpushes⟩

/-- A run that finds nothing says so. -/
theorem updatesFound_of_nothing {options : CheckDepsOptions} {repo : Repo} {as : List Attempt}
    {q : Report} (hnothing : ∀ a ∈ as, found repo.worktree a = none)
    (h : exec (Report.turn options) (Report.start repo) as = some q) :
    q.updatesFound = false := by
  have hrun := run_of_forall_mem (G := fun _ a => a ∈ as) h fun a ha _ => ha
  refine (hrun.invariant (P := fun q => q.state.repo = repo ∧ q.updatesFound = false)
    ⟨rfl, rfl⟩ ?_).2
  rintro q a q' ⟨hrepo, hnone⟩ ha hturn
  rw [Report.turn, Option.map_eq_some_iff] at hturn
  obtain ⟨state, hstep, rfl⟩ := hturn
  obtain ⟨-, -, rfl⟩ := eq_of_step hstep
  have hfound : found q.state.repo.worktree a = none := hrepo ▸ hnothing a ha
  refine ⟨(quiet_of_found options hfound).1.trans hrepo, ?_⟩
  rw [hnone, hfound]
  rfl

/-- **A local run settles.** A run without `--ci`, or with `--no-push`, that is no dry run and can
read and write the manifest, of a package whose version can be bumped for each dependency. In any
checkout, and whatever becomes of `cargo update`: the branches, the commit that is checked out and
what is staged stay as they are, and the manifest gets every update that there is against the one
that it was, in order, with one bump for each, and nothing else. So nothing is left: any number of
runs behind it, with any options and the same answers from crates.io, change nothing and push no
branch, and each says that all is up to date. -/
theorem local_run_settles {options : CheckDepsOptions} (hlocal : options.isLocal = true)
    (hreal : options.dryRun = false) {repo : Repo} {as : List Attempt}
    (hfiles : ∀ a ∈ as, a.readable = (true, true) ∧ a.writable = true)
    (hroom : Room repo.worktree as.length) {s : State}
    (h : exec (step options) (start repo) as = some s) :
    s.repo = { repo with worktree := s.repo.worktree } ∧ s.pushes = [] ∧
    Made repo.worktree (foretold repo.worktree as) s.repo.worktree ∧
    (∀ next ts r, (∀ t ∈ ts, t.Repeats as) →
      exec turn (Runs.start next s.repo) ts = some r → r.repo = s.repo ∧ r.pushes = []) ∧
    ∀ next as' q, (∀ a' ∈ as', ∃ a ∈ as, a'.Repeats a) →
      exec (Report.turn next) (Report.start s.repo) as' = some q →
        q.closing = if q.state.panicked then [] else [.allUpToDate] := by
  have hs := settled_of_exec hlocal hreal hfiles hroom h
  have hnothing {a' : Attempt} (hrepeats : ∃ a ∈ as, a'.Repeats a) :
      found s.repo.worktree a' = none := by
    obtain ⟨a, ha, hsame⟩ := hrepeats
    exact found_of_repeats hsame (by rw [(hfiles a ha).1]) (hs.nothing a ha)
  refine ⟨hs.git, hs.pushes, hs.made, fun next ts r hts hrun => ?_, fun next as' q has hrun => ?_⟩
  · refine repo_of_nothing (fun t ht a' hcheck => hnothing ?_) hrun
    have hrepeats := hts t ht
    rw [hcheck] at hrepeats
    exact hrepeats
  · rw [Report.closing, updatesFound_of_nothing (fun a' ha' => hnothing (has a' ha')) hrun]
    cases q.state.panicked <;> rfl

/-- Two updates without a push, of which the second one's `cargo update` fails, and a run in CI mode
behind them. -/
theorem local_run_settles_ci_run :
    ∃ s r, exec (step { ciRun with noPush := true }) (start baseCheckout)
        [attempt "ractor" (.release 0 17 0) .success,
          { attempt "cron" (.release 0 18 0) .success with cargo := .exits "no such version" }] =
        some s ∧
      s.repo.worktree.look (dependencyPath "cron") = some (.value (.str "0.18.0")) ∧
      exec turn (Runs.start ciRun s.repo)
        [.check (attempt "ractor" (.release 0 17 0) .success),
          .check (attempt "cron" (.release 0 18 0) .success)] = some r ∧
      r.repo = s.repo ∧ r.pushes = [] := by
  let ractor : Attempt := attempt "ractor" (.release 0 17 0) .success
  let cron : Attempt := attempt "cron" (.release 0 18 0) .success
  let dirty : Attempt := { cron with cargo := .exits "no such version" }
  have hboth : ((exec (step { ciRun with noPush := true }) (start baseCheckout)
      [ractor, dirty]).bind fun s => (exec turn (Runs.start ciRun s.repo)
        [.check ractor, .check cron]).map fun _ =>
          s.repo.worktree.look (dependencyPath "cron")) =
      some (some (.value (.str "0.18.0"))) := by decide +kernel
  obtain ⟨s, hs, hrest⟩ := Option.bind_eq_some_iff.mp hboth
  obtain ⟨r, hr, hlook⟩ := Option.map_eq_some_iff.mp hrest
  have hfiles : ∀ a ∈ [ractor, dirty], a.readable = (true, true) ∧ a.writable = true :=
    List.forall_mem_cons.mpr ⟨⟨rfl, rfl⟩, List.forall_mem_singleton.mpr ⟨rfl, rfl⟩⟩
  have hroom : Room twoDependencies 2 :=
    ⟨.release 0 7 0, by decide +kernel, by decide, by decide, by decide⟩
  have hrepeats : ∀ t ∈ [Turn.check ractor, .check cron], t.Repeats [ractor, dirty] :=
    List.forall_mem_cons.mpr ⟨⟨ractor, List.mem_cons_self, rfl, rfl, rfl⟩,
      List.forall_mem_singleton.mpr
        ⟨dirty, List.mem_cons_of_mem _ List.mem_cons_self, rfl, rfl, rfl⟩⟩
  obtain ⟨-, -, -, hbehind, -⟩ := local_run_settles rfl rfl hfiles hroom hs
  exact ⟨s, r, hs, hlook, hr, hbehind _ _ r hrepeats hr⟩

end RactorActors.Xtask.Deps
