import Mathlib.Data.List.Induction
import RactorActors.Xtask.Deps.CurrentVersion
import RactorActors.Xtask.Deps.Reruns

/-!
# What the dependency tracker prints

The lines that `check_dependencies` prints about its dependencies, and what a `--dry-run` foretells.
A real run reads each current version from a manifest that it has changed before; as a dependency is
checked once, that is not the version that it reads.

* `Line`: the lines, with what they tell;
* `checkLines` and `updateLines`: those about the versions of a dependency, and about its update;
* `Report.turn`: a turn of the loop with what it prints, and `updates_found`;
* `getCurrentVersion_congr`: a version depends on what stands in its place alone;
* `Foreseen`: what a run finds is what there is to find in the manifest that it began with;
* `dry_run_foretells`: so a dry run finds what a run with any other options finds.
-/

namespace RactorActors.Xtask.Deps

open LabelledRun Semver DependencyUpdater PrGenerator VersionChecker

/-- The lines that the loop prints, and the one behind it. -/
inductive Line
  | checking (depName : String)
  | fetchFailed (e : String)
  | currentFailed (e : String)
  | current (version : Version)
  | latest (version : Version)
  | upToDate
  | majorUpdate
  | wouldUpdate (depName : String) (latestVersion : Version)
  | updated
  | updateFailed (e : String)
  | creating
  | created
  | createFailed (e : String)
  | allUpToDate
deriving DecidableEq

/-- The line is about the versions of a dependency. -/
def Line.isCheck : Line → Bool
  | .checking _ | .fetchFailed _ | .currentFailed _ | .current _ | .latest _ | .upToDate
  | .majorUpdate => true
  | _ => false

/-- The update that a line of a dry run announces. -/
def Line.foretold : Line → Option (String × Version)
  | .wouldUpdate depName latestVersion => some (depName, latestVersion)
  | _ => none

/-- What is printed about the versions of a dependency. -/
def checkLines (doc : Manifest) (a : Attempt) : List Line :=
  if !a.config.enabled then []
  else .checking a.depName ::
    match a.latest with
    | .error e => [.fetchFailed e]
    | .ok latestVersion =>
      match getCurrentVersion a.readable.1 doc a.depName with
      | .error (.error e) => [.currentFailed e]
      | .error (.panic _) => []
      | .ok currentVersion =>
        [.current currentVersion, .latest latestVersion,
          if isMajorUpdate currentVersion latestVersion then .majorUpdate else .upToDate]

/-- What is printed about the update of a dependency. -/
def updateLines (options : CheckDepsOptions) (s : State) (a : Attempt)
    (latestVersion : Version) : List Line :=
  if options.dryRun then [.wouldUpdate a.depName latestVersion]
  else
    match updateDependency a.readable.2 a.writable a.cargo s.repo.worktree a.depName
      latestVersion.toString a.config.bumpStrategy with
    | (_, .error (.error e)) => [.updateFailed e]
    | (_, .error (.panic _)) => []
    | (manifest, .ok ()) =>
      if !options.noPush && options.ci then
        match (createPr a.depName latestVersion.toString a.pr
          { s.repo with worktree := manifest }).2.2 with
        | .ok () => [.updated, .creating, .created]
        | .error (.error e) => [.updated, .creating, .createFailed e]
        | .error (.panic _) => [.updated, .creating]
      else [.updated]

/-- The major update of a dependency that is found with this manifest. -/
def found (doc : Manifest) (a : Attempt) : Option (String × Version) :=
  match a.config.enabled, a.latest, getCurrentVersion a.readable.1 doc a.depName with
  | true, .ok latestVersion, .ok currentVersion =>
    if isMajorUpdate currentVersion latestVersion then some (a.depName, latestVersion) else none
  | _, _, _ => none

/-- The loop panics over the current version of a dependency. -/
def currentPanics (doc : Manifest) (a : Attempt) : Bool :=
  match a.config.enabled, a.latest, getCurrentVersion a.readable.1 doc a.depName with
  | true, .ok _, .error (.panic _) => true
  | _, _, _ => false

/-- A run, with what it has printed. -/
structure Report where
  state : State
  updatesFound : Bool
  lines : List Line

namespace Report

/-- The loop begins. -/
def start (repo : Repo) : Report where
  state := Deps.start repo
  updatesFound := false
  lines := []

/-- One turn of the loop. -/
def turn (options : CheckDepsOptions) (r : Report) (a : Attempt) : Option Report :=
  (step options r.state a).map fun state =>
    { state
      updatesFound := r.updatesFound || (found r.state.repo.worktree a).isSome
      lines := r.lines ++ checkLines r.state.repo.worktree a ++
        match found r.state.repo.worktree a with
        | some (_, latestVersion) => updateLines options r.state a latestVersion
        | none => [] }

/-- What is printed behind the loop, unless it has panicked. -/
def closing (r : Report) : List Line :=
  if !r.state.panicked && !r.updatesFound then [.allUpToDate] else []

end Report

/-! ## What a version depends on -/

/-- **A version depends on what stands in its place alone.** -/
theorem getCurrentVersion_congr {doc doc' : Manifest} {depName : String}
    (h : doc.look (dependencyPath depName) = doc'.look (dependencyPath depName))
    (readable : Bool) :
    getCurrentVersion readable doc depName = getCurrentVersion readable doc' depName := by
  cases readable with
  | false => rfl
  | true =>
    cases hdoc : doc.look (dependencyPath depName) with
    | none =>
      rw [getCurrentVersion_of_none hdoc, getCurrentVersion_of_none (h ▸ hdoc)]
    | some node =>
      rw [getCurrentVersion_of_some hdoc, getCurrentVersion_of_some (h ▸ hdoc)]

/-- What is found and printed about a dependency depends on its version alone. -/
theorem check_congr {doc doc' : Manifest} {a : Attempt}
    (h : doc.look (dependencyPath a.depName) = doc'.look (dependencyPath a.depName)) :
    found doc a = found doc' a ∧ currentPanics doc a = currentPanics doc' a ∧
      checkLines doc a = checkLines doc' a := by
  have hcurrent := getCurrentVersion_congr h a.readable.1
  simp only [found, currentPanics, checkLines, hcurrent, and_self]

/-! ## One turn -/

/-- The body of the loop, by what it finds. -/
theorem checkDependency_eq (options : CheckDepsOptions) (s : State) (a : Attempt) :
    checkDependency options s a =
      match found s.repo.worktree a with
      | some (_, latestVersion) => performUpdate options s a latestVersion
      | none => if currentPanics s.repo.worktree a then { s with panicked := true } else s := by
  unfold checkDependency found currentPanics
  cases a.config.enabled with
  | false => rfl
  | true =>
    rcases a.latest with e | latestVersion
    · rfl
    · rcases getCurrentVersion a.readable.1 s.repo.worktree a.depName with
        (e | e) | currentVersion
      · rfl
      · rfl
      · by_cases hmajor : isMajorUpdate currentVersion latestVersion <;> simp [hmajor]

/-- **What is found.** The update of a dependency that is enabled, for which crates.io has a version
and the manifest another one. -/
theorem found_eq_some_iff {doc : Manifest} {a : Attempt} {depName : String}
    {latestVersion : Version} :
    found doc a = some (depName, latestVersion) ↔
      depName = a.depName ∧ a.config.enabled = true ∧ a.latest = .ok latestVersion ∧
        ∃ currentVersion, getCurrentVersion a.readable.1 doc a.depName = .ok currentVersion ∧
          isMajorUpdate currentVersion latestVersion = true := by
  constructor
  · intro h
    unfold found at h
    split at h
    · rename_i latestVersion' currentVersion henabled hlatest hcurrent
      split at h
      · rename_i hmajor
        rw [Option.some.injEq, Prod.mk.injEq] at h
        obtain ⟨rfl, rfl⟩ := h
        exact ⟨rfl, henabled, hlatest, currentVersion, hcurrent, hmajor⟩
      · cases h
    · cases h
  · rintro ⟨rfl, henabled, hlatest, currentVersion, hcurrent, hmajor⟩
    simp only [found, henabled, hlatest, hcurrent, hmajor, if_true]

/-- A found update is one of its dependency, and nothing panicked before it. -/
theorem of_found {doc : Manifest} {a : Attempt} {depName : String} {latestVersion : Version}
    (h : found doc a = some (depName, latestVersion)) :
    depName = a.depName ∧ currentPanics doc a = false := by
  obtain ⟨hname, henabled, hlatest, currentVersion, hcurrent, -⟩ := found_eq_some_iff.mp h
  exact ⟨hname, by simp only [currentPanics, henabled, hlatest, hcurrent]⟩

/-- A dry run changes nothing in the repository. -/
theorem repo_of_dryRun {options : CheckDepsOptions} (hdry : options.dryRun = true) {s s' : State}
    {a : Attempt} (h : step options s a = some s') : s'.repo = s.repo := by
  obtain ⟨-, -, rfl⟩ := eq_of_step h
  rw [checkDependency_eq]
  split
  · rw [performUpdate, if_pos hdry]
  · split <;> rfl

/-- An update pushes no other branch than its own. -/
theorem pushes_performUpdate (options : CheckDepsOptions) (s : State) (a : Attempt)
    (latestVersion : Version) : ∃ new, (performUpdate options s a latestVersion).pushes =
      s.pushes ++ new ∧
        ∀ p ∈ new, p.depName = a.depName ∧ p.newVersion = latestVersion.toString := by
  have hnone : ∃ new, s.pushes = s.pushes ++ new ∧
      ∀ p ∈ new, p.depName = a.depName ∧ p.newVersion = latestVersion.toString :=
    ⟨[], (List.append_nil _).symm, fun _ hp => absurd hp List.not_mem_nil⟩
  unfold performUpdate
  split
  · exact hnone
  · split
    · exact hnone
    · exact hnone
    · dsimp only
      split
      · refine ⟨_, rfl, fun p hp => ?_⟩
        obtain ⟨branch, -, rfl⟩ := List.mem_map.mp hp
        exact ⟨rfl, rfl⟩
      · exact hnone

/-- The lines about versions are none about an update. -/
theorem checkLines_sorted (doc : Manifest) (a : Attempt) :
    (checkLines doc a).filter Line.isCheck = checkLines doc a ∧
      (checkLines doc a).filterMap Line.foretold = [] := by
  unfold checkLines
  split
  · exact ⟨rfl, rfl⟩
  · split
    · exact ⟨rfl, rfl⟩
    · split
      · exact ⟨rfl, rfl⟩
      · exact ⟨rfl, rfl⟩
      · split <;> exact ⟨rfl, rfl⟩

/-- Of the lines about an update, that of a dry run announces it. -/
theorem updateLines_sorted (options : CheckDepsOptions) (s : State) (a : Attempt)
    (latestVersion : Version) :
    (updateLines options s a latestVersion).filter Line.isCheck = [] ∧
      (updateLines options s a latestVersion).filterMap Line.foretold =
        if options.dryRun then [(a.depName, latestVersion)] else [] := by
  unfold updateLines
  split
  · exact ⟨rfl, rfl⟩
  · split
    · exact ⟨rfl, rfl⟩
    · exact ⟨rfl, rfl⟩
    · split
      · split <;> exact ⟨rfl, rfl⟩
      · exact ⟨rfl, rfl⟩

/-- What one turn adds to a report, by what there is to find with the manifest `doc`. -/
structure Told (options : CheckDepsOptions) (doc : Manifest) (a : Attempt) (r r' : Report) :
    Prop where
  checked : r'.state.checked = a.depName :: r.state.checked
  updatesFound : r'.updatesFound = (r.updatesFound || (found doc a).isSome)
  lines : ∃ new, r'.lines = r.lines ++ new ∧ new.filter Line.isCheck = checkLines doc a ∧
    new.filterMap Line.foretold = if options.dryRun then (found doc a).toList else []
  pushes : ∀ p ∈ r'.state.pushes, p ∈ r.state.pushes ∨ ∃ latestVersion,
    found doc a = some (p.depName, latestVersion) ∧ p.newVersion = latestVersion.toString
  /-- It panics over the current version, or over the update that it has found. -/
  panics : (currentPanics doc a = true → r'.state.panicked = true) ∧
    (r'.state.panicked = true →
      currentPanics doc a = true ∨ options.dryRun = false ∧ (found doc a).isSome = true)

/-- **One turn.** -/
theorem told_of_turn {options : CheckDepsOptions} {r r' : Report} {a : Attempt}
    (h : r.turn options a = some r') :
    r.state.panicked = false ∧ a.depName ∉ r.state.checked ∧
      Told options r.state.repo.worktree a r r' := by
  rw [Report.turn, Option.map_eq_some_iff] at h
  obtain ⟨state, hstep, rfl⟩ := h
  obtain ⟨hrunning, hnew, rfl⟩ := eq_of_step hstep
  obtain ⟨hchecks, hannounced⟩ := checkLines_sorted r.state.repo.worktree a
  refine ⟨hrunning, hnew, rfl, rfl, ⟨_, List.append_assoc _ _ _, ?_, ?_⟩, ?_, ?_⟩
  · cases hupdate : found r.state.repo.worktree a with
    | none => rw [List.append_nil, hchecks]
    | some update => rw [List.filter_append, hchecks, (updateLines_sorted ..).1, List.append_nil]
  · cases hupdate : found r.state.repo.worktree a with
    | none => rw [List.append_nil, hannounced, Option.toList_none, ite_self]
    | some update =>
      obtain ⟨depName, latestVersion⟩ := update
      rw [List.filterMap_append, hannounced, (updateLines_sorted ..).2, (of_found hupdate).1]
      rfl
  · intro p hp
    rw [checkDependency_eq] at hp
    cases hupdate : found r.state.repo.worktree a with
    | none =>
      rw [hupdate] at hp
      cases hcurrent : currentPanics r.state.repo.worktree a <;>
        exact Or.inl (by simpa [hcurrent] using hp)
    | some update =>
      obtain ⟨depName, latestVersion⟩ := update
      obtain ⟨rfl, -⟩ := of_found hupdate
      obtain ⟨new, hpushes, hown⟩ := pushes_performUpdate options r.state a latestVersion
      simp only [hupdate, hpushes, List.mem_append] at hp
      rcases hp with hbefore | hnow
      · exact Or.inl hbefore
      · obtain ⟨hname, hversion⟩ := hown p hnow
        exact Or.inr ⟨latestVersion, by rw [hname], hversion⟩
  · rw [checkDependency_eq]
    cases hupdate : found r.state.repo.worktree a with
    | none =>
      cases hcurrent : currentPanics r.state.repo.worktree a <;> simp [hrunning]
    | some update =>
      obtain ⟨depName, latestVersion⟩ := update
      rw [(of_found hupdate).2]
      refine ⟨fun h => Bool.noConfusion h, fun h => Or.inr ⟨?_, rfl⟩⟩
      -- a dry run does nothing that could panic
      rw [Bool.eq_false_iff]
      intro hdry
      simp only [performUpdate, hdry, if_true, hrunning] at h
      cases h

/-- A turn that finds the same with another manifest tells the same. -/
theorem Told.congr {options : CheckDepsOptions} {doc doc' : Manifest} {a : Attempt}
    {r r' : Report} (h : Told options doc a r r')
    (hlook : doc.look (dependencyPath a.depName) = doc'.look (dependencyPath a.depName)) :
    Told options doc' a r r' := by
  obtain ⟨hfound, hpanics, hlines⟩ := check_congr hlook
  exact ⟨h.checked, hfound ▸ h.updatesFound, hfound ▸ hlines ▸ h.lines, hfound ▸ h.pushes,
    hfound ▸ hpanics ▸ h.panics⟩

/-! ## Runs -/

/-- What a run that began with `doc` has found and printed. -/
structure Foreseen (options : CheckDepsOptions) (doc : Manifest) (as : List Attempt) (r : Report) :
    Prop where
  checked : r.state.checked = (as.map (·.depName)).reverse
  updatesFound : r.updatesFound = as.any fun a => (found doc a).isSome
  checks : r.lines.filter Line.isCheck = as.flatMap (checkLines doc)
  foretold : r.lines.filterMap Line.foretold =
    if options.dryRun then as.filterMap (found doc) else []
  pushes : ∀ p ∈ r.state.pushes, ∃ a ∈ as, ∃ latestVersion,
    found doc a = some (p.depName, latestVersion) ∧ p.newVersion = latestVersion.toString
  /-- It panics over a current version, or over an update that it has found. -/
  panics : (as.any (currentPanics doc) = true → r.state.panicked = true) ∧
    (r.state.panicked = true → as.any (currentPanics doc) = true ∨
      options.dryRun = false ∧ r.updatesFound = true)

/-- The turns of a report are turns of the runs. -/
theorem exec_of_report {options : CheckDepsOptions} {as : List Attempt} {r₀ r : Report}
    (h : exec (Report.turn options) r₀ as = some r) :
    exec turn { r₀.state with options } (as.map .check) = some { r.state with options } := by
  induction as generalizing r₀ with
  | nil =>
    cases h
    rfl
  | cons a as ih =>
    rw [exec_cons, Option.bind_eq_some_iff] at h
    obtain ⟨r₁, hturn, hrest⟩ := h
    rw [Report.turn, Option.map_eq_some_iff] at hturn
    obtain ⟨state, hstep, rfl⟩ := hturn
    rw [List.map_cons, exec_cons, turn, hstep, Option.map_some, Option.bind_some]
    exact ih hrest

/-- The version of a dependency that was not checked is the one that the run began with. -/
theorem look_of_unchecked {options : CheckDepsOptions} {repo : Repo} (hclean : repo.Clean)
    {as : List Attempt} {r : Runs}
    (h : exec turn (Runs.start options repo) (as.map .check) = some r) {depName : String}
    (hnew : depName ∉ as.map (·.depName)) :
    r.repo.worktree.look (dependencyPath depName) =
      repo.worktree.look (dependencyPath depName) := by
  obtain ⟨updates, hmade, hby⟩ := (updates_of_exec hclean h).worktree
  rw [hclean.2]
  refine hmade.look fun u hu hsame => ?_
  -- the update is of a dependency that was checked
  obtain ⟨t, ht, hupdate⟩ := hby u hu
  obtain ⟨a, ha, rfl⟩ := List.mem_map.mp ht
  simp only [Turn.update] at hupdate
  split at hupdate
  · rw [Option.some.injEq] at hupdate
    subst hupdate
    exact hnew (List.mem_map.mpr ⟨a, ha, hsame⟩)
  · cases hupdate

/-- **Step lemma.** -/
theorem Foreseen.snoc {options : CheckDepsOptions} {doc : Manifest} {as : List Attempt}
    {r r' : Report} {a : Attempt} (hr : Foreseen options doc as r)
    (hrunning : r.state.panicked = false) (h : Told options doc a r r') :
    Foreseen options doc (as ++ [a]) r' := by
  have hnopanic : as.any (currentPanics doc) = false := by
    rw [Bool.eq_false_iff]
    intro hany
    rw [hr.panics.1 hany] at hrunning
    cases hrunning
  obtain ⟨new, hlines, hchecks, hforetold⟩ := h.lines
  refine ⟨?_, ?_, ?_, ?_, fun p hp => ?_, ?_⟩
  · rw [h.checked, hr.checked, List.map_append, List.reverse_append]
    rfl
  · rw [h.updatesFound, hr.updatesFound, List.any_append, List.any_cons, List.any_nil,
      Bool.or_false]
  · rw [hlines, List.filter_append, hr.checks, hchecks, List.flatMap_append,
      List.flatMap_singleton]
  · rw [hlines, List.filterMap_append, hr.foretold, hforetold, List.filterMap_append]
    cases options.dryRun with
    | false => rfl
    | true => cases hfound : found doc a <;> simp [hfound]
  · rcases h.pushes p hp with hbefore | ⟨latestVersion, hnow⟩
    · obtain ⟨a', ha', hfound⟩ := hr.pushes p hbefore
      exact ⟨a', List.mem_append_left _ ha', hfound⟩
    · exact ⟨a, List.mem_append_right _ List.mem_cons_self, latestVersion, hnow⟩
  · rw [List.any_append, hnopanic, Bool.false_or, List.any_cons, List.any_nil, Bool.or_false,
      h.updatesFound]
    refine ⟨h.panics.1, fun hpanicked => (h.panics.2 hpanicked).imp_right fun hfound => ?_⟩
    exact ⟨hfound.1, by rw [hfound.2, Bool.or_true]⟩

/-- **Run lemma.** -/
theorem foreseen_of_exec {options : CheckDepsOptions} {repo : Repo} (hclean : repo.Clean)
    {as : List Attempt} {r : Report}
    (h : exec (Report.turn options) (Report.start repo) as = some r) :
    Foreseen options repo.worktree as r := by
  induction as using List.reverseRecOn generalizing r with
  | nil =>
    cases h
    refine ⟨rfl, rfl, rfl, (ite_self []).symm, fun _ hp => absurd hp List.not_mem_nil,
      fun hany => ?_, fun hpanicked => ?_⟩
    · cases hany
    · cases hpanicked
  | append_singleton as a ih =>
    rw [exec_append, Option.bind_eq_some_iff] at h
    obtain ⟨r₀, hbefore, hlast⟩ := h
    rw [exec_cons, Option.bind_eq_some_iff] at hlast
    obtain ⟨r₁, hturn, hend⟩ := hlast
    cases hend
    have hr := ih hbefore
    obtain ⟨hrunning, hnew, htold⟩ := told_of_turn hturn
    rw [hr.checked, List.mem_reverse] at hnew
    -- what it finds is what there was to find at first
    exact hr.snoc hrunning (htold.congr (look_of_unchecked hclean (exec_of_report hbefore) hnew))

/-- **A dry run foretells.** In a clean checkout, with the same answers from outside: a dry run
changes nothing, and whatever a run with any other options does and whatever fails in it, the two
find the same. They print the same about the versions; the dry run announces each update that there
is, and no other; the other run pushes no branch that was not announced; and both end with the same
last line. The two come to the same dependencies: a run that panics inside an update is compared as
far as it got. -/
theorem dry_run_foretells {dry options : CheckDepsOptions} (hdry : dry.dryRun = true)
    {repo : Repo} (hclean : repo.Clean) {as : List Attempt} {r r' : Report}
    (h : exec (Report.turn dry) (Report.start repo) as = some r)
    (h' : exec (Report.turn options) (Report.start repo) as = some r') :
    r.state.repo = repo ∧ r.lines.filter Line.isCheck = r'.lines.filter Line.isCheck ∧
    r.lines.filterMap Line.foretold = as.filterMap (found repo.worktree) ∧
    (∀ p ∈ r'.state.pushes, ∃ latestVersion,
      (p.depName, latestVersion) ∈ r.lines.filterMap Line.foretold ∧
        p.newVersion = latestVersion.toString) ∧
    r.closing = r'.closing := by
  have hr := foreseen_of_exec hclean h
  have hr' := foreseen_of_exec hclean h'
  have hforetold := hr.foretold
  rw [if_pos hdry] at hforetold
  refine ⟨?_, hr.checks.trans hr'.checks.symm, hforetold, fun p hp => ?_, ?_⟩
  · refine exec_invariant (P := fun q => q.state.repo = repo) h rfl fun q a q' hsame hturn => ?_
    rw [Report.turn, Option.map_eq_some_iff] at hturn
    obtain ⟨state, hstep, rfl⟩ := hturn
    exact (repo_of_dryRun hdry hstep).trans hsame
  · obtain ⟨a, ha, latestVersion, hfound, hversion⟩ := hr'.pushes p hp
    rw [hforetold]
    exact ⟨latestVersion, List.mem_filterMap.mpr ⟨a, ha, hfound⟩, hversion⟩
  · have hsame : r.updatesFound = r'.updatesFound := hr.updatesFound.trans hr'.updatesFound.symm
    unfold Report.closing
    rw [hsame]
    cases hupdates : r'.updatesFound with
    | true => simp only [Bool.not_true, Bool.and_false]
    | false =>
      -- without an update both panic, or neither does
      have hpanicked : r.state.panicked = r'.state.panicked := by
        rw [Bool.eq_iff_iff]
        constructor
        · intro hpanicked
          rcases hr.panics.2 hpanicked with hany | ⟨hreal, -⟩
          · exact hr'.panics.1 hany
          · rw [hdry] at hreal
            cases hreal
        · intro hpanicked
          rcases hr'.panics.2 hpanicked with hany | ⟨-, hfound⟩
          · exact hr.panics.1 hany
          · rw [hupdates] at hfound
            cases hfound
      rw [hpanicked]

/-- Two updates, of which the first is not pushed in the CI run, as its branch cannot be pushed. -/
theorem dry_run_foretells_ci_run :
    ∃ as r r',
      exec (Report.turn { ciRun with dryRun := true }) (Report.start baseCheckout) as = some r ∧
      exec (Report.turn ciRun) (Report.start baseCheckout) as = some r' ∧
      r.lines.filterMap Line.foretold =
        [("ractor", .release 0 17 0), ("cron", .release 0 18 0)] ∧
      r'.state.pushes.map Push.branch = ["auto-deps/cron-0.18.0"] ∧
      r.lines.filter Line.isCheck = r'.lines.filter Line.isCheck ∧ r.closing = r'.closing := by
  let first := attempt "ractor" (.release 0 17 0) .success
  let as : List Attempt :=
    [{ first with pr.push := .exits "rejected" }, attempt "cron" (.release 0 18 0) .success]
  obtain ⟨r, hr, hforetold⟩ : ∃ r,
      exec (Report.turn { ciRun with dryRun := true }) (Report.start baseCheckout) as = some r ∧
        r.lines.filterMap Line.foretold =
          [("ractor", .release 0 17 0), ("cron", .release 0 18 0)] :=
    Option.map_eq_some_iff.mp (by decide +kernel)
  obtain ⟨r', hr', hpushes⟩ : ∃ r',
      exec (Report.turn ciRun) (Report.start baseCheckout) as = some r' ∧
        r'.state.pushes.map Push.branch = ["auto-deps/cron-0.18.0"] :=
    Option.map_eq_some_iff.mp (by decide +kernel)
  obtain ⟨-, hchecks, -, -, hclosing⟩ := dry_run_foretells rfl ⟨rfl, rfl⟩ hr hr'
  exact ⟨as, r, r', hr, hr', hforetold, hpushes, hchecks, hclosing⟩

end RactorActors.Xtask.Deps
