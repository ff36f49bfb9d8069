import RactorActors.Xtask.Deps.Updater

/-!
# Opening a pull request

`deps/pr_generator.rs` of the `xtask` crate, over the repository that its commands work on. Of the
files only the manifest is kept track of; `Cargo.lock` is not. A command that fails is taken to
leave the repository as it was. `git add` need not: it stages the manifest also when it refuses a
`Cargo.lock` that is ignored. Nothing reads what is staged until a later `git add` has succeeded.

* `Repo`: the branch that is checked out, the one before it, and the manifest in the index and in
  the worktree, which `git checkout -b` takes along;
* `createPr`: each command runs only after the one before has succeeded;
* `createPr_cases`: where this can leave the repository.
-/

namespace RactorActors.Xtask.Deps

/-- A branch and the manifest of its last commit. -/
structure Branch where
  name : String
  manifest : Manifest
deriving DecidableEq

/-- The repository that the tool works on. -/
structure Repo where
  /-- The names of the local branches. -/
  locals : List String
  head : Branch
  /-- The branch that `git checkout -` goes back to. -/
  previous : Option Branch
  index : Manifest
  worktree : Manifest
deriving DecidableEq

/-- `run_git` -/
def runGit (args : List String) (outcome : CommandOutcome) : Except Failure Unit :=
  let command := " ".intercalate args
  match outcome with
  | .success => .ok ()
  | .exits stderr => .error (.error s!"`git {command}` failed: {stderr}")
  | .spawnFails => .error (.error s!"Failed to spawn `git {command}`")

namespace Repo

/-- `git checkout -b name`. It keeps what is not committed, and fails if there is such a branch. -/
def checkoutNew (name : String) (outcome : CommandOutcome) (r : Repo) : Except Failure Repo := do
  let args := ["checkout", "-b", name]
  if r.locals.contains name then
    let outcome : CommandOutcome :=
      match outcome with
      | .success => .exits s!"fatal: a branch named {name} already exists"
      | outcome => outcome
    runGit args outcome
    .ok r
  else
    runGit args outcome
    .ok { r with
      locals := name :: r.locals
      head := { name, manifest := r.head.manifest }
      previous := some r.head }

/-- `git add ractor_actors/Cargo.toml Cargo.lock` -/
def add (outcome : CommandOutcome) (r : Repo) : Except Failure Repo := do
  runGit ["add", "ractor_actors/Cargo.toml", "Cargo.lock"] outcome
  .ok { r with index := r.worktree }

/-- `git commit -m message` -/
def commit (message : String) (outcome : CommandOutcome) (r : Repo) : Except Failure Repo := do
  runGit ["commit", "-m", message] outcome
  .ok { r with head := { r.head with manifest := r.index } }

/-- `git push -u origin name` -/
def push (name : String) (outcome : CommandOutcome) (r : Repo) : Except Failure Repo := do
  runGit ["push", "-u", "origin", name] outcome
  .ok r

/-- `gh pr create` -/
def ghPrCreate (outcome : CommandOutcome) (r : Repo) : Except Failure Repo :=
  match outcome with
  | .success => .ok r
  | .exits stderr => .error (.error s!"gh pr create failed: {stderr}")
  | .spawnFails => .error (.error "Failed to create PR with gh CLI")

/-- `git checkout -`. What is not committed is kept. -/
def checkoutPrevious (outcome : CommandOutcome) (r : Repo) : Except Failure Repo := do
  runGit ["checkout", "-"] outcome
  match r.previous with
  | none => .error (.error "`git checkout -` failed: no previous branch")
  | some branch =>
    .ok { r with
      head := branch
      previous := some r.head
      index := if r.index = r.head.manifest then branch.manifest else r.index
      worktree := if r.worktree = r.head.manifest then branch.manifest else r.worktree }

/-- Commands that run one after the other, up to the first that fails. -/
def runAll : List (Repo → Except Failure Repo) → Repo → Repo × Except Failure Unit
  | [], r => (r, .ok ())
  | command :: commands, r =>
    match command r with
    | .ok r' => runAll commands r'
    | .error failure => (r, .error failure)

end Repo

/-- How the commands of `create_pr` end. -/
structure PrOutcomes where
  /-- `git rev-parse` could be run. -/
  revParse : Bool
  checkoutNew : CommandOutcome
  add : CommandOutcome
  commit : CommandOutcome
  push : CommandOutcome
  ghPrCreate : CommandOutcome
  checkoutPrevious : CommandOutcome
deriving DecidableEq

/-- The commands up to the push succeed, and the branch is a new one. -/
structure PrOutcomes.ReachesPush (o : PrOutcomes) (locals : List String) (branchName : String) :
    Prop where
  fresh : branchName ∉ locals
  checkoutNew : o.checkoutNew = .success
  add : o.add = .success
  commit : o.commit = .success
  push : o.push = .success

/-- The commands behind the push succeed. -/
structure PrOutcomes.Opens (o : PrOutcomes) : Prop where
  ghPrCreate : o.ghPrCreate = .success
  checkoutPrevious : o.checkoutPrevious = .success

namespace PrGenerator

open Repo

/-- The branch of an update. -/
def branchName (depName newVersion : String) : String := s!"auto-deps/{depName}-{newVersion}"

/-- The message of its commit. -/
def commitMsg (depName newVersion : String) : String := s!"deps: Update {depName} to {newVersion}"

/-- The commands of `create_pr` up to the push. -/
def prepare (branchName message : String) (o : PrOutcomes) : List (Repo → Except Failure Repo) :=
  [checkoutNew branchName o.checkoutNew, add o.add, commit message o.commit,
    push branchName o.push]

/-- `PrGenerator::create_pr`, with the branch that it has pushed. -/
def createPr (depName newVersion : String) (o : PrOutcomes) (r : Repo) :
    Repo × Option Branch × Except Failure Unit :=
  -- the branch exists if it can be resolved
  if o.revParse && r.locals.contains (branchName depName newVersion) then (r, none, .ok ())
  else
    match runAll (prepare (branchName depName newVersion) (commitMsg depName newVersion) o) r with
    | (r', .error failure) => (r', none, .error failure)
    | (r', .ok ()) =>
      let out := runAll [ghPrCreate o.ghPrCreate, checkoutPrevious o.checkoutPrevious] r'
      (out.1, some r'.head, out.2)

/-! ## Where a pull request leaves the repository -/

/-- A git command goes through if it succeeds and its effect is possible. -/
theorem runGit_bind_eq_ok {args : List String} {outcome : CommandOutcome}
    {effect : Except Failure Repo} {r : Repo} :
    (runGit args outcome >>= fun _ => effect) = .ok r ↔ outcome = .success ∧ effect = .ok r := by
  cases outcome <;> simp [runGit, bind, Except.bind]

theorem checkoutNew_eq_ok {name : String} {outcome : CommandOutcome} {r r' : Repo} :
    checkoutNew name outcome r = .ok r' ↔ name ∉ r.locals ∧ outcome = .success ∧
      { r with
        locals := name :: r.locals
        head := { name, manifest := r.head.manifest }
        previous := some r.head } = r' := by
  unfold checkoutNew
  by_cases hin : name ∈ r.locals
  · simp only [List.contains_eq_mem, hin, decide_true, if_true, runGit_bind_eq_ok]
    cases outcome <;> simp
  · simp [hin, runGit_bind_eq_ok]

theorem add_eq_ok {outcome : CommandOutcome} {r r' : Repo} :
    add outcome r = .ok r' ↔ outcome = .success ∧ { r with index := r.worktree } = r' := by
  simp [add, runGit_bind_eq_ok]

theorem commit_eq_ok {message : String} {outcome : CommandOutcome} {r r' : Repo} :
    commit message outcome r = .ok r' ↔
      outcome = .success ∧ { r with head := { r.head with manifest := r.index } } = r' := by
  simp [commit, runGit_bind_eq_ok]

theorem push_eq_ok {name : String} {outcome : CommandOutcome} {r r' : Repo} :
    push name outcome r = .ok r' ↔ outcome = .success ∧ r = r' := by
  simp [push, runGit_bind_eq_ok]

theorem ghPrCreate_eq_ok {outcome : CommandOutcome} {r r' : Repo} :
    ghPrCreate outcome r = .ok r' ↔ outcome = .success ∧ r = r' := by
  cases outcome <;> simp [ghPrCreate]

theorem runAll_of_ok {command : Repo → Except Failure Repo}
    {commands : List (Repo → Except Failure Repo)} {r r' : Repo} (h : command r = .ok r') :
    runAll (command :: commands) r = runAll commands r' := by
  rw [runAll, h]

theorem runAll_of_error {command : Repo → Except Failure Repo}
    {commands : List (Repo → Except Failure Repo)} {r : Repo} {failure : Failure}
    (h : command r = .error failure) : runAll (command :: commands) r = (r, .error failure) := by
  rw [runAll, h]

/-- What the commands up to the push make of a repository. -/
inductive Prepared (r : Repo) (branchName : String) (o : PrOutcomes) :
    Repo × Except Failure Unit → Prop
  /-- A command fails, before or after the commit. -/
  | stopped (r' : Repo) (failure : Failure) (hfails : ¬ o.ReachesPush r.locals branchName)
      (hhead : r'.head.manifest = r.head.manifest ∨ r'.head.manifest = r.worktree)
      (hworktree : r'.worktree = r.worktree) : Prepared r branchName o (r', .error failure)
  | pushed (r' : Repo) (hok : o.ReachesPush r.locals branchName)
      (hhead : r'.head = ⟨branchName, r.worktree⟩) (hworktree : r'.worktree = r.worktree)
      (hprevious : r'.previous = some r.head) : Prepared r branchName o (r', .ok ())

theorem prepared (r : Repo) (branchName message : String) (o : PrOutcomes) :
    Prepared r branchName o (runAll (prepare branchName message o) r) := by
  unfold prepare
  cases hcheckout : checkoutNew branchName o.checkoutNew r with
  | error failure =>
    rw [runAll_of_error hcheckout]
    refine .stopped r failure (fun hok => ?_) (Or.inl rfl) rfl
    rw [checkoutNew_eq_ok.mpr ⟨hok.fresh, hok.checkoutNew, rfl⟩] at hcheckout
    cases hcheckout
  | ok r₁ =>
    -- the worktree is taken along to the new branch
    obtain ⟨hfresh, hcheckoutNew, hr₁⟩ := checkoutNew_eq_ok.mp hcheckout
    rw [runAll_of_ok hcheckout]
    cases hadd : add o.add r₁ with
    | error failure =>
      rw [runAll_of_error hadd]
      refine .stopped r₁ failure (fun hok => ?_) (Or.inl (hr₁ ▸ rfl)) (hr₁ ▸ rfl)
      rw [add_eq_ok.mpr ⟨hok.add, rfl⟩] at hadd
      cases hadd
    | ok r₂ =>
      obtain ⟨haddOk, hr₂⟩ := add_eq_ok.mp hadd
      rw [runAll_of_ok hadd]
      cases hcommit : commit message o.commit r₂ with
      | error failure =>
        -- the manifest stays in the worktree of the new branch
        rw [runAll_of_error hcommit]
        refine .stopped r₂ failure (fun hok => ?_) (Or.inl ?_) ?_
        · rw [commit_eq_ok.mpr ⟨hok.commit, rfl⟩] at hcommit
          cases hcommit
        · rw [← hr₂, ← hr₁]
        · rw [← hr₂, ← hr₁]
      | ok r₃ =>
        -- the commit has what was in the worktree
        obtain ⟨hcommitOk, hr₃⟩ := commit_eq_ok.mp hcommit
        have hhead : r₃.head = ⟨branchName, r.worktree⟩ := by rw [← hr₃, ← hr₂, ← hr₁]
        have hworktree : r₃.worktree = r.worktree := by rw [← hr₃, ← hr₂, ← hr₁]
        rw [runAll_of_ok hcommit]
        cases hpush : push branchName o.push r₃ with
        | error failure =>
          rw [runAll_of_error hpush]
          refine .stopped r₃ failure (fun hok => ?_) (Or.inr (by rw [hhead])) hworktree
          rw [push_eq_ok.mpr ⟨hok.push, rfl⟩] at hpush
          cases hpush
        | ok r₄ =>
          obtain ⟨hpushOk, rfl⟩ := push_eq_ok.mp hpush
          rw [runAll_of_ok hpush]
          exact .pushed r₃ ⟨hfresh, hcheckoutNew, haddOk, hcommitOk, hpushOk⟩ hhead hworktree
            (by rw [← hr₃, ← hr₂, ← hr₁])

/-- Where `create_pr` leaves a repository. -/
inductive PrCase (r : Repo) (branchName : String) (o : PrOutcomes) :
    Repo × Option Branch × Except Failure Unit → Prop
  /-- The branch exists, or a command up to the push fails. -/
  | unpushed (r' : Repo) (result : Except Failure Unit) (hno : ¬ o.ReachesPush r.locals branchName)
      (hhead : r'.head.manifest = r.head.manifest ∨ r'.head.manifest = r.worktree)
      (hworktree : r'.worktree = r.worktree) : PrCase r branchName o (r', none, result)
  /-- The tool stays on the branch that it has pushed. -/
  | left (r' : Repo) (failure : Failure) (hok : o.ReachesPush r.locals branchName)
      (hhead : r'.head.manifest = r.worktree) (hworktree : r'.worktree = r.worktree) :
      PrCase r branchName o (r', some ⟨branchName, r.worktree⟩, .error failure)
  | returned (r' : Repo) (hok : o.ReachesPush r.locals branchName) (hhead : r'.head = r.head)
      (hworktree : r'.worktree = r.head.manifest) (hopens : o.Opens) :
      PrCase r branchName o (r', some ⟨branchName, r.worktree⟩, .ok ())

theorem createPr_cases (depName newVersion : String) (o : PrOutcomes) (r : Repo) :
    PrCase r (branchName depName newVersion) o (createPr depName newVersion o r) := by
  unfold createPr
  split
  · rename_i hexists
    rw [Bool.and_eq_true, List.contains_iff_mem] at hexists
    exact .unpushed r _ (fun hok => hok.fresh hexists.2) (Or.inl rfl) rfl
  · have hprepared := prepared r (branchName depName newVersion) (commitMsg depName newVersion) o
    generalize runAll (prepare (branchName depName newVersion) (commitMsg depName newVersion) o) r =
      out at hprepared
    cases hprepared with
    | stopped r' failure hfails hhead hworktree =>
      exact .unpushed r' _ hfails hhead hworktree
    | pushed r' hok hhead hworktree hprevious =>
      show PrCase r _ o ((runAll [_, _] r').1, some r'.head, (runAll [_, _] r').2)
      rw [hhead]
      have hclean : r'.worktree = r'.head.manifest := by rw [hworktree, hhead]
      cases hgh : ghPrCreate o.ghPrCreate r' with
      | error failure =>
        rw [runAll_of_error hgh]
        exact .left r' failure hok (by rw [hhead]) hworktree
      | ok r'' =>
        obtain ⟨hghOk, rfl⟩ := ghPrCreate_eq_ok.mp hgh
        rw [runAll_of_ok hgh]
        cases hcheckout : checkoutPrevious o.checkoutPrevious r' with
        | error failure =>
          -- the pull request is open, but the tool stays on its branch
          rw [runAll_of_error hcheckout]
          exact .left r' failure hok (by rw [hhead]) hworktree
        | ok r'' =>
          -- nothing is uncommitted, so the files are those of the branch gone back to
          obtain ⟨hcheckoutOk, heffect⟩ := runGit_bind_eq_ok.mp hcheckout
          simp only [hprevious, Except.ok.injEq] at heffect
          rw [runAll_of_ok hcheckout, runAll]
          exact .returned r'' hok (by rw [← heffect]) (by rw [← heffect, if_pos hclean])
            ⟨hghOk, hcheckoutOk⟩

/-! ## The branches of a pull request -/

/-- What every command keeps, commands that run one after the other keep. -/
theorem runAll_invariant {P : Repo → Prop} {commands : List (Repo → Except Failure Repo)}
    (hkeeps : ∀ command ∈ commands, ∀ r r', P r → command r = .ok r' → P r') {r : Repo}
    (h : P r) : P (runAll commands r).1 := by
  induction commands generalizing r with
  | nil => exact h
  | cons command commands ih =>
    cases hrun : command r with
    | error failure =>
      rw [runAll_of_error hrun]
      exact h
    | ok r' =>
      rw [runAll_of_ok hrun]
      exact ih (fun c hc => hkeeps c (List.mem_cons_of_mem command hc))
        (hkeeps command List.mem_cons_self r r' h hrun)

/-- The commands up to the push stay on the branch that is checked out. -/
theorem stays_on_branch (branchName message : String) (o : PrOutcomes) (r : Repo) :
    let r' := (runAll [add o.add, commit message o.commit, push branchName o.push] r).1
    r'.locals = r.locals ∧ r'.previous = r.previous ∧ r'.head.name = r.head.name := by
  apply runAll_invariant (P := fun r' =>
    r'.locals = r.locals ∧ r'.previous = r.previous ∧ r'.head.name = r.head.name)
  · intro command hcommand r₁ r₂ hon hrun
    simp only [List.mem_cons, List.not_mem_nil, or_false] at hcommand
    rcases hcommand with rfl | rfl | rfl
    · obtain ⟨-, rfl⟩ := add_eq_ok.mp hrun
      exact hon
    · obtain ⟨-, rfl⟩ := commit_eq_ok.mp hrun
      exact hon
    · obtain ⟨-, rfl⟩ := push_eq_ok.mp hrun
      exact hon
  · exact ⟨rfl, rfl, rfl⟩

/-- The branch of a pull request is a new one. -/
inductive BranchCase (r : Repo) (branchName : String) :
    Repo × Option Branch × Except Failure Unit → Prop
  | none (r' : Repo) (result : Except Failure Unit) (hlocals : r'.locals = r.locals)
      (hhead : r'.head = r.head) : BranchCase r branchName (r', .none, result)
  | new (r' : Repo) (pushed : Option Branch) (result : Except Failure Unit)
      (hfresh : branchName ∉ r.locals) (hlocals : r'.locals = branchName :: r.locals)
      (hhead : r'.head = r.head ∨ r'.head.name = branchName) :
      BranchCase r branchName (r', pushed, result)

theorem createPr_branches (depName newVersion : String) (o : PrOutcomes) (r : Repo) :
    BranchCase r (branchName depName newVersion) (createPr depName newVersion o r) := by
  unfold createPr
  split
  · exact .none r _ rfl rfl
  · cases hcheckout : checkoutNew (branchName depName newVersion) o.checkoutNew r with
    | error failure =>
      rw [prepare, runAll_of_error hcheckout]
      exact .none r _ rfl rfl
    | ok r₁ =>
      obtain ⟨hfresh, -, hr₁⟩ := checkoutNew_eq_ok.mp hcheckout
      rw [prepare, runAll_of_ok hcheckout]
      have hstays := stays_on_branch (branchName depName newVersion)
        (commitMsg depName newVersion) o r₁
      generalize runAll [add o.add, commit (commitMsg depName newVersion) o.commit,
        push (branchName depName newVersion) o.push] r₁ = out at hstays
      obtain ⟨r₂, result⟩ := out
      rw [← hr₁] at hstays
      obtain ⟨hlocals, hprevious, hname⟩ := hstays
      dsimp only at hlocals hprevious hname
      cases result with
      | error failure => exact .new r₂ _ _ hfresh hlocals (Or.inr hname)
      | ok _ =>
        cases hgh : ghPrCreate o.ghPrCreate r₂ with
        | error failure =>
          dsimp only
          rw [runAll_of_error hgh]
          exact .new r₂ _ _ hfresh hlocals (Or.inr hname)
        | ok r₃ =>
          obtain ⟨-, rfl⟩ := ghPrCreate_eq_ok.mp hgh
          dsimp only
          rw [runAll_of_ok hgh]
          cases hback : checkoutPrevious o.checkoutPrevious r₂ with
          | error failure =>
            rw [runAll_of_error hback]
            exact .new r₂ _ _ hfresh hlocals (Or.inr hname)
          | ok r₃ =>
            -- the branch gone back to is the one that the pull request began on
            obtain ⟨-, heffect⟩ := runGit_bind_eq_ok.mp hback
            simp only [hprevious, Except.ok.injEq] at heffect
            rw [runAll_of_ok hback, runAll]
            exact .new r₃ _ _ hfresh (by rw [← heffect]; exact hlocals)
              (Or.inl (by rw [← heffect]))

end PrGenerator

end RactorActors.Xtask.Deps
