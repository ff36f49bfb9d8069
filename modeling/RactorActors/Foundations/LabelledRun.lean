import Mathlib.Data.List.Basic
import Mathlib.Tactic.Common

/-!
# Labelled runs of a partial step function

A system is given by a partial, deterministic step function `step : σ → ε → Option σ`: the
label `ε` names everything the environment chooses (which party moves, what an operation
returns), and `none` says that the label is not enabled. All nondeterminism is in the list
of labels.

* `exec step s es`: the state after the labels `es`, if all of them are enabled in turn;
* `Run step G s es s'`: the same, with every step meeting the guard `G` on the state before
  it and its label;
* `Run.invariant` and `exec_invariant`: a predicate that every step keeps holds at the end;
* `exec_length_le` and `Run.length_le`: a measure that every step decreases bounds the length of
  a run, and `exists_maximal`: some run then ends where no step is left;
* `Attains step G s P`: however the guarded steps are taken from `s`, their number is bounded and
  `P` holds where none is left; `attains_of_measure`, `Attains.of_next` and
  `Attains.exists_run`;
* `checked` and `run_iff_exec_checked`: a guard that can be computed is a refusal to step;
* `exec_iff_run_or_breaks`: a run either meets the guard throughout or has a first step that
  breaks it;
* `Throughout step P s es`: `P` holds in every state that the labels pass through, and
  `run_iff_throughout`: if each step keeps `P` exactly when it meets the guard, a run keeps `P`
  throughout exactly when it meets the guard throughout (`Run.iff_throughout` for the runs that
  meet an assumption of their own).
-/

namespace LabelledRun

variable {σ ε : Type*}

/-- The state reached from `s` by the labels `es`, or `none` if one of them is not enabled. -/
def exec (step : σ → ε → Option σ) : σ → List ε → Option σ
  | s, [] => some s
  | s, e :: es => (step s e).bind fun s' => exec step s' es

/-- `Run step G s es s'`: the labels `es` lead from `s` to `s'`, and each step meets the guard
`G` on the state it starts from and its label. -/
inductive Run (step : σ → ε → Option σ) (G : σ → ε → Prop) : σ → List ε → σ → Prop
  | nil (s : σ) : Run step G s [] s
  | cons {s s' s'' : σ} {e : ε} {es : List ε} :
      G s e → step s e = some s' → Run step G s' es s'' → Run step G s (e :: es) s''

variable {step : σ → ε → Option σ} {G H : σ → ε → Prop}

@[simp]
theorem exec_nil (s : σ) : exec step s [] = some s := rfl

@[simp]
theorem exec_cons (s : σ) (e : ε) (es : List ε) :
    exec step s (e :: es) = (step s e).bind fun s' => exec step s' es := rfl

/-- Labels are taken one after the other. -/
theorem exec_append (s : σ) (es₁ es₂ : List ε) :
    exec step s (es₁ ++ es₂) = (exec step s es₁).bind fun t => exec step t es₂ := by
  induction es₁ generalizing s with
  | nil => rfl
  | cons e es₁ ih =>
    rw [List.cons_append, exec_cons, exec_cons, Option.bind_assoc]
    exact Option.bind_congr fun s' _ => ih s'

/-- A run whose guard asks nothing is an execution. -/
theorem run_true_iff {s s' : σ} {es : List ε} :
    Run step (fun _ _ => True) s es s' ↔ exec step s es = some s' := by
  constructor
  · intro h
    induction h with
    | nil => rfl
    | cons _ hs _ ih => simp [hs, ih]
  · intro h
    induction es generalizing s with
    | nil =>
      rw [exec_nil, Option.some.injEq] at h
      exact h ▸ Run.nil s
    | cons e es ih =>
      rw [exec_cons, Option.bind_eq_some_iff] at h
      obtain ⟨t, ht, hrest⟩ := h
      exact Run.cons trivial ht (ih hrest)

/-- A run whose labels meet the guard in every state. -/
theorem run_of_forall_mem {s s' : σ} {es : List ε} (h : exec step s es = some s')
    (hes : ∀ e ∈ es, ∀ t, G t e) : Run step G s es s' := by
  induction es generalizing s with
  | nil =>
    rw [exec_nil, Option.some.injEq] at h
    exact h ▸ Run.nil s
  | cons e es ih =>
    rw [exec_cons, Option.bind_eq_some_iff] at h
    obtain ⟨t, ht, hrest⟩ := h
    exact Run.cons (hes e List.mem_cons_self s) ht
      (ih hrest fun e' he' => hes e' (List.mem_cons_of_mem e he'))

namespace Run

/-- A weaker guard admits every run that a stronger one admits. -/
theorem mono {s s' : σ} {es : List ε} (h : Run step G s es s') (hGH : ∀ s e, G s e → H s e) :
    Run step H s es s' := by
  induction h with
  | nil s => exact Run.nil s
  | cons hg hs _ ih => exact Run.cons (hGH _ _ hg) hs ih

/-- A guarded run is an execution. -/
theorem exec_eq {s s' : σ} {es : List ε} (h : Run step G s es s') : exec step s es = some s' :=
  run_true_iff.mp (h.mono fun _ _ _ => trivial)

/-- Guarded runs are taken one after the other. -/
theorem append {s s' s'' : σ} {es es' : List ε} (h : Run step G s es s')
    (h' : Run step G s' es' s'') : Run step G s (es ++ es') s'' := by
  induction h with
  | nil => exact h'
  | cons hg hs _ ih => exact Run.cons hg hs (ih h')

/-- A guarded run that leads back to where it began can be repeated. -/
theorem replicate {s : σ} {es : List ε} (h : Run step G s es s) (n : ℕ) :
    Run step G s (List.replicate n es).flatten s := by
  induction n with
  | zero => exact Run.nil s
  | succ n ih =>
    rw [List.replicate_succ, List.flatten_cons]
    exact h.append ih

/-- **Invariant rule.** A predicate kept by every step that meets the guard holds at the end of
a guarded run that starts in it. -/
theorem invariant {P : σ → Prop} {s s' : σ} {es : List ε} (h : Run step G s es s') (h₀ : P s)
    (hstep : ∀ s e s', P s → G s e → step s e = some s' → P s') : P s' := by
  induction h with
  | nil => exact h₀
  | cons hg hs _ ih => exact ih (hstep _ _ _ h₀ hg hs)

/-- Two invariants, the second of which may use the first at every step. -/
theorem invariant_of {P Q : σ → Prop} {s s' : σ} {es : List ε} (h : Run step G s es s')
    (hP₀ : P s) (hP : ∀ s e s', P s → step s e = some s' → P s') (hQ₀ : Q s)
    (hQ : ∀ s e s', P s → Q s → G s e → step s e = some s' → Q s') : Q s' := by
  have hboth : P s' ∧ Q s' := by
    refine h.invariant (P := fun s => P s ∧ Q s) ⟨hP₀, hQ₀⟩ ?_
    rintro s e s' ⟨hp, hq⟩ hg hs
    exact ⟨hP _ _ _ hp hs, hQ _ _ _ hp hq hg hs⟩
  exact hboth.2

end Run

/-- The step function that refuses the steps which fail the check `g`. -/
def checked (g : σ → ε → Bool) (step : σ → ε → Option σ) (s : σ) (e : ε) : Option σ :=
  if g s e then step s e else none

/-- A checked step is a step that passes the check. -/
theorem checked_eq_some_iff {g : σ → ε → Bool} {s s' : σ} {e : ε} :
    checked g step s e = some s' ↔ g s e = true ∧ step s e = some s' := by
  unfold checked
  split <;> simp_all

/-- A run guarded by a check is an execution of the checked step function, so that a concrete
run can be evaluated. -/
theorem run_iff_exec_checked {g : σ → ε → Bool} {s s' : σ} {es : List ε} :
    Run step (fun s e => g s e = true) s es s' ↔ exec (checked g step) s es = some s' := by
  constructor
  · intro h
    induction h with
    | nil => rfl
    | cons hg hs _ ih => rw [exec_cons, checked_eq_some_iff.mpr ⟨hg, hs⟩, Option.bind_some, ih]
  · intro h
    induction es generalizing s with
    | nil =>
      rw [exec_nil, Option.some.injEq] at h
      exact h ▸ Run.nil s
    | cons e es ih =>
      rw [exec_cons, Option.bind_eq_some_iff] at h
      obtain ⟨t, ht, hrest⟩ := h
      obtain ⟨hg, hs⟩ := checked_eq_some_iff.mp ht
      exact Run.cons hg hs (ih hrest)

/-- The invariant rule for executions. -/
theorem exec_invariant {P : σ → Prop} {s s' : σ} {es : List ε} (h : exec step s es = some s')
    (h₀ : P s) (hstep : ∀ s e s', P s → step s e = some s' → P s') : P s' :=
  (run_true_iff.mpr h).invariant h₀ fun _ _ _ hp _ hs => hstep _ _ _ hp hs

/-- A measure that every guarded step decreases bounds the length of a guarded run. -/
theorem Run.length_le {I : σ → Prop} {m : σ → ℕ} {s s' : σ} {es : List ε}
    (h : Run step G s es s') (h₀ : I s)
    (hI : ∀ s e s', I s → G s e → step s e = some s' → I s')
    (hm : ∀ s e s', I s → G s e → step s e = some s' → m s' < m s) :
    es.length + m s' ≤ m s := by
  induction h with
  | nil => exact Nat.le_of_eq (Nat.zero_add _)
  | cons hg hs _ ih =>
    have hlt := hm _ _ _ h₀ hg hs
    have hle := ih (hI _ _ _ h₀ hg hs)
    rw [List.length_cons]
    omega

/-- A measure that every step decreases bounds the length of an execution. -/
theorem exec_length_le {I : σ → Prop} {m : σ → ℕ} {s s' : σ} {es : List ε}
    (h : exec step s es = some s') (h₀ : I s)
    (hI : ∀ s e s', I s → step s e = some s' → I s')
    (hm : ∀ s e s', I s → step s e = some s' → m s' < m s) : es.length + m s' ≤ m s :=
  (run_true_iff.mpr h).length_le h₀ (fun s e s' hi _ hs => hI s e s' hi hs)
    fun s e s' hi _ hs => hm s e s' hi hs

/-- **Maximal runs.** Where every guarded step decreases a measure, some guarded run can be
continued no further. -/
theorem exists_maximal {I : σ → Prop} (m : σ → ℕ) {s : σ} (h₀ : I s)
    (hI : ∀ s e s', I s → G s e → step s e = some s' → I s')
    (hm : ∀ s e s', I s → G s e → step s e = some s' → m s' < m s) :
    ∃ es s', Run step G s es s' ∧ ∀ e, G s' e → step s' e = none := by
  induction hn : m s using Nat.strongRecOn generalizing s with
  | ind n ih =>
    by_cases hstuck : ∀ e, G s e → step s e = none
    · exact ⟨[], s, Run.nil s, hstuck⟩
    · push Not at hstuck
      obtain ⟨e, hg, hne⟩ := hstuck
      obtain ⟨t, ht⟩ := Option.ne_none_iff_exists'.mp hne
      -- the run goes on from a state with a smaller measure
      obtain ⟨es, s', hrun, hmax⟩ :=
        ih (m t) (hn ▸ hm s e t h₀ hg ht) (hI s e t h₀ hg ht) rfl
      exact ⟨e :: es, s', Run.cons hg ht hrun, hmax⟩

/-- However the guarded steps are taken from `s`, their number is bounded, and `P` holds once none
of them is left. -/
def Attains (step : σ → ε → Option σ) (G : σ → ε → Prop) (s : σ) (P : σ → Prop) : Prop :=
  ∃ n, ∀ es s', Run step G s es s' →
    es.length ≤ n ∧ ((∀ e, G s' e → step s' e = none) → P s')

/-- **Attainment rule.** A measure that every guarded step decreases, and an invariant that gives
`P` where no guarded step is left. -/
theorem attains_of_measure {I P : σ → Prop} (m : σ → ℕ) {s : σ} (h₀ : I s)
    (hI : ∀ s e s', I s → G s e → step s e = some s' → I s')
    (hm : ∀ s e s', I s → G s e → step s e = some s' → m s' < m s)
    (hP : ∀ s, I s → (∀ e, G s e → step s e = none) → P s) : Attains step G s P := by
  refine ⟨m s, fun es s' h => ⟨?_, fun hmax => hP s' (h.invariant h₀ hI) hmax⟩⟩
  have hle := h.length_le h₀ hI hm
  omega

/-- Where no guarded step is left, what holds is attained. -/
theorem attains_of_stuck {P : σ → Prop} {s : σ} (hmax : ∀ e, G s e → step s e = none)
    (hP : P s) : Attains step G s P := by
  refine ⟨0, fun es s' h => ?_⟩
  cases h with
  | nil => exact ⟨Nat.le_refl 0, fun _ => hP⟩
  | cons hg hs =>
    rw [hmax _ hg] at hs
    cases hs

/-- What is attained from the only state that the guarded steps lead to is attained. -/
theorem Attains.of_next {P : σ → Prop} {s t : σ} {e : ε} (hg : G s e) (hs : step s e = some t)
    (honly : ∀ e t', G s e → step s e = some t' → t' = t) (h : Attains step G t P) :
    Attains step G s P := by
  obtain ⟨n, hn⟩ := h
  refine ⟨n + 1, fun es s' hrun => ?_⟩
  cases hrun with
  | nil =>
    refine ⟨Nat.zero_le _, fun hmax => ?_⟩
    rw [hmax e hg] at hs
    cases hs
  | @cons _ t' _ e' es' hg' hs' hrest =>
    obtain rfl := honly e' t' hg' hs'
    obtain ⟨hlen, hP⟩ := hn es' s' hrest
    exact ⟨Nat.succ_le_succ hlen, hP⟩

/-- What is attained is attained by some run. -/
theorem Attains.exists_run {P : σ → Prop} {s : σ} (h : Attains step G s P) :
    ∃ es s', Run step G s es s' ∧ P s' := by
  obtain ⟨n, hn⟩ := h
  -- a run that can be continued gets longer, up to `n` steps
  have hgrow (k : ℕ) : (∃ es s', Run step G s es s' ∧ P s') ∨
      ∃ es s', Run step G s es s' ∧ es.length = k := by
    induction k with
    | zero => exact Or.inr ⟨[], s, Run.nil s, rfl⟩
    | succ k ih =>
      rcases ih with hdone | ⟨es, s', hrun, hlen⟩
      · exact Or.inl hdone
      · by_cases hmax : ∀ e, G s' e → step s' e = none
        · exact Or.inl ⟨es, s', hrun, (hn es s' hrun).2 hmax⟩
        · push Not at hmax
          obtain ⟨e, hg, hne⟩ := hmax
          obtain ⟨t, ht⟩ := Option.ne_none_iff_exists'.mp hne
          refine Or.inr ⟨es ++ [e], t, hrun.append (Run.cons hg ht (Run.nil t)), ?_⟩
          rw [List.length_append, hlen, List.length_singleton]
  rcases hgrow (n + 1) with hdone | ⟨es, s', hrun, hlen⟩
  · exact hdone
  · have hle := (hn es s' hrun).1
    omega

/-- An execution meets the guard throughout, or there is a first step that breaks it. -/
theorem exec_iff_run_or_breaks {s s' : σ} {es : List ε} (h : exec step s es = some s') :
    Run step G s es s' ∨
      ∃ es₁ e es₂ t t', es = es₁ ++ e :: es₂ ∧ Run step G s es₁ t ∧ ¬ G t e ∧
        step t e = some t' ∧ exec step t' es₂ = some s' := by
  induction es generalizing s with
  | nil =>
    rw [exec_nil, Option.some.injEq] at h
    exact Or.inl (h ▸ Run.nil s)
  | cons e es ih =>
    rw [exec_cons, Option.bind_eq_some_iff] at h
    obtain ⟨u, hu, hrest⟩ := h
    -- the first step decides, or the rest of the run does
    by_cases hg : G s e
    · rcases ih hrest with hrun | ⟨es₁, e', es₂, t, t', rfl, hrun, hng, ht, hrest'⟩
      · exact Or.inl (Run.cons hg hu hrun)
      · exact Or.inr ⟨e :: es₁, e', es₂, t, t', rfl, Run.cons hg hu hrun, hng, ht, hrest'⟩
    · exact Or.inr ⟨[], e, es, s, u, rfl, Run.nil s, hg, hu, hrest⟩

/-! ## Properties of every state on the way -/

/-- `P` holds in every state that the labels `es` pass through from `s`, both ends included. -/
def Throughout (step : σ → ε → Option σ) (P : σ → Prop) : σ → List ε → Prop
  | s, [] => P s
  | s, e :: es => P s ∧ ∀ s', step s e = some s' → Throughout step P s' es

/-- A property holds throughout a run when it holds after every prefix of its labels. -/
theorem throughout_iff {P : σ → Prop} {s : σ} {es : List ε} :
    Throughout step P s es ↔ ∀ es₁ t, es₁ <+: es → exec step s es₁ = some t → P t := by
  induction es generalizing s with
  | nil =>
    simp only [Throughout, List.prefix_nil]
    constructor
    · rintro h es₁ t rfl ht
      rw [exec_nil, Option.some.injEq] at ht
      exact ht ▸ h
    · intro h
      exact h [] s rfl rfl
  | cons e es ih =>
    constructor
    · rintro ⟨hs, hrest⟩ es₁ t hpre ht
      cases es₁ with
      | nil =>
        rw [exec_nil, Option.some.injEq] at ht
        exact ht ▸ hs
      | cons e' es₁ =>
        obtain ⟨rfl, hpre'⟩ := List.cons_prefix_cons.mp hpre
        rw [exec_cons, Option.bind_eq_some_iff] at ht
        obtain ⟨u, hu, ht'⟩ := ht
        exact ih.mp (hrest u hu) es₁ t hpre' ht'
    · intro h
      refine ⟨h [] s List.nil_prefix rfl, fun u hu => ih.mpr fun es₁ t hpre ht => ?_⟩
      refine h (e :: es₁) t (List.cons_prefix_cons.mpr ⟨rfl, hpre⟩) ?_
      rw [exec_cons, hu, Option.bind_some, ht]

/-- A property that holds throughout a run holds at its end. -/
theorem Throughout.last {P : σ → Prop} {s s' : σ} {es : List ε} (h : Throughout step P s es)
    (hrun : exec step s es = some s') : P s' :=
  throughout_iff.mp h es s' List.prefix_rfl hrun

/-- An invariant of guarded runs holds throughout each of them. -/
theorem Run.throughout {P : σ → Prop} {s s' : σ} {es : List ε} (h : Run step G s es s')
    (h₀ : P s) (hstep : ∀ s e s', P s → G s e → step s e = some s' → P s') :
    Throughout step P s es := by
  induction h with
  | nil => exact h₀
  | cons hg hs _ ih =>
    refine ⟨h₀, fun u hu => ?_⟩
    rw [hs, Option.some.injEq] at hu
    exact hu ▸ ih (hstep _ _ _ h₀ hg hs)

/-- A run that meets two guards meets both at every step. -/
theorem Run.and {s s' t : σ} {es : List ε} (h : Run step G s es s') (h' : Run step H s es t) :
    Run step (fun s e => G s e ∧ H s e) s es s' := by
  induction h with
  | nil => exact Run.nil _
  | cons hg hs _ ih =>
    cases h' with
    | cons hh hs' hrest =>
      -- the step function leaves no choice
      rw [hs, Option.some.injEq] at hs'
      subst hs'
      exact Run.cons ⟨hg, hh⟩ hs (ih hrest)

/-- **Exact guards, under an assumption.** In a run whose steps all meet `H`, where every step
from a good state that meets `H` leads to a good state exactly if it meets the guard (`I` may be
used on the way): the run passes through good states only exactly if all of its steps meet the
guard. -/
theorem Run.iff_throughout {I P : σ → Prop} {s s' : σ} {es : List ε} (h : Run step H s es s')
    (hI₀ : I s) (hP₀ : P s)
    (hI : ∀ s e s', I s → P s → H s e → G s e → step s e = some s' → I s')
    (hP : ∀ s e s', I s → P s → H s e → step s e = some s' → (P s' ↔ G s e)) :
    Run step G s es s' ↔ Throughout step P s es := by
  constructor
  · intro hrun
    have hboth : Throughout step (fun s => I s ∧ P s) s es := by
      refine (hrun.and h).throughout ⟨hI₀, hP₀⟩ ?_
      rintro s e s' ⟨hi, hp⟩ ⟨hg, hh⟩ hs
      exact ⟨hI s e s' hi hp hh hg hs, (hP s e s' hi hp hh hs).mpr hg⟩
    exact throughout_iff.mpr fun es₁ t hpre ht => (throughout_iff.mp hboth es₁ t hpre ht).2
  · intro hall
    induction h with
    | nil => exact Run.nil _
    | @cons s u _ e _ hh hu _ ih =>
      -- the state after the first step is good, so the step met the guard
      have hu' := hall.2 u hu
      have hpu : P u := throughout_iff.mp hu' [] u List.nil_prefix rfl
      have hg : G s e := (hP s e u hI₀ hP₀ hh hu).mp hpu
      exact Run.cons hg hu (ih (hI s e u hI₀ hP₀ hh hg hu) hpu hu')

/-- **Exact guards.** Where every step from a good state leads to a good state exactly if it
meets the guard (`I` may be used on the way), a run passes through good states only exactly if
all of its steps meet the guard. -/
theorem run_iff_throughout {I P : σ → Prop} {s s' : σ} {es : List ε}
    (h : exec step s es = some s') (hI₀ : I s) (hP₀ : P s)
    (hI : ∀ s e s', I s → P s → G s e → step s e = some s' → I s')
    (hP : ∀ s e s', I s → P s → step s e = some s' → (P s' ↔ G s e)) :
    Run step G s es s' ↔ Throughout step P s es :=
  (run_true_iff.mpr h).iff_throughout hI₀ hP₀ (fun s e s' hi hp _ hg hs => hI s e s' hi hp hg hs)
    fun s e s' hi hp _ hs => hP s e s' hi hp hs

end LabelledRun
