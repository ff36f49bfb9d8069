import RactorActors.Foundations.LabelledRun

/-!
# What one party sees of a run

A system serves several parties. A party sees some of the labels of a run (`label`), and holds
a part of the state (`view`). The system keeps the parties apart if the labels of the others
leave the view alone, and the view follows its own labels by a function of the view alone
(`replay`).

* `trace label step s es`: what the party sees of the labels `es`, taken from the state `s`;
* `Projects`: each step of the system is a step of `replay`, or none, as the party sees it;
* `Projects.view_eq_foldl`: the view at the end of a run is its trace replayed;
* `Projects.view_eq_of_corresponding`: two runs with one trace show the party the same view at
  corresponding points.

A system may be allowed to break down. `A` says that it has not, and is asked for at the end of
a run only.
-/

namespace LabelledRun

variable {σ ε τ ω : Type*}

/-- What a party sees of the labels `es`, taken one after the other from `s`. -/
def trace (label : σ → ε → Option τ) (step : σ → ε → Option σ) : σ → List ε → List τ
  | _, [] => []
  | s, e :: es =>
    match step s e with
    | some s' => (label s e).toList ++ trace label step s' es
    | none => []

/-- The system `step` shows a party no more than `replay` does: under the invariant `I`, a step
that ends in `A` changes the view by the label that the party sees, or not at all. -/
structure Projects (step : σ → ε → Option σ) (label : σ → ε → Option τ) (I A : σ → Prop)
    (view : σ → ω) (replay : ω → τ → ω) : Prop where
  /-- Every step keeps the invariant. -/
  invariant : ∀ s e s', I s → step s e = some s' → I s'
  /-- What has broken down stays so. -/
  alive : ∀ s e s', step s e = some s' → A s' → A s
  /-- The view follows the labels that the party sees. -/
  step : ∀ s e s', I s → A s' → step s e = some s' →
    view s' = (label s e).elim (view s) (replay (view s))

variable {step : σ → ε → Option σ} {label : σ → ε → Option τ}

@[simp]
theorem trace_nil (s : σ) : trace label step s [] = [] := rfl

/-- A step adds what the party sees of it to the front of the trace. -/
theorem trace_cons {s s' : σ} {e : ε} (es : List ε) (h : step s e = some s') :
    trace label step s (e :: es) = (label s e).toList ++ trace label step s' es := by
  rw [trace, h]

/-- The trace of a longer run continues that of a shorter one. -/
theorem trace_append {s t : σ} {es₁ : List ε} (es₂ : List ε) (h : exec step s es₁ = some t) :
    trace label step s (es₁ ++ es₂) = trace label step s es₁ ++ trace label step t es₂ := by
  induction es₁ generalizing s with
  | nil =>
    rw [exec_nil, Option.some.injEq] at h
    rw [h, List.nil_append, trace_nil, List.nil_append]
  | cons e es₁ ih =>
    rw [exec_cons, Option.bind_eq_some_iff] at h
    obtain ⟨u, hu, hrest⟩ := h
    rw [List.cons_append, trace_cons _ hu, trace_cons _ hu, ih hrest, List.append_assoc]

namespace Projects

variable {I A : σ → Prop} {view : σ → ω} {replay : ω → τ → ω}

/-- A run that has not broken down at its end had not at its start. -/
theorem alive_of_exec (h : Projects step label I A view replay) {s s' : σ} {es : List ε}
    (hrun : exec step s es = some s') (hs' : A s') : A s := by
  induction es generalizing s with
  | nil =>
    rw [exec_nil, Option.some.injEq] at hrun
    exact hrun ▸ hs'
  | cons e es ih =>
    rw [exec_cons, Option.bind_eq_some_iff] at hrun
    obtain ⟨u, hu, hrest⟩ := hrun
    exact h.alive s e u hu (ih hrest)

/-- **Replay.** The view at the end of a run is the trace replayed on the view at its start. -/
theorem view_eq_foldl (h : Projects step label I A view replay) {s s' : σ} {es : List ε}
    (hrun : exec step s es = some s') (hs : I s) (hs' : A s') :
    view s' = (trace label step s es).foldl replay (view s) := by
  induction es generalizing s with
  | nil =>
    rw [exec_nil, Option.some.injEq] at hrun
    rw [hrun, trace_nil, List.foldl_nil]
  | cons e es ih =>
    rw [exec_cons, Option.bind_eq_some_iff] at hrun
    obtain ⟨u, hu, hrest⟩ := hrun
    have hview := h.step s e u hs (h.alive_of_exec hrest hs') hu
    rw [trace_cons es hu, List.foldl_append, ih hrest (h.invariant s e u hs hu), hview]
    -- a label that the party does not see adds nothing to replay
    cases label s e <;> rfl

/-- Two runs with the same trace end in the same view. -/
theorem view_eq_of_trace_eq (h : Projects step label I A view replay) {s s₁ s₂ : σ}
    {es₁ es₂ : List ε} (hrun₁ : exec step s es₁ = some s₁) (hrun₂ : exec step s es₂ = some s₂)
    (hs : I s) (hs₁ : A s₁) (hs₂ : A s₂)
    (htrace : trace label step s es₁ = trace label step s es₂) : view s₁ = view s₂ := by
  rw [h.view_eq_foldl hrun₁ hs hs₁, h.view_eq_foldl hrun₂ hs hs₂, htrace]

/-- **Separation.** Two runs with the same trace show the same view at corresponding points,
those reached when the party has seen equally many labels. -/
theorem view_eq_of_corresponding (h : Projects step label I A view replay) {s s₁ s₂ t₁ t₂ : σ}
    {es₁ es₂ p₁ p₂ : List ε} (hrun₁ : exec step s es₁ = some s₁)
    (hrun₂ : exec step s es₂ = some s₂) (hs : I s) (hs₁ : A s₁) (hs₂ : A s₂)
    (htrace : trace label step s es₁ = trace label step s es₂) (hp₁ : p₁ <+: es₁)
    (hp₂ : p₂ <+: es₂) (ht₁ : exec step s p₁ = some t₁) (ht₂ : exec step s p₂ = some t₂)
    (hlen : (trace label step s p₁).length = (trace label step s p₂).length) :
    view t₁ = view t₂ := by
  obtain ⟨q₁, rfl⟩ := hp₁
  obtain ⟨q₂, rfl⟩ := hp₂
  rw [exec_append, ht₁, Option.bind_some] at hrun₁
  rw [exec_append, ht₂, Option.bind_some] at hrun₂
  rw [trace_append q₁ ht₁, trace_append q₂ ht₂] at htrace
  -- two equally long beginnings of one trace are the same
  have hprefix := (List.append_inj htrace hlen).1
  exact h.view_eq_of_trace_eq ht₁ ht₂ hs (h.alive_of_exec hrun₁ hs₁)
    (h.alive_of_exec hrun₂ hs₂) hprefix

end Projects

end LabelledRun
