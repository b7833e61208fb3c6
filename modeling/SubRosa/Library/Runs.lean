import Mathlib.Tactic

/-!
# Runs of a labelled transition relation

A run is a list of labels with the state it leads to. An invariant is proved
once for a step and then holds along every run; an amount that every step
changes by what its label says changes along a run by the sum of the labels.
-/

namespace Runs

variable {σ ε : Type}

/-- `Run step s es t`: the steps labelled `es`, in order, lead from `s` to `t`. -/
inductive Run (step : σ → ε → σ → Prop) (s : σ) : List ε → σ → Prop
  | nil : Run step s [] s
  | snoc {es : List ε} {t : σ} {e : ε} {u : σ} :
      Run step s es t → step t e u → Run step s (es ++ [e]) u

variable {step : σ → ε → σ → Prop}

theorem Run.single {s t : σ} {e : ε} (h : step s e t) : Run step s [e] t := Run.nil.snoc h

theorem Run.append {s t u : σ} {es fs : List ε} (h : Run step s es t) (k : Run step t fs u) :
    Run step s (es ++ fs) u := by
  induction k with
  | nil => rwa [List.append_nil]
  | snoc _ hs ih =>
    rw [← List.append_assoc]
    exact ih.snoc hs

theorem Run.cons {s t u : σ} {e : ε} {es : List ε} (h : step s e t) (k : Run step t es u) :
    Run step s (e :: es) u := (Run.single h).append k

/-- **Invariant rule.** What holds at the start and is kept by every step
holds after every run. -/
theorem Run.invariant {I : σ → Prop} (hstep : ∀ s e t, I s → step s e t → I t)
    {s t : σ} {es : List ε} (h : Run step s es t) (h0 : I s) : I t := by
  induction h with
  | nil => exact h0
  | snoc _ hs ih => exact hstep _ _ _ ih hs

/-- The invariant rule with a second invariant already known along the run. -/
theorem Run.invariant_of {J I : σ → Prop} (hJ : ∀ s e t, J s → step s e t → J t)
    (hstep : ∀ s e t, J s → I s → step s e t → I t)
    {s t : σ} {es : List ε} (h : Run step s es t) (j0 : J s) (h0 : I s) : I t :=
  (h.invariant (I := fun s => J s ∧ I s)
    (fun s e t hs he => ⟨hJ s e t hs.1 he, hstep s e t hs.1 hs.2 he⟩) ⟨j0, h0⟩).2

/-- **Accounting rule.** If every step changes `f` by what its label adds,
a run changes it by the sum over its labels. -/
theorem Run.accounts {J : σ → Prop} (hJ : ∀ s e t, J s → step s e t → J t)
    (f : σ → Int) (g : ε → Int) (hstep : ∀ s e t, J s → step s e t → f t = f s + g e)
    {s t : σ} {es : List ε} (h : Run step s es t) (j0 : J s) :
    f t = f s + (es.map g).sum := by
  induction h with
  | nil => simp
  | snoc hr hs ih =>
    have hj := hr.invariant hJ j0
    rw [hstep _ _ _ hj hs, ih]
    simp [add_assoc]

/-- The step that carries a given label of a run. -/
theorem Run.mem_step {s t : σ} {es : List ε} (h : Run step s es t) {e : ε} (he : e ∈ es) :
    ∃ pre post u v, es = pre ++ e :: post ∧ Run step s pre u ∧ step u e v ∧ Run step v post t := by
  induction h with
  | nil => simp at he
  | @snoc es u f v hr hs ih =>
    rcases List.mem_append.mp he with hmem | hmem
    · obtain ⟨pre, post, a, b, rfl, h₁, h₂, h₃⟩ := ih hmem
      exact ⟨pre, post ++ [f], a, b, by simp, h₁, h₂, h₃.snoc hs⟩
    · rw [List.mem_singleton] at hmem
      subst hmem
      exact ⟨es, [], u, v, rfl, hr, hs, Run.nil⟩

/-- A run through a concatenation passes through a middle state. -/
theorem Run.split {s t : σ} {es fs : List ε} (h : Run step s (es ++ fs) t) :
    ∃ u, Run step s es u ∧ Run step u fs t := by
  generalize hg : es ++ fs = gs at h
  induction h generalizing fs with
  | nil =>
    obtain ⟨rfl, rfl⟩ := List.append_eq_nil_iff.mp hg
    exact ⟨s, Run.nil, Run.nil⟩
  | @snoc hs t e u hr hst ih =>
    rcases List.eq_nil_or_concat fs with rfl | ⟨fs', f, rfl⟩
    · rw [List.append_nil] at hg
      subst hg
      exact ⟨u, hr.snoc hst, Run.nil⟩
    · rw [List.concat_eq_append, ← List.append_assoc] at hg
      obtain ⟨rfl, hf⟩ := List.append_inj' hg rfl
      rw [List.cons.injEq] at hf
      obtain ⟨rfl, -⟩ := hf
      obtain ⟨v, h₁, h₂⟩ := ih rfl
      exact ⟨v, h₁, by rw [List.concat_eq_append]; exact h₂.snoc hst⟩

theorem Run.of_nil {s t : σ} (h : Run step s [] t) : s = t := by
  generalize hes : [] = es at h
  cases h with
  | nil => rfl
  | snoc => simp at hes

theorem Run.of_single {s t : σ} {e : ε} (h : Run step s [e] t) : step s e t := by
  generalize hes : [e] = es at h
  cases h with
  | nil => cases hes
  | @snoc es u f _ hr hs =>
    obtain ⟨rfl, hf⟩ := List.append_inj' (show [] ++ [e] = es ++ [f] from hes) rfl
    rw [List.cons.injEq] at hf
    obtain ⟨rfl, -⟩ := hf
    obtain rfl := hr.of_nil
    exact hs

/-- The step that a label in the middle of a run stands for. -/
theorem Run.middle {s t : σ} {pre post : List ε} {e : ε} (h : Run step s (pre ++ e :: post) t) :
    ∃ u v, Run step s pre u ∧ step u e v ∧ Run step v post t := by
  obtain ⟨u, hpre, hrest⟩ := h.split
  rw [← List.singleton_append] at hrest
  obtain ⟨v, hstep, hpost⟩ := hrest.split
  exact ⟨u, v, hpre, hstep.of_single, hpost⟩

end Runs
