import Bem.Lib.Machine

/-!
# Simulations

One machine simulates another if it can follow each of its steps.  Then it can follow its runs.
-/

namespace Machine

variable {σ ι ε σ' ι' ε' : Type*} {M : Machine σ ι ε} {M' : Machine σ' ι' ε'} {P : σ → ι → Prop}
  {Q : σ' → ι' → Prop}

/-- Each step of `M` is followed by those of `M'` that it stands for, or by none of them. -/
theorem Run.simulated {R : σ → σ' → Prop} (label : ι → List ι')
    (hstep : ∀ s op s₁ t, R s t → M.enabled s op → P s op → M.step s op = .ok s₁ →
      ∃ ops t₁, ops.Sublist (label op) ∧ M'.Run Q t ops t₁ ∧ R s₁ t₁)
    {s s' : σ} {t : σ'} {ops : List ι} (h : M.Run P s ops s') (hR : R s t) :
    ∃ ops' t', ops'.Sublist (ops.flatMap label) ∧ M'.Run Q t ops' t' ∧ R s' t' := by
  induction h generalizing t with
  | nil s => exact ⟨[], t, List.Sublist.refl _, .nil t, hR⟩
  | cons henabled hP hok _ ih =>
    obtain ⟨first, t₁, hfirst, hrun, hR₁⟩ := hstep _ _ _ t hR henabled hP hok
    obtain ⟨later, t', hlater, hrest, hR'⟩ := ih hR₁
    exact ⟨first ++ later, t', hfirst.append hlater, hrun.append hrest, hR'⟩

/-- Each step of `M` is followed by all those of `M'` that it stands for. -/
theorem Run.matched {R : σ → σ' → Prop} (label : ι → List ι')
    (hstep : ∀ s op s₁ t, R s t → M.enabled s op → P s op → M.step s op = .ok s₁ →
      ∃ t₁, M'.Run Q t (label op) t₁ ∧ R s₁ t₁)
    {s s' : σ} {t : σ'} {ops : List ι} (h : M.Run P s ops s') (hR : R s t) :
    ∃ t', M'.Run Q t (ops.flatMap label) t' ∧ R s' t' := by
  induction h generalizing t with
  | nil s => exact ⟨t, .nil t, hR⟩
  | cons henabled hP hok _ ih =>
    obtain ⟨t₁, hrun, hR₁⟩ := hstep _ _ _ t hR henabled hP hok
    obtain ⟨t', hrest, hR'⟩ := ih hR₁
    exact ⟨t', hrun.append hrest, hR'⟩

/-- Each step of `M` is carried out by steps of `M'` that stand for it. -/
theorem Run.carried {R : σ → σ' → Prop} (label : ι' → List ι)
    (hstep : ∀ s op s₁ t, R s t → M.enabled s op → P s op → M.step s op = .ok s₁ →
      ∃ ops t₁, ops.flatMap label = [op] ∧ M'.Run Q t ops t₁ ∧ R s₁ t₁)
    {s s' : σ} {t : σ'} {ops : List ι} (h : M.Run P s ops s') (hR : R s t) :
    ∃ ops' t', ops'.flatMap label = ops ∧ M'.Run Q t ops' t' ∧ R s' t' := by
  induction h generalizing t with
  | nil s => exact ⟨[], t, rfl, .nil t, hR⟩
  | cons henabled hP hok _ ih =>
    obtain ⟨first, t₁, hfirst, hrun, hR₁⟩ := hstep _ _ _ t hR henabled hP hok
    obtain ⟨later, t', hlater, hrest, hR'⟩ := ih hR₁
    refine ⟨first ++ later, t', ?_, hrun.append hrest, hR'⟩
    rw [List.flatMap_append, hfirst, hlater, List.singleton_append]

end Machine
