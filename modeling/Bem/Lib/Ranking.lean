import Mathlib.Algebra.BigOperators.Group.Finset.Piecewise
import Mathlib.Algebra.GroupWithZero.Nat
import Mathlib.Algebra.Order.BigOperators.Group.Finset
import Mathlib.Algebra.Order.BigOperators.Group.List
import Bem.Lib.Machine

/-!
# Rankings

A number that each step lowers bounds the length of a run.  Some of the steps may raise it, by a fixed
amount, and the run may be longer by that much for each of them.
-/

namespace Machine

variable {σ ι ε : Type*} {M : Machine σ ι ε} {P : σ → ι → Prop}

/-- The rank pays for the steps of the run that `b` holds of, with `k` more for each that `c` holds of. -/
theorem Run.countP_add_le (rank : σ → Nat) {b c : ι → Bool} {k : Nat}
    (hstep : ∀ s op s', M.enabled s op → P s op → M.step s op = .ok s' →
      rank s' + (if b op then 1 else 0) ≤ rank s + if c op then k else 0)
    {s s' : σ} {ops : List ι} (h : M.Run P s ops s') :
    ops.countP b + rank s' ≤ rank s + k * ops.countP c := by
  induction h with
  | nil s => simp
  | @cons s s₁ s₂ op ops henabled hP hok _ ih =>
    have hfirst := hstep _ _ _ henabled hP hok
    have hcredit : k * (op :: ops).countP c = k * ops.countP c + if c op then k else 0 := by
      rw [List.countP_cons, Nat.mul_add]
      split
      · rw [Nat.mul_one]
      · rw [Nat.mul_zero]
    rw [hcredit, List.countP_cons]
    omega

/-- A rank that is never raised. -/
theorem Run.countP_le (rank : σ → Nat) {b : ι → Bool}
    (hstep : ∀ s op s', M.enabled s op → P s op → M.step s op = .ok s' →
      rank s' + (if b op then 1 else 0) ≤ rank s)
    {s s' : σ} {ops : List ι} (h : M.Run P s ops s') : ops.countP b + rank s' ≤ rank s := by
  have hcount := h.countP_add_le rank (c := fun _ => false) (k := 0) hstep
  rwa [Nat.zero_mul] at hcount

/-- A step that can be taken until `goal` holds, and lowers the rank, is taken until then. -/
theorem exists_repeat (rank : σ → Nat) {I goal : σ → Prop} {op : ι}
    (hstep : ∀ s, I s → ¬ goal s → ∃ s', M.enabled s op ∧ P s op ∧ M.step s op = .ok s' ∧ I s' ∧
      rank s' < rank s) {s : σ} (hs : I s) :
    ∃ k s', M.Run P s (List.replicate k op) s' ∧ I s' ∧ goal s' := by
  induction hrank : rank s using Nat.strong_induction_on generalizing s with
  | h r ih =>
    by_cases hgoal : goal s
    · exact ⟨0, s, .nil s, hs, hgoal⟩
    · obtain ⟨s₁, henabled, hP, hok, hs₁, hless⟩ := hstep s hs hgoal
      obtain ⟨k, s', hrun, hs', hgoal'⟩ := ih (rank s₁) (hrank ▸ hless) hs₁ rfl
      exact ⟨k + 1, s', .cons henabled hP hok hrun, hs', hgoal'⟩

end Machine

section Sums

variable {α : Type*} {s : Finset α} {f g : α → Nat} {a : α}

end Sums
