import Mathlib.Data.List.Basic

/-!
# Alternating lists

`Alternates p q l` says that the elements of `l` have `p` and `q` by turns, and the first one `p`.
The parity of the length tells which of the two came last.
-/

universe u

variable {α : Type u} {p q : α → Prop} {l : List α} {a : α}

/-- The elements at even places have `p`, those at odd places have `q`. -/
def Alternates (p q : α → Prop) (l : List α) : Prop :=
  ∀ i b, l[i]? = some b → if i % 2 = 0 then p b else q b

namespace Alternates

theorem nil : Alternates p q ([] : List α) := by
  intro i b hb
  rw [List.getElem?_nil] at hb
  cases hb

theorem concat (h : Alternates p q l) (ha : if l.length % 2 = 0 then p a else q a) :
    Alternates p q (l ++ [a]) := by
  intro i b hb
  by_cases hi : i < l.length
  · rw [List.getElem?_append_left hi] at hb
    exact h i b hb
  · have hlt : i < (l ++ [a]).length := (List.getElem?_eq_some_iff.mp hb).1
    rw [List.length_append, List.length_singleton] at hlt
    have heq : i = l.length := by omega
    rw [heq, List.getElem?_concat_length] at hb
    cases hb
    rwa [heq]

/-- The length is odd exactly when the last element has `p`. -/
theorem odd_iff (h : Alternates p q l) (hpq : ∀ b, p b → ¬ q b) :
    l.length % 2 = 1 ↔ ∃ b, l.getLast? = some b ∧ p b := by
  rw [List.getLast?_eq_getElem?]
  constructor
  · intro hodd
    have hlt : l.length - 1 < l.length := by omega
    refine ⟨l[l.length - 1], List.getElem?_eq_getElem hlt, ?_⟩
    have hlast := h _ _ (List.getElem?_eq_getElem hlt)
    rwa [if_pos (by omega)] at hlast
  · rintro ⟨b, hb, hp⟩
    have hlt := (List.getElem?_eq_some_iff.mp hb).1
    have hlast := h _ _ hb
    by_contra heven
    rw [if_neg (by omega)] at hlast
    exact hpq b hp hlast

end Alternates
