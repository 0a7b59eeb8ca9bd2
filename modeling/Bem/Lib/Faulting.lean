import Mathlib.Data.List.Perm.Basic
import Mathlib.Data.List.Pairwise
import Mathlib.Logic.Relation

/-!
# Computations that may fault

Inversion rules for `Except`, and for `EStateM`, whose state survives an exception: what a
successful bind or a successful loop `foldlM` has gone through.
-/

namespace Except

universe u v

variable {ε : Type u} {α β σ : Type v}

theorem bind_eq_ok {x : Except ε α} {f : α → Except ε β} {b : β} :
    (x >>= f) = .ok b ↔ ∃ a, x = .ok a ∧ f a = .ok b := by
  cases x with
  | error e => simp [bind, Except.bind]
  | ok a => simp [bind, Except.bind]

theorem map_eq_ok {x : Except ε α} {f : α → β} {b : β} :
    x.map f = .ok b ↔ ∃ a, x = .ok a ∧ f a = b := by
  cases x with
  | error e => simp [Except.map]
  | ok a => simp [Except.map]

theorem map_eq_error {x : Except ε α} {f : α → β} {e : ε} : x.map f = .error e ↔ x = .error e := by
  cases x with
  | error e' => simp [Except.map]
  | ok a => simp [Except.map]

theorem not_error_ok {a : α} : ¬ ∃ e : ε, Except.ok a = .error e := by
  simp

theorem foldlM_cons_eq_ok {f : σ → α → Except ε σ} {a : α} {l : List α} {s s' : σ} :
    (a :: l).foldlM f s = .ok s' ↔ ∃ s₁, f s a = .ok s₁ ∧ l.foldlM f s₁ = .ok s' := by
  rw [List.foldlM_cons]
  exact bind_eq_ok

/-- A loop keeps an invariant that may speak of the part of the list still to come. -/
theorem foldlM_rest {I : List α → σ → Prop} {f : σ → α → Except ε σ}
    (hbody : ∀ a l s s', I (a :: l) s → f s a = .ok s' → I l s') {l : List α} {s s' : σ}
    (hs : I l s) (h : l.foldlM f s = .ok s') : I [] s' := by
  induction l generalizing s with
  | nil =>
    cases h
    exact hs
  | cons a l ih =>
    rcases foldlM_cons_eq_ok.mp h with ⟨s₁, hfirst, hrest⟩
    exact ih (hbody a l s s₁ hs hfirst) hrest

/-- A loop whose body succeeds under an invariant it keeps succeeds. -/
theorem foldlM_ok {I : σ → Prop} {f : σ → α → Except ε σ} {l : List α}
    (hbody : ∀ s a, a ∈ l → I s → ∃ s', f s a = .ok s' ∧ I s') {s : σ} (hs : I s) :
    ∃ s', l.foldlM f s = .ok s' ∧ I s' := by
  induction l generalizing s with
  | nil => exact ⟨s, rfl, hs⟩
  | cons a l ih =>
    obtain ⟨s₁, hfirst, hs₁⟩ := hbody s a List.mem_cons_self hs
    obtain ⟨s', hrest, hs'⟩ := ih (fun s a ha => hbody s a (List.mem_cons_of_mem _ ha)) hs₁
    exact ⟨s', foldlM_cons_eq_ok.mpr ⟨s₁, hfirst, hrest⟩, hs'⟩

/-- A list is read through when none of its elements faults. -/
theorem mapM_eq_ok {f : α → Except ε β} {g : α → β} {l : List α} (h : ∀ a ∈ l, f a = .ok (g a)) :
    l.mapM f = .ok (l.map g) := by
  induction l with
  | nil => rfl
  | cons a l ih =>
    rw [List.mapM_cons, h a List.mem_cons_self, ih fun b hb => h b (List.mem_cons_of_mem a hb)]
    rfl

/-- The order of a loop does not matter when its body commutes for any two elements of the list, in all
states that the loop can reach. -/
theorem foldlM_perm {K : σ → Prop} {C : σ → α → Prop} {R : α → α → Prop} {f : σ → α → Except ε σ}
    (hkeep : ∀ s a s', K s → C s a → f s a = .ok s' → K s' ∧ ∀ b, C s b → C s' b)
    (hcomm : ∀ s a b, K s → C s a → C s b → R a b →
      (f s a >>= fun s₁ => f s₁ b) = f s b >>= fun s₁ => f s₁ a)
    (hsymm : ∀ a b, R a b → R b a) {l l' : List α} (hperm : l.Perm l') {s : σ} (hs : K s)
    (hl : ∀ a ∈ l, C s a) (hpairwise : l.Pairwise R) : l.foldlM f s = l'.foldlM f s := by
  induction hperm generalizing s with
  | nil => rfl
  | cons a _ ih =>
    rw [List.foldlM_cons, List.foldlM_cons]
    cases hfirst : f s a with
    | error e => rfl
    | ok s₁ =>
      have hkept := hkeep s a s₁ hs (hl a List.mem_cons_self) hfirst
      have hrest := List.pairwise_cons.mp hpairwise
      exact ih hkept.1 (fun b hb => hkept.2 b (hl b (List.mem_cons_of_mem a hb))) hrest.2
  | swap a b l =>
    have hab : R a b := hsymm _ _ ((List.pairwise_cons.mp hpairwise).1 a List.mem_cons_self)
    have hswap := hcomm s a b hs (hl a (List.mem_cons_of_mem b List.mem_cons_self))
      (hl b List.mem_cons_self) hab
    -- the two that are swapped come first, and the rest of the list after both
    have htwo (x y : α) : (x :: y :: l).foldlM f s =
        (f s x >>= fun s₁ => f s₁ y) >>= fun s₂ => l.foldlM f s₂ := by
      rw [List.foldlM_cons, bind_assoc]
      rfl
    rw [htwo, htwo, hswap]
  | trans hfirst _ ih₁ ih₂ =>
    have hpairwise' := (hfirst.pairwise_iff (fun {a b} h => hsymm a b h)).mp hpairwise
    exact (ih₁ hs hl hpairwise).trans
      (ih₂ hs (fun a ha => hl a (hfirst.mem_iff.mpr ha)) hpairwise')

end Except

namespace EStateM

universe u

variable {ε σ α β : Type u} {m : EStateM ε σ α} {f : α → EStateM ε σ β} {s s' : σ}

theorem bind_of_ok {a : α} (h : m s = .ok a s') : (m >>= f) s = f a s' := by
  change EStateM.bind m f s = _
  rw [EStateM.bind, h]

theorem bind_of_error {e : ε} (h : m s = .error e s') : (m >>= f) s = .error e s' := by
  change EStateM.bind m f s = _
  rw [EStateM.bind, h]

theorem bind_eq_ok {b : β} (h : (m >>= f) s = .ok b s') :
    ∃ a s₁, m s = .ok a s₁ ∧ f a s₁ = .ok b s' := by
  cases hm : m s with
  | ok a s₁ => exact ⟨a, s₁, rfl, by rwa [bind_of_ok hm] at h⟩
  | error e s₁ =>
    rw [bind_of_error hm] at h
    cases h

end EStateM
