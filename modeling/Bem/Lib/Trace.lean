import Mathlib.Logic.Relation
import Bem.Lib.Faulting

/-!
# Traces of a labelled relation

`Trace R s as s'` goes from `s` to `s'` by the actions `as`, and `Does R Q s s'` by some actions that
all satisfy `Q`.  A program that works on a richer state is shown to follow `R` by giving, for each
of its steps, the actions it does on a view of its state.
-/

universe u v w

variable {σ : Type u} {α : Type v} {R : σ → α → σ → Prop}

inductive Trace (R : σ → α → σ → Prop) : σ → List α → σ → Prop
  | nil (s : σ) : Trace R s [] s
  | cons {s s₁ s₂ : σ} {a : α} {as : List α} (hstep : R s a s₁) (hrest : Trace R s₁ as s₂) :
      Trace R s (a :: as) s₂

namespace Trace

theorem single {s s' : σ} {a : α} (h : R s a s') : Trace R s [a] s' := .cons h (.nil s')

theorem append {s s₁ s₂ : σ} {as bs : List α} (h : Trace R s as s₁) (h' : Trace R s₁ bs s₂) :
    Trace R s (as ++ bs) s₂ := by
  induction h with
  | nil => exact h'
  | cons hstep _ ih => exact .cons hstep (ih h')

end Trace

def Does (R : σ → α → σ → Prop) (Q : α → Prop) (s s' : σ) : Prop :=
  ∃ as, Trace R s as s' ∧ ∀ a ∈ as, Q a

namespace Does

variable {Q : α → Prop}

theorem refl (s : σ) : Does R Q s s := ⟨[], .nil s, fun _ h => (List.not_mem_nil h).elim⟩

theorem of_eq {s s' : σ} (h : s' = s) : Does R Q s s' := by
  rw [h]
  exact refl s

theorem single {s s' : σ} {a : α} (h : R s a s') (hQ : Q a) : Does R Q s s' := by
  refine ⟨[a], .single h, fun b hb => ?_⟩
  rwa [List.mem_singleton.mp hb]

theorem trans {s s₁ s₂ : σ} (h : Does R Q s s₁) (h' : Does R Q s₁ s₂) : Does R Q s s₂ := by
  rcases h with ⟨as, has, hQ⟩
  rcases h' with ⟨bs, hbs, hQ'⟩
  refine ⟨as ++ bs, has.append hbs, fun a ha => ?_⟩
  exact (List.mem_append.mp ha).elim (hQ a) (hQ' a)

theorem mono {Q' : α → Prop} {s s' : σ} (h : Does R Q s s') (hQQ' : ∀ a, Q a → Q' a) :
    Does R Q' s s' := by
  rcases h with ⟨as, has, hQ⟩
  exact ⟨as, has, fun a ha => hQQ' a (hQ a ha)⟩

/-- What every action with `Q` preserves holds at the end. -/
theorem invariant {I : σ → Prop} {s s' : σ} (h : Does R Q s s')
    (hstep : ∀ s a s', I s → Q a → R s a s' → I s') (hs : I s) : I s' := by
  rcases h with ⟨as, has, hQ⟩
  induction has with
  | nil => exact hs
  | cons hfirst _ ih =>
    exact ih (hstep _ _ _ hs (hQ _ List.mem_cons_self) hfirst)
      fun a ha => hQ a (List.mem_cons_of_mem _ ha)

/-- A loop follows `R` on a view of its state when its body does. -/
theorem foldlM {τ : Type w} {β ε : Type w} {view : τ → σ} {I : τ → Prop} {f : τ → β → Except ε τ}
    {l : List β}
    (hbody : ∀ t b t', b ∈ l → I t → f t b = .ok t' → I t' ∧ Does R Q (view t) (view t'))
    {t t' : τ} (ht : I t) (h : l.foldlM f t = .ok t') : I t' ∧ Does R Q (view t) (view t') := by
  induction l generalizing t with
  | nil =>
    cases h
    exact ⟨ht, refl _⟩
  | cons b l ih =>
    rcases Except.foldlM_cons_eq_ok.mp h with ⟨t₁, hfirst, hrest⟩
    rcases hbody t b t₁ List.mem_cons_self ht hfirst with ⟨ht₁, hdoes⟩
    rcases ih (fun t b t' hb => hbody t b t' (List.mem_cons_of_mem _ hb)) ht₁ hrest with
      ⟨ht', hdoes'⟩
    exact ⟨ht', hdoes.trans hdoes'⟩

end Does
