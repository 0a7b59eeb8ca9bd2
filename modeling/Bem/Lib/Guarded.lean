import Bem.Lib.Faulting

/-!
# Guarded computations

Beside a computation in `EStateM` stands a copy of it that stops where a guard fails, or where a loop
has used up the rounds it was given.  `Passes P guarded m Q E` says that from the states `P` the copy
does what `m` does, which then returns into `Q` or throws into `E`.
-/

universe u

/-- What stops a guarded computation: an exception of the computation itself, or a guard. -/
inductive Stop (ε : Type u) : Type u
  | thrown (e : ε)
  | refused
  | endless

namespace Guarded

variable {ε σ α β : Type u}

def liftResult : EStateM.Result ε σ α → EStateM.Result (Stop ε) σ α
  | .ok a s => .ok a s
  | .error e s => .error (.thrown e) s

/-- The state in which a computation has ended, by returning or by throwing. -/
def endState : EStateM.Result ε σ α → σ
  | .ok _ s => s
  | .error _ s => s

/-- A computation with nothing to guard. -/
def lifted (m : EStateM ε σ α) : EStateM (Stop ε) σ α := fun s => liftResult (m s)

/-- A result is returned into `Q`, or thrown into `E`. -/
def Ends (Q : α → σ → Prop) (E : σ → Prop) : EStateM.Result ε σ α → Prop
  | .ok a s => Q a s
  | .error _ s => E s

def Passes (P : σ → Prop) (guarded : EStateM (Stop ε) σ α) (m : EStateM ε σ α)
    (Q : α → σ → Prop) (E : σ → Prop) : Prop :=
  ∀ s, P s → guarded s = lifted m s ∧ Ends Q E (m s)

section

variable {P P' : σ → Prop} {Q Q' : α → σ → Prop} {E E' : σ → Prop}
  {guarded : EStateM (Stop ε) σ α} {m : EStateM ε σ α}

theorem Ends.imp {r : EStateM.Result ε σ α} (h : Ends Q E r) (hQ : ∀ a s, Q a s → Q' a s)
    (hE : ∀ s, E s → E' s) : Ends Q' E' r := by
  cases r with
  | ok a s => exact hQ a s h
  | error e s => exact hE s h

theorem Passes.imp (h : Passes P guarded m Q E) (hP : ∀ s, P' s → P s)
    (hQ : ∀ a s, Q a s → Q' a s) (hE : ∀ s, E s → E' s) : Passes P' guarded m Q' E' := by
  intro s hs
  have hpasses := h s (hP s hs)
  exact ⟨hpasses.1, hpasses.2.imp hQ hE⟩

theorem Passes.pure (a : α) (h : ∀ s, P s → Q a s) :
    Passes P (Pure.pure a) (Pure.pure a : EStateM ε σ α) Q E := fun s hs => ⟨rfl, h s hs⟩

theorem Passes.throw (e : ε) (h : ∀ s, P s → E s) :
    Passes P (throw (.thrown e)) (throw e : EStateM ε σ α) Q E := fun s hs => ⟨rfl, h s hs⟩

theorem Passes.modify (f : σ → σ) {R : PUnit → σ → Prop} (h : ∀ s, P s → R ⟨⟩ (f s)) :
    Passes P (modify f) (modify f : EStateM ε σ PUnit) R E := fun s hs => ⟨rfl, h s hs⟩

/-- What is not guarded only has to end as it should. -/
theorem Passes.lifted (h : ∀ s, P s → Ends Q E (m s)) : Passes P (Guarded.lifted m) m Q E :=
  fun s hs => ⟨rfl, h s hs⟩

theorem Passes.bind {R : β → σ → Prop} {guarded' : α → EStateM (Stop ε) σ β}
    {f : α → EStateM ε σ β} (hm : Passes P guarded m Q E)
    (hf : ∀ a, Passes (Q a) (guarded' a) (f a) R E) :
    Passes P (guarded >>= guarded') (m >>= f) R E := by
  intro s hs
  obtain ⟨hsame, hends⟩ := hm s hs
  cases hr : m s with
  | ok a s₁ =>
    -- both have returned, and go on
    have hguarded : guarded s = .ok a s₁ := by rw [hsame, Guarded.lifted, hr, liftResult]
    rw [hr] at hends
    have hrest := hf a s₁ hends
    have hok := EStateM.bind_of_ok (f := f) hr
    rw [EStateM.bind_of_ok hguarded, Guarded.lifted, hok]
    exact hrest
  | error e s₁ =>
    -- both have thrown, and neither goes on
    have hguarded : guarded s = .error (.thrown e) s₁ := by
      rw [hsame, Guarded.lifted, hr, liftResult]
    rw [hr] at hends
    have herror := EStateM.bind_of_error (f := f) hr
    rw [EStateM.bind_of_error hguarded, Guarded.lifted, herror]
    exact ⟨rfl, hends⟩

end

end Guarded
