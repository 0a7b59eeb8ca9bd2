import Mathlib.Logic.Relation

/-!
# Machines, runs and invariants

A `Machine` is a state machine whose steps may fault.  `M.Run P s ops s'` is a run from `s` to `s'`
by the steps `ops`, none of which faults and each of which meets the condition `P` on the state it
starts from and its label.  The rules below turn facts about one step into facts about runs.
-/

structure Machine (σ ι ε : Type*) where
  /-- Some thread can take the step. -/
  enabled : σ → ι → Prop
  step : σ → ι → Except ε σ

namespace Machine

variable {σ ι ε : Type*} (M : Machine σ ι ε)

inductive Run (P : σ → ι → Prop) : σ → List ι → σ → Prop
  | nil (s : σ) : Run P s [] s
  | cons {s s₁ s₂ : σ} {op : ι} {ops : List ι} (henabled : M.enabled s op) (hP : P s op)
      (hstep : M.step s op = .ok s₁) (hrun : Run P s₁ ops s₂) : Run P s (op :: ops) s₂

/-- A run under no condition. -/
abbrev FreeRun : σ → List ι → σ → Prop := M.Run fun _ _ => True

variable {M} {P Q : σ → ι → Prop}

theorem Run.append {s s₁ s₂ : σ} {ops ops' : List ι} (h : M.Run P s ops s₁)
    (h' : M.Run P s₁ ops' s₂) : M.Run P s (ops ++ ops') s₂ := by
  induction h with
  | nil => exact h'
  | cons henabled hP hstep _ ih => exact .cons henabled hP hstep (ih h')

theorem Run.split {s s₂ : σ} {ops ops' : List ι} (h : M.Run P s (ops ++ ops') s₂) :
    ∃ s₁, M.Run P s ops s₁ ∧ M.Run P s₁ ops' s₂ := by
  induction ops generalizing s with
  | nil => exact ⟨s, .nil s, h⟩
  | cons op ops ih =>
    cases h with
    | cons henabled hP hstep hrest =>
      rcases ih hrest with ⟨s₁, hfirst, hlast⟩
      exact ⟨s₁, .cons henabled hP hstep hfirst, hlast⟩

/-- A run of a single step. -/
theorem Run.step_eq_ok {s s' : σ} {op : ι} (h : M.Run P s [op] s') :
    M.enabled s op ∧ P s op ∧ M.step s op = .ok s' := by
  cases h with
  | cons henabled hP hstep hrest =>
    cases hrest
    exact ⟨henabled, hP, hstep⟩

theorem Run.imp {s s' : σ} {ops : List ι} (h : M.Run P s ops s') (hPQ : ∀ s op, P s op → Q s op) :
    M.Run Q s ops s' := by
  induction h with
  | nil s => exact .nil s
  | cons henabled hP hstep _ ih => exact .cons henabled (hPQ _ _ hP) hstep ih

/-- Only the steps of the run matter. -/
theorem Run.imp_mem {s s' : σ} {ops : List ι} (h : M.Run P s ops s')
    (hPQ : ∀ op ∈ ops, ∀ s, P s op → Q s op) : M.Run Q s ops s' := by
  induction h with
  | nil s => exact .nil s
  | cons henabled hP hok _ ih =>
    exact .cons henabled (hPQ _ List.mem_cons_self _ hP) hok
      (ih fun op hop => hPQ op (List.mem_cons_of_mem _ hop))

theorem Run.free {s s' : σ} {ops : List ι} (h : M.Run P s ops s') : M.FreeRun s ops s' :=
  h.imp fun _ _ _ => trivial

/-- An invariant that every step of the run preserves holds at its end. -/
theorem Run.invariant {I : σ → Prop} {s s' : σ} {ops : List ι} (h : M.Run P s ops s')
    (hstep : ∀ s op s', I s → M.enabled s op → P s op → M.step s op = .ok s' → I s')
    (hs : I s) : I s' := by
  induction h with
  | nil => exact hs
  | cons henabled hP hok _ ih => exact ih (hstep _ _ _ hs henabled hP hok)

/-- An invariant holds at every step of the run. -/
theorem Run.along {K : σ → Prop} {s s' : σ} {ops : List ι} (h : M.Run P s ops s')
    (hstep : ∀ s op s', K s → M.enabled s op → P s op → M.step s op = .ok s' → K s') (hs : K s) :
    M.Run (fun s op => K s ∧ P s op) s ops s' ∧ K s' := by
  induction h with
  | nil s => exact ⟨.nil s, hs⟩
  | cons henabled hP hok _ ih =>
    have htail := ih (hstep _ _ _ hs henabled hP hok)
    exact ⟨.cons henabled ⟨hs, hP⟩ hok htail.1, htail.2⟩

/-- There is one run with the same steps only. -/
theorem Run.and {s s' s'' : σ} {ops : List ι} (h : M.Run P s ops s') (h' : M.Run Q s ops s'') :
    M.Run (fun s op => P s op ∧ Q s op) s ops s' := by
  induction h with
  | nil s => exact .nil s
  | cons henabled hP hok _ ih =>
    cases h' with
    | cons _ hQ hok' hrest =>
      cases Except.ok.inj (hok.symm.trans hok')
      exact .cons henabled ⟨hP, hQ⟩ hok (ih hrest)

/-- What the steps put out, one after the other. -/
def outputs (M : Machine σ ι ε) {β : Type*} (out : σ → ι → List β) : σ → List ι → List β
  | _, [] => []
  | s, op :: ops =>
    match M.step s op with
    | .ok s₁ => out s op ++ outputs M out s₁ ops
    | .error _ => []

/-- A property of the state and of all that was put out before it. -/
theorem Run.outputs_invariant {β : Type*} (out : σ → ι → List β) {I : σ → List β → Prop} {s s' : σ}
    {ops : List ι} {log : List β} (h : M.Run P s ops s')
    (hstep : ∀ s op s' log, I s log → M.enabled s op → P s op → M.step s op = .ok s' →
      I s' (log ++ out s op)) (hs : I s log) : I s' (log ++ M.outputs out s ops) := by
  induction h generalizing log with
  | nil =>
    rw [outputs, List.append_nil]
    exact hs
  | cons henabled hP hok _ ih =>
    rw [outputs, hok]
    dsimp only
    rw [← List.append_assoc]
    exact ih (hstep _ _ _ _ hs henabled hP hok)

/-- The property holds in every state of the run, the first and the last included. -/
def Throughout (M : Machine σ ι ε) (I : σ → Prop) (s : σ) (ops : List ι) (s' : σ) : Prop :=
  M.Run (fun s _ => I s) s ops s' ∧ I s'

/-- When a step keeps `I` exactly if it meets `P`, then a run keeps `I` throughout exactly if all its
steps meet `P`.  `K` is known to hold throughout and `C` of all steps, `J` as long as the steps meet
`P`. -/
theorem throughout_iff_of {C : σ → ι → Prop} {I J K : σ → Prop}
    (hstep : ∀ s op s', K s → J s → I s → C s op → M.enabled s op → M.step s op = .ok s' → K s' →
      (I s' ↔ P s op))
    (hkeep : ∀ s op s', K s → J s → I s → C s op → P s op → M.step s op = .ok s' → K s' → J s')
    {s s' : σ} {ops : List ι} (hrun : M.Run (fun s op => K s ∧ C s op) s ops s') (hK : K s')
    (hJ : J s) (hI : I s) : M.Throughout I s ops s' ↔ M.Run P s ops s' := by
  induction hrun with
  | nil s => exact ⟨fun _ => .nil s, fun _ => ⟨.nil s, hI⟩⟩
  -- the run has one execution, since a step has one outcome
  | @cons s s₁ s₂ op ops henabled hs hok hrest ih =>
    have hs₁ : K s₁ := by
      cases hrest with
      | nil => exact hK
      | cons _ hs₁ _ _ => exact hs₁.1
    have hiff := hstep s op s₁ hs.1 hJ hI hs.2 henabled hok hs₁
    constructor
    · intro h
      cases h.1 with
      | cons _ _ hok' hrest' =>
        cases hok.symm.trans hok'
        have hI₁ : I s₁ := by
          cases hrest' with
          | nil => exact h.2
          | cons _ hI₁ _ _ => exact hI₁
        have hP := hiff.mp hI₁
        have hJ₁ := hkeep s op s₁ hs.1 hJ hI hs.2 hP hok hs₁
        exact .cons henabled hP hok ((ih hK hJ₁ hI₁).mp ⟨hrest', h.2⟩)
    · intro h
      cases h with
      | cons _ hP hok' hrest' =>
        cases hok.symm.trans hok'
        have hJ₁ := hkeep s op s₁ hs.1 hJ hI hs.2 hP hok hs₁
        have hrest'' := (ih hK hJ₁ (hiff.mpr hP)).mpr hrest'
        exact ⟨.cons henabled hI hok hrest''.1, hrest''.2⟩

theorem throughout_iff {I J K : σ → Prop}
    (hstep : ∀ s op s', K s → J s → I s → M.enabled s op → M.step s op = .ok s' → K s' →
      (I s' ↔ P s op))
    (hkeep : ∀ s op s', K s → J s → I s → P s op → M.step s op = .ok s' → K s' → J s')
    {s s' : σ} {ops : List ι} (hrun : M.Run (fun s _ => K s) s ops s') (hK : K s') (hJ : J s)
    (hI : I s) : M.Throughout I s ops s' ↔ M.Run P s ops s' :=
  throughout_iff_of (C := fun _ _ => True)
    (fun s op s' hs hJ hI _ => hstep s op s' hs hJ hI)
    (fun s op s' hs hJ hI _ => hkeep s op s' hs hJ hI)
    (hrun.imp fun _ _ hs => ⟨hs, trivial⟩) hK hJ hI

section Exec

variable (M) (P) [∀ s op, Decidable (M.enabled s op)] [∀ s op, Decidable (P s op)]

/-- Run the steps one after the other; `none` when one is not enabled, does not meet `P` or
faults. -/
def exec : σ → List ι → Option σ
  | s, [] => some s
  | s, op :: ops =>
    if M.enabled s op ∧ P s op then
      match M.step s op with
      | .ok s₁ => exec s₁ ops
      | .error _ => none
    else none

variable {M} {P}

theorem run_of_exec {s s' : σ} {ops : List ι} (h : M.exec P s ops = some s') :
    M.Run P s ops s' := by
  induction ops generalizing s with
  | nil =>
    cases h
    exact .nil _
  | cons op ops ih =>
    rw [exec] at h
    split at h
    next hop =>
      split at h
      next s₁ hok => exact .cons hop.1 hop.2 hok (ih h)
      next => cases h
    next => cases h

/-- A run is the only one with its steps. -/
theorem Run.exec {s s' : σ} {ops : List ι} (h : M.Run P s ops s') : M.exec P s ops = some s' := by
  induction h with
  | nil => rfl
  | cons henabled hP hok _ ih =>
    rw [Machine.exec, if_pos ⟨henabled, hP⟩, hok]
    exact ih

/-- The state that some steps lead to, if all of them can be taken. -/
def after (M : Machine σ ι ε) [∀ s op, Decidable (M.enabled s op)] (s : σ) (ops : List ι) : σ :=
  (M.exec (fun _ _ => True) s ops).getD s

theorem run_after {s : σ} {ops : List ι} (h : (M.exec P s ops).isSome) :
    M.Run P s ops (M.after s ops) := by
  obtain ⟨s', hs'⟩ := Option.isSome_iff_exists.mp h
  have hrun := run_of_exec hs'
  have hfree := hrun.free.exec
  unfold after
  rw [hfree]
  exact hrun

end Exec

end Machine
