import Bem.Coordinator.Refinement

/-!
# Cancelled groups

The handler turns results away from a group that is done, but not from a cancelled one.  And a task
that waits to be handed out when its group is cancelled goes on waiting.
-/

namespace Bem

/-! ## Results for a cancelled group -/

namespace State

variable {s s' : State} {g : TaskId} {total : Result}

/-- The group is cancelled, with this sum. -/
def Frozen (g : TaskId) (total : Result) (s : State) : Prop :=
  ∃ G ∈ s.group? g, G.status = .tsCancelled ∧ G.aggregateResult = total

instance (total : Result) (s : State) : Decidable (s.Frozen g total) :=
  inferInstanceAs (Decidable (∃ G ∈ _, _))

/-- The section brings no result for a running task of the group, unless it is empty and others are
still to come. -/
def sparesCancelled (g : TaskId) (s : State) : Op → Prop
  | .result msg => s.accepts g msg → msg.result = {} ∧ ∀ G ∈ s.group? g, G.remainingTasks ≠ 1
  | _ => True

instance (s : State) (op : Op) : Decidable (s.sparesCancelled g op) :=
  match op with
  | .result msg => inferInstanceAs (Decidable (s.accepts g msg →
    msg.result = {} ∧ ∀ G ∈ s.group? g, G.remainingTasks ≠ 1))
  | .select _ | .assign | .cancel _ | .erase _ | .balance | .maintain _ | .accept _ | .insert
  | .hello _ _ | .notify _ _ _ | .write _ | .rehash _ _ _ => .isTrue trivial

theorem sub_one_eq_zero_iff {i : UInt32} : i - 1 = 0 ↔ i = 1 := by
  rw [← UInt32.toBitVec_inj, ← UInt32.toBitVec_inj]
  simp only [UInt32.toBitVec_sub, UInt32.toBitVec_ofNat]
  bv_omega

/-- A result leaves a cancelled group as it is exactly when it is empty and not the last. -/
theorem acceptResult_iff {G : TaskGroup} (result : Result) (hG : G.status = .tsCancelled) :
    ((acceptResult G result).status = .tsCancelled ∧
      (acceptResult G result).aggregateResult = G.aggregateResult) ↔
    result = {} ∧ G.remainingTasks ≠ 1 := by
  rw [status_acceptResult, aggregateResult_acceptResult, Result.merge_eq_self_iff, hG, and_comm]
  apply and_congr_right
  intro _
  by_cases hone : G.remainingTasks = 1
  · simp [hone]
  · rw [if_neg (fun hzero => hone (sub_one_eq_zero_iff.mp hzero))]
    exact iff_of_true rfl hone

theorem frozen_step_iff {op : Op} (hs : s.WellFormed) (h : s.Frozen g total)
    (hok : s.step op = .ok s') : s'.Frozen g total ↔ s.sparesCancelled g op := by
  rcases h with ⟨G, hG, hcancelled, htotal⟩
  have hother (hsettle : ∀ r result, ¬ s.mayDo op (.settle r result)) : s'.Frozen g total := by
    have hkept : s'.ledger.group g = some G := by
      apply (follows_step hs hok).does.invariant (I := fun L => L.group g = some G) _ hG
      intro L a L' hL hQ hstep
      rcases hstep.group_cases hL with hsame | ⟨-, hrunning, -⟩ | ⟨r, result, rfl, -⟩
      · exact hsame
      · rw [hcancelled] at hrunning
        cases hrunning
      · exact absurd hQ (hsettle r result)
    exact ⟨G, hkept, hcancelled, htotal⟩
  cases op with
  | result msg =>
    rcases step_handleResultMessage hs hok with ⟨hnot, rfl⟩ | ⟨r, hr, haccepts, hstep, -⟩
    · exact iff_of_true ⟨G, hG, hcancelled, htotal⟩ fun h => absurd h (hnot g)
    · have hG' : s.ledger.group g = some G := hG
      by_cases hg : (s.taskHeap.get r).groupId = g
      · rw [hg] at haccepts
        have hgroup : s'.group? g = some (acceptResult G msg.result) := hstep.group_settle hg hG'
        -- the result counts although the group is cancelled
        have hiff := acceptResult_iff msg.result hcancelled
        constructor
        · intro h _
          rcases h with ⟨G₁, hG₁, hcancelled₁, htotal₁⟩
          cases hgroup.symm.trans hG₁
          have hboth := hiff.mp ⟨hcancelled₁, htotal₁.trans htotal.symm⟩
          refine ⟨hboth.1, fun G₂ hG₂ => ?_⟩
          cases hG.symm.trans hG₂
          exact hboth.2
        · intro h
          have hboth := h haccepts
          have hkept := hiff.mpr ⟨hboth.1, hboth.2 G hG⟩
          exact ⟨_, hgroup, hkept.1, hkept.2.trans htotal⟩
      · have hsame : s'.group? g = some G := by
          rcases hstep.group_cases hG' with hsame | ⟨ha, -⟩ | ⟨q, result, ha, hq, -⟩
          · exact hsame
          · cases ha
          · cases ha
            exact absurd hq hg
        refine iff_of_true ⟨G, hsame, hcancelled, htotal⟩ fun h => ?_
        rcases h with ⟨task, htask, hgroup, -⟩
        rw [task?, hr] at htask
        cases htask
        exact absurd hgroup hg
  | _ => exact iff_of_true (hother fun _ _ h => h.elim) trivial

end State

/-- From a reachable state with a cancelled group the group stays as it is exactly when no result for a
running task of it comes that is the last one or has a counter other than zero. -/
theorem cancellation_final_iff {config : CoordinatorConfig} {ops₀ ops : List Op} {s₀ s : State}
    {g : TaskId} {G : TaskGroup} (hrun₀ : coordinator.FreeRun (initial config) ops₀ s₀)
    (hG : s₀.group? g = some G) (hcancelled : G.status = .tsCancelled)
    (hrun : coordinator.FreeRun s₀ ops s) :
    coordinator.Throughout (State.Frozen g G.aggregateResult) s₀ ops s ↔
      coordinator.Run (State.sparesCancelled g) s₀ ops s := by
  have hs₀ := wellFormed_run hrun₀ (wellFormed_initial config)
  have hwellFormed := wellFormed_throughout hrun hs₀
  apply Machine.throughout_iff (K := State.WellFormed) (J := fun _ => True) _
    (fun _ _ _ _ _ _ _ _ _ => trivial) hwellFormed.1 hwellFormed.2 trivial
    ⟨G, hG, hcancelled, rfl⟩
  intro s op s' hs _ hfrozen _ hok _
  exact State.frozen_step_iff hs hfrozen hok

/-- The group is cancelled while its only task is with a node that has fallen silent. -/
theorem cancellation_final_silent :
    coordinator.Throughout (State.Frozen 1 {})
      (after soloConfig (joining 1 5 ++ tasking 1 ++ silence ++ [.cancel 1]))
      [.result { taskId := 1, result := { games := 1, winAgent1 := 1 } }, .balance]
      (after soloConfig (joining 1 5 ++ tasking 1 ++ silence ++ [.cancel 1,
        .result { taskId := 1, result := { games := 1, winAgent1 := 1 } }, .balance])) := by
  have hfirst : (coordinator.exec (fun _ _ => True) (initial soloConfig)
      (joining 1 5 ++ tasking 1 ++ silence ++ [.cancel 1])).isSome := by decide +kernel
  have hrun := run_from hfirst (show (coordinator.exec (State.sparesCancelled 1) _
    [.result { taskId := 1, result := { games := 1, winAgent1 := 1 } }, .balance]).isSome by
      decide +kernel)
  exact (cancellation_final_iff (run_after hfirst)
    (show _ = some { id := 1, remainingTasks := 1, status := .tsCancelled } by decide +kernel) rfl
    hrun.free).mpr hrun

/-- The result of a cancelled task makes its group done. -/
theorem cancellation_undone : ¬ ∀ (config : CoordinatorConfig) (ops₀ ops : List Op) (s₀ s : State)
    (g : TaskId) (G : TaskGroup), coordinator.FreeRun (initial config) ops₀ s₀ →
    s₀.group? g = some G → G.status = .tsCancelled → coordinator.FreeRun s₀ ops s →
    s.Frozen g G.aggregateResult := by
  intro h
  have hrun := run_after (show (coordinator.exec (fun _ _ => True) (initial soloConfig)
    (joining 1 5 ++ tasking 1 ++ [.cancel 1] ++
      [.result { taskId := 1, result := { games := 1, winAgent1 := 1 } }])).isSome by decide +kernel)
  rcases hrun.split with ⟨s₀, hrun₀, hrest⟩
  have hG : s₀.group? 1 = some { id := 1, remainingTasks := 1, status := .tsCancelled } := by
    rw [eq_after hrun₀]
    decide +kernel
  have hfrozen := h _ _ _ _ _ _ _ hrun₀ hG rfl hrest
  revert hfrozen
  decide +kernel

end Bem
