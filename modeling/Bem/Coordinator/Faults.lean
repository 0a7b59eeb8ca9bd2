import Bem.Coordinator.Fitness
import Bem.Coordinator.Survival
import Bem.Coordinator.Withdrawing

/-!
# Sections that get to their end

Of all sections of the coordinator only the assigning one and two of the handler follow a pointer that
need not be there.
-/

namespace Bem

namespace State

variable {s : State}

/-- What the section needs to get to its end. -/
def canFinish (s : State) : Op → Prop
  | .assign => ∀ selection ∈ s.selection, ∀ share ∈ selection.used, (s.node? share.1).isSome
  | .result msg => msg.taskId ∈ s.tasks
  | .notify nodeId msg _ => s.followsKnown nodeId (.taskNotify msg)
  | _ => True

/-- Assigning leaves all nodes where they are. -/
theorem foldlM_assignShare_ok_iff {task : Task} {l : List (NodeId × UInt32)} :
    (∃ s', l.foldlM (assignShare task) s = .ok s') ↔
      ∀ share ∈ l.filter fun share => share.2 ≠ 0, (s.node? share.1).isSome := by
  induction l generalizing s with
  | nil => exact iff_of_true ⟨s, rfl⟩ fun _ h => absurd h List.not_mem_nil
  | cons share l ih =>
    simp only [Except.foldlM_cons_eq_ok]
    by_cases hzero : share.2 = 0
    · -- an empty share is skipped
      have hskip : assignShare task s share = .ok s := by
        unfold assignShare
        rw [if_pos hzero]
      rw [List.filter_cons_of_neg (by simpa using hzero), ← ih]
      simp [hskip]
    · rw [List.filter_cons_of_pos (by simpa using hzero), List.forall_mem_cons]
      cases hnode : s.nodes.at? share.1 with
      | none =>
        have hfault := assignShare_none task hzero hnode
        refine iff_of_false (fun h => ?_) fun h => ?_
        · obtain ⟨s', s₁, hfirst, -⟩ := h
          cases hfault.symm.trans hfirst
        · rw [show s.node? share.1 = none from hnode] at h
          exact Bool.noConfusion h.1
      | some node =>
        obtain ⟨s₁, call, hfirst, houtline, -⟩ := assignShare_ok task hzero hnode
        have hsame (n : NodeId) : (s₁.node? n).isSome = (s.node? n).isSome := by
          have hprofile := congrArg (fun F => (F.profile n).isSome) houtline
          rwa [show s₁.outline.profile n = (s₁.node? n).map Node.profile from rfl,
            show s.outline.profile n = (s.node? n).map Node.profile from rfl, Option.isSome_map,
            Option.isSome_map] at hprofile
        have hrest := ih (s := s₁)
        simp only [hsame] at hrest
        rw [← hrest, show s.node? share.1 = some node from hnode]
        simp [hfirst]

/-- Which sections fault: those that follow a node that is gone, or a task that does not exist. -/
theorem step_ok_iff (hs : s.WellFormed) (op : Op) : (∃ s', s.step op = .ok s') ↔ s.canFinish op := by
  cases op with
  | select args =>
    refine iff_of_true ?_ trivial
    show ∃ s', s.selectNodes args = .ok s'
    unfold selectNodes
    repeat' split
    all_goals try exact ⟨s, rfl⟩
    -- no node is null, so that all of them can be looked at
    unfold getEligibleNodesForTask
    rw [KeyedMap.pointees?_of_nonNull hs.nodes]
    show ∃ s', (if List.isEmpty _ = true then _ else _) = _
    split <;> exact ⟨_, rfl⟩
  | assign =>
    show (∃ s', s.assignShares = .ok s') ↔ _
    unfold assignShares canFinish
    cases hselection : s.selection with
    | none => exact iff_of_true ⟨s, rfl⟩ fun _ h => by cases h
    | some selection =>
      refine foldlM_assignShare_ok_iff.trans ?_
      simp only [Option.mem_def, Option.some.injEq, forall_eq']
      rfl
  | cancel g =>
    refine iff_of_true ?_ trivial
    by_cases hruns : ∃ G, s.group? g = some G ∧ G.status = .tsRunning
    · obtain ⟨G, hG, hstatus⟩ := hruns
      exact ⟨_, commandCancel_running hs hG hstatus⟩
    · exact ⟨s, commandCancel_otherwise hs fun G hG hstatus => hruns ⟨G, hG, hstatus⟩⟩
  | erase n =>
    refine iff_of_true ?_ trivial
    obtain ⟨s', hok, -⟩ := eraseNode_ok n hs
    exact ⟨s', hok⟩
  | balance =>
    refine iff_of_true ?_ trivial
    obtain ⟨s', hok, -⟩ := balanceTasks_ok hs
    exact ⟨s', hok⟩
  | maintain clock =>
    refine iff_of_true ?_ trivial
    show ∃ s', s.maintain clock = .ok s'
    unfold maintain
    rw [KeyedMap.pointees?_of_nonNull hs.nodes]
    exact ⟨_, rfl⟩
  | hello n msg =>
    refine iff_of_true ?_ trivial
    obtain ⟨s', hok, -⟩ := handleHelloMessage_ok n hs msg
    exact ⟨s', hok⟩
  | result msg => exact handleResultMessage_ok_iff hs msg
  | notify n msg now => exact handleNotifyTaskMessage_ok_iff n now hs msg
  | accept | insert | write | rehash => exact iff_of_true ⟨_, rfl⟩ trivial

end State

end Bem
