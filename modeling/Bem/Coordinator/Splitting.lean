import Bem.Coordinator.Fitness

/-!
# Splitting a task

The first node gets the games of a task divided by the number of nodes, rounded up, and every other
node the same rounded down.  What the shares add up to, and what is lost.
-/

namespace Bem

/-! ## The sub-tasks -/

namespace State

variable {s s' : State} {selection : Selection}

/-- The sub-tasks made on the way from `s` to `s'`. -/
def created (s s' : State) : List Task :=
  (List.range' s.subTasks (s'.subTasks - s.subTasks)).map s'.taskHeap.get

/-- The loop makes a task for every share that is not empty, and assigns all it makes. -/
theorem foldlM_assignShare_calls {task : Task} {l : List (NodeId × UInt32)}
    (h : l.foldlM (assignShare task) s = .ok s') :
    s.subTasks ≤ s'.subTasks ∧ (∀ r < s.subTasks, s'.taskHeap.get r = s.taskHeap.get r) ∧
      ∃ calls : List AssignCall, s'.assignCalls = s.assignCalls ++ calls ∧
        calls.map AssignCall.task = created s s' ∧
        calls.map (fun call => (call.nodeId, call.task.games)) =
          l.filter fun share => share.2 ≠ 0 := by
  induction l generalizing s with
  | nil =>
    cases h
    refine ⟨le_refl _, fun _ _ => rfl, [], (List.append_nil _).symm, ?_, rfl⟩
    rw [created, Nat.sub_self]
    rfl
  | cons share l ih =>
    rcases Except.foldlM_cons_eq_ok.mp h with ⟨s₁, hfirst, hrest⟩
    have hstep := ih hrest
    rcases assignShare_cases hfirst with ⟨hzero, rfl⟩ | ⟨hne, node, tt, heap, -, htt, hheap, heq⟩
    · rw [List.filter_cons_of_neg (by simpa using hzero)]
      exact hstep
    · have hnext : s₁.subTasks = s.subTasks + 1 := by
        rw [heq, hheap]
        rfl
      have hget (r : Ref) : s₁.taskHeap.get r = if r = s.subTasks then tt else s.taskHeap.get r := by
        rw [heq, hheap]
        exact Function.update_apply _ _ _ _
      have hcall : s₁.assignCalls = s.assignCalls ++ [{ nodeId := share.1, node, task := tt }] := by
        rw [heq]
      rcases hstep with ⟨hle, hkept, calls, hcalls, htasks, hshares⟩
      refine ⟨by omega, fun r hr => ?_, { nodeId := share.1, node, task := tt } :: calls, ?_, ?_, ?_⟩
      · rw [hkept r (by omega), hget, if_neg (Nat.ne_of_lt hr)]
      · rw [hcalls, hcall, List.append_assoc]
        rfl
      · -- the new task is the first of those made since `s`
        have hcount : s'.subTasks - s.subTasks = (s'.subTasks - s₁.subTasks) + 1 := by omega
        have hself : s'.taskHeap.get s.subTasks = tt := by
          rw [hkept _ (by omega), hget, if_pos rfl]
        rw [List.map_cons, htasks, created, created, hcount, List.range'_succ, List.map_cons, hself,
          hnext]
      · rw [List.map_cons, hshares, List.filter_cons_of_pos (by simpa using hne), htt]
        rfl

/-- `command_task` does not fault where the selected nodes are still live. -/
theorem assignShares_ok (hlive : ∀ selection, s.selection = some selection →
    ∀ n ∈ selection.nodeIds, s.nodes.at? n ≠ none) : ∃ s', s.assignShares = .ok s' := by
  unfold assignShares
  cases hselection : s.selection with
  | none => exact ⟨s, rfl⟩
  | some selection =>
    have hloop : ∃ s', (Selection.shares selection).foldlM
        (assignShare { selection.task with groupId := s.nextGroupId })
        (s.openGroup selection.nodeIds.length) = .ok s' ∧
          ∀ n ∈ selection.nodeIds, s'.outline.profile n ≠ none := by
      apply Except.foldlM_ok (I := fun t : State => ∀ n ∈ selection.nodeIds,
        t.outline.profile n ≠ none)
      · intro t share hshare ht
        by_cases hzero : share.2 = 0
        · refine ⟨t, ?_, ht⟩
          unfold assignShare
          rw [if_pos hzero]
        · have hmem : share.1 ∈ selection.nodeIds := (List.of_mem_zip hshare).1
          cases hnode : t.nodes.at? share.1 with
          | none => exact absurd (congrArg (Option.map Node.profile) hnode) (ht _ hmem)
          | some node =>
            rcases assignShare_ok { selection.task with groupId := s.nextGroupId } hzero hnode with
              ⟨t', -, hok, houtline, -⟩
            exact ⟨t', hok, by rwa [houtline]⟩
      · intro n hn hnone
        exact hlive selection hselection n hn (Option.map_eq_none_iff.mp hnone)
    rcases hloop with ⟨s', hok, -⟩
    exact ⟨s', hok⟩

/-- What `command_task` hands out is what was asked for exactly when the games leave a rest of at most
one.  The nodes of the selection may be any, and live or not; while they are live the command gets
to its end. -/
theorem splits_exactly_iff (hselection : s.selection = some selection)
    (hne : selection.nodeIds ≠ []) :
    ((∀ n ∈ selection.nodeIds, s.node? n ≠ none) → ∃ s', s.assignShares = .ok s') ∧
    ∀ s', s.assignShares = .ok s' →
      (∃ calls : List AssignCall, s'.assignCalls = s.assignCalls ++ calls ∧
        calls.map AssignCall.task = created s s') ∧
      (((created s s').map fun task => task.games.toNat).sum = selection.task.games.toNat ↔
        selection.task.games.toNat % selection.nodeIds.length ≤ 1) := by
  refine ⟨fun hlive => assignShares_ok fun other hother => ?_, fun s' hok => ?_⟩
  · cases hselection.symm.trans hother
    exact hlive
  rcases assignShares_cases hok with ⟨hnone, -⟩ | ⟨other, hother, hloop⟩
  · cases hselection.symm.trans hnone
  cases hselection.symm.trans hother
  rcases foldlM_assignShare_calls hloop with ⟨-, -, calls, hcalls, htasks, hshares⟩
  have hcreated : calls.map AssignCall.task = created s s' := htasks
  refine ⟨⟨calls, hcalls, hcreated⟩, ?_⟩
  have hsum : ((created s s').map fun task => task.games.toNat).sum =
      (selection.used.map fun share => share.2.toNat).sum := by
    unfold Selection.used
    rw [← hcreated, ← hshares, List.map_map, List.map_map]
    rfl
  have hsplit := Nat.div_add_mod selection.task.games.toNat selection.nodeIds.length
  rw [hsum, sum_used hne]
  split
  · omega
  · omega

/-- The 27 games of the demo on two nodes. -/
theorem splits_exactly_demo :
    ∃ s' selection, ({ after soloConfig (joining 1 5 ++ joining 2 6) with
      selection := some selection } : State).assignShares = .ok s' ∧
      selection.nodeIds = [1, 2] ∧
      ((created (after soloConfig (joining 1 5 ++ joining 2 6)) s').map fun task =>
        task.games.toNat).sum = 27 := by
  let selection : Selection := {
    task := template { gid := 1, ag1 := 1, ag2 := 1, boardSize := 8, moveLimitMs := 20000, games := 27 }
    nodeIds := [1, 2] }
  have h := splits_exactly_iff (s := { after soloConfig (joining 1 5 ++ joining 2 6) with
    selection := some selection }) rfl (List.cons_ne_nil 1 [2])
  have hlive : ∀ n ∈ [(1 : NodeId), 2],
      (after soloConfig (joining 1 5 ++ joining 2 6)).node? n ≠ none := by
    -- all ids would be run through otherwise
    rw [List.forall_mem_cons, List.forall_mem_singleton]
    constructor
    · decide +kernel
    · decide +kernel
  rcases h.1 hlive with ⟨s', hok⟩
  exact ⟨s', selection, hok, rfl, (h.2 s' hok).2.mpr (by decide)⟩

/-- Five games on three nodes: two for the first, one for each other, and one for nobody. -/
theorem split_loses_game :
    ∃ s s', coordinator.FreeRun (initial soloConfig)
      (joining 1 5 ++ joining 2 6 ++ joining 3 7 ++ (tasking 5).take 1) s ∧
      (s.selection.map fun selection => (selection.nodeIds, selection.task.games)) =
        some ([1, 2, 3], 5) ∧
      s.assignShares = .ok s' ∧
      ((created s s').map fun task => task.games.toNat) = [2, 1, 1] := by
  have hrun := run_after (show (coordinator.exec (fun _ _ => True) (initial soloConfig)
    (joining 1 5 ++ joining 2 6 ++ joining 3 7 ++ (tasking 5).take 1 ++ [.assign])).isSome by
      decide +kernel)
  rcases hrun.split with ⟨s, hrun₁, hrun₂⟩
  refine ⟨s, _, hrun₁, ?_, hrun₂.step_eq_ok.2.2, ?_⟩
  · rw [eq_after hrun₁]
    decide +kernel
  · rw [eq_after hrun₁]
    decide +kernel

end State

end Bem
