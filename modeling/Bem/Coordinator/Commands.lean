import Bem.Coordinator.State

/-!
# The console commands that change the state
-/

namespace Bem

/-- The arguments of `task`. -/
structure TaskArgs where
  gid : GamesId
  ag1 : GamesId
  ag2 : GamesId
  boardSize : UInt32
  moveLimitMs : UInt32
  games : UInt32

namespace State

/-- The template of the sub-tasks. -/
def template (args : TaskArgs) : Task where
  gameId := args.gid
  agent1 := args.ag1
  agent2 := args.ag2
  boardSize := args.boardSize
  moveLimitMs := args.moveLimitMs
  games := args.games

/-- `command_task` up to the end of the section that selects the nodes.  Arguments that are `0`
are only complained about. -/
def selectNodes (s : State) (args : TaskArgs) : Except Fault State :=
  if ¬ s.config.gamelist.containsGame args.gid then .ok s
  else if ¬ s.config.gamelist.containsAgent args.gid args.ag1 then .ok s
  else if ¬ s.config.gamelist.containsAgent args.gid args.ag2 then .ok s
  else do
    let nodeIds ← s.getEligibleNodesForTask (template args)
    -- without a node the command says so and returns
    if nodeIds.isEmpty then return s
    else return { s with selection := some { task := template args, nodeIds } }

/-- `n_games`. -/
def nGames (games : UInt32) (nNodes : Nat) : List UInt32 :=
  (List.replicate nNodes (UInt32.ofNat (games.toNat / nNodes))).set 0
    (UInt32.ofNat ((games.toNat + nNodes - 1) / nNodes))

/-- `tt`. -/
def subTask (task : Task) (id : TaskId) (games : UInt32) : Task :=
  { task with id, games, status := .tsRunning }

/-- One node of the loop that assigns the sub-tasks. -/
def assignShare (task : Task) (s : State) (share : NodeId × UInt32) : Except Fault State :=
  -- nodes without a game get no task, although the group counts on one
  if share.2 = 0 then .ok s
  else
    let tt := subTask task s.nextTaskId share.2
    let ttp := s.taskHeap.next
    let s := { s with
      nextTaskId := s.nextTaskId + 1
      taskHeap := s.taskHeap.alloc tt
      tasks := s.tasks.emplace tt.id (some ttp) }
    s.assignTask share.1 ttp

/-- The nodes with their shares of the games. -/
def Selection.shares (selection : Selection) : List (NodeId × UInt32) :=
  selection.nodeIds.zip (nGames selection.task.games selection.nodeIds.length)

/-- A new group that waits for `nNodes` sub-tasks. -/
def newGroup (groupId : TaskId) (nNodes : Nat) : TaskGroup where
  id := groupId
  remainingTasks := UInt32.ofNat nNodes
  status := .tsRunning

/-- The next group is entered. -/
def openGroup (s : State) (nNodes : Nat) : State :=
  { s with
    selection := none
    nextGroupId := s.nextGroupId + 1
    groups := s.groups.emplace s.nextGroupId (some (newGroup s.nextGroupId nNodes)) }

/-- The section of `command_task` that assigns the sub-tasks. -/
def assignShares (s : State) : Except Fault State :=
  match s.selection with
  | none => .ok s
  | some selection =>
    (Selection.shares selection).foldlM
      (assignShare { selection.task with groupId := s.nextGroupId })
      (s.openGroup selection.nodeIds.length)

/-- Both sections of `command_task`, with nothing in between. -/
def commandTask (s : State) (args : TaskArgs) : Except Fault State := do
  let s ← s.selectNodes args
  s.assignShares

/-- One task of the loop of `command_cancel`. -/
def cancelTask (groupId : TaskId) (s : State) (e : TaskId × Ref) : Except Fault State :=
  if (s.taskHeap.get e.2).groupId ≠ groupId then .ok s
  else if (s.taskHeap.get e.2).status ≠ .tsRunning then .ok s
  else
    match s.nodes.pointees? with
    | none => .error .nullPointer
    | some _ =>
      .ok { s with nodes := s.nodes.mapPointees fun _ node => node.unassignTask s.taskHeap e.1 }

def commandCancel (s : State) (groupId : TaskId) : Except Fault State :=
  if s.groupExists groupId then
    match s.groups.index groupId with
    | (_, none) => .error .nullPointer
    | (groups, some group) =>
      if group.status = .tsRunning then
        match s.tasks.pointees? with
        | none => .error .nullPointer
        | some tasks =>
          tasks.foldlM (cancelTask groupId)
            { s with groups := groups.store groupId { group with status := .tsCancelled } }
      else .ok s
  else .ok s

/-! ## What a command has done when it does not fault -/

variable {s s' : State}

theorem selectNodes_cases {args : TaskArgs} (h : s.selectNodes args = .ok s') :
    s' = s ∨ ∃ nodeIds, s.getEligibleNodesForTask (template args) = .ok nodeIds ∧ nodeIds ≠ [] ∧
      s' = { s with selection := some { task := template args, nodeIds } } := by
  unfold selectNodes at h
  split at h
  · exact Or.inl (Except.ok.inj h).symm
  split at h
  · exact Or.inl (Except.ok.inj h).symm
  split at h
  · exact Or.inl (Except.ok.inj h).symm
  rcases Except.bind_eq_ok.mp h with ⟨nodeIds, hnodeIds, h⟩
  by_cases hempty : nodeIds.isEmpty
  · rw [if_pos hempty] at h
    exact Or.inl (Except.ok.inj h).symm
  · rw [if_neg hempty] at h
    refine Or.inr ⟨nodeIds, hnodeIds, ?_, (Except.ok.inj h).symm⟩
    intro hnil
    exact hempty (by rw [hnil]; rfl)

theorem assignShare_cases {task : Task} {share : NodeId × UInt32}
    (h : assignShare task s share = .ok s') :
    (share.2 = 0 ∧ s' = s) ∨ (share.2 ≠ 0 ∧ ∃ node tt heap, s.nodes.at? share.1 = some node ∧
      tt = subTask task s.nextTaskId share.2 ∧ heap = s.taskHeap.alloc tt ∧ s' = { s with
        nextTaskId := s.nextTaskId + 1
        taskHeap := heap
        tasks := s.tasks.emplace tt.id (some s.taskHeap.next)
        nodes := s.nodes.store share.1 (node.assignTask heap s.taskHeap.next)
        assignCalls := s.assignCalls ++ [{ nodeId := share.1, node, task := tt }] }) := by
  unfold assignShare at h
  split at h
  next hzero => exact Or.inl ⟨hzero, (Except.ok.inj h).symm⟩
  next hne =>
    rcases assignTask_eq_ok h with ⟨node, hnode, rfl⟩
    dsimp only
    rw [Heap.get_alloc_self]
    exact Or.inr ⟨hne, node, _, _, hnode, rfl, rfl, rfl⟩

theorem assignShares_cases (h : s.assignShares = .ok s') :
    (s.selection = none ∧ s' = s) ∨ ∃ selection, s.selection = some selection ∧
      (Selection.shares selection).foldlM
        (assignShare { selection.task with groupId := s.nextGroupId })
        (s.openGroup selection.nodeIds.length) = .ok s' := by
  unfold assignShares at h
  split at h
  next hnone => exact Or.inl ⟨hnone, (Except.ok.inj h).symm⟩
  next selection hsome => exact Or.inr ⟨selection, hsome, h⟩

theorem cancelTask_cases {g : TaskId} {e : TaskId × Ref} (h : cancelTask g s e = .ok s') :
    (((s.taskHeap.get e.2).groupId ≠ g ∨ (s.taskHeap.get e.2).status ≠ .tsRunning) ∧ s' = s) ∨
      ((s.taskHeap.get e.2).groupId = g ∧ (s.taskHeap.get e.2).status = .tsRunning ∧ s' = { s with
        nodes := s.nodes.mapPointees fun _ node => node.unassignTask s.taskHeap e.1 }) := by
  unfold cancelTask at h
  split at h
  next hgroup => exact Or.inl ⟨Or.inl hgroup, (Except.ok.inj h).symm⟩
  next hgroup =>
    split at h
    next hstatus => exact Or.inl ⟨Or.inr hstatus, (Except.ok.inj h).symm⟩
    next hstatus =>
      split at h
      next => cases h
      next =>
        exact Or.inr ⟨not_not.mp hgroup, not_not.mp hstatus, (Except.ok.inj h).symm⟩

theorem commandCancel_cases {g : TaskId} (h : s.commandCancel g = .ok s') :
    ((∀ G, s.groups.at? g = some G → G.status ≠ .tsRunning) ∧ s' = s) ∨
      ∃ G, s.groups.at? g = some G ∧ G.status = .tsRunning ∧
        s.tasks.pointees.foldlM (cancelTask g)
          { s with groups := s.groups.store g { G with status := .tsCancelled } } = .ok s' := by
  unfold commandCancel groupExists at h
  cases hG : s.groups.at? g with
  | none =>
    left
    rw [KeyedMap.index_of_at?_none hG] at h
    split at h
    · cases h
    · exact ⟨fun G hG' => (nomatch hG'), (Except.ok.inj h).symm⟩
  | some G =>
    rw [if_pos (by simpa using KeyedMap.mem_of_at? hG), KeyedMap.index_of_at? hG] at h
    dsimp only at h
    by_cases hrunning : G.status = .tsRunning
    · rw [if_pos hrunning] at h
      split at h
      next => cases h
      next tasks htasks =>
        rw [KeyedMap.pointees?_eq_some htasks] at h
        exact Or.inr ⟨G, rfl, hrunning, h⟩
    · rw [if_neg hrunning] at h
      refine Or.inl ⟨fun G' hG' => ?_, (Except.ok.inj h).symm⟩
      cases hG'
      exact hrunning

end State

end Bem
