import Bem.Coordinator.Node
import Bem.Lib.Faulting

/-!
# The state of the coordinator

Maps hold pointers that may be null, and `operator[]` enters a null pointer under a key it does not
find; following a null pointer is the fault `nullPointer`.  The functions here are those that the
threads call while they hold the mutexes of what they touch.
-/

namespace Bem

structure CoordinatorConfig where
  nodeBrokenSeconds : UInt64
  protocolVersion : UInt8
  gamelist : GameList

/-- What `command_task` carries from the section that selects nodes to the one that assigns: the
template of the sub-tasks and `node_ids`. -/
structure Selection where
  task : Task
  nodeIds : List NodeId

/-- A call of `AssignTask`: the key, the node as it was, and the task. -/
structure AssignCall where
  nodeId : NodeId
  node : Node
  task : Task

/-- `selection` is the main thread between the two sections of `command_task`, `accepting` the
acceptor between setting the flag and entering the node.  `assignCalls` is not a field of the
source: it lists the calls of `AssignTask` so far. -/
structure State where
  config : CoordinatorConfig
  nodes : KeyedMap NodeId (Option Node) := ∅
  groups : KeyedMap TaskId (Option TaskGroup) := ∅
  tasks : KeyedMap TaskId (Option Ref) := ∅
  taskHeap : Heap Task := { cell := fun _ => {}, next := 0 }
  suspectedBalancing : Bool := false
  nextTaskId : TaskId := taskIdFirst
  nextGroupId : TaskId := taskIdFirst
  nextNodeId : NodeId := nodeIdFirst
  selection : Option Selection := none
  accepting : Option Int := none
  assignCalls : List AssignCall := []

namespace State

def nodeExists (s : State) (nodeId : NodeId) : Bool := decide (nodeId ∈ s.nodes)

def groupExists (s : State) (groupId : TaskId) : Bool := decide (groupId ∈ s.groups)

def getEligibleNodesForTask (s : State) (task : Task) : Except Fault (List NodeId) :=
  match s.nodes.pointees? with
  | none => .error .nullPointer
  | some nodes => .ok ((nodes.filter fun e => e.2.eligible task).map Prod.fst)

/-- `state.nodes[nodeId]->AssignTask(task)`. -/
def assignTask (s : State) (nodeId : NodeId) (task : Ref) : Except Fault State :=
  match s.nodes.index nodeId with
  | (_, none) => .error .nullPointer
  | (nodes, some node) =>
    .ok { s with
      nodes := nodes.store nodeId (node.assignTask s.taskHeap task)
      assignCalls := s.assignCalls ++ [{ nodeId, node, task := s.taskHeap.get task }] }

/-- One task of the loop of `balanceTasks`. -/
def balanceTask (s : State) (task : Ref) : Except Fault State :=
  if (s.taskHeap.get task).status = .tsNone then do
    let nodeIds ← s.getEligibleNodesForTask (s.taskHeap.get task)
    match nodeIds with
    | [] => return s
    | nodeId :: _ =>
      let s ← s.assignTask nodeId task
      return { s with taskHeap := setStatus s.taskHeap task .tsRunning }
  else return s

def balanceTasks (s : State) : Except Fault State :=
  match s.tasks.pointees? with
  | none => .error .nullPointer
  | some tasks => do
    let s ← (tasks.map Prod.snd).foldlM balanceTask s
    return { s with suspectedBalancing := false }

/-- The section of `terminateNode` under `mtx_nodes`. -/
def eraseNode (s : State) (nodeId : NodeId) : Except Fault State :=
  if ¬ s.nodeExists nodeId then .ok s
  else
    match s.nodes.index nodeId with
    -- `shutdown` reads the socket of the node
    | (_, none) => .error .nullPointer
    | (nodes, some _) => .ok { s with nodes := nodes.erase nodeId }

def terminateNode (s : State) (nodeId : NodeId) : Except Fault State :=
  if ¬ s.nodeExists nodeId then .ok s
  else do
    let s ← s.eraseNode nodeId
    s.balanceTasks

/-! ## Views -/

def node? (s : State) (nodeId : NodeId) : Option Node := s.nodes.at? nodeId

def group? (s : State) (groupId : TaskId) : Option TaskGroup := s.groups.at? groupId

def task? (s : State) (taskId : TaskId) : Option Task := (s.tasks.at? taskId).map s.taskHeap.get

/-- The number of sub-tasks ever made. -/
def subTasks (s : State) : Nat := s.taskHeap.next

/-- The number of tasks in the map that have a property. -/
def countTasks (s : State) (p : Task → Bool) : Nat :=
  s.tasks.pointees.countP fun e => p (s.taskHeap.get e.2)

/-- The task with the id is in the list of the node. -/
def Holds (s : State) (nodeId : NodeId) (taskId : TaskId) : Prop :=
  ∃ node, s.node? nodeId = some node ∧ node.lists s.taskHeap taskId

instance (s : State) (nodeId : NodeId) (taskId : TaskId) : Decidable (s.Holds nodeId taskId) :=
  decidable_of_iff ((s.node? nodeId).any fun node => node.lists s.taskHeap taskId)
    (Option.any_eq_true_iff_get _ _ |>.trans (by simp [Holds, Option.eq_some_iff_get_eq]))

theorem exists_holds_iff {s : State} {taskId : TaskId} :
    (∃ n, s.Holds n taskId) ↔ ∃ e ∈ s.nodes.pointees, e.2.lists s.taskHeap taskId := by
  constructor
  · intro h
    rcases h with ⟨n, node, hnode, hlists⟩
    exact ⟨(n, node), KeyedMap.mem_pointees.mpr hnode, hlists⟩
  · intro h
    rcases h with ⟨e, he, hlists⟩
    exact ⟨e.1, e.2, KeyedMap.mem_pointees.mp he, hlists⟩

theorem task?_eq_some {s : State} {t : TaskId} {task : Task} :
    s.task? t = some task ↔ ∃ r, s.tasks.at? t = some r ∧ s.taskHeap.get r = task :=
  Option.map_eq_some_iff

theorem forall_task?_iff {s : State} {p : Task → Prop} :
    (∀ t task, s.task? t = some task → p task) ↔
      ∀ e ∈ s.tasks.pointees, p (s.taskHeap.get e.2) := by
  constructor
  · intro h e he
    exact h e.1 _ (task?_eq_some.mpr ⟨e.2, KeyedMap.mem_pointees.mp he, rfl⟩)
  · intro h t task htask
    rcases task?_eq_some.mp htask with ⟨r, hr, rfl⟩
    exact h (t, r) (KeyedMap.mem_pointees.mpr hr)

/-! ## What a step has done when it does not fault -/

variable {s s' : State} {nodeId : NodeId} {task : Ref}

theorem getEligibleNodesForTask_eq_ok {t : Task} {nodeIds : List NodeId}
    (h : s.getEligibleNodesForTask t = .ok nodeIds) :
    nodeIds = (s.nodes.pointees.filter fun e => e.2.eligible t).map Prod.fst := by
  unfold getEligibleNodesForTask at h
  split at h
  next => cases h
  next nodes hnodes =>
    rw [KeyedMap.pointees?_eq_some hnodes] at h
    exact (Except.ok.inj h).symm

/-- A selected node is live and eligible. -/
theorem eligible_of_getEligibleNodesForTask {t : Task} {nodeIds : List NodeId}
    (h : s.getEligibleNodesForTask t = .ok nodeIds) {n : NodeId} (hn : n ∈ nodeIds) :
    ∃ node, s.nodes.at? n = some node ∧ node.eligible t := by
  rw [getEligibleNodesForTask_eq_ok h] at hn
  rcases List.mem_map.mp hn with ⟨e, he, rfl⟩
  rw [List.mem_filter] at he
  exact ⟨e.2, KeyedMap.mem_pointees.mp he.1, he.2⟩

theorem assignTask_eq_ok (h : s.assignTask nodeId task = .ok s') :
    ∃ node, s.nodes.at? nodeId = some node ∧ s' = { s with
      nodes := s.nodes.store nodeId (node.assignTask s.taskHeap task)
      assignCalls := s.assignCalls ++ [{ nodeId, node, task := s.taskHeap.get task }] } := by
  unfold assignTask at h
  cases hnode : s.nodes.at? nodeId with
  | none =>
    rw [KeyedMap.index_of_at?_none hnode] at h
    cases h
  | some node =>
    rw [KeyedMap.index_of_at? hnode] at h
    exact ⟨node, rfl, (Except.ok.inj h).symm⟩

/-- Assigning to a live node does not fault. -/
theorem assignTask_ok {node : Node} (h : s.nodes.at? nodeId = some node) :
    ∃ s', s.assignTask nodeId task = .ok s' := by
  unfold assignTask
  rw [KeyedMap.index_of_at? h]
  exact ⟨_, rfl⟩

theorem balanceTask_cases (h : s.balanceTask task = .ok s') :
    s' = s ∨ ∃ nodeId node, s.nodes.at? nodeId = some node ∧ node.eligible (s.taskHeap.get task) ∧
      (s.taskHeap.get task).status = .tsNone ∧ s' = { s with
        nodes := s.nodes.store nodeId (node.assignTask s.taskHeap task)
        assignCalls := s.assignCalls ++ [{ nodeId, node, task := s.taskHeap.get task }]
        taskHeap := setStatus s.taskHeap task .tsRunning } := by
  unfold balanceTask at h
  split at h
  next hnone =>
    rcases Except.bind_eq_ok.mp h with ⟨nodeIds, hnodeIds, h⟩
    cases nodeIds with
    | nil => exact Or.inl (Except.ok.inj h).symm
    | cons nodeId nodeIds =>
      rcases Except.bind_eq_ok.mp h with ⟨s₁, hassign, h⟩
      rcases eligible_of_getEligibleNodesForTask hnodeIds List.mem_cons_self with
        ⟨node, hnode, heligible⟩
      rcases assignTask_eq_ok hassign with ⟨node', hnode', rfl⟩
      cases hnode.symm.trans hnode'
      exact Or.inr ⟨nodeId, node, hnode, heligible, hnone, (Except.ok.inj h).symm⟩
  next => exact Or.inl (Except.ok.inj h).symm

/-- Balancing chooses among the nodes it sees, so it never follows a null pointer. -/
theorem balanceTask_ok (h : s.nodes.NonNull) : ∃ s', s.balanceTask task = .ok s' := by
  unfold balanceTask
  split
  next =>
    cases hnodeIds : s.getEligibleNodesForTask (s.taskHeap.get task) with
    | error =>
      unfold getEligibleNodesForTask at hnodeIds
      rw [KeyedMap.pointees?_of_nonNull h] at hnodeIds
      cases hnodeIds
    | ok nodeIds =>
      cases nodeIds with
      | nil => exact ⟨s, rfl⟩
      | cons nodeId nodeIds =>
        rcases eligible_of_getEligibleNodesForTask hnodeIds List.mem_cons_self with ⟨node, hnode, -⟩
        have hok : ∃ s₁, s.assignTask nodeId task = .ok s₁ := assignTask_ok hnode
        rcases hok with ⟨s₁, hassign⟩
        refine ⟨{ s₁ with taskHeap := setStatus s₁.taskHeap task .tsRunning }, ?_⟩
        exact Except.bind_eq_ok.mpr ⟨_, rfl, Except.bind_eq_ok.mpr ⟨s₁, hassign, rfl⟩⟩
  next => exact ⟨s, rfl⟩

theorem balanceTasks_eq_ok (h : s.balanceTasks = .ok s') :
    ∃ s₁, (s.tasks.pointees.map Prod.snd).foldlM balanceTask s = .ok s₁ ∧
      s' = { s₁ with suspectedBalancing := false } := by
  unfold balanceTasks at h
  split at h
  next => cases h
  next tasks htasks =>
    rw [KeyedMap.pointees?_eq_some htasks] at h
    rcases Except.bind_eq_ok.mp h with ⟨s₁, hloop, h⟩
    exact ⟨s₁, hloop, (Except.ok.inj h).symm⟩

/-- Where no pointer is null balancing does not fault, and what its body keeps holds at its end. -/
theorem balanceTasks_rule {I : State → Prop} (hnodes : s.nodes.NonNull) (htasks : s.tasks.NonNull)
    (hbody : ∀ t r t', I t → t.balanceTask r = .ok t' → I t') (hs : I s) :
    ∃ s₁, s.balanceTasks = .ok { s₁ with suspectedBalancing := false } ∧ I s₁ := by
  have hloop : ∃ s₁, (s.tasks.pointees.map Prod.snd).foldlM balanceTask s = .ok s₁ ∧
      s₁.nodes.NonNull ∧ I s₁ := by
    apply Except.foldlM_ok (I := fun t => t.nodes.NonNull ∧ I t) _ ⟨hnodes, hs⟩
    intro t r _ ht
    have hok : ∃ t', t.balanceTask r = .ok t' := balanceTask_ok ht.1
    rcases hok with ⟨t', hok⟩
    refine ⟨t', hok, ?_, hbody t r t' ht.2 hok⟩
    rcases balanceTask_cases hok with rfl | ⟨_, _, -, -, -, rfl⟩
    · exact ht.1
    · exact ht.1.mapPointees _
  rcases hloop with ⟨s₁, hloop, -, hs₁⟩
  refine ⟨s₁, ?_, hs₁⟩
  unfold balanceTasks
  rw [KeyedMap.pointees?_of_nonNull htasks]
  exact Except.bind_eq_ok.mpr ⟨s₁, hloop, rfl⟩

theorem eraseNode_cases (h : s.eraseNode nodeId = .ok s') :
    (nodeId ∉ s.nodes ∧ s' = s) ∨ ∃ node, s.nodes.at? nodeId = some node ∧
      s' = { s with nodes := s.nodes.erase nodeId } := by
  unfold eraseNode nodeExists at h
  split at h
  next hnot => exact Or.inl ⟨by simpa using hnot, (Except.ok.inj h).symm⟩
  next =>
    cases hnode : s.nodes.at? nodeId with
    | none =>
      rw [KeyedMap.index_of_at?_none hnode] at h
      cases h
    | some node =>
      rw [KeyedMap.index_of_at? hnode] at h
      exact Or.inr ⟨node, rfl, (Except.ok.inj h).symm⟩

end State

end Bem
