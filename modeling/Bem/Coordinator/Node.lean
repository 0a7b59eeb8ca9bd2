import Bem.Common.Messages
import Bem.Lib.KeyedMap
import Bem.Lib.ObjectHeap

/-!
# Nodes

A `Node` shares its tasks with the coordinator's map of tasks, so its list holds references to
them.  `written` is not a field of the source: it keeps the messages that the writer thread has
taken off the queue, so that `history` is everything ever sent to the node.
-/

namespace Bem

/-! ## The shared tasks -/

section Tasks

/-- A task apart from its status. -/
def Task.order (task : Task) : Task := { task with status := .tsNone }

/-- `task->status = status`. -/
def setStatus (heap : Heap Task) (task : Ref) (status : TaskStatus) : Heap Task :=
  heap.set task { heap.get task with status }

variable (heap : Heap Task) (task r : Ref) (status : TaskStatus)

theorem get_setStatus : (setStatus heap task status).get r =
    if r = task then { heap.get task with status } else heap.get r := Heap.get_set _ _ _ _

/-- What does not depend on the status is left alone. -/
theorem apply_setStatus {α : Type} {f : Task → α} (hf : ∀ t s, f { t with status := s } = f t) :
    f ((setStatus heap task status).get r) = f (heap.get r) := by
  rw [get_setStatus]
  split
  next h =>
    rw [h]
    exact hf _ _
  next => rfl

@[simp] theorem id_setStatus : ((setStatus heap task status).get r).id = (heap.get r).id :=
  apply_setStatus heap task r status fun _ _ => rfl

@[simp] theorem groupId_setStatus :
    ((setStatus heap task status).get r).groupId = (heap.get r).groupId :=
  apply_setStatus heap task r status fun _ _ => rfl

@[simp] theorem order_setStatus :
    ((setStatus heap task status).get r).order = (heap.get r).order :=
  apply_setStatus heap task r status fun _ _ => rfl

theorem status_setStatus : ((setStatus heap task status).get r).status =
    if r = task then status else (heap.get r).status := by
  rw [get_setStatus]
  split
  · rfl
  · rfl

end Tasks

/-! ## Nodes -/

/-- `node_id_t`. -/
abbrev NodeId := UInt32

def nodeIdNone : NodeId := 0

def nodeIdFirst : NodeId := 1

/-- A reading of `std::chrono::system_clock`, in nanoseconds. -/
abbrev TimePoint := Int

structure NodeFlags where
  registered : Bool := false
  connBroken : Bool := false
  deriving DecidableEq

structure Node where
  tasks : List Ref := []
  socket : Int
  gamelist : GameList := {}
  id : NodeId := nodeIdNone
  activeTaskGroup : TaskId := taskIdNone
  responseTs : TimePoint := 0
  requestTs : TimePoint := 0
  flags : NodeFlags := {}
  messageQueue : List Message := []
  written : List Message := []
  deriving DecidableEq

namespace Node

def isRegistered (node : Node) : Bool := node.flags.registered

def markRegistered (node : Node) : Node := { node with flags.registered := true }

def markRequest (now : TimePoint) (node : Node) : Node := { node with requestTs := now }

def markResponse (now : TimePoint) (node : Node) : Node := { node with responseTs := now }

/-- `time_from_request() > threshold_s`.  The seconds are `double` there and exact here, which makes no
difference up to `2 ^ 53` nanoseconds (104 days) after the request. -/
def requestOlderThan (thresholdS : UInt64) (now : TimePoint) (node : Node) : Bool :=
  now - node.requestTs > thresholdS.toNat * 1000000000

def awaitingResponse (node : Node) : Bool := node.responseTs < node.requestTs

/-- Everything that was ever put in the queue. -/
def history (node : Node) : List Message := node.written ++ node.messageQueue

def send (message : Message) (node : Node) : Node :=
  { node with messageQueue := node.messageQueue ++ [message] }

/-- The notification that calls a task off. -/
def cancelled (taskId : TaskId) : Message := .taskNotify { taskId, taskStatus := .tsCancelled }

/-- The list has a task with the id. -/
def lists (heap : Heap Task) (taskId : TaskId) (node : Node) : Bool :=
  node.tasks.any fun r => (heap.get r).id == taskId

def assignTask (heap : Heap Task) (task : Ref) (node : Node) : Node :=
  -- do not assign the same task twice
  if node.lists heap (heap.get task).id then node
  else send (.task { task := heap.get task }) { node with tasks := node.tasks ++ [task] }

def unassignTask (heap : Heap Task) (idToDelete : TaskId) (node : Node) : Node :=
  if node.lists heap idToDelete then
    send (cancelled idToDelete)
      { node with tasks := node.tasks.eraseP fun r => (heap.get r).id == idToDelete }
  else node

/-- What `get_eligible_nodes_for_task` asks of a node. -/
def eligible (task : Task) (node : Node) : Bool :=
  if ¬ node.isRegistered then false
  else if node.flags.connBroken then false
  else if ¬ node.gamelist.containsGame task.gameId then false
  else node.gamelist.containsAgent task.gameId task.agent1 &&
    node.gamelist.containsAgent task.gameId task.agent2

/-! ## What assigning leaves alone -/

section Fields

variable (heap : Heap Task) (task : Ref) (taskId : TaskId) (node : Node)

/-- Only the list and the queue change. -/
theorem assignTask_eq : ∃ tasks messageQueue,
    node.assignTask heap task = { node with tasks, messageQueue } := by
  unfold assignTask
  split
  · exact ⟨_, _, rfl⟩
  · exact ⟨_, _, rfl⟩

theorem unassignTask_eq : ∃ tasks messageQueue,
    node.unassignTask heap taskId = { node with tasks, messageQueue } := by
  unfold unassignTask
  split
  · exact ⟨_, _, rfl⟩
  · exact ⟨_, _, rfl⟩

/-- What the coordinator knows of a node apart from its work. -/
structure Profile where
  id : NodeId
  socket : Int
  gamelist : GameList
  flags : NodeFlags

def profile : Profile where
  id := node.id
  socket := node.socket
  gamelist := node.gamelist
  flags := node.flags

@[simp] theorem profile_assignTask : (node.assignTask heap task).profile = node.profile := by
  rcases assignTask_eq heap task node with ⟨tasks, messageQueue, heq⟩
  rw [heq]
  rfl

@[simp] theorem profile_unassignTask :
    (node.unassignTask heap taskId).profile = node.profile := by
  rcases unassignTask_eq heap taskId node with ⟨tasks, messageQueue, heq⟩
  rw [heq]
  rfl

/-- Eligibility is a matter of the profile. -/
theorem eligible_congr {node node' : Node} (h : node'.profile = node.profile) (t : Task) :
    node'.eligible t = node.eligible t := by
  have hgamelist : node'.gamelist = node.gamelist := congrArg Profile.gamelist h
  have hflags : node'.flags = node.flags := congrArg Profile.flags h
  unfold eligible isRegistered
  rw [hgamelist, hflags]

end Fields

/-! ## Histories and lists -/

@[simp] theorem history_send (message : Message) (node : Node) :
    (node.send message).history = node.history ++ [message] :=
  (List.append_assoc _ _ _).symm

theorem lists_iff {heap : Heap Task} {taskId : TaskId} {node : Node} :
    node.lists heap taskId ↔ ∃ r ∈ node.tasks, (heap.get r).id = taskId := by
  simp only [lists, List.any_eq_true, beq_iff_eq]

end Node

end Bem
