import Bem.Coordinator.Refinement

/-!
# What the console lists

`command_nodes` and `command_tasks` only print.  A line is what it says, apart from the address of a
node.
-/

namespace Bem

/-- A line of `command_nodes`.  Where nothing is running it says `IDLE`. -/
structure NodeLine where
  nodeId : NodeId
  registered : Bool
  connBroken : Bool
  running : Option TaskId

/-- What `command_tasks` says of a group.  A status that is none of the three ends the line. -/
inductive GroupLine
  | running (remainingTasks : UInt32)
  | done (aggregateResult : Result)
  | cancelled
  | other

namespace Node

def isIdle (node : Node) : Bool := node.activeTaskGroup = taskIdNone

def line (nodeId : NodeId) (node : Node) : NodeLine where
  nodeId
  registered := node.isRegistered
  connBroken := node.flags.connBroken
  running := if node.isIdle then none else some node.activeTaskGroup

end Node

def TaskGroup.line (group : TaskGroup) : GroupLine :=
  match group.status with
  | .tsRunning => .running group.remainingTasks
  | .tsDone => .done group.aggregateResult
  | .tsCancelled => .cancelled
  | _ => .other

namespace State

/-- A line of the node, after the assert that it is stored under its own id. -/
def listNode (e : NodeId × Node) : Except Fault NodeLine :=
  if e.1 = e.2.id then .ok (e.2.line e.1) else .error .assertFailed

def commandNodes (s : State) : Except Fault (List NodeLine) :=
  match s.nodes.pointees? with
  | none => .error .nullPointer
  | some nodes => nodes.mapM listNode

def listGroup (e : TaskId × TaskGroup) : Except Fault (TaskId × GroupLine) :=
  if e.1 = e.2.id then .ok (e.1, e.2.line) else .error .assertFailed

def commandTasks (s : State) : Except Fault (List (TaskId × GroupLine)) :=
  match s.groups.pointees? with
  | none => .error .nullPointer
  | some groups => groups.mapM listGroup

variable {s : State}

/-- Every live node is listed, and no assert fails. -/
theorem commandNodes_eq (hs : s.WellFormed) :
    s.commandNodes = .ok (s.nodes.pointees.map fun e => e.2.line e.1) := by
  unfold commandNodes
  rw [KeyedMap.pointees?_of_nonNull hs.nodes]
  refine Except.mapM_eq_ok fun e he => ?_
  have hid := hs.nodeId e.1 e.2 (KeyedMap.mem_pointees.mp he)
  exact if_pos hid.symm

theorem commandTasks_eq (hs : s.WellFormed) :
    s.commandTasks = .ok (s.groups.pointees.map fun e => (e.1, e.2.line)) := by
  unfold commandTasks
  rw [KeyedMap.pointees?_of_nonNull hs.groups]
  refine Except.mapM_eq_ok fun e he => ?_
  have hid := hs.groupId e.1 e.2 (KeyedMap.mem_pointees.mp he)
  exact if_pos hid.symm

theorem running_line {nodeId : NodeId} {node : Node} {g : TaskId} :
    (node.line nodeId).running = some g ↔ node.activeTaskGroup = g ∧ g ≠ taskIdNone := by
  unfold Node.line Node.isIdle
  by_cases hnone : node.activeTaskGroup = taskIdNone
  · simp [hnone, eq_comm]
  · simp only [hnone, decide_false, Bool.false_eq_true, if_false, Option.some.injEq]
    exact (and_iff_left_of_imp fun h => h ▸ hnone).symm

end State

end Bem
