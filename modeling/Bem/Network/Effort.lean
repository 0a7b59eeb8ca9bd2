import Bem.Lib.Ranking
import Bem.Network.Completion
import Bem.Node.Effort

/-!
# Coming to rest

Nothing goes on by itself for ever.  Every message that is under way, every game that is left and every task
that waits for a node stands for a number of steps, and no step makes more work than it does.
-/

namespace Bem

namespace Message

end Message

/-- What it takes to send a task to a node and to carry it out, if it is not with a node yet. -/
def Task.waitingEffort (task : Task) : Nat := if task.status = .tsNone then task.effort + 6 else 0

/-- The messages that the node is still to be sent. -/
def Node.effort (node : Node) : Nat := (node.messageQueue.map fun m => m.effort + 2).sum

namespace State

variable {s s' : State} {n : NodeId} {now : TimePoint}

/-- What is left to be sent to a node, if it is there. -/
def effortFor (s : State) (n : NodeId) : Nat := ((s.node? n).map Node.effort).getD 0

/-- The tasks that balancing can still give to a node. -/
def waitingEffort (s : State) : Nat :=
  (s.tasks.pointees.map fun e => (s.taskHeap.get e.2).waitingEffort).sum

section

variable {r : Ref} {status : TaskStatus}

end

end State

/-- A program that has ended takes nothing any more. -/
def Link.effort (l : Link) : Nat :=
  (if l.dead then 0 else l.session.effort) + (l.down.inFlight.map fun m => m.effort + 1).sum +
    (l.up.inFlight.map fun m => m.answer + 2).sum

namespace Network

variable {N N' : Network} {n : NodeId} {op : NetworkOp}

def effortOf (N : Network) (n : NodeId) : Nat :=
  ((N.link? n).map Link.effort).getD 0 + N.coordinator.effortFor n

/-- The steps that are left, if no game prints anything. -/
def effort (N : Network) : Nat :=
  ∑ n ∈ (N.connections.map Connection.nodeId).toFinset, N.effortOf n +
    (N.inbox.inFlight.map fun e => e.2.answer + 1).sum + N.coordinator.waitingEffort

end Network

end Bem
