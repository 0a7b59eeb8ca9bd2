import Bem.Coordinator.State

/-!
# Accepting and writing to nodes
-/

namespace Bem

namespace Node

/-- The first message in the queue goes out. -/
def takeMessage (node : Node) : Node :=
  match node.messageQueue with
  | [] => node
  | message :: messageQueue => { node with messageQueue, written := node.written ++ [message] }

variable (node : Node)

@[simp] theorem history_takeMessage : node.takeMessage.history = node.history := by
  unfold takeMessage
  split
  · rfl
  next message messageQueue hqueue =>
    unfold history
    rw [hqueue, List.append_assoc]
    rfl

@[simp] theorem tasks_takeMessage : node.takeMessage.tasks = node.tasks := by
  unfold takeMessage
  split
  · rfl
  · rfl

@[simp] theorem profile_takeMessage : node.takeMessage.profile = node.profile := by
  unfold takeMessage
  split
  · rfl
  · rfl

end Node

namespace State

/-- `acceptConnections` from `accept` to the end of the section that sets the flag. -/
def acceptConnection (s : State) (nodeSocket : Int) : State :=
  -- an id that is still taken: the connection is dropped
  if s.nodeExists s.nextNodeId then s
  else { s with suspectedBalancing := true, accepting := some nodeSocket }

/-- The section that enters the new node, and starts its threads with `state.nodes[node_id]`. -/
def insertNode (s : State) : State :=
  match s.accepting with
  | none => s
  | some nodeSocket =>
    let newNode : Node := { socket := nodeSocket, id := s.nextNodeId }
    { s with
      accepting := none
      nextNodeId := s.nextNodeId + 1
      -- `emplace` keeps a node that has the id
      nodes := s.nodes.emplace s.nextNodeId (some newNode) }

/-- `writeNode` takes a message off the queue. -/
def takeMessage (s : State) (nodeId : NodeId) : State :=
  { s with nodes := s.nodes.modify nodeId Node.takeMessage }

variable (s : State)

@[simp] theorem nodes_acceptConnection (nodeSocket : Int) :
    (s.acceptConnection nodeSocket).nodes = s.nodes := by
  unfold acceptConnection
  split
  · rfl
  · rfl

/-- A node that is there stays, even where the new one has its id. -/
theorem node?_insertNode {n : NodeId} {node : Node} (hnode : s.node? n = some node) :
    s.insertNode.node? n = some node := by
  unfold insertNode
  split
  · exact hnode
  · exact KeyedMap.at?_emplace_of_at? hnode

end State

end Bem
