import Bem.Coordinator.State

/-!
# The message handler
-/

namespace Bem

namespace State

/-- What the handler makes of a group when it accepts a result. -/
def acceptResult (group : TaskGroup) (result : Result) : TaskGroup :=
  let group := { group with
    remainingTasks := group.remainingTasks - 1
    aggregateResult := group.aggregateResult.merge result }
  if group.remainingTasks = 0 then { group with status := .tsDone } else group

section AcceptResult

variable (group : TaskGroup) (result : Result)

@[simp] theorem id_acceptResult : (acceptResult group result).id = group.id := by
  unfold acceptResult
  dsimp only
  split
  · rfl
  · rfl

@[simp] theorem remainingTasks_acceptResult :
    (acceptResult group result).remainingTasks = group.remainingTasks - 1 := by
  unfold acceptResult
  dsimp only
  split
  · rfl
  · rfl

@[simp] theorem aggregateResult_acceptResult :
    (acceptResult group result).aggregateResult = group.aggregateResult.merge result := by
  unfold acceptResult
  dsimp only
  split
  · rfl
  · rfl

theorem status_acceptResult : (acceptResult group result).status =
    if group.remainingTasks - 1 = 0 then .tsDone else group.status := by
  unfold acceptResult
  dsimp only
  split
  · rfl
  · rfl

/-- Only a running group comes out running. -/
theorem running_of_acceptResult (h : (acceptResult group result).status = .tsRunning) :
    group.status = .tsRunning := by
  rw [status_acceptResult] at h
  split at h
  next => cases h
  next => exact h

end AcceptResult

def handleResultMessage (s : State) (msg : ResultMessage) : Except Fault State :=
  match s.tasks.index msg.taskId with
  | (_, none) => .error .nullPointer
  | (_, some task) =>
    if (s.taskHeap.get task).status = .tsRunning then
      match s.groups.index (s.taskHeap.get task).groupId with
      | (_, none) => .error .nullPointer
      | (groups, some group) =>
        if group.status = .tsDone then .ok s
        else
          .ok { s with
            groups := groups.store (s.taskHeap.get task).groupId (acceptResult group msg.result)
            taskHeap := setStatus s.taskHeap task .tsDone }
    else .ok s

/-- The reply to a HELLO. -/
def helloReply (config : CoordinatorConfig) (msg : HelloMessage) : Message :=
  .hello {
    protoVer := config.protocolVersion
    flag := if msg.protoVer ≠ config.protocolVersion then HelloMessage.flagReject
      else HelloMessage.flagAccept
    gamelist := {} }

def handleHelloMessage (s : State) (nodeId : NodeId) (msg : HelloMessage) : Except Fault State :=
  if s.nodeExists nodeId then
    match s.nodes.index nodeId with
    | (_, none) => .error .nullPointer
    | (nodes, some node) =>
      let node := { node.markRegistered with gamelist := msg.gamelist }
      .ok { s with nodes := nodes.store nodeId (node.send (helloReply s.config msg)) }
  else .ok s

def handleNotifyTaskMessage (s : State) (nodeId : NodeId) (msg : TaskNotifyMessage)
    (now : TimePoint) : Except Fault State :=
  if s.nodeExists nodeId then
    match s.nodes.index nodeId with
    | (_, none) => .error .nullPointer
    | (nodes, some node) =>
      if node.isRegistered then
        let node := node.markResponse now
        if msg.taskStatus = .tsRunning then
          match s.tasks.index msg.taskId with
          | (_, none) => .error .nullPointer
          | (_, some task) =>
            let node := { node with activeTaskGroup := (s.taskHeap.get task).groupId }
            .ok { s with nodes := nodes.store nodeId node }
        else .ok { s with nodes := nodes.store nodeId { node with activeTaskGroup := taskIdNone } }
      else .ok s
  else .ok s

/-- One iteration of the loop of `handleCoordinatorMessages`. -/
def handleCoordinatorMessage (s : State) (nodeId : NodeId) (msg : Message) (now : TimePoint) :
    Except Fault State :=
  match msg with
  | .result msg => s.handleResultMessage msg
  | .hello msg => s.handleHelloMessage nodeId msg
  | .taskNotify msg => s.handleNotifyTaskMessage nodeId msg now
  | .invalid => s.terminateNode nodeId
  | .task _ => .error .assertFailed

/-- The result is merged into the group: its task is running, and the group is not done. -/
def accepts (s : State) (g : TaskId) (msg : ResultMessage) : Prop :=
  ∃ task ∈ s.task? msg.taskId, task.groupId = g ∧ task.status = .tsRunning ∧
    ∃ group ∈ s.group? g, group.status ≠ .tsDone

instance (s : State) (g : TaskId) (msg : ResultMessage) : Decidable (s.accepts g msg) :=
  inferInstanceAs (Decidable (∃ task ∈ _, _))

/-! ## What a message has done when the handler does not fault -/

variable {s s' : State} {nodeId : NodeId}

theorem handleResultMessage_cases {msg : ResultMessage} (h : s.handleResultMessage msg = .ok s') :
    ∃ r, s.tasks.at? msg.taskId = some r ∧
      (((s.taskHeap.get r).status ≠ .tsRunning ∧ s' = s) ∨
        ∃ G, s.groups.at? (s.taskHeap.get r).groupId = some G ∧ (s.taskHeap.get r).status = .tsRunning ∧
          ((G.status = .tsDone ∧ s' = s) ∨ (G.status ≠ .tsDone ∧ s' = { s with
            groups := s.groups.store (s.taskHeap.get r).groupId (acceptResult G msg.result)
            taskHeap := setStatus s.taskHeap r .tsDone }))) := by
  unfold handleResultMessage at h
  cases hr : s.tasks.at? msg.taskId with
  -- an unknown task, or a null pointer in the table, is a fault
  | none =>
    rw [KeyedMap.index_of_at?_none hr] at h
    cases h
  | some r =>
    rw [KeyedMap.index_of_at? hr] at h
    dsimp only at h
    refine ⟨r, rfl, ?_⟩
    by_cases hrunning : (s.taskHeap.get r).status = .tsRunning
    · right
      rw [if_pos hrunning] at h
      cases hG : s.groups.at? (s.taskHeap.get r).groupId with
      | none =>
        rw [KeyedMap.index_of_at?_none hG] at h
        cases h
      | some G =>
        rw [KeyedMap.index_of_at? hG] at h
        dsimp only at h
        refine ⟨G, rfl, hrunning, ?_⟩
        by_cases hdone : G.status = .tsDone
        · rw [if_pos hdone] at h
          exact Or.inl ⟨hdone, (Except.ok.inj h).symm⟩
        · rw [if_neg hdone] at h
          exact Or.inr ⟨hdone, (Except.ok.inj h).symm⟩
    · rw [if_neg hrunning] at h
      exact Or.inl ⟨hrunning, (Except.ok.inj h).symm⟩

theorem handleHelloMessage_cases {msg : HelloMessage}
    (h : s.handleHelloMessage nodeId msg = .ok s') :
    (nodeId ∉ s.nodes ∧ s' = s) ∨ ∃ node, s.nodes.at? nodeId = some node ∧ s' = { s with
      nodes := s.nodes.store nodeId
        ({ node.markRegistered with gamelist := msg.gamelist }.send (helloReply s.config msg)) } := by
  unfold handleHelloMessage nodeExists at h
  split at h
  next =>
    cases hnode : s.nodes.at? nodeId with
    | none =>
      rw [KeyedMap.index_of_at?_none hnode] at h
      cases h
    | some node =>
      rw [KeyedMap.index_of_at? hnode] at h
      exact Or.inr ⟨node, rfl, (Except.ok.inj h).symm⟩
  next hnot => exact Or.inl ⟨by simpa using hnot, (Except.ok.inj h).symm⟩

theorem handleNotifyTaskMessage_cases {msg : TaskNotifyMessage} {now : TimePoint}
    (h : s.handleNotifyTaskMessage nodeId msg now = .ok s') :
    s' = s ∨ ∃ node g, s.nodes.at? nodeId = some node ∧ s' = { s with
      nodes := s.nodes.store nodeId { node.markResponse now with activeTaskGroup := g } } := by
  unfold handleNotifyTaskMessage nodeExists at h
  split at h
  next =>
    cases hnode : s.nodes.at? nodeId with
    | none =>
      rw [KeyedMap.index_of_at?_none hnode] at h
      cases h
    | some node =>
      rw [KeyedMap.index_of_at? hnode] at h
      change (if node.isRegistered then _ else _) = _ at h
      split at h
      next =>
        split at h
        next =>
          split at h
          next => cases h
          next => exact Or.inr ⟨node, _, rfl, (Except.ok.inj h).symm⟩
        next => exact Or.inr ⟨node, _, rfl, (Except.ok.inj h).symm⟩
      next => exact Or.inl (Except.ok.inj h).symm
  next => exact Or.inl (Except.ok.inj h).symm

end State

end Bem
