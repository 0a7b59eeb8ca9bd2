import Bem.Coordinator.State

/-!
# The maintenance loop
-/

namespace Bem

namespace Node

def ping : Message := .taskNotify { taskId := taskIdNone, taskStatus := .tsQuestion }

/-- The loop that gives the running tasks of a silent node back, and collects their ids. -/
def markForDelete (heap : Heap Task) (tasks : List Ref) : Heap Task × List TaskId :=
  tasks.foldl
    (fun acc r =>
      if (acc.1.get r).status = .tsRunning then
        (setStatus acc.1 r .tsNone, acc.2 ++ [(acc.1.get r).id])
      else acc)
    (heap, [])

end Node

namespace State

/-- One node of the loop of `doMaintenance`. -/
def maintainNode (clock : NodeId → TimePoint) (s : State) (e : NodeId × Node) : State :=
  let nodeId := e.1
  let node := e.2
  if ¬ node.awaitingResponse then
    let node := (node.markRequest (clock nodeId)).send Node.ping
    if node.flags.connBroken then
      { s with
        nodes := s.nodes.store nodeId { node with flags := { node.flags with connBroken := false } }
        suspectedBalancing := true }
    else { s with nodes := s.nodes.store nodeId node }
  else if node.requestOlderThan s.config.nodeBrokenSeconds (clock nodeId) &&
      ¬ node.flags.connBroken then
    let node := { node with flags := { node.flags with connBroken := true } }
    let (taskHeap, markForDelete) := Node.markForDelete s.taskHeap node.tasks
    let node := markForDelete.foldl (fun node taskId => node.unassignTask taskHeap taskId) node
    { s with
      nodes := s.nodes.store nodeId node
      taskHeap
      suspectedBalancing := s.suspectedBalancing || ¬ markForDelete.isEmpty }
  else s

/-- The section of `doMaintenance`, with the readings that the clock gives for the nodes. -/
def maintain (s : State) (clock : NodeId → TimePoint) : Except Fault State :=
  match s.nodes.pointees? with
  | none => .error .nullPointer
  | some nodes => .ok (nodes.foldl (maintainNode clock) s)

/-- One iteration of the loop of `doMaintenance`, with nothing in between. -/
def doMaintenance (s : State) (clock : NodeId → TimePoint) : Except Fault State := do
  let s ← s.maintain clock
  if s.suspectedBalancing then s.balanceTasks else return s

/-! ## What a tick does -/

variable {s s' : State} {clock : NodeId → TimePoint}

/-- The node has let a ping go unanswered for too long, and is not yet taken for broken. -/
def isSilent (s : State) (clock : NodeId → TimePoint) (e : NodeId × Node) : Prop :=
  e.2.awaitingResponse ∧ e.2.requestOlderThan s.config.nodeBrokenSeconds (clock e.1) ∧
    ¬ e.2.flags.connBroken

instance (s : State) (clock : NodeId → TimePoint) (e : NodeId × Node) :
    Decidable (s.isSilent clock e) := inferInstanceAs (Decidable (_ ∧ _ ∧ _))

theorem maintainNode_cases (s : State) (clock : NodeId → TimePoint) (e : NodeId × Node) :
    (¬ e.2.awaitingResponse ∧ ∃ b, maintainNode clock s e = { s with
      nodes := s.nodes.store e.1
        { (e.2.markRequest (clock e.1)).send Node.ping with
          flags := { e.2.flags with connBroken := false } }
      suspectedBalancing := b }) ∨
    (s.isSilent clock e ∧ ∃ node marked b,
      node = { e.2 with flags := { e.2.flags with connBroken := true } } ∧
      marked = Node.markForDelete s.taskHeap node.tasks ∧ maintainNode clock s e = { s with
        nodes := s.nodes.store e.1
          (marked.2.foldl (fun node taskId => node.unassignTask marked.1 taskId) node)
        taskHeap := marked.1
        suspectedBalancing := b }) ∨
    (e.2.awaitingResponse ∧ ¬ s.isSilent clock e ∧ maintainNode clock s e = s) := by
  unfold maintainNode isSilent
  by_cases hawait : e.2.awaitingResponse
  · dsimp only
    rw [if_neg (not_not.mpr hawait)]
    -- a node that owes an answer is given up once, and left alone before and after that
    by_cases hold : e.2.requestOlderThan s.config.nodeBrokenSeconds (clock e.1)
    · by_cases hbroken : e.2.flags.connBroken
      · refine Or.inr (Or.inr ⟨hawait, fun h => h.2.2 hbroken, ?_⟩)
        rw [if_neg (by simp [hbroken])]
      · have hsilent : (e.2.requestOlderThan s.config.nodeBrokenSeconds (clock e.1) &&
            decide (¬ e.2.flags.connBroken)) = true := by simp [hold, hbroken]
        exact Or.inr (Or.inl ⟨⟨hawait, hold, hbroken⟩, _, _, _, rfl, rfl, if_pos hsilent⟩)
    · refine Or.inr (Or.inr ⟨hawait, fun h => hold h.2.1, ?_⟩)
      rw [if_neg (by simp [hold])]
  -- a node that has answered is asked again, and is no longer broken
  · refine Or.inl ⟨hawait, ?_⟩
    dsimp only
    rw [if_pos hawait]
    by_cases hbroken : e.2.flags.connBroken
    · rw [if_pos (show ((e.2.markRequest (clock e.1)).send Node.ping).flags.connBroken = true
        from hbroken)]
      exact ⟨_, rfl⟩
    · rw [if_neg (show ¬ ((e.2.markRequest (clock e.1)).send Node.ping).flags.connBroken = true
        from hbroken)]
      have hflags : { e.2.flags with connBroken := false } = e.2.flags := by
        rw [← (Bool.eq_false_iff.mpr hbroken : e.2.flags.connBroken = false)]
      rw [hflags]
      exact ⟨s.suspectedBalancing, rfl⟩

theorem maintain_eq_ok (h : s.maintain clock = .ok s') :
    s' = s.nodes.pointees.foldl (maintainNode clock) s := by
  unfold maintain at h
  split at h
  next => cases h
  next nodes hnodes =>
    rw [KeyedMap.pointees?_eq_some hnodes] at h
    exact (Except.ok.inj h).symm

/-- What the tick keeps at every node it keeps. -/
theorem maintain_keeps {I : State → Prop} (hbody : ∀ t e, I t → I (maintainNode clock t e))
    (h : s.maintain clock = .ok s') (hs : I s) : I s' := by
  rw [maintain_eq_ok h]
  clear h
  induction s.nodes.pointees generalizing s with
  | nil => exact hs
  | cons e l ih => exact ih (hbody s e hs)

end State

end Bem
