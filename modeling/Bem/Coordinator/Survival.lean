import Bem.Coordinator.Refinement

/-!
# Messages that bring the handler down

The handler looks tasks up with `operator[]` and follows what it finds.  It gets through a message
exactly when the task that it follows is known, and never through a TASK message.
-/

namespace Bem

namespace State

variable {s s' : State} {nodeId : NodeId} {msg : Message} {now : TimePoint}

/-- Every entry of the maps is non-null and stored under its own id. -/
structure Intact (s : State) : Prop where
  nodes : ∀ n ∈ s.nodes, ∃ node, s.node? n = some node ∧ node.id = n
  groups : ∀ g ∈ s.groups, ∃ G, s.group? g = some G ∧ G.id = g
  tasks : ∀ t ∈ s.tasks, ∃ task, s.task? t = some task ∧ task.id = t

/-- The iteration for the message gets to its end and leaves the maps intact.  `terminateNode` has two
sections, and other threads may do anything between them. -/
structure Survives (s : State) (nodeId : NodeId) (msg : Message) (now : TimePoint) : Prop where
  completes : ∃ s', s.handleCoordinatorMessage nodeId msg now = .ok s' ∧ s'.Intact
  interrupted : msg = .invalid → ∀ s₁ ops s₂, s.eraseNode nodeId = .ok s₁ →
    coordinator.FreeRun s₁ ops s₂ → ∃ s', s₂.balanceTasks = .ok s' ∧ s'.Intact

/-- The message is no TASK, and if it makes the handler follow a task then to one that is known. -/
def followsKnown (s : State) (nodeId : NodeId) : Message → Prop
  | .task _ => False
  | .result msg => msg.taskId ∈ s.tasks
  | .taskNotify msg => msg.taskStatus = .tsRunning →
    (∃ node ∈ s.node? nodeId, node.isRegistered) → msg.taskId ∈ s.tasks
  | .hello _ => True
  | .invalid => True

instance (s : State) (nodeId : NodeId) (msg : Message) : Decidable (s.followsKnown nodeId msg) :=
  match msg with
  | .task _ => .isFalse id
  | .result msg => inferInstanceAs (Decidable (msg.taskId ∈ s.tasks))
  | .taskNotify msg => inferInstanceAs (Decidable (msg.taskStatus = .tsRunning →
    (∃ node ∈ s.node? nodeId, node.isRegistered = true) → msg.taskId ∈ s.tasks))
  | .hello _ | .invalid => .isTrue trivial

theorem WellFormed.intact (hs : s.WellFormed) : s.Intact where
  nodes n hn := by
    rcases hs.nodes n hn with ⟨node, hnode⟩
    exact ⟨node, hnode, hs.nodeId n node hnode⟩
  groups g hg := by
    rcases hs.groups g hg with ⟨G, hG⟩
    exact ⟨G, hG, hs.groupId g G hG⟩
  tasks t ht := by
    rcases hs.tasks t ht with ⟨r, hr⟩
    exact ⟨_, task?_eq_some.mpr ⟨r, hr, rfl⟩, (hs.sound.index t r hr).2⟩

theorem balanceTasks_ok (hs : s.WellFormed) : ∃ s', s.balanceTasks = .ok s' ∧ s'.WellFormed := by
  rcases balanceTasks_rule (I := fun _ => True) hs.nodes hs.tasks (fun _ _ _ _ _ => trivial) trivial with
    ⟨s₁, hok, -⟩
  exact ⟨_, hok, (follows_balanceTasks hs hok).wellFormed⟩

theorem eraseNode_ok (nodeId : NodeId) (hs : s.WellFormed) : ∃ s', s.eraseNode nodeId = .ok s' ∧ s'.WellFormed := by
  have hok : ∃ s', s.eraseNode nodeId = .ok s' := by
    unfold eraseNode nodeExists
    split
    · exact ⟨s, rfl⟩
    next hmem =>
      rcases hs.nodes nodeId (by simpa using hmem) with ⟨node, hnode⟩
      rw [KeyedMap.index_of_at? hnode]
      exact ⟨_, rfl⟩
  rcases hok with ⟨s', hok⟩
  exact ⟨s', hok, (follows_eraseNode hs hok).wellFormed⟩

theorem terminateNode_ok (nodeId : NodeId) (hs : s.WellFormed) :
    ∃ s', s.terminateNode nodeId = .ok s' ∧ s'.WellFormed := by
  unfold terminateNode
  split
  · exact ⟨s, rfl, hs⟩
  · rcases eraseNode_ok nodeId hs with ⟨s₁, herase, hs₁⟩
    rcases balanceTasks_ok hs₁ with ⟨s', hbalance, hs'⟩
    exact ⟨s', Except.bind_eq_ok.mpr ⟨s₁, herase, hbalance⟩, hs'⟩

theorem handleHelloMessage_ok (nodeId : NodeId) (hs : s.WellFormed) (msg : HelloMessage) :
    ∃ s', s.handleHelloMessage nodeId msg = .ok s' ∧ s'.WellFormed := by
  have hok : ∃ s', s.handleHelloMessage nodeId msg = .ok s' := by
    unfold handleHelloMessage nodeExists
    split
    next hmem =>
      rcases hs.nodes nodeId (by simpa using hmem) with ⟨node, hnode⟩
      rw [KeyedMap.index_of_at? hnode]
      exact ⟨_, rfl⟩
    next => exact ⟨s, rfl⟩
  rcases hok with ⟨s', hok⟩
  exact ⟨s', hok, (follows_handleHelloMessage hs hok).wellFormed⟩

/-- A result is handled exactly when its task is known. -/
theorem handleResultMessage_ok_iff (hs : s.WellFormed) (msg : ResultMessage) :
    (∃ s', s.handleResultMessage msg = .ok s') ↔ msg.taskId ∈ s.tasks := by
  constructor
  · intro h
    rcases h with ⟨s', hok⟩
    rcases handleResultMessage_cases hok with ⟨r, hr, -⟩
    exact KeyedMap.mem_of_at? hr
  · intro hmem
    rcases hs.tasks _ hmem with ⟨r, hr⟩
    unfold handleResultMessage
    rw [KeyedMap.index_of_at? hr]
    dsimp only
    split
    · -- every task has a known group
      have hgroup : s.groups.at? (s.taskHeap.get r).groupId ≠ none :=
        hs.sound.group r (hs.sound.index _ r hr).1
      rcases Option.ne_none_iff_exists'.mp hgroup with ⟨G, hG⟩
      rw [KeyedMap.index_of_at? hG]
      dsimp only
      split
      · exact ⟨s, rfl⟩
      · exact ⟨_, rfl⟩
    · exact ⟨s, rfl⟩

theorem handleNotifyTaskMessage_ok_iff (nodeId : NodeId) (now : TimePoint) (hs : s.WellFormed)
    (msg : TaskNotifyMessage) :
    (∃ s', s.handleNotifyTaskMessage nodeId msg now = .ok s') ↔
      s.followsKnown nodeId (.taskNotify msg) := by
  unfold handleNotifyTaskMessage nodeExists followsKnown
  cases hnode : s.nodes.at? nodeId with
  | none =>
    have hmem := hs.nodes.notMem_of_at? hnode
    rw [if_neg (by simpa using hmem)]
    refine iff_of_true ⟨s, rfl⟩ fun _ h => ?_
    rcases h with ⟨node, hsome, -⟩
    cases hnode.symm.trans hsome
  | some node =>
    have hmem := KeyedMap.mem_of_at? hnode
    rw [if_pos (by simpa using hmem), KeyedMap.index_of_at? hnode]
    dsimp only
    have hregistered : (∃ node ∈ s.node? nodeId, node.isRegistered) ↔ node.isRegistered := by
      rw [show s.node? nodeId = some node from hnode]
      simp
    rw [hregistered]
    by_cases hreg : node.isRegistered
    · rw [if_pos hreg]
      by_cases hrunning : msg.taskStatus = .tsRunning
      · rw [if_pos hrunning]
        cases hr : s.tasks.at? msg.taskId with
        | none =>
          -- `state.tasks[id]` makes a null pointer, and it is dereferenced
          rw [KeyedMap.index_of_at?_none hr]
          refine iff_of_false nofun fun h => ?_
          exact hs.tasks.notMem_of_at? hr (h hrunning hreg)
        | some r =>
          rw [KeyedMap.index_of_at? hr]
          exact iff_of_true ⟨_, rfl⟩ fun _ _ => KeyedMap.mem_of_at? hr
      · rw [if_neg hrunning]
        exact iff_of_true ⟨_, rfl⟩ fun h => absurd h hrunning
    · rw [if_neg hreg]
      exact iff_of_true ⟨s, rfl⟩ fun _ h => absurd h hreg

theorem survives_of_ok (hne : msg ≠ .invalid)
    (hok : s.handleCoordinatorMessage nodeId msg now = .ok s') (hs' : s'.WellFormed) :
    s.Survives nodeId msg now :=
  ⟨⟨s', hok, hs'.intact⟩, fun heq => absurd heq hne⟩

theorem survives_iff (hs : s.WellFormed) :
    s.Survives nodeId msg now ↔ s.followsKnown nodeId msg := by
  cases msg with
  | task m =>
    refine iff_of_false (fun h => ?_) id
    -- `Handler not implemented!`
    rcases h.completes with ⟨s', hok, -⟩
    cases hok
  | result m =>
    change _ ↔ m.taskId ∈ s.tasks
    rw [← handleResultMessage_ok_iff hs m]
    constructor
    · intro h
      rcases h.completes with ⟨s', hok, -⟩
      exact ⟨s', hok⟩
    · intro h
      rcases h with ⟨s', hok⟩
      exact survives_of_ok nofun hok (follows_handleResultMessage hs hok).wellFormed
  | hello m =>
    rcases handleHelloMessage_ok nodeId hs m with ⟨s', hok, hs'⟩
    exact iff_of_true (survives_of_ok nofun hok hs') trivial
  | taskNotify m =>
    rw [← handleNotifyTaskMessage_ok_iff nodeId now hs m]
    constructor
    · intro h
      rcases h.completes with ⟨s', hok, -⟩
      exact ⟨s', hok⟩
    · intro h
      rcases h with ⟨s', hok⟩
      exact survives_of_ok nofun hok (follows_handleNotifyTaskMessage hs hok).wellFormed
  | invalid =>
    refine iff_of_true ⟨?_, fun _ s₁ ops s₂ herase hrun => ?_⟩ trivial
    · rcases terminateNode_ok nodeId hs with ⟨s', hok, hs'⟩
      exact ⟨s', hok, hs'.intact⟩
    · have hs₁ := (follows_eraseNode hs herase).wellFormed
      rcases balanceTasks_ok (wellFormed_run hrun hs₁) with ⟨s', hok, hs'⟩
      exact ⟨s', hok, hs'.intact⟩

end State

/-- In every reachable state the handler gets through a message exactly when the message is no TASK, and
the task it makes the handler follow is known. -/
theorem survives_reachable_iff {config : CoordinatorConfig} {ops : List Op} {s : State}
    (hrun : coordinator.FreeRun (initial config) ops s) (nodeId : NodeId) (msg : Message)
    (now : TimePoint) : s.Survives nodeId msg now ↔ s.followsKnown nodeId msg :=
  State.survives_iff (wellFormed_run hrun (wellFormed_initial config))

/-- A result for the only task, from a node that was never there. -/
theorem survives_reachable_known :
    (after soloConfig (joining 1 5 ++ tasking 1)).Survives 9 (.result { taskId := 1 }) 0 := by
  have hrun := run_after (show (coordinator.exec (fun _ _ => True) (initial soloConfig)
    (joining 1 5 ++ tasking 1)).isSome by decide +kernel)
  exact (survives_reachable_iff hrun 9 (.result { taskId := 1 }) 0).mpr (by decide +kernel)

/-- A result for a task that does not exist. -/
theorem killed_by_unknown_task : ¬ ∀ (config : CoordinatorConfig) (ops : List Op) (s : State)
    (nodeId : NodeId) (msg : Message) (now : TimePoint),
    coordinator.FreeRun (initial config) ops s → s.Survives nodeId msg now := by
  intro h
  have hsurvives := h soloConfig [] (initial soloConfig) 1 (.result { taskId := 7 }) 0 (.nil _)
  rcases hsurvives.completes with ⟨s', hok, -⟩
  have hfault : (initial soloConfig).handleCoordinatorMessage 1 (.result { taskId := 7 }) 0 =
      .error .nullPointer := rfl
  cases hok.symm.trans hfault

end Bem
