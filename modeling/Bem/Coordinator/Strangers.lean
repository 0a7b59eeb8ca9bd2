import Bem.Coordinator.Survival

/-!
# Messages of strangers

The handlers of HELLO and of TASK_NOTIFY look the sender up.  The one of RESULT only prints it, so a
node that is gone or has never said HELLO can finish the tasks of others.
-/

namespace Bem

namespace State

variable {s s' : State} {nodeId : NodeId} {msg : Message} {now : TimePoint}

/-- The node is not in the map, or it is not registered. -/
def IsStranger (s : State) (nodeId : NodeId) : Prop := ∀ node ∈ s.node? nodeId, ¬ node.isRegistered

instance (s : State) (nodeId : NodeId) : Decidable (s.IsStranger nodeId) :=
  inferInstanceAs (Decidable (∀ node ∈ s.node? nodeId, ¬ node.isRegistered = true))

/-- A RESULT for an existing task, a TASK_NOTIFY or a HELLO. -/
def namesKnown (s : State) : Message → Prop
  | .result msg => msg.taskId ∈ s.tasks
  | .taskNotify _ => True
  | .hello _ => True
  | .task _ => False
  | .invalid => False

/-- Every task and every group is as it was. -/
structure SameWork (s s' : State) : Prop where
  task : ∀ t, s'.task? t = s.task? t
  group : ∀ g, s'.group? g = s.group? g

/-- A RESULT that is merged: its task is running, in a group that is not done. -/
def isAcceptedResult (s : State) : Message → Prop
  | .result msg => ∃ task ∈ s.task? msg.taskId, s.accepts task.groupId msg
  | _ => False

theorem sameWork_handleHelloMessage {m : HelloMessage} (h : s.handleHelloMessage nodeId m = .ok s') :
    s.SameWork s' := by
  rcases handleHelloMessage_cases h with ⟨-, rfl⟩ | ⟨node, -, rfl⟩
  · exact ⟨fun _ => rfl, fun _ => rfl⟩
  · exact ⟨fun _ => rfl, fun _ => rfl⟩

theorem sameWork_handleNotifyTaskMessage {m : TaskNotifyMessage}
    (h : s.handleNotifyTaskMessage nodeId m now = .ok s') : s.SameWork s' := by
  rcases handleNotifyTaskMessage_cases h with rfl | ⟨node, g, -, rfl⟩
  · exact ⟨fun _ => rfl, fun _ => rfl⟩
  · exact ⟨fun _ => rfl, fun _ => rfl⟩

/-- A RESULT leaves the work alone exactly when it is not merged, whoever sends it. -/
theorem sameWork_handleResultMessage_iff {m : ResultMessage} (h : s.handleResultMessage m = .ok s') :
    s.SameWork s' ↔ ¬ s.isAcceptedResult (.result m) := by
  have hcases := handleResultMessage_cases h
  obtain ⟨r, hr, hcases⟩ := hcases
  have htask : s.task? m.taskId = some (s.taskHeap.get r) := task?_eq_some.mpr ⟨r, hr, rfl⟩
  have haccepted : s.isAcceptedResult (.result m) ↔
      (s.taskHeap.get r).status = .tsRunning ∧
        ∃ G ∈ s.group? (s.taskHeap.get r).groupId, G.status ≠ .tsDone := by
    show (∃ task ∈ s.task? m.taskId, s.accepts task.groupId m) ↔ _
    unfold accepts
    rw [htask]
    simp
  rw [haccepted]
  rcases hcases with ⟨hnot, rfl⟩ | ⟨G, hG, hrunning, ⟨hdone, rfl⟩ | ⟨hopen, rfl⟩⟩
  · exact iff_of_true ⟨fun _ => rfl, fun _ => rfl⟩ fun h => hnot h.1
  · refine iff_of_true ⟨fun _ => rfl, fun _ => rfl⟩ fun h => ?_
    obtain ⟨-, G', hG', hopen⟩ := h
    cases hG.symm.trans hG'
    exact hopen hdone
  · -- the task was running and is done now
    refine iff_of_false (fun hsame => ?_) (not_not.mpr ⟨hrunning, G, hG, hopen⟩)
    have hafter : (setStatus s.taskHeap r .tsDone).get r = s.taskHeap.get r := by
      have h := hsame.task m.taskId
      rw [htask, task?, hr] at h
      exact Option.some.inj h
    have hstatus := status_setStatus s.taskHeap r r .tsDone
    rw [hafter, hrunning, if_pos rfl] at hstatus
    cases hstatus

end State

/-- In every reachable state, a message of a stranger leaves all tasks and groups as they are exactly
when it is not a RESULT that is merged. -/
theorem stranger_changes_nothing_iff {config : CoordinatorConfig} {ops : List Op} {s : State}
    (hrun : coordinator.FreeRun (initial config) ops s) (nodeId : NodeId)
    (hstranger : s.IsStranger nodeId) (msg : Message) (hmsg : s.namesKnown msg) (now : TimePoint) :
    ∃ s', s.handleCoordinatorMessage nodeId msg now = .ok s' ∧
      (s.SameWork s' ↔ ¬ s.isAcceptedResult msg) := by
  have hs := wellFormed_run hrun (wellFormed_initial config)
  cases msg with
  | result m =>
    obtain ⟨s', hok⟩ := (State.handleResultMessage_ok_iff hs m).mpr hmsg
    exact ⟨s', hok, State.sameWork_handleResultMessage_iff hok⟩
  | taskNotify m =>
    -- the task of a stranger's notification is not looked up
    have hknown : s.followsKnown nodeId (.taskNotify m) := by
      intro _ hregistered
      obtain ⟨node, hnode, hreg⟩ := hregistered
      exact absurd hreg (hstranger node hnode)
    obtain ⟨s', hok⟩ := (State.handleNotifyTaskMessage_ok_iff nodeId now hs m).mpr hknown
    exact ⟨s', hok, iff_of_true (State.sameWork_handleNotifyTaskMessage hok) id⟩
  | hello m =>
    obtain ⟨s', hok, -⟩ := State.handleHelloMessage_ok nodeId hs m
    exact ⟨s', hok, iff_of_true (State.sameWork_handleHelloMessage hok) id⟩
  | task m => exact hmsg.elim
  | invalid => exact hmsg.elim

/-- A late notification of a node that has been terminated. -/
theorem stranger_changes_nothing_late :
    ∃ s', (after soloConfig (joining 1 5 ++ tasking 1 ++ [.erase 1])).handleCoordinatorMessage 1
        (.taskNotify { taskId := 1, taskStatus := .tsRunning }) 3 = .ok s' ∧
      (after soloConfig (joining 1 5 ++ tasking 1 ++ [.erase 1])).SameWork s' := by
  have hrun := run_after (show (coordinator.exec (fun _ _ => True) (initial soloConfig)
    (joining 1 5 ++ tasking 1 ++ [.erase 1])).isSome by decide +kernel)
  obtain ⟨s', hok, hsame⟩ := stranger_changes_nothing_iff hrun 1 (by decide +kernel)
    (.taskNotify { taskId := 1, taskStatus := .tsRunning }) trivial 3
  exact ⟨s', hok, hsame.mpr id⟩

/-- The first node has a task, and a second one has connected and not said HELLO. -/
def unannounced : List Op := joining 1 5 ++ tasking 1 ++ [.accept 6, .insert]

/-- A node that is not registered finishes the task of another. -/
theorem stranger_finishes_task : ¬ ∀ (config : CoordinatorConfig) (ops : List Op) (s s' : State)
    (nodeId : NodeId) (msg : Message) (now : TimePoint),
    coordinator.FreeRun (initial config) ops s → s.IsStranger nodeId → s.namesKnown msg →
      s.handleCoordinatorMessage nodeId msg now = .ok s' → s.SameWork s' := by
  intro h
  have hrun := run_after (show (coordinator.exec (fun _ _ => True) (initial soloConfig)
    unannounced).isSome by decide +kernel)
  have hknown : (1 : TaskId) ∈ (after soloConfig unannounced).tasks := by decide +kernel
  have haccepted : ∃ task ∈ (after soloConfig unannounced).task? 1,
      (after soloConfig unannounced).accepts task.groupId { taskId := 1 } := by
    decide +kernel
  have hs := wellFormed_run hrun (wellFormed_initial soloConfig)
  obtain ⟨s', hok⟩ := (State.handleResultMessage_ok_iff hs { taskId := 1 }).mpr hknown
  have hsame := h _ _ _ s' 2 (.result { taskId := 1 }) 0 hrun (by decide +kernel) hknown hok
  exact (State.sameWork_handleResultMessage_iff hok).mp hsame haccepted

end Bem
