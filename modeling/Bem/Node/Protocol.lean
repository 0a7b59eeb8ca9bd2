import Bem.Node.State

/-!
# The instruction thread

The handshake at the start, and the loop that takes the messages of the coordinator one by one.
-/

namespace Bem

def HelloMessage.flagSync : UInt8 := 2

namespace NodeProgram

/-- What `register_to_coordinator` returns when these are the messages to be received; `none` while
it waits for the first. -/
def registerToCoordinator : List Message → Option Bool
  | [] => none
  | .hello msg :: _ =>
    if msg.flag = HelloMessage.flagReject then some false
    else if msg.flag = HelloMessage.flagAccept then some true
    else if msg.flag = HelloMessage.flagSync then some true
    else some false
  | _ :: _ => some false

namespace State

/-- The instruction thread is done with a message. -/
def finishHandling (msg : Message) (s : State) : State :=
  { s with instructions := .looping, handled := s.handled ++ [msg] }

/-- The step that the instruction thread takes next. -/
def instruct (s : State) : Except Fault State :=
  match s.instructions with
  | .looping =>
    if s.shouldQuit then .ok { s with instructions := .terminating }
    else .ok { s with instructions := .receiving }
  | .receiving =>
    -- `receive_message`; `nullptr` breaks the loop
    if s.shouldQuit then .ok { s with instructions := .terminating }
    else
      match s.recvMessageQueue with
      | [] => .ok s
      | msg :: recvMessageQueue =>
        .ok { s with recvMessageQueue, instructions := .handling msg }
  | .handling (.task msg) =>
    .ok (finishHandling (.task msg) { s with taskQueue := s.taskQueue ++ [msg.task] })
  | .handling (.taskNotify msg) =>
    match msg.taskStatus with
    | .tsQuestion => .ok { s with instructions := .answering msg s.currentTaskId }
    | .tsCancelled =>
      if msg.taskId = s.currentTaskId then .ok { s with instructions := .cancelling msg.taskId }
      else .ok (s.finishHandling (.taskNotify msg))
    | _ => .error .assertFailed
  | .handling _ => .error .assertFailed
  | .answering question taskId =>
    -- the second read need not give the same task
    if s.currentTaskId = taskIdNone then
      .ok { s with instructions := .replying question { taskId, taskStatus := .tsNone } }
    else .ok { s with instructions := .replying question { taskId, taskStatus := .tsRunning } }
  | .replying question msg =>
    .ok (finishHandling (.taskNotify question) (s.sendMessage (.taskNotify msg)))
  | .cancelling taskId =>
    -- whatever task is current by now
    .ok (finishHandling (.taskNotify { taskId, taskStatus := .tsCancelled })
      { s with currentTaskId := taskIdNone })
  | .terminating => .ok { s with shouldQuit := true, instructions := .finished }
  | .finished => .ok s

end State

/-- All that a step of the instruction thread can do. -/
inductive Instructed (s : State) : State → Prop
  | move (instructions : Instructions) (recvMessageQueue : List Message) :
    Instructed s { s with instructions, recvMessageQueue }
  | task (msg : TaskMessage) (hplace : s.instructions = .handling (.task msg)) :
    Instructed s (State.finishHandling (.task msg) { s with taskQueue := s.taskQueue ++ [msg.task] })
  | ignore (msg : TaskNotifyMessage) (hplace : s.instructions = .handling (.taskNotify msg)) :
    Instructed s (s.finishHandling (.taskNotify msg))
  | reply (question msg : TaskNotifyMessage) (hplace : s.instructions = .replying question msg) :
    Instructed s (State.finishHandling (.taskNotify question) (s.sendMessage (.taskNotify msg)))
  | cancel (taskId : TaskId) (hplace : s.instructions = .cancelling taskId) :
    Instructed s (State.finishHandling (.taskNotify { taskId, taskStatus := .tsCancelled })
      { s with currentTaskId := taskIdNone })
  | quit : Instructed s { s with shouldQuit := true, instructions := .finished }

theorem instructed {s s' : State} (h : s.instruct = .ok s') : Instructed s s' := by
  -- the cases are the places of the thread, in the order of `State.instruct`
  have hstay : Instructed s s := .move s.instructions s.recvMessageQueue
  unfold State.instruct at h
  split at h
  case h_1 | h_6 =>
    split at h <;> cases h
    · exact .move _ _
    · exact .move _ _
  case h_2 =>
    split at h
    · cases h
      exact .move _ _
    split at h <;> cases h
    · exact hstay
    · exact .move _ _
  case h_3 msg hplace =>
    cases h
    exact .task msg hplace
  case h_4 msg hplace =>
    split at h
    · cases h
      exact .move _ _
    · split at h <;> cases h
      · exact .move _ _
      · exact .ignore msg hplace
    · cases h
  case h_5 => cases h
  case h_7 question msg hplace =>
    cases h
    exact .reply question msg hplace
  case h_8 taskId hplace =>
    cases h
    exact .cancel taskId hplace
  case h_9 =>
    cases h
    exact .quit
  case h_10 =>
    cases h
    exact hstay

end NodeProgram

end Bem
