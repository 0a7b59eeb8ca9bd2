import Bem.Node.Execute

/-!
# The state of the node program

Two threads work on it: the instruction thread takes the messages of the coordinator, the executor
plays the games.  Each is at some place of its loop, with the local variables that are live there.  A
step reads or writes at most one of the shared variables, or one queue under its mutex.
-/

namespace Bem

namespace NodeProgram

/-- The local variables of `execute_task` and of the loop around it.  `cutShort` is not one of the
source: it tells that a check has ended the game or the loop of games early. -/
structure Play where
  task : Task
  gameCommand : String
  i : UInt32 := 0
  result : Result := {}
  cutShort : Bool := false

/-- A place of `execute_tasks_in_loop`, `execute_task` or `launch_subprocess`. -/
inductive Executor
  | looping
  | waiting
  | storing (task : Task)
  | preparing (task : Task)
  | playing (p : Play)
  | checking (p : Play)
  | launching (p : Play)
  | reading (p : Play) (output : List Char) (eof : Bool)
  | readingId (p : Play) (output : List Char)
  | fetching (p : Play) (output : List Char)
  | closing (p : Play) (output : List Char)
  | played (p : Play)
  | deciding (p : Play)
  | sending (p : Play)
  | clearing
  | terminating
  | finished

/-- A place of `wait_for_instructions_in_loop`. -/
inductive Instructions
  | looping
  | receiving
  | handling (msg : Message)
  | answering (question : TaskNotifyMessage) (taskId : TaskId)
  | replying (question msg : TaskNotifyMessage)
  | cancelling (taskId : TaskId)
  | terminating
  | finished

/-- `written` keeps what the writer thread has taken off `sendMessageQueue`.  `handled` are the
messages the instruction thread is done with, and `started` the tasks the executor has taken. -/
structure State where
  config : NodeConfig
  recvMessageQueue : List Message := []
  sendMessageQueue : List Message := []
  taskQueue : List Task := []
  currentTaskId : TaskId := taskIdNone
  shouldQuit : Bool := false
  executor : Executor := .looping
  instructions : Instructions := .looping
  written : List Message := []
  handled : List Message := []
  started : List Task := []

namespace State

/-- Everything that was ever sent. -/
def history (s : State) : List Message := s.written ++ s.sendMessageQueue

def sendMessage (msg : Message) (s : State) : State :=
  { s with sendMessageQueue := s.sendMessageQueue ++ [msg] }

@[simp] theorem history_sendMessage (s : State) (msg : Message) :
    (s.sendMessage msg).history = s.history ++ [msg] := (List.append_assoc _ _ _).symm

end State

end NodeProgram

end Bem
