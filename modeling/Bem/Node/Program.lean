import Bem.Lib.Machine
import Bem.Node.Protocol

/-!
# The executor, and the program as a machine

The choices of the environment are on the labels: the messages that arrive, the signal to quit, how a
game's process opens, prints and exits.
-/

namespace Bem

namespace NodeProgram

inductive Op
  | deliver (msg : Message)
  | write
  | quit
  | instruct
  | execute
  | popen (opened : Bool)
  | fgets (line : Option (List Char)) (eof : Bool)
  | pclose (exitStatus : UInt8)

namespace Executor

def isLaunching : Executor → Bool
  | launching _ => true
  | _ => false

def isFetching : Executor → Bool
  | fetching _ _ => true
  | _ => false

def isClosing : Executor → Bool
  | closing _ _ => true
  | _ => false

end Executor

namespace State

/-- A game is counted, and the loop goes on to the next one. -/
def finishGame (p : Play) (flags : GameOutcomeFlags) : Executor :=
  .playing { p with i := p.i + 1, result := countGame p.result flags }

/-- The step that the executor takes next, where it does not call `popen`, `fgets` or `pclose`. -/
def execute (s : State) : Except Fault State :=
  match s.executor with
  | .looping =>
    if s.shouldQuit then .ok { s with executor := .terminating }
    else .ok { s with executor := .waiting }
  | .waiting =>
    if s.shouldQuit then .ok { s with executor := .terminating }
    else
      match s.taskQueue with
      | [] => .ok s
      | task :: taskQueue =>
        .ok { s with taskQueue, started := s.started ++ [task], executor := .storing task }
  | .storing task => .ok { s with currentTaskId := task.id, executor := .preparing task }
  | .preparing task =>
    match gameCommand s.config task with
    | .error e => .error e
    | .ok gameCommand => .ok { s with executor := .playing { task, gameCommand } }
  | .playing p =>
    if p.i < p.task.games then
      if s.shouldQuit then .ok { s with executor := .played { p with cutShort := true } }
      else .ok { s with executor := .checking p }
    else .ok { s with executor := .played p }
  | .checking p =>
    if s.currentTaskId = taskIdNone then
      .ok { s with executor := .played { p with cutShort := true } }
    else .ok { s with executor := .launching p }
  | .reading p output eof =>
    if eof then .ok { s with executor := .closing p output }
    else if s.shouldQuit then .ok { s with executor := .closing { p with cutShort := true } output }
    else .ok { s with executor := .readingId p output }
  | .readingId p output =>
    if s.currentTaskId = taskIdNone then
      .ok { s with executor := .closing { p with cutShort := true } output }
    else .ok { s with executor := .fetching p output }
  | .played p =>
    if s.shouldQuit then .ok { s with executor := .terminating }
    else .ok { s with executor := .deciding p }
  | .deciding p =>
    -- `CANCELED. Ignoring result`
    if s.currentTaskId = taskIdNone then .ok { s with executor := .looping }
    else .ok { s with executor := .sending p }
  | .sending p =>
    .ok { s.sendMessage (.result { taskId := p.task.id, result := p.result }) with
      executor := .clearing }
  | .clearing => .ok { s with currentTaskId := taskIdNone, executor := .looping }
  | .terminating => .ok { s with shouldQuit := true, executor := .finished }
  | .launching _ | .fetching _ _ | .closing _ _ | .finished => .ok s

/-- `popen`, which may fail. -/
def popen (opened : Bool) (s : State) : State :=
  match s.executor with
  | .launching p =>
    if opened then { s with executor := .reading p [] false }
    else { s with executor := finishGame p GameOutcomeFlags.gofGameException }
  | _ => s

/-- `fgets`, and `result += buffer`, which stops at a null character. -/
def fgets (line : Option (List Char)) (eof : Bool) (s : State) : State :=
  match s.executor with
  | .fetching p output =>
    { s with
      executor := .reading p (output ++ (line.getD []).takeWhile (· ≠ Char.ofNat 0)) eof }
  | _ => s

def pclose (exitStatus : UInt8) (s : State) : State :=
  match s.executor with
  | .closing p output => { s with executor := finishGame p (gameOutcome exitStatus output) }
  | _ => s

/-- The writer thread takes a message off the queue.  What `Serialize` and `write` then make of it, where the
thread can end the program, is not a matter of this state. -/
def takeMessage (s : State) : State :=
  match s.sendMessageQueue with
  | [] => s
  | msg :: sendMessageQueue => { s with sendMessageQueue, written := s.written ++ [msg] }

/-- A thread that waits for a queue is not woken while the queue is empty. -/
def canInstruct (s : State) : Bool :=
  match s.instructions with
  | .receiving => s.shouldQuit || !s.recvMessageQueue.isEmpty
  | .finished => false
  | _ => true

def canExecute (s : State) : Bool :=
  match s.executor with
  | .waiting => s.shouldQuit || !s.taskQueue.isEmpty
  | .launching _ | .fetching _ _ | .closing _ _ | .finished => false
  | _ => true

def enabled (s : State) : Op → Bool
  | .deliver _ => true
  | .write => true
  | .quit => true
  | .instruct => s.canInstruct
  | .execute => s.canExecute
  | .popen _ => s.executor.isLaunching
  | .fgets _ _ => s.executor.isFetching
  | .pclose _ => s.executor.isClosing

def step (s : State) : Op → Except Fault State
  | .deliver msg => .ok { s with recvMessageQueue := s.recvMessageQueue ++ [msg] }
  | .write => .ok s.takeMessage
  | .quit => .ok { s with shouldQuit := true }
  | .instruct => s.instruct
  | .execute => s.execute
  | .popen opened => .ok (s.popen opened)
  | .fgets line eof => .ok (s.fgets line eof)
  | .pclose exitStatus => .ok (s.pclose exitStatus)

end State

/-- All that a step of the executor can do. -/
inductive Executed (s : State) : State → Prop
  | idle : Executed s s
  | wait (hplace : s.executor = .looping) : Executed s { s with executor := .waiting }
  | leave (hplace : s.executor = .looping ∨ s.executor = .waiting ∨ ∃ p, s.executor = .played p)
      (hquit : s.shouldQuit) : Executed s { s with executor := .terminating }
  | take {task : Task} {taskQueue : List Task} (hplace : s.executor = .waiting)
      (hrun : ¬ s.shouldQuit) (hqueue : s.taskQueue = task :: taskQueue) :
      Executed s { s with taskQueue, started := s.started ++ [task], executor := .storing task }
  | store {task : Task} (hplace : s.executor = .storing task) :
      Executed s { s with currentTaskId := task.id, executor := .preparing task }
  | prepare {task : Task} {command : String} (hplace : s.executor = .preparing task)
      (hcommand : gameCommand s.config task = .ok command) :
      Executed s { s with executor := .playing { task, gameCommand := command } }
  | check {p : Play} (hplace : s.executor = .playing p) (hgame : p.i < p.task.games)
      (hrun : ¬ s.shouldQuit) : Executed s { s with executor := .checking p }
  | interrupt {p : Play} (hplace : s.executor = .playing p) (hquit : s.shouldQuit) :
      Executed s { s with executor := .played { p with cutShort := true } }
  | complete {p : Play} (hplace : s.executor = .playing p) (hgames : ¬ p.i < p.task.games) :
      Executed s { s with executor := .played p }
  | launch {p : Play} (hplace : s.executor = .checking p) (hsome : s.currentTaskId ≠ taskIdNone) :
      Executed s { s with executor := .launching p }
  | cancel {p : Play} (hplace : s.executor = .checking p) (hnone : s.currentTaskId = taskIdNone) :
      Executed s { s with executor := .played { p with cutShort := true } }
  | close {p : Play} {output : List Char} {eof : Bool} (hplace : s.executor = .reading p output eof)
      (heof : eof = true) : Executed s { s with executor := .closing p output }
  | look {p : Play} {output : List Char} {eof : Bool} (hplace : s.executor = .reading p output eof)
      (hrun : ¬ s.shouldQuit) : Executed s { s with executor := .readingId p output }
  | interruptGame {p : Play} {output : List Char} {eof : Bool}
      (hplace : s.executor = .reading p output eof) (hquit : s.shouldQuit) :
      Executed s { s with executor := .closing { p with cutShort := true } output }
  | fetch {p : Play} {output : List Char} (hplace : s.executor = .readingId p output)
      (hsome : s.currentTaskId ≠ taskIdNone) :
      Executed s { s with executor := .fetching p output }
  | cancelGame {p : Play} {output : List Char} (hplace : s.executor = .readingId p output)
      (hnone : s.currentTaskId = taskIdNone) :
      Executed s { s with executor := .closing { p with cutShort := true } output }
  | compare {p : Play} (hplace : s.executor = .played p) (hrun : ¬ s.shouldQuit) :
      Executed s { s with executor := .deciding p }
  | send {p : Play} (hplace : s.executor = .deciding p) (hsome : s.currentTaskId ≠ taskIdNone) :
      Executed s { s with executor := .sending p }
  | ignore {p : Play} (hplace : s.executor = .deciding p) (hnone : s.currentTaskId = taskIdNone) :
      Executed s { s with executor := .looping }
  | report {p : Play} (hplace : s.executor = .sending p) :
      Executed s { s.sendMessage (.result { taskId := p.task.id, result := p.result }) with
        executor := .clearing }
  | clear (hplace : s.executor = .clearing) :
      Executed s { s with currentTaskId := taskIdNone, executor := .looping }
  | finish (hplace : s.executor = .terminating) :
      Executed s { s with shouldQuit := true, executor := .finished }

theorem executed {s s' : State} (h : s.execute = .ok s') : Executed s s' := by
  unfold State.execute at h
  -- one case for each place, in the order of `execute`
  split at h
  case h_1 hplace =>
    split at h <;> cases h
    next hquit => exact .leave (.inl hplace) hquit
    next => exact .wait hplace
  case h_2 hplace =>
    split at h
    next hquit =>
      cases h
      exact .leave (.inr (.inl hplace)) hquit
    next hrun =>
      split at h <;> cases h
      next => exact .idle
      next hqueue => exact .take hplace hrun hqueue
  case h_3 task hplace =>
    cases h
    exact .store hplace
  case h_4 task hplace =>
    split at h <;> cases h
    next hcommand => exact .prepare hplace hcommand
  case h_5 p hplace =>
    split at h
    next hgame =>
      split at h <;> cases h
      next hquit => exact .interrupt hplace hquit
      next hrun => exact .check hplace hgame hrun
    next hgames =>
      cases h
      exact .complete hplace hgames
  case h_6 p hplace =>
    split at h <;> cases h
    next hnone => exact .cancel hplace hnone
    next hsome => exact .launch hplace hsome
  case h_7 p output eof hplace =>
    split at h
    next heof =>
      cases h
      exact .close hplace heof
    next =>
      split at h <;> cases h
      next hquit => exact .interruptGame hplace hquit
      next hrun => exact .look hplace hrun
  case h_8 p output hplace =>
    split at h <;> cases h
    next hnone => exact .cancelGame hplace hnone
    next hsome => exact .fetch hplace hsome
  case h_9 p hplace =>
    split at h <;> cases h
    next hquit => exact .leave (.inr (.inr ⟨p, hplace⟩)) hquit
    next hrun => exact .compare hplace hrun
  case h_10 p hplace =>
    split at h <;> cases h
    next hnone => exact .ignore hplace hnone
    next hsome => exact .send hplace hsome
  case h_11 p hplace =>
    cases h
    exact .report hplace
  case h_12 hplace =>
    cases h
    exact .clear hplace
  case h_13 hplace =>
    cases h
    exact .finish hplace
  -- the places where the thread waits for the game, and its end
  all_goals
    cases h
    exact .idle

def program : Machine State Op Fault where
  enabled s op := s.enabled op
  step := State.step

/-- The state in which the threads are started. -/
def initial (config : NodeConfig) : State := { config }

instance (s : State) (op : Op) : Decidable (program.enabled s op) :=
  inferInstanceAs (Decidable (s.enabled op = true))

/-! ## Small runs -/

def soloNode : NodeConfig where
  gamesDir := ""
  gameLauncher := ""
  gamelist := soloGames

/-- A message arrives, and the instruction thread starts on it. -/
def receiving (msg : Message) : List Op := [.deliver msg, .instruct, .instruct]

def taskMessage (id games : UInt32) : Message :=
  .task { task := { id, gameId := 1, agent1 := 1, agent2 := 1, games } }

def cancelMessage (id : TaskId) : Message := .taskNotify { taskId := id, taskStatus := .tsCancelled }

def questionMessage : Message := .taskNotify { taskId := taskIdNone, taskStatus := .tsQuestion }

/-- The executor takes a task, up to its first game. -/
def starting : List Op := [.execute, .execute, .execute, .execute]

/-- A game that prints nothing and exits. -/
def playing : List Op :=
  [.execute, .execute, .popen true, .execute, .execute, .fgets none true, .execute, .pclose 0]

/-- After the last game the executor sends the result, and forgets the task. -/
def reporting : List Op := [.execute, .execute, .execute, .execute, .execute]

end NodeProgram

end Bem
