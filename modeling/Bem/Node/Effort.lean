import Bem.Node.Sessions

/-!
# The effort of a program

How many steps a program can still take with what it has: the messages that have come, the tasks that
wait and the games that are left.  Each step lowers it, but for a line that a game prints.
-/

namespace Bem

/-- What it takes the executor to carry out a task whose games print nothing. -/
def Task.effort (task : Task) : Nat := 9 * task.games.toNat + 14

namespace Message

/-- What it takes a program to be done with a message that has come. -/
def effort : Message → Nat
  | .task msg => msg.task.effort + 4
  | _ => 9

/-- What it takes to be done with the reply to a message. -/
def answer : Message → Nat
  | .hello _ => 11
  | _ => 0

theorem effort_pos (m : Message) : 9 ≤ m.effort := by
  cases m <;> simp [effort, Task.effort]

end Message

namespace NodeProgram

def Play.left (p : Play) : Nat := p.task.games.toNat - p.i.toNat

namespace Executor

def effort : Executor → Nat
  | looping => 3
  | waiting => 2
  | storing task => task.effort
  | preparing task => 9 * task.games.toNat + 13
  | playing p => 9 * p.left + 12
  | checking p => 9 * p.left + 11
  | launching p => 9 * p.left + 9
  | reading p _ eof => if eof then 9 * p.left + 5 else 9 * p.left + 8
  | readingId p _ => 9 * p.left + 7
  | fetching p _ => 9 * p.left + 6
  | closing p _ => 9 * p.left + 4
  | played _ => 10
  | deciding _ => 9
  | sending _ => 8
  | clearing => 4
  | terminating => 1
  | finished => 0

theorem effort_pos {place : Executor} (h : place ≠ .finished) : 1 ≤ place.effort := by
  cases place with
  | finished => exact absurd rfl h
  | storing task =>
    show 1 ≤ 9 * task.games.toNat + 14
    omega
  | reading p output eof => cases eof <;> simp [effort]
  | _ => simp [effort]

end Executor

def Instructions.effort : Instructions → Nat
  | looping => 3
  | receiving => 2
  | handling msg => msg.effort
  | answering _ _ => 8
  | replying _ _ => 7
  | cancelling _ => 5
  | terminating => 1
  | finished => 0

namespace State

/-- A message to be sent has its way to the handler before it. -/
def effort (s : State) : Nat :=
  (s.recvMessageQueue.map Message.effort).sum + (s.sendMessageQueue.map fun m => m.answer + 3).sum +
    (s.taskQueue.map Task.effort).sum + s.executor.effort + s.instructions.effort

variable {s s' : State}

/-- A thread that can go on has something before it. -/
theorem effort_pos {op : Op} (hown : op.isOwn) (hquit : op ≠ .quit) (henabled : s.enabled op = true) :
    1 ≤ s.effort := by
  have hexecutor (h : s.executor ≠ .finished) : 1 ≤ s.effort := by
    have hplace := Executor.effort_pos h
    unfold effort
    omega
  unfold enabled at henabled
  cases op with
  | deliver msg => cases hown
  | write => cases hown
  | quit => exact absurd rfl hquit
  | instruct =>
    unfold effort
    cases hplace : s.instructions with
    | handling msg =>
      have hmsg := msg.effort_pos
      simp only [Instructions.effort]
      omega
    | finished => simp [canInstruct, hplace] at henabled
    | _ => simp [Instructions.effort]
  | execute => exact hexecutor fun hplace => by simp [canExecute, hplace] at henabled
  | popen opened => exact hexecutor fun hplace => by simp [Executor.isLaunching, hplace] at henabled
  | fgets line eof => exact hexecutor fun hplace => by simp [Executor.isFetching, hplace] at henabled
  | pclose exitStatus => exact hexecutor fun hplace => by simp [Executor.isClosing, hplace] at henabled

end State

/-! ## With the registration -/

/-- The HELLO is answered for 14. -/
def Main.effort : Main → Nat
  | greeting => 20
  | awaiting => 2
  | rejected => 1
  | instructing => 0

namespace Session

def effort (s : Session) : Nat := s.main.effort + s.node.effort

variable {s s' : Session} {op : Op}

theorem effort_pos (hown : op.isOwn) (hquit : op ≠ .quit) (henabled : s.enabled op = true) :
    1 ≤ s.effort := by
  unfold effort
  by_cases hop : op = .instruct
  · subst hop
    change s.canAct = true at henabled
    cases hmain : s.main with
    | instructing =>
      have hcan : s.node.canInstruct = true := by simpa [canAct, hmain] using henabled
      have hnode : 1 ≤ s.node.effort := State.effort_pos hown hquit hcan
      omega
    | greeting | awaiting | rejected =>
      rw [Main.effort]
      omega
  · have hcan : s.node.enabled op = true := by
      cases op with
      | instruct => exact absurd rfl hop
      | deliver msg => cases hown
      | _ => exact henabled
    have hnode := State.effort_pos hown hquit hcan
    omega

end Session

end NodeProgram

end Bem
