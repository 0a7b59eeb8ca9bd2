import Bem.Lib.Waking

/-!
# Quitting a node

`terminate_program` sets `should_quit` and notifies the threads that wait for a queue, with no mutex of
a queue held.  Where a branch depends on a message or on a system call, the environment chooses it; of
the queues only their lengths are kept.
-/

namespace Bem

namespace Quitting

open Monitor

inductive Queue
  | recv
  | task
  | send
  deriving DecidableEq

/-- Each queue has a mutex and a condition variable. -/
inductive Mutex
  | terminate
  | config
  | queue (q : Queue)
  deriving DecidableEq

structure Shared where
  shouldQuit : Bool := false
  length : Queue → Nat := fun _ => 0

namespace Shared

def setQuit (s : Shared) : Shared := { s with shouldQuit := true }

def push (q : Queue) (s : Shared) : Shared :=
  { s with length := Function.update s.length q (s.length q + 1) }

def pop (q : Queue) (s : Shared) : Shared :=
  { s with length := Function.update s.length q (s.length q - 1) }

/-- The predicate of the three waits. -/
def mayGoOn (q : Queue) (s : Shared) : Bool := s.shouldQuit || s.length q ≠ 0

end Shared

inductive Proc
  | terminateProgram
  | sendMessage
  | main
  | waitForInstructionsInLoop
  | writeToServerInLoop
  | readFromServerInLoop
  | queueReceived
  | executeTasksInLoop
  deriving DecidableEq

abbrev Code := Cmd Shared Mutex Queue Proc Nat

/-! ## The functions -/

/-- A loop that runs until the node quits. -/
def untilQuit (body : Code) : Code := .ite (·.shouldQuit) (.call .terminateProgram) body

/-- Take something off a queue, or leave the loop or the function when the node quits. -/
def take (q : Queue) (quit taken : Code) : Code := .all [
  .lock (.queue q),
  .wait q (.queue q) (Shared.mayGoOn q),
  .ite (·.shouldQuit) (.all [.unlock (.queue q), quit])
    (.all [.act (Shared.pop q), .unlock (.queue q), taken])]

def put (q : Queue) : Code := .all [
  .lock (.queue q),
  .act (Shared.push q),
  .unlock (.queue q),
  .notifyOne q]

def receiveMessage (null received : Code) : Code := take .recv null received

def body : Proc → Code
  | .terminateProgram => .all [
      .lock .terminate,
      .ite (!·.shouldQuit)
        (.all [
          .act Shared.setQuit,
          .notifyAll .recv,
          .notifyAll .task,
          .notifyAll .send,
          -- `shutdown` of the socket
          .skip])
        .skip,
      .unlock .terminate]
  | .sendMessage => put .send
  | .main => .all [
      -- `register_to_coordinator`, which dereferences a null message
      .lock .config, .call .sendMessage, .unlock .config,
      receiveMessage .abort (.either .skip (.call .terminateProgram)),
      .call .waitForInstructionsInLoop]
  | .waitForInstructionsInLoop =>
    untilQuit <| receiveMessage (.call .terminateProgram) <| .all [
      -- a task, a question, a cancel, or none of them
      .either (put .task) <| .either (.call .sendMessage) <| .either .skip .abort,
      .call .waitForInstructionsInLoop]
  | .writeToServerInLoop =>
    untilQuit <| take .send (.call .terminateProgram) <|
      .either (.call .writeToServerInLoop) (.call .terminateProgram)
  | .readFromServerInLoop =>
    untilQuit <| .either (.call .terminateProgram) <|
      .all [.call .queueReceived, .call .readFromServerInLoop]
  | .queueReceived => .either .skip <| .all [put .recv, .call .queueReceived]
  | .executeTasksInLoop =>
    untilQuit <| take .task (.call .terminateProgram) <| .all [
      .lock .config, .unlock .config,
      -- the games
      .ite (·.shouldQuit) (.call .terminateProgram) <|
        .all [.either .skip (.call .sendMessage), .call .executeTasksInLoop]]

/-- `sigint_handler` interrupts any of the threads. -/
def node : Program Shared Mutex Queue Proc Nat where
  body
  handler := some .terminateProgram

inductive Thread
  | main
  | writer
  | reader
  | executor
  deriving DecidableEq

instance : Fintype Thread where
  elems := {.main, .writer, .reader, .executor}
  complete t := by cases t <;> decide

def Thread.entry : Thread → Proc
  | main => .main
  | writer => .writeToServerInLoop
  | reader => .readFromServerInLoop
  | executor => .executeTasksInLoop

def start : Monitor.State Thread Shared Mutex Queue Proc Nat where
  data := {}
  code t := [.call t.entry]

/-! ## Runs -/

section Announcing

variable {q q' : Queue} {behind : Prop} {yes no : Code}

/-- The predicate of every wait is true once the node quits. -/
@[simp] theorem announces_take : (take q' yes no).Announces Shared.shouldQuit q behind ↔
    yes.Announces Shared.shouldQuit q behind ∧ no.Announces Shared.shouldQuit q behind := by
  have hwait : ∀ d : Shared, d.shouldQuit → d.mayGoOn q' := by
    intro d hquit
    simp [Shared.mayGoOn, hquit]
  simp only [take, Cmd.all, Cmd.Announces, Shared.pop]
  simp
  exact fun _ _ _ => hwait

@[simp] theorem announces_put : (put q').Announces Shared.shouldQuit q behind := by
  simp [put, Cmd.all, Cmd.Announces, Shared.push]

/-- All queues are notified after `should_quit` is set. -/
theorem announces_body (p : Proc) : (body p).Announces Shared.shouldQuit q False := by
  cases p with
  | terminateProgram =>
    cases q <;> simp [body, Cmd.all, Cmd.Announces, Cmd.Promises, Shared.setQuit]
  | _ => simp [body, untilQuit, receiveMessage, Cmd.all, Cmd.Announces, Cmd.announces_either]

end Announcing

/-- `should_quit` is set, and the call of `terminate_program` that has set it is done with the
queues. -/
def TerminateFinished (s : Monitor.State Thread Shared Mutex Queue Proc Nat) : Prop :=
  s.data.shouldQuit ∧ ∀ q, ¬ s.Pending q

/-- As long as no thread that has found nothing to do is yet to block when its queue is notified, no
thread stays blocked in its wait. -/
theorem quit_wakes_all {ops : List (Monitor.Op Thread Queue Nat)}
    {s : Monitor.State Thread Shared Mutex Queue Proc Nat}
    (hrun : node.threads.Run State.reachesAll start ops s) (hquit : TerminateFinished s)
    (t : Thread) (q : Queue) : s.asleep q t = false := by
  have hstart (u : Thread) : Announced Shared.shouldQuit q (start.code u) := ⟨trivial, trivial⟩
  exact no_lost_wakeup announces_body rfl hstart hrun hquit.1 (hquit.2 q) t

instance : Fintype Queue where
  elems := {.recv, .task, .send}
  complete q := by cases q <;> decide

instance (s : Monitor.State Thread Shared Mutex Queue Proc Nat) : Decidable (TerminateFinished s) :=
  inferInstanceAs (Decidable (_ ∧ ∀ q, ¬ ∃ t, ∃ cmd ∈ s.code t, cmd.Promises q))

/-- The next steps of a thread, with the first choice at each branch. -/
def steps (n : Nat) (t : Thread) : List (Monitor.Op Thread Queue Nat) := List.replicate n (.run t 0 t)

/-- The writer is blocked when a signal comes, which interrupts `main`. -/
def signalled : List (Monitor.Op Thread Queue Nat) := steps 7 .writer ++ [.interrupt .main] ++ steps 15 .main

/-- The writer has found nothing to write, and does not block before the reader has lost the connection
and has returned. -/
def disconnected : List (Monitor.Op Thread Queue Nat) := steps 6 .writer ++ steps 18 .reader ++ steps 1 .writer

theorem quit_wakes_all_signalled : (node.threads.after start signalled).asleep .send .writer = false :=
  quit_wakes_all (Machine.run_after (by decide +kernel)) (by decide +kernel) .writer .send

/-- Nothing wakes the writer any more. -/
theorem writer_never_woken : ¬ ∀ (ops : List (Monitor.Op Thread Queue Nat))
    (s : Monitor.State Thread Shared Mutex Queue Proc Nat), node.threads.FreeRun start ops s →
      TerminateFinished s → ∀ t q, s.asleep q t = false := by
  intro h
  have hrun := Machine.run_after
    (show (node.threads.exec (fun _ _ => True) start disconnected).isSome by decide +kernel)
  have hquit : TerminateFinished (node.threads.after start disconnected) := by decide +kernel
  have hasleep : (node.threads.after start disconnected).asleep .send .writer = true := by
    decide +kernel
  exact Bool.noConfusion (hasleep.symm.trans (h _ _ hrun hquit .writer .send))

end Quitting

end Bem
