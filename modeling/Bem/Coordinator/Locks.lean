import Mathlib.Data.Fintype.EquivFin
import Mathlib.Order.Fin.Basic
import Bem.Lib.Locking

/-!
# The mutexes of the coordinator

What its threads lock and unlock, on every branch.  Where a branch depends on the maps of the state or
on the messages, the environment chooses it; only the queues and the two flags are kept.
-/

namespace Bem

namespace Locks

open Monitor

/-- `mtx_msgQueue` is a member of each node object. -/
inductive Mutex
  | taskBalancing
  | nodes
  | tasks
  | groups
  | config
  | threads
  | recvQueue
  | msgQueue (node : Nat)
  deriving DecidableEq

/-- `cv_recvQueue`, and `cv_msgQueue` of each node object. -/
inductive Cond
  | recvQueue
  | msgQueue (node : Nat)
  deriving DecidableEq

/-- What the conditions of loops and waits read. -/
structure Shared where
  shouldQuit : Bool := false
  suspectedBalancing : Bool := false
  recvMessageQueue : Nat := 0
  messageQueue : Nat → Nat := fun _ => 0

/-- The functions of the coordinator, and below them the loops that run with mutexes held. -/
inductive Proc
  | main
  | commandTerminate
  | commandTasks
  | commandGames
  | commandCancel
  | commandNodes
  | commandTask
  | terminateNode
  | balanceTasks
  | handleResultMessage
  | handleHelloMessage
  | handleNotifyTaskMessage
  | handleCoordinatorMessages
  | doMaintenance
  | maintenanceLoop
  | acceptConnections
  | readNode
  | writeNode (node : Nat)
  | unassignCancelled
  | assignShares
  | assignUnassigned
  | maintainNodes
  | unassignMarked
  | queueReceived
  deriving DecidableEq

abbrev Code := Cmd Shared Mutex Cond Proc Nat

/-- The rest of a loop whose number of rounds is left open. -/
def loop (p : Proc) (body : Code) : Code := .either .skip (.seq body (.call p))

/-! ## The functions -/

/-- `Node::Send`. -/
def send (node : Nat) : Code := .all [
  .lock (.msgQueue node),
  .act fun s => { s with messageQueue := Function.update s.messageQueue node (s.messageQueue node + 1) },
  .unlock (.msgQueue node),
  .notifyOne (.msgQueue node)]

/-- `Node::AssignTask`, and `Node::UnassignTask`: both may return early. -/
def sendUnless (node : Nat) : Code := .either .skip (send node)

def suspectBalancing : Code := .act fun s => { s with suspectedBalancing := true }

def whileRunning (body : Code) : Code := .ite (·.shouldQuit) .skip body

def body : Proc → Code
  | .main =>
    whileRunning <| .seq
      (.either (.call .commandTerminate) <| .either (.call .commandTask) <|
        .either (.call .commandNodes) <| .either (.call .commandTasks) <|
        .either (.call .commandCancel) <| .either (.call .commandGames) <|
        -- `help`, `quit` and what is no command
        .either .skip (.act fun s => { s with shouldQuit := true }))
      (.call .main)
  | .commandTerminate => .call .terminateNode
  | .commandTasks => .all [.lock .groups, .unlock .groups]
  | .commandGames => .all [.lock .config, .unlock .config]
  | .commandCancel => .all [
      .lock .nodes, .lock .tasks, .lock .groups,
      .either (.call .unassignCancelled) .skip,
      .unlock .nodes, .unlock .tasks, .unlock .groups]
  | .unassignCancelled => loop .unassignCancelled (.any sendUnless)
  | .commandNodes => .all [.lock .nodes, .unlock .nodes]
  | .commandTask => .all [
      .lock .config, .unlock .config,
      -- a game or an agent that the coordinator does not know
      .either .skip <| .all [
        .lock .nodes, .unlock .nodes,
        -- no node is eligible
        .either .skip <| .all [
          .lock .nodes, .lock .tasks, .lock .groups,
          .call .assignShares,
          .unlock .nodes, .unlock .tasks, .unlock .groups]]]
  | .assignShares => loop .assignShares (.any sendUnless)
  | .terminateNode => .all [
      .lock .nodes,
      .either (.unlock .nodes) <| .all [.unlock .nodes, .call .balanceTasks]]
  | .balanceTasks => .all [
      .lock .taskBalancing, .lock .nodes, .lock .tasks,
      .call .assignUnassigned,
      .act fun s => { s with suspectedBalancing := false },
      .unlock .nodes, .unlock .tasks, .unlock .taskBalancing]
  | .assignUnassigned => loop .assignUnassigned (.either .skip (.any sendUnless))
  | .handleResultMessage => .all [.lock .tasks, .lock .groups, .unlock .tasks, .unlock .groups]
  | .handleHelloMessage => .all [
      .lock .nodes,
      .either (.all [.lock .config, .unlock .config, .any send]) .skip,
      .unlock .nodes]
  | .handleNotifyTaskMessage => .all [.lock .nodes, .lock .tasks, .unlock .nodes, .unlock .tasks]
  | .handleCoordinatorMessages =>
    whileRunning <| .all [
      .lock .recvQueue,
      .wait .recvQueue .recvQueue fun s => s.recvMessageQueue ≠ 0,
      .act fun s => { s with recvMessageQueue := s.recvMessageQueue - 1 },
      .unlock .recvQueue,
      .either (.call .handleResultMessage) <| .either (.call .handleHelloMessage) <|
        .either (.call .handleNotifyTaskMessage) <| .either (.call .terminateNode) .abort,
      .call .handleCoordinatorMessages]
  | .doMaintenance => .all [.lock .config, .unlock .config, .call .maintenanceLoop]
  | .maintenanceLoop =>
    whileRunning <| .all [
      .lock .nodes, .lock .tasks,
      .call .maintainNodes,
      .unlock .nodes, .unlock .tasks,
      .ite (·.suspectedBalancing) (.call .balanceTasks) .skip,
      .call .maintenanceLoop]
  | .maintainNodes =>
    loop .maintainNodes <|
      -- the node is pinged, is found broken, or neither
      .either (.seq (.any send) (.either suspectBalancing .skip)) <|
        .either (.seq (.call .unassignMarked) (.either suspectBalancing .skip)) .skip
  | .unassignMarked => loop .unassignMarked (.any sendUnless)
  | .acceptConnections =>
    whileRunning <| .either .abort <| .either (.call .acceptConnections) <| .all [
      .lock .taskBalancing, suspectBalancing, .unlock .taskBalancing,
      .lock .nodes, .unlock .nodes,
      .lock .threads, .unlock .threads,
      .call .acceptConnections]
  | .readNode =>
    whileRunning <| .either (.call .terminateNode) <|
      .seq (.call .queueReceived) (.call .readNode)
  | .queueReceived =>
    loop .queueReceived <| .all [
      .lock .recvQueue,
      .act fun s => { s with recvMessageQueue := s.recvMessageQueue + 1 },
      .unlock .recvQueue,
      .notifyOne .recvQueue]
  | .writeNode node =>
    whileRunning <| .all [
      .lock (.msgQueue node),
      .wait (.msgQueue node) (.msgQueue node) fun s => s.messageQueue node ≠ 0,
      .act fun s =>
        { s with messageQueue := Function.update s.messageQueue node (s.messageQueue node - 1) },
      .unlock (.msgQueue node),
      .either (.call .terminateNode) (.call (.writeNode node))]

/-- The coordinator takes no signal. -/
def coordinator : Program Shared Mutex Cond Proc Nat := { body }

/-- The threads that `main` and `acceptConnections` start. -/
inductive Role
  | main
  | acceptConnections
  | handleCoordinatorMessages
  | doMaintenance
  | readNode
  | writeNode (node : Nat)

def Role.entry : Role → Proc
  | main => .main
  | acceptConnections => .acceptConnections
  | handleCoordinatorMessages => .handleCoordinatorMessages
  | doMaintenance => .doMaintenance
  | readNode => .readNode
  | writeNode node => .writeNode node

/-- Any number of threads in any roles. -/
def launch {T : Type*} (role : T → Role) : Monitor.State T Shared Mutex Cond Proc Nat where
  data := {}
  code t := [.call (role t).entry]

/-! ## The order of the mutexes -/

def rank : Mutex → Fin 8
  | .taskBalancing => 0
  | .nodes => 1
  | .tasks => 2
  | .groups => 3
  | .config => 4
  | .threads => 5
  | .recvQueue => 6
  | .msgQueue _ => 7

/-- What is held around the loops; the functions start and end with nothing. -/
def held : Proc → List Mutex
  | .unassignCancelled | .assignShares => [.groups, .tasks, .nodes]
  | .assignUnassigned => [.tasks, .nodes, .taskBalancing]
  | .maintainNodes | .unassignMarked => [.tasks, .nodes]
  | _ => []

def contracts : Contracts Proc Mutex := fun p => (held p, held p)

/-- A queue is the last thing that is locked. -/
@[simp] theorem wp_send {node : Nat} {ms : List Mutex} {Q : List Mutex → Prop} :
    (send node).wp rank contracts ms Q ↔ (∀ m ∈ ms, rank m < 7) ∧ Q ms := by
  simp [send, Cmd.all, Cmd.wp, rank]

@[simp] theorem wp_sendUnless {node : Nat} {ms : List Mutex} {Q : List Mutex → Prop} :
    (sendUnless node).wp rank contracts ms Q ↔ Q ms ∧ (∀ m ∈ ms, rank m < 7) ∧ Q ms := by
  rw [sendUnless, Cmd.wp_either, wp_send]
  rfl

/-- A loop may end at once, and otherwise comes back to where it started. -/
@[simp] theorem wp_loop {p : Proc} {round : Code} {ms : List Mutex} {Q : List Mutex → Prop} :
    (loop p round).wp rank contracts ms Q ↔
      Q ms ∧ round.wp rank contracts ms fun ms' => ms' = held p ∧ Q (held p) := by
  rw [loop, Cmd.wp_either]
  rfl

theorem orderly : coordinator.Orderly rank contracts := by
  intro p
  cases p <;> simp [coordinator, body, contracts, held, Cmd.all, Cmd.wp, Cmd.wp_either, whileRunning,
    suspectBalancing, rank]

/-! ## What holds of the threads -/

/-- A function of the coordinator, and not a loop within one. -/
def Proc.isFunction : Proc → Bool
  | .unassignCancelled | .assignShares | .assignUnassigned | .maintainNodes | .unassignMarked => false
  | _ => true

theorem held_of_isFunction {p : Proc} (h : p.isFunction) : held p = [] := by
  cases p <;> first | rfl | cases h

section Threads

variable {T : Type*}

/-- The thread has returned from a function, and is at its end or at the call of the next one. -/
def BetweenFunctions (s : Monitor.State T Shared Mutex Cond Proc Nat) (t : T) : Prop :=
  ∀ cmd ∈ (s.code t).head?, ∃ p, cmd.first = .call p ∧ p.isFunction

/-- The mutexes of the coordinator are taken in one order, given back by every function, and not held
while a thread waits. -/
structure Undisturbed (s : Monitor.State T Shared Mutex Cond Proc Nat) : Prop where
  notBlocked : ∀ B : Set T, ¬ s.MutuallyBlocked B
  returned : ∀ t, BetweenFunctions s t → s.HoldsNothing t
  blocking : ∀ t c m p rest, s.code t = .block c m p :: rest → ∀ m', s.owner m' = some t → m' = m
  blocked : ∀ t c m p rest, s.code t = .blocked c m p :: rest → s.HoldsNothing t

variable [DecidableEq T]

theorem lockable_launch {role : T → Role} {ops : List (Op T Cond Nat)}
    {s : Monitor.State T Shared Mutex Cond Proc Nat}
    (hrun : coordinator.threads.FreeRun (launch role) ops s) : s.Lockable rank contracts := by
  refine lockable_threads orderly rfl (fun _ => rfl) (fun t => ?_) hrun
  show [] = held (role t).entry ∧ held (role t).entry = []
  have hentry : held (role t).entry = [] := by cases role t <;> rfl
  exact ⟨hentry.symm, hentry⟩

/-- However any number of threads interleave, none of them hang on their mutexes. -/
theorem threads_never_deadlock {role : T → Role} {ops : List (Op T Cond Nat)}
    {s : Monitor.State T Shared Mutex Cond Proc Nat}
    (hrun : coordinator.threads.FreeRun (launch role) ops s) : Undisturbed s := by
  have h := lockable_launch hrun
  refine ⟨h.not_mutuallyBlocked, fun t hbetween => ?_, fun t c m p rest hcode m' => h.block hcode,
    fun t c m p rest hcode => h.blocked hcode⟩
  cases hcode : s.code t with
  | nil => exact h.finished hcode
  | cons cmd rest =>
    have hhead : cmd ∈ (s.code t).head? := by
      rw [hcode]
      rfl
    rcases hbetween cmd hhead with ⟨p, hfirst, hp⟩
    exact h.between hcode hfirst (held_of_isFunction hp)

/-- The maintenance loop holds the nodes while a command waits for them. -/
theorem threads_never_deadlock_waiting :
    Undisturbed (coordinator.threads.after (launch fun t : Bool => if t then .main else .doMaintenance)
      (List.replicate 10 (.run false 0 false) ++ List.replicate 7 (.run true 0 true))) :=
  threads_never_deadlock (Machine.run_after (by decide +kernel))

end Threads

end Locks

end Bem
