import Bem.Coordinator.Commands
import Bem.Coordinator.Connections
import Bem.Coordinator.Handler
import Bem.Coordinator.Maintenance
import Bem.Lib.Machine

/-!
# The coordinator as a machine

A step is one critical section of one thread.  The handler and `terminate` erase a node in one
section and balance in another, so `erase` and `balance` are steps of their own.  `rehash` stands
for the iteration order of the maps, which may be any at any time.
-/

namespace Bem

inductive Op
  | select (args : TaskArgs)
  | assign
  | cancel (groupId : TaskId)
  | erase (nodeId : NodeId)
  | balance
  | maintain (clock : NodeId → TimePoint)
  | accept (nodeSocket : Int)
  | insert
  | result (msg : ResultMessage)
  | hello (nodeId : NodeId) (msg : HelloMessage)
  | notify (nodeId : NodeId) (msg : TaskNotifyMessage) (now : TimePoint)
  | write (nodeId : NodeId)
  | rehash (nodes : List NodeId) (groups tasks : List TaskId)

namespace State

/-- A socket that `accept` can return: a descriptor that no node has. -/
def FreshSocket (s : State) (nodeSocket : Int) : Prop :=
  0 ≤ nodeSocket ∧ nodeSocket < 2 ^ 31 ∧ ∀ e ∈ s.nodes.pointees, e.2.socket ≠ nodeSocket

instance (s : State) (nodeSocket : Int) : Decidable (s.FreshSocket nodeSocket) :=
  inferInstanceAs (Decidable (_ ∧ _ ∧ _))

/-- The main thread takes one command after the other, and the acceptor one connection. -/
def enabled (s : State) : Op → Prop
  | .select _ => s.selection = none
  | .cancel _ => s.selection = none
  | .assign => s.selection.isSome
  | .accept nodeSocket => s.accepting = none ∧ s.FreshSocket nodeSocket
  | .insert => s.accepting.isSome
  | _ => True

instance (s : State) (op : Op) : Decidable (s.enabled op) :=
  match op with
  | .select _ | .cancel _ => inferInstanceAs (Decidable (s.selection = none))
  | .assign => inferInstanceAs (Decidable (s.selection.isSome = true))
  | .accept nodeSocket =>
    inferInstanceAs (Decidable (s.accepting = none ∧ s.FreshSocket nodeSocket))
  | .insert => inferInstanceAs (Decidable (s.accepting.isSome = true))
  | .erase _ | .balance | .maintain _ | .result _ | .hello _ _ | .notify _ _ _ | .write _
  | .rehash _ _ _ => .isTrue trivial

def step (s : State) : Op → Except Fault State
  | .select args => s.selectNodes args
  | .assign => s.assignShares
  | .cancel groupId => s.commandCancel groupId
  | .erase nodeId => s.eraseNode nodeId
  | .balance => s.balanceTasks
  | .maintain clock => s.maintain clock
  | .accept nodeSocket => .ok (s.acceptConnection nodeSocket)
  | .insert => .ok s.insertNode
  | .result msg => s.handleResultMessage msg
  | .hello nodeId msg => s.handleHelloMessage nodeId msg
  | .notify nodeId msg now => s.handleNotifyTaskMessage nodeId msg now
  | .write nodeId => .ok (s.takeMessage nodeId)
  | .rehash nodes groups tasks =>
    .ok { s with
      nodes := s.nodes.reorder nodes
      groups := s.groups.reorder groups
      tasks := s.tasks.reorder tasks }

end State

def coordinator : Machine State Op Fault where
  enabled := State.enabled
  step := State.step

/-- The state `main` starts with. -/
def initial (config : CoordinatorConfig) : State := { config }

/-! ## Whole operations -/

section Operations

variable {s s' : State} {nodeId : NodeId}

theorem run_step {op : Op} (henabled : s.enabled op) (h : s.step op = .ok s') :
    coordinator.FreeRun s [op] s' := .cons henabled trivial h (.nil s')

theorem run_terminateNode (h : s.terminateNode nodeId = .ok s') :
    ∃ ops, coordinator.FreeRun s ops s' := by
  unfold State.terminateNode at h
  split at h
  next =>
    cases h
    exact ⟨[], .nil s⟩
  next =>
    obtain ⟨s₁, herase, hbalance⟩ := Except.bind_eq_ok.mp h
    exact ⟨[.erase nodeId, .balance],
      .cons trivial trivial herase (run_step trivial hbalance)⟩

theorem run_doMaintenance {clock : NodeId → TimePoint} (h : s.doMaintenance clock = .ok s') :
    ∃ ops, coordinator.FreeRun s ops s' := by
  obtain ⟨s₁, hmaintain, h⟩ := Except.bind_eq_ok.mp h
  split at h
  next =>
    exact ⟨[.maintain clock, .balance],
      .cons trivial trivial hmaintain (run_step trivial h)⟩
  next =>
    cases h
    exact ⟨[.maintain clock], run_step trivial hmaintain⟩

/-- The main thread takes the next command once the last one is done. -/
theorem run_commandTask {args : TaskArgs} (hidle : s.selection = none)
    (h : s.commandTask args = .ok s') : ∃ ops, coordinator.FreeRun s ops s' := by
  obtain ⟨s₁, hselect, hassign⟩ := Except.bind_eq_ok.mp h
  have hfirst : coordinator.FreeRun s [.select args] s₁ := run_step hidle hselect
  cases hselection : s₁.selection with
  | none =>
    -- nothing was selected, so there is no second section
    unfold State.assignShares at hassign
    rw [hselection] at hassign
    cases hassign
    exact ⟨[.select args], hfirst⟩
  | some selection =>
    have henabled : State.enabled s₁ .assign := by simp [State.enabled, hselection]
    exact ⟨_, hfirst.append (run_step henabled hassign)⟩

theorem run_handleCoordinatorMessage {msg : Message} {now : TimePoint}
    (h : s.handleCoordinatorMessage nodeId msg now = .ok s') :
    ∃ ops, coordinator.FreeRun s ops s' := by
  cases msg with
  | task m => cases h
  | result m => exact ⟨[.result m], run_step trivial h⟩
  | taskNotify m => exact ⟨[.notify nodeId m now], run_step trivial h⟩
  | hello m => exact ⟨[.hello nodeId m], run_step trivial h⟩
  | invalid => exact run_terminateNode h

end Operations

/-! ## Runs that can be evaluated -/

instance (s : State) (op : Op) : Decidable (coordinator.enabled s op) :=
  inferInstanceAs (Decidable (s.enabled op))

/-- The state some steps lead to from the start, if all of them can be taken. -/
def after (config : CoordinatorConfig) (ops : List Op) : State :=
  (coordinator.exec (fun _ _ => True) (initial config) ops).getD (initial config)

theorem run_after {P : State → Op → Prop} [∀ s op, Decidable (P s op)] {config : CoordinatorConfig}
    {ops : List Op} (h : (coordinator.exec P (initial config) ops).isSome) :
    coordinator.Run P (initial config) ops (after config ops) := Machine.run_after h

theorem eq_after {P : State → Op → Prop} {config : CoordinatorConfig} {ops : List Op} {s : State}
    (h : coordinator.Run P (initial config) ops s) : s = after config ops := by
  unfold after
  rw [h.free.exec]
  rfl

theorem run_from {P : State → Op → Prop} [∀ s op, Decidable (P s op)] {config : CoordinatorConfig}
    {ops₀ ops : List Op}
    (h₀ : (coordinator.exec (fun _ _ => True) (initial config) ops₀).isSome)
    (h : (coordinator.exec P (after config ops₀) ops).isSome) :
    coordinator.Run P (after config ops₀) ops (after config (ops₀ ++ ops)) := by
  rcases Option.isSome_iff_exists.mp h with ⟨s, hs⟩
  have hrun := Machine.run_of_exec hs
  rwa [← eq_after ((run_after h₀).append hrun.free)]

def soloConfig : CoordinatorConfig where
  nodeBrokenSeconds := 10
  protocolVersion := 1
  gamelist := soloGames

/-- A node connects and says HELLO. -/
def joining (nodeId : NodeId) (nodeSocket : Int) : List Op :=
  [.accept nodeSocket, .insert, .hello nodeId { protoVer := 1, gamelist := soloGames }]

/-- `task 1 1 1 8 20000 games`. -/
def tasking (games : UInt32) : List Op :=
  [.select { gid := 1, ag1 := 1, ag2 := 1, boardSize := 8, moveLimitMs := 20000, games }, .assign]

/-- Two ticks with the clock at `0` and at `11` seconds: who has not answered is silent. -/
def silence : List Op :=
  [.maintain fun _ => 1, .maintain fun _ => 11000000001]

end Bem
