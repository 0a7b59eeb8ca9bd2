import Bem.Coordinator.Splitting

/-!
# Refused commands

`command_task` says of some commands that they cannot be carried out.  Which of them leave the state
as it was.
-/

namespace Bem

/-- At least one of the numbers is `0`. -/
def TaskArgs.HasZero (args : TaskArgs) : Prop :=
  args.boardSize = 0 ∨ args.moveLimitMs = 0 ∨ args.games = 0

namespace State

variable {s s' : State} {args : TaskArgs}

/-- The game and both agents are on the coordinator's list. -/
def Knows (s : State) (args : TaskArgs) : Prop :=
  s.config.gamelist.containsGame args.gid ∧ s.config.gamelist.containsAgent args.gid args.ag1 ∧
    s.config.gamelist.containsAgent args.gid args.ag2

/-- A node can be given the task. -/
def Finds (s : State) (args : TaskArgs) : Prop :=
  ∃ nodeIds, s.getEligibleNodesForTask (template args) = .ok nodeIds ∧ nodeIds ≠ []

/-- The command prints that it cannot be carried out. -/
def Refuses (s : State) (args : TaskArgs) : Prop := ¬ s.Knows args ∨ args.HasZero ∨ ¬ s.Finds args

/-- No group and no task is new or changed, no node has been given anything, and the counters are
where they were. -/
structure Untouched (s s' : State) : Prop where
  groups : s'.groups = s.groups
  tasks : s'.tasks = s.tasks
  nodes : ∀ n, (s'.node? n).map (fun node => (node.tasks, node.messageQueue)) =
    (s.node? n).map fun node => (node.tasks, node.messageQueue)
  nextTaskId : s'.nextTaskId = s.nextTaskId
  nextGroupId : s'.nextGroupId = s.nextGroupId

/-- A complaint about a number is all that happens, and the task is set up. -/
def Overlooks (s : State) (args : TaskArgs) : Prop := s.Knows args ∧ args.HasZero ∧ s.Finds args

/-- A refusal leaves no trace. -/
def LeavesNoTrace (s : State) (args : TaskArgs) : Prop :=
  ∀ s', s.commandTask args = .ok s' → s.Refuses args → s.Untouched s'

theorem Untouched.refl (s : State) : s.Untouched s := ⟨rfl, rfl, fun _ => rfl, rfl, rfl⟩

/-! ## Selecting -/

/-- What the first section selects. -/
theorem selectNodes_eq (hknows : s.Knows args) : s.selectNodes args = do
    let nodeIds ← s.getEligibleNodesForTask (template args)
    if nodeIds.isEmpty then return s
    else return { s with selection := some { task := template args, nodeIds } } := by
  unfold selectNodes
  rw [if_neg (not_not.mpr hknows.1), if_neg (not_not.mpr hknows.2.1), if_neg (not_not.mpr hknows.2.2)]

theorem selectNodes_unknown (hknows : ¬ s.Knows args) : s.selectNodes args = .ok s := by
  unfold selectNodes
  by_cases hgame : s.config.gamelist.containsGame args.gid
  · rw [if_neg (not_not.mpr hgame)]
    by_cases hag1 : s.config.gamelist.containsAgent args.gid args.ag1
    · rw [if_neg (not_not.mpr hag1), if_pos fun hag2 => hknows ⟨hgame, hag1, hag2⟩]
    · rw [if_pos hag1]
  · rw [if_pos hgame]

/-- Without a known game or an eligible node the command ends there. -/
theorem commandTask_idle (hidle : s.selection = none) (h : s.commandTask args = .ok s')
    (hno : ¬ (s.Knows args ∧ s.Finds args)) : s' = s := by
  obtain ⟨s₁, hselect, hassign⟩ := Except.bind_eq_ok.mp h
  -- nothing has been selected
  have hsame : s₁ = s := by
    by_cases hknows : s.Knows args
    · obtain rfl | ⟨nodeIds, hnodeIds, hne, -⟩ := selectNodes_cases hselect
      · rfl
      · exact absurd ⟨hknows, nodeIds, hnodeIds, hne⟩ hno
    · rw [selectNodes_unknown hknows] at hselect
      exact (Except.ok.inj hselect).symm
  rw [hsame] at hassign
  unfold assignShares at hassign
  rw [hidle] at hassign
  exact (Except.ok.inj hassign).symm

/-- With both of them a group is opened, whatever the numbers are. -/
theorem commandTask_opens (hknows : s.Knows args) (hfinds : s.Finds args) :
    ∃ s', s.commandTask args = .ok s' ∧ s'.nextGroupId = s.nextGroupId + 1 := by
  obtain ⟨nodeIds, hnodeIds, hne⟩ := hfinds
  let selected : State := { s with selection := some { task := template args, nodeIds } }
  have hselect : s.selectNodes args = .ok selected := by
    have hnonempty : ¬ nodeIds.isEmpty = true := by simpa using hne
    rw [selectNodes_eq hknows, hnodeIds]
    show (if nodeIds.isEmpty = true then Except.ok s else .ok selected) = _
    rw [if_neg hnonempty]
  -- an eligible node is still there in the second section
  have hlive : ∀ selection, selected.selection = some selection →
      ∀ n ∈ selection.nodeIds, selected.nodes.at? n ≠ none := by
    intro selection hselection n hn
    cases hselection
    obtain ⟨node, hnode, -⟩ := eligible_of_getEligibleNodesForTask hnodeIds hn
    show s.nodes.at? n ≠ none
    rw [hnode]
    exact Option.some_ne_none node
  obtain ⟨s', hassign⟩ := assignShares_ok hlive
  refine ⟨s', Except.bind_eq_ok.mpr ⟨selected, hselect, hassign⟩, ?_⟩
  rcases outline_assignShares hassign with ⟨hnone, -⟩ | ⟨selection, -, houtline⟩
  · cases hnone
  · exact congrArg Outline.nextGroupId houtline

/-- The counter wraps, but never to itself in one step. -/
theorem not_untouched (h : s'.nextGroupId = s.nextGroupId + 1) : ¬ s.Untouched s' := by
  intro huntouched
  have hnat := congrArg UInt32.toNat (h.symm.trans huntouched.nextGroupId)
  have hlt := s.nextGroupId.toNat_lt
  rw [UInt32.toNat_add] at hnat
  simp at hnat
  omega

/-- A refusal leaves no trace unless a `0` is all that is wrong with the command. -/
theorem refused_untouched_iff (hidle : s.selection = none) (args : TaskArgs) :
    s.LeavesNoTrace args ↔ ¬ s.Overlooks args := by
  constructor
  · intro h hoverlooks
    -- the zero is told to the user, and the command goes on
    obtain ⟨hknows, hzero, hfinds⟩ := hoverlooks
    obtain ⟨s', hok, hnext⟩ := commandTask_opens hknows hfinds
    exact not_untouched hnext (h s' hok (Or.inr (Or.inl hzero)))
  · intro hoverlooks s' hok hrefuses
    have hno : ¬ (s.Knows args ∧ s.Finds args) := by
      intro hboth
      rcases hrefuses with hunknown | hzero | hnone
      · exact hunknown hboth.1
      · exact hoverlooks ⟨hboth.1, hzero, hboth.2⟩
      · exact hnone hboth.2
    rw [commandTask_idle hidle hok hno]
    exact .refl s

end State

/-- `task 1 1 1 0 20000 1`. -/
def boardless : TaskArgs :=
  { gid := 1, ag1 := 1, ag2 := 1, boardSize := 0, moveLimitMs := 20000, games := 1 }

/-- Without a node nothing comes of it. -/
theorem boardless_untouched : (initial soloConfig).LeavesNoTrace boardless := by
  refine (State.refused_untouched_iff rfl boardless).mpr fun hoverlooks => ?_
  obtain ⟨nodeIds, hnodeIds, hne⟩ := hoverlooks.2.2
  exact hne (Except.ok.inj hnodeIds).symm

/-- With one, a group is opened for it. -/
theorem boardless_leaves_trace :
    ¬ ∀ (s : State) (args : TaskArgs), s.selection = none → s.LeavesNoTrace args := by
  intro h
  let s := after soloConfig (joining 1 5)
  have hknows : s.Knows boardless := ⟨rfl, rfl, rfl⟩
  have hfinds : s.Finds boardless := ⟨[1], rfl, List.cons_ne_nil _ _⟩
  obtain ⟨s', hok, hnext⟩ := State.commandTask_opens hknows hfinds
  exact State.not_untouched hnext (h s boardless rfl s' hok (Or.inr (Or.inl (Or.inl rfl))))

end Bem
