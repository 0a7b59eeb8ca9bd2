import Bem.Coordinator.Refinement
import Mathlib.Data.List.Sublists

/-!
# What is given out for a group

When a group is cancelled its running tasks are taken off every desk.  From then on nothing of it is
given out, unless a task of it was waiting to be handed out already.
-/

namespace Bem

/-- A TASK message for a task of the group. -/
def Message.dispatches (g : TaskId) : Message → Bool
  | .task m => m.task.groupId == g
  | _ => false

theorem Message.dispatches_of_isQuiet {g : TaskId} {message : Message} (h : message.IsQuiet) :
    message.dispatches g = false := by
  cases message with
  | task m => exact h.elim
  | _ => rfl

namespace Desk

/-- The tasks of the group on the desk. -/
def tasksOf (heap : Heap Task) (g : TaskId) (d : Desk) : List Ref :=
  d.list.filter fun r => (heap.get r).groupId == g

/-- The TASK messages for the group that were sent to the desk. -/
def dispatches (g : TaskId) (d : Desk) : List Message := d.sent.filter (Message.dispatches g)

variable {heap : Heap Task} {g t : TaskId} {r : Ref} {d : Desk}

theorem tasksOf_congr (heap : Heap Task) {heap' : Heap Task}
    (h : ∀ r ∈ d.list, (heap'.get r).groupId = (heap.get r).groupId) :
    d.tasksOf heap' g = d.tasksOf heap g := by
  apply List.filter_congr
  intro r hr
  rw [h r hr]

theorem dispatches_concat (list : List Ref) {message : Message} (h : message.dispatches g = false) :
    dispatches g { list, sent := d.sent ++ [message] } = d.dispatches g := by
  simp [dispatches, h]

/-- A task of another group is assigned. -/
theorem tasksOf_assign (hg : (heap.get r).groupId ≠ g) :
    (d.assign heap r).tasksOf heap g = d.tasksOf heap g := by
  unfold assign
  split
  · rfl
  · simp [tasksOf, hg]

theorem dispatches_assign (hg : (heap.get r).groupId ≠ g) :
    (d.assign heap r).dispatches g = d.dispatches g := by
  unfold assign
  split
  · rfl
  · exact dispatches_concat _ (beq_eq_false_iff_ne.mpr hg)

theorem tasksOf_unassign_sublist : ((d.unassign heap t).tasksOf heap g).Sublist
    (d.tasksOf heap g) := by
  unfold unassign
  split
  · exact List.eraseP_sublist.filter _
  · exact List.Sublist.refl _

theorem dispatches_unassign : (d.unassign heap t).dispatches g = d.dispatches g := by
  unfold unassign
  split
  · exact dispatches_concat _ rfl
  · rfl

theorem tasksOf_release_sublist : ((d.release heap).tasksOf heap g).Sublist (d.tasksOf heap g) :=
  List.filter_sublist.filter _

theorem dispatches_release : (d.release heap).dispatches g = d.dispatches g := by
  unfold dispatches release
  dsimp only
  rw [List.filter_append, List.append_right_eq_self, List.filter_eq_nil_iff]
  intro message hmessage
  rcases List.mem_map.mp hmessage with ⟨r, -, rfl⟩
  exact Bool.false_ne_true

end Desk

namespace Ledger

variable {L L' L'' : Ledger} {a : Act} {g : TaskId}

def tasksOf (L : Ledger) (n : NodeId) (g : TaskId) : List Ref :=
  ((L.desk n).map (Desk.tasksOf L.heap g)).getD []

def dispatches (L : Ledger) (n : NodeId) (g : TaskId) : List Message :=
  ((L.desk n).map (Desk.dispatches g)).getD []

/-- Nothing of the group is given out on the way from `L` to `L'`. -/
structure GivesNothing (L : Ledger) (g : TaskId) (L' : Ledger) : Prop where
  tasksOf : ∀ n, (L'.tasksOf n g).Sublist (L.tasksOf n g)
  dispatches : ∀ n, (L'.dispatches n g).Sublist (L.dispatches n g)

theorem GivesNothing.refl (L : Ledger) (g : TaskId) : L.GivesNothing g L :=
  ⟨fun _ => List.Sublist.refl _, fun _ => List.Sublist.refl _⟩

theorem GivesNothing.trans (h : L.GivesNothing g L') (h' : L'.GivesNothing g L'') :
    L.GivesNothing g L'' :=
  ⟨fun n => (h'.tasksOf n).trans (h.tasksOf n), fun n => (h'.dispatches n).trans (h.dispatches n)⟩

/-- Each desk has nothing new of the group. -/
theorem givesNothing_of_desks (hsound : L.Sound)
    (hgroup : ∀ r < L.heap.next, (L'.heap.get r).groupId = (L.heap.get r).groupId)
    (hdesk : ∀ n d', L'.desk n = some d' → L.desk n = some d' ∨
      ((d'.tasksOf L'.heap g).Sublist (L.tasksOf n g) ∧
        (d'.dispatches g).Sublist (L.dispatches n g))) : L.GivesNothing g L' := by
  have hboth (n : NodeId) : (L'.tasksOf n g).Sublist (L.tasksOf n g) ∧
      (L'.dispatches n g).Sublist (L.dispatches n g) := by
    cases hd' : L'.desk n with
    | none =>
      unfold tasksOf dispatches
      rw [hd']
      exact ⟨List.nil_sublist _, List.nil_sublist _⟩
    | some d' =>
      have htasks : L'.tasksOf n g = d'.tasksOf L'.heap g := by
        rw [tasksOf, hd', Option.map_some, Option.getD_some]
      have hsent : L'.dispatches n g = d'.dispatches g := by
        rw [dispatches, hd', Option.map_some, Option.getD_some]
      rw [htasks, hsent]
      rcases hdesk n d' hd' with hold | hnew
      · unfold tasksOf dispatches
        rw [hold, Option.map_some, Option.map_some, Option.getD_some, Option.getD_some,
          Desk.tasksOf_congr _ fun r hr => hgroup r (hsound.list n d' hold r hr)]
        exact ⟨List.Sublist.refl _, List.Sublist.refl _⟩
      · exact hnew
  exact ⟨fun n => (hboth n).1, fun n => (hboth n).2⟩

/-- No known task of the group waits to be handed out, and those that run lie on no desk. -/
def Retired (L : Ledger) (g : TaskId) : Prop :=
  ∀ t r, L.index t = some r → (L.heap.get r).groupId = g →
    (L.heap.get r).status ≠ .tsNone ∧
    ((L.heap.get r).status = .tsRunning → ∀ n d, L.desk n = some d → r ∉ d.list)

theorem Retired.givesNothing (hL : L.Retired g) (hsound : L.Sound) (h : Step L a L')
    (hcreate : ∀ n task, a = .create n task → task.groupId ≠ g) : L.GivesNothing g L' := by
  apply givesNothing_of_desks hsound fun r hr => (h.get hr).2
  intro m d' hd'
  have htasks {d : Desk} (hd : L.desk m = some d) : L.tasksOf m g = d.tasksOf L.heap g := by
    rw [tasksOf, hd, Option.map_some, Option.getD_some]
  have hsent {d : Desk} (hd : L.desk m = some d) : L.dispatches m g = d.dispatches g := by
    rw [dispatches, hd, Option.map_some, Option.getD_some]
  cases h with
  | join =>
    rcases update_eq_some.mp hd' with ⟨-, rfl⟩ | ⟨-, hd'⟩
    · exact Or.inr ⟨List.nil_sublist _, List.nil_sublist _⟩
    · exact Or.inl hd'
  | @drop n =>
    by_cases hm : m = n
    · rw [hm] at hd'
      change Function.update L.desk n none n = some d' at hd'
      rw [Function.update_self] at hd'
      cases hd'
    · exact Or.inl ((Function.update_of_ne hm _ _).symm.trans hd')
  | note hdesk hquiet =>
    rcases update_eq_some.mp hd' with ⟨rfl, rfl⟩ | ⟨-, hd'⟩
    · right
      rw [htasks hdesk, hsent hdesk, Desk.dispatches_concat _ (Message.dispatches_of_isQuiet hquiet)]
      exact ⟨List.Sublist.refl _, List.Sublist.refl _⟩
    · exact Or.inl hd'
  | @hand n d r hdesk hindex hnone =>
    rcases update_eq_some.mp hd' with ⟨rfl, rfl⟩ | ⟨-, hd'⟩
    -- the task that is handed out waits, which no task of a retired group does
    · have hg : (L.heap.get r).groupId ≠ g := fun hg => (hL _ _ hindex hg).1 hnone
      right
      rw [Desk.tasksOf_congr L.heap fun q _ => groupId_setStatus _ _ _ _,
        Desk.tasksOf_assign hg, Desk.dispatches_assign hg, htasks hdesk, hsent hdesk]
      exact ⟨List.Sublist.refl _, List.Sublist.refl _⟩
    · exact Or.inl hd'
  | release hdesk =>
    rcases update_eq_some.mp hd' with ⟨rfl, rfl⟩ | ⟨-, hd'⟩
    · right
      rw [Desk.tasksOf_congr L.heap fun q _ => groupId_giveBack _ _ _,
        Desk.dispatches_release, htasks hdesk, hsent hdesk]
      exact ⟨Desk.tasksOf_release_sublist, List.Sublist.refl _⟩
    · exact Or.inl hd'
  | openGroup =>
    rw [desk_openGroup] at hd'
    exact Or.inl hd'
  | @create n d task hdesk =>
    rcases update_eq_some.mp hd' with ⟨rfl, rfl⟩ | ⟨-, hd'⟩
    -- a new task belongs to another group
    · have hg : ((L.heap.alloc task).get L.heap.next).groupId ≠ g := by
        rw [Heap.get_alloc_self]
        exact hcreate m task rfl
      have hold : d.tasksOf (L.heap.alloc task) g = d.tasksOf L.heap g := by
        apply Desk.tasksOf_congr
        intro q hq
        rw [Heap.get_alloc_ne (Nat.ne_of_lt (hsound.list m d hdesk q hq))]
      right
      rw [heap_create, Desk.tasksOf_assign hg, Desk.dispatches_assign hg, hold, htasks hdesk,
        hsent hdesk]
      exact ⟨List.Sublist.refl _, List.Sublist.refl _⟩
    · exact Or.inl hd'
  | withdraw =>
    rcases Option.map_eq_some_iff.mp hd' with ⟨d, hdesk, rfl⟩
    right
    rw [Desk.dispatches_unassign, htasks hdesk, hsent hdesk]
    exact ⟨Desk.tasksOf_unassign_sublist, List.Sublist.refl _⟩
  | _ => exact Or.inl hd'

theorem Retired.step (hL : L.Retired g) (hsound : L.Sound) (h : Step L a L')
    (hcreate : ∀ n task, a = .create n task → task.groupId ≠ g) : L'.Retired g := by
  intro t r ht hg
  -- a new task belongs to another group
  have hold : L.index t = some r := by
    rcases h.index_cases ht with hold | ⟨n, task, ha, -, rfl, hheap⟩
    · exact hold
    · rw [hheap, Heap.get_alloc_self] at hg
      exact absurd hg (hcreate n task ha)
  have hr := hsound.index t r hold
  rw [(h.get hr.1).2] at hg
  have hretired := hL t r hold hg
  -- nothing of the group comes to any desk
  have hlists : ∀ n d', L'.desk n = some d' → r ∈ d'.list → ∃ d, L.desk n = some d ∧ r ∈ d.list := by
    intro n d' hd' hmem
    have hsub := (hL.givesNothing hsound h hcreate).tasksOf n
    have hmem' : r ∈ L'.tasksOf n g := by
      rw [tasksOf, hd', Option.map_some, Option.getD_some, Desk.tasksOf, List.mem_filter,
        (h.get hr.1).2]
      exact ⟨hmem, beq_iff_eq.mpr hg⟩
    have hmem'' := hsub.subset hmem'
    cases hd : L.desk n with
    | none =>
      rw [tasksOf, hd] at hmem''
      cases hmem''
    | some d =>
      rw [tasksOf, hd, Option.map_some, Option.getD_some, Desk.tasksOf, List.mem_filter] at hmem''
      exact ⟨d, rfl, hmem''.1⟩
  have hstatus : (L'.heap.get r).status ≠ .tsNone ∧
      ((L'.heap.get r).status = .tsRunning → (L.heap.get r).status = .tsRunning) := by
    cases h with
    | @hand n d q hdesk hindex hnone =>
      have hne : r ≠ q := by
        intro heq
        rw [heq] at hretired
        exact hretired.1 hnone
      rw [status_setStatus, if_neg hne]
      exact ⟨hretired.1, id⟩
    | @release n d hdesk =>
      rw [status_giveBack, if_neg (fun hback => hretired.2 hback.2 n d hdesk hback.1)]
      exact ⟨hretired.1, id⟩
    | openGroup =>
      rw [heap_openGroup]
      exact ⟨hretired.1, id⟩
    | create =>
      rw [heap_create, Heap.get_alloc_ne (Nat.ne_of_lt hr.1)]
      exact ⟨hretired.1, id⟩
    | settle =>
      rw [status_setStatus]
      split
      · exact ⟨by decide, nofun⟩
      · exact ⟨hretired.1, id⟩
    | _ => exact ⟨hretired.1, id⟩
  refine ⟨hstatus.1, fun hrunning n d' hd' hmem => ?_⟩
  rcases hlists n d' hd' hmem with ⟨d, hd, hmem⟩
  exact hretired.2 (hstatus.2 hrunning) n d hd hmem

end Ledger

/-! ## Sections -/

namespace Node

def tasksOf (heap : Heap Task) (g : TaskId) (node : Node) : List Ref :=
  node.tasks.filter fun r => (heap.get r).groupId == g

/-- The TASK messages for the group that were put in the queue. -/
def dispatches (g : TaskId) (node : Node) : List Message :=
  node.history.filter (Message.dispatches g)

end Node

namespace State

variable {s s' : State} {g : TaskId}

def tasksOf (s : State) (n : NodeId) (g : TaskId) : List Ref :=
  ((s.node? n).map (Node.tasksOf s.taskHeap g)).getD []

def dispatches (s : State) (n : NodeId) (g : TaskId) : List Message :=
  ((s.node? n).map (Node.dispatches g)).getD []

/-- No task of the group comes into the list of any node, and no TASK message into its queue. -/
structure GivesNothing (s : State) (g : TaskId) (s' : State) : Prop where
  tasksOf : ∀ n, (s'.tasksOf n g).Sublist (s.tasksOf n g)
  dispatches : ∀ n, (s'.dispatches n g).Sublist (s.dispatches n g)

theorem givesNothing_iff : s.GivesNothing g s' ↔ s.ledger.GivesNothing g s'.ledger := by
  have htasks (s : State) (n : NodeId) : s.ledger.tasksOf n g = s.tasksOf n g := by
    unfold Ledger.tasksOf tasksOf
    exact congrArg (Option.getD · []) (Option.map_map _ _ _)
  have hsent (s : State) (n : NodeId) : s.ledger.dispatches n g = s.dispatches n g := by
    unfold Ledger.dispatches dispatches
    exact congrArg (Option.getD · []) (Option.map_map _ _ _)
  constructor
  · intro h
    refine ⟨fun n => ?_, fun n => ?_⟩
    · rw [htasks, htasks]
      exact h.tasksOf n
    · rw [hsent, hsent]
      exact h.dispatches n
  · intro h
    refine ⟨fun n => ?_, fun n => ?_⟩
    · rw [← htasks, ← htasks]
      exact h.tasksOf n
    · rw [← hsent, ← hsent]
      exact h.dispatches n

/-- `command_task` does not enter its sub-tasks into the group. -/
def opensOther (g : TaskId) (s : State) : Op → Prop
  | .assign => s.selection.isSome → s.nextGroupId ≠ g
  | _ => True

instance (s : State) (op : Op) : Decidable (s.opensOther g op) :=
  match op with
  | .assign => inferInstanceAs (Decidable (s.selection.isSome = true → s.nextGroupId ≠ g))
  | .select _ | .cancel _ | .erase _ | .balance | .maintain _ | .accept _ | .insert | .result _
  | .hello _ _ | .notify _ _ _ | .write _ | .rehash _ _ _ => .isTrue trivial

theorem retired_step {op : Op} (hs : s.WellFormed) (hretired : s.ledger.Retired g)
    (hother : s.opensOther g op) (hok : s.step op = .ok s') :
    s'.ledger.Retired g ∧ s.ledger.GivesNothing g s'.ledger := by
  have hacts (hcreate : ∀ n task, s.mayDo op (.create n task) → task.groupId ≠ g) :
      s'.ledger.Retired g ∧ s.ledger.GivesNothing g s'.ledger := by
    have hend := (follows_step hs hok).does.invariant
      (I := fun L => L.Sound ∧ L.Retired g ∧ s.ledger.GivesNothing g L)
      (by
        intro L a L' hL hQ hstep
        have hnew : ∀ n task, a = .create n task → task.groupId ≠ g :=
          fun n task ha => hcreate n task (ha ▸ hQ)
        exact ⟨hL.1.step hstep, hL.2.1.step hL.1 hstep hnew,
          hL.2.2.trans (hL.2.1.givesNothing hL.1 hstep hnew)⟩)
      ⟨hs.sound, hretired, .refl _ _⟩
    exact hend.2
  cases op with
  | assign =>
    rcases assignShares_cases hok with ⟨-, rfl⟩ | ⟨selection, hselection, -⟩
    · exact ⟨hretired, .refl _ _⟩
    · apply hacts
      intro n task hgroup
      rw [show task.groupId = s.nextGroupId from hgroup]
      exact hother (by rw [hselection]; rfl)
  | _ => exact hacts fun n task => nofun

/-- `command_cancel` takes every running task of the group off the desks. -/
theorem retired_commandCancel {G : TaskGroup} (hs : s.WellFormed) (hG : s.group? g = some G)
    (hrunning : G.status = .tsRunning)
    (hnone : ∀ t task, s.task? t = some task → task.groupId = g → task.status ≠ .tsNone)
    (hok : s.commandCancel g = .ok s') : s'.ledger.Retired g := by
  -- a running task of the group is still to come in the loop, or on no desk any more
  let I (l : List (TaskId × Ref)) (L : Ledger) : Prop :=
    L.heap = s.taskHeap ∧ L.index = s.tasks.at? ∧
      ∀ t r, s.tasks.at? t = some r → (s.taskHeap.get r).groupId = g →
        (s.taskHeap.get r).status = .tsRunning →
        (t, r) ∈ l ∨ ∀ n d, L.desk n = some d → r ∉ d.list
  have hI : I [] s'.ledger := by
    refine (commandCancel_rule (I := I) hs hG hrunning ?_ ?_ ?_ hok).2
    · intro L hstep
      cases hstep
      exact ⟨rfl, rfl, fun t r hr _ _ => Or.inl (KeyedMap.mem_pointees.mpr hr)⟩
    · intro e l L _ hnot hL
      refine ⟨hL.1, hL.2.1, fun t r hr hg hrunning => ?_⟩
      rcases hL.2.2 t r hr hg hrunning with hmem | hoff
      · rcases List.mem_cons.mp hmem with rfl | hmem
        · exact (hnot.elim (fun h => h hg) fun h => h hrunning).elim
        · exact Or.inl hmem
      · exact Or.inr hoff
    · intro e l L L' hsound hindex hheap hL hstep
      cases hstep
      refine ⟨hL.1, hL.2.1, fun t r hr hg hrunning => ?_⟩
      have hid : (L.heap.get r).id = t := by
        rw [hheap]
        exact (hs.sound.index t r hr).2
      rcases hL.2.2 t r hr hg hrunning with hmem | hoff
      · rcases List.mem_cons.mp hmem with rfl | hmem
        · right
          intro n d' hd' hmem
          rcases Option.map_eq_some_iff.mp hd' with ⟨d, hd, rfl⟩
          exact ((Desk.mem_list_unassign (hsound.distinct n d hd)).mp hmem).2 hid
        · exact Or.inl hmem
      · right
        intro n d' hd' hmem
        rcases Option.map_eq_some_iff.mp hd' with ⟨d, hd, rfl⟩
        exact hoff n d hd ((Desk.mem_list_unassign (hsound.distinct n d hd)).mp hmem).1
  intro t r ht hg
  have hr : s.tasks.at? t = some r := by rwa [hI.2.1] at ht
  rw [hI.1] at hg ⊢
  refine ⟨hnone t _ (congrArg (Option.map s.taskHeap.get) hr) hg, fun hrunning => ?_⟩
  exact (hI.2.2 t r hr hg hrunning).resolve_left List.not_mem_nil

end State

/-- When no task of the group is `TS_NONE` as the group is cancelled, and no later command gets its id
again, no later step gives out anything of it. -/
theorem nothing_given_after_cancel {config : CoordinatorConfig} {ops₀ ops : List Op} {op : Op}
    {s₀ s₁ s s' : State} {g : TaskId} {G : TaskGroup}
    (hrun₀ : coordinator.FreeRun (initial config) ops₀ s₀) (hG : s₀.group? g = some G)
    (hrunning : G.status = .tsRunning)
    (hnone : ∀ t task, s₀.task? t = some task → task.groupId = g → task.status ≠ .tsNone)
    (hcancel : s₀.commandCancel g = .ok s₁)
    (hrun : coordinator.Run (State.opensOther g) s₁ ops s) (hother : s.opensOther g op)
    (hok : s.step op = .ok s') : s.GivesNothing g s' := by
  have hs₀ := wellFormed_run hrun₀ (wellFormed_initial config)
  have hs₁ := (State.follows_commandCancel hs₀ hcancel).wellFormed
  have hend := hrun.invariant (I := fun t => t.WellFormed ∧ t.ledger.Retired g)
    (fun t op t' ht _ hP hok => ⟨(State.follows_step ht.1 hok).wellFormed,
      (State.retired_step ht.1 ht.2 hP hok).1⟩)
    ⟨hs₁, State.retired_commandCancel hs₀ hG hrunning hnone hcancel⟩
  rw [State.givesNothing_iff]
  exact (State.retired_step hend.1 hend.2 hother hok).2

/-- The node with the task falls silent after the cancel, and another one joins. -/
theorem nothing_given_after_cancel_running :
    (after soloConfig (joining 1 5 ++ tasking 1 ++ [.cancel 1] ++ (silence ++ joining 2 6))).GivesNothing 1
      (after soloConfig
        (joining 1 5 ++ tasking 1 ++ [.cancel 1] ++ (silence ++ joining 2 6) ++ [.balance])) := by
  have h₀ : (coordinator.exec (fun _ _ => True) (initial soloConfig)
      (joining 1 5 ++ tasking 1)).isSome := by decide +kernel
  have h₁ : (coordinator.exec (fun _ _ => True) (initial soloConfig)
      (joining 1 5 ++ tasking 1 ++ [.cancel 1])).isSome := by decide +kernel
  have h₂ : (coordinator.exec (fun _ _ => True) (initial soloConfig)
      (joining 1 5 ++ tasking 1 ++ [.cancel 1] ++ (silence ++ joining 2 6))).isSome := by
    decide +kernel
  have hcancel := run_from h₀ (show (coordinator.exec (fun _ _ => True) _ [.cancel 1]).isSome by
    decide +kernel)
  have hrun := run_from h₁ (show (coordinator.exec (State.opensOther 1) _
    (silence ++ joining 2 6)).isSome by decide +kernel)
  have hbalance := run_from h₂ (show (coordinator.exec (State.opensOther 1) _ [.balance]).isSome by
    decide +kernel)
  have hnone : ∀ t task, (after soloConfig (joining 1 5 ++ tasking 1)).task? t = some task →
      task.groupId = 1 → task.status ≠ .tsNone := by
    rw [State.forall_task?_iff]
    decide +kernel
  rcases hcancel.step_eq_ok with ⟨-, -, hcancelOk⟩
  rcases hbalance.step_eq_ok with ⟨-, hother, hok⟩
  exact nothing_given_after_cancel (run_after h₀)
    (show _ = some { id := 1, remainingTasks := 1, status := .tsRunning } by decide +kernel) rfl
    hnone hcancelOk hrun hother hok

/-- The node with the task has fallen silent before the cancel, and the task goes to the next one that
joins. -/
theorem given_after_cancel : ¬ ∀ (config : CoordinatorConfig) (ops₀ ops : List Op) (op : Op)
    (s₀ s₁ s s' : State) (g : TaskId) (G : TaskGroup),
    coordinator.FreeRun (initial config) ops₀ s₀ → s₀.group? g = some G → G.status = .tsRunning →
    s₀.commandCancel g = .ok s₁ → coordinator.FreeRun s₁ ops s → s.step op = .ok s' →
    s.GivesNothing g s' := by
  intro h
  have hrun := run_after (show (coordinator.exec (fun _ _ => True) (initial soloConfig)
    (joining 1 5 ++ tasking 1 ++ silence ++ ([.cancel 1] ++ (joining 2 6 ++ [.balance])))).isSome by
      decide +kernel)
  rcases hrun.split with ⟨s₀, hrun₀, hrest₀⟩
  rcases hrest₀.split with ⟨s₁, hcancel, hrest₁⟩
  rcases hrest₁.split with ⟨s, hrun₁, hbalance⟩
  have hs₀ := eq_after hrun₀
  have hs := eq_after (hrun₀.append (hcancel.append hrun₁))
  have hG : s₀.group? 1 = some { id := 1, remainingTasks := 1, status := .tsRunning } := by
    rw [hs₀]
    decide +kernel
  have hok : s.step .balance = _ := hbalance.step_eq_ok.2.2
  have hgives := h _ _ _ _ _ _ _ _ _ _ hrun₀ hG rfl hcancel.step_eq_ok.2.2 hrun₁ hok
  have hlength := (hgives.dispatches 2).length_le
  rw [hs] at hlength
  revert hlength
  decide +kernel

end Bem
