import Bem.Coordinator.Exclusive

/-!
# Running tasks have a node

A running task of a running group lies on some desk, until the node behind the desk is removed:
`terminateNode` forgets the node's list, where the maintenance loop gives the tasks back first.
-/

namespace Bem

namespace Desk

variable {heap : Heap Task} {d : Desk} {r q : Ref}

theorem mem_list_assign_of_mem (h : q ∈ d.list) : q ∈ (d.assign heap r).list := by
  by_cases hl : d.lists heap (heap.get r).id
  · rwa [assign_of_lists hl]
  · rw [assign_of_not_lists (by simpa using hl)]
    exact List.mem_append_left _ h

/-- Where ids tell tasks apart, the task assigned lies on the desk afterwards. -/
theorem mem_list_assign_self (hid : ∀ q ∈ d.list, (heap.get q).id = (heap.get r).id → q = r) :
    r ∈ (d.assign heap r).list := by
  by_cases hl : d.lists heap (heap.get r).id
  · rw [assign_of_lists hl]
    rcases lists_iff.mp hl with ⟨q, hq, heq⟩
    rwa [hid q hq heq] at hq
  · rw [assign_of_not_lists (by simpa using hl)]
    exact List.mem_append_right _ (List.mem_singleton_self r)

end Desk

namespace Ledger

variable {L L' : Ledger} {a : Act}

/-- The task runs, and so does its group. -/
def Wanted (L : Ledger) (r : Ref) : Prop :=
  (L.heap.get r).status = .tsRunning ∧
    ∃ G, L.group (L.heap.get r).groupId = some G ∧ G.status = .tsRunning

/-- Every wanted task lies on some desk. -/
def Attended (L : Ledger) : Prop :=
  ∀ r < L.heap.next, L.Wanted r → ∃ n d, L.desk n = some d ∧ r ∈ d.list

/-- The act does not take a desk away on which a wanted task lies. -/
def Spares (L : Ledger) (a : Act) : Prop :=
  ∀ n, a = .drop n → ∀ d, L.desk n = some d → ∀ r ∈ d.list, ¬ L.Wanted r

/-- One desk changes, and keeps what is still wanted. -/
private theorem Attended.update (hL : L.Attended) {n : NodeId} {e : Desk} {r : Ref}
    (hr : r < L.heap.next) (hold : L.Wanted r)
    (hkeep : ∀ d, L.desk n = some d → r ∈ d.list → r ∈ e.list) :
    ∃ m d, Function.update L.desk n (some e) m = some d ∧ r ∈ d.list := by
  rcases hL r hr hold with ⟨m, d, hd, hmem⟩
  by_cases hm : m = n
  · rw [hm] at hd
    exact ⟨n, e, Function.update_self _ _ _, hkeep d hd hmem⟩
  · exact ⟨m, d, by rwa [Function.update_of_ne hm], hmem⟩

/-- A desk that was there changes. -/
private theorem Attended.updateDesk (hL : L.Attended) {n : NodeId} {d e : Desk} {r : Ref}
    (hr : r < L.heap.next) (hold : L.Wanted r) (hdesk : L.desk n = some d)
    (hkeep : r ∈ d.list → r ∈ e.list) :
    ∃ m d', Function.update L.desk n (some e) m = some d' ∧ r ∈ d'.list := by
  apply hL.update hr hold
  intro d' hd' hmem
  rw [hdesk] at hd'
  cases hd'
  exact hkeep hmem

theorem Attended.step (hL : L.Attended) (hsound : L.Sound) (h : Step L a L') (hspares : L.Spares a)
    (hindexed : L'.Indexed) (hnext : L'.heap.next ≤ 2 ^ 32) : L'.Attended := by
  -- ids tell the tasks of the new ledger apart
  have hinj {n : NodeId} {d : Desk} (hd : L.desk n = some d) {r : Ref} (hr : r < L'.heap.next) :
      ∀ q ∈ d.list, (L'.heap.get q).id = (L'.heap.get r).id → q = r :=
    fun q hq => hindexed.id_inj hnext ((hsound.list n d hd q hq).trans_le h.next_le) hr
  intro r hr hwanted
  cases h with
  | @join n hnew =>
    apply hL.update hr hwanted
    intro d hd
    rw [hnew] at hd
    cases hd
  | @drop n =>
    rcases hL r hr hwanted with ⟨m, d, hd, hmem⟩
    have hm : m ≠ n := by
      intro heq
      rw [heq] at hd
      exact hspares n rfl d hd r hmem hwanted
    exact ⟨m, d, (Function.update_of_ne hm _ _).trans hd, hmem⟩
  | @note n d message hdesk =>
    exact hL.updateDesk hr hwanted hdesk id
  | @hand n d q hdesk hindex hnone =>
    by_cases hrq : r = q
    · refine ⟨n, _, Function.update_self _ _ _, ?_⟩
      rw [hrq] at hr ⊢
      apply Desk.mem_list_assign_self
      simpa using hinj hdesk hr
    · have hold : L.Wanted r := by
        unfold Wanted at hwanted ⊢
        rwa [status_setStatus, if_neg hrq, groupId_setStatus] at hwanted
      exact hL.updateDesk hr hold hdesk Desk.mem_list_assign_of_mem
  | @release n d hdesk =>
    rw [next_giveBack] at hr
    unfold Wanted at hwanted
    rw [status_giveBack, groupId_giveBack] at hwanted
    by_cases hback : r ∈ d.list ∧ (L.heap.get r).status = .tsRunning
    · rw [if_pos hback] at hwanted
      cases hwanted.1
    · rw [if_neg hback] at hwanted
      exact hL.updateDesk hr hwanted hdesk fun hmem => absurd ⟨hmem, hwanted.1⟩ hback
  | @openGroup g nNodes =>
    rw [heap_openGroup] at hr
    have hold : L.Wanted r := by
      unfold Wanted at hwanted ⊢
      rw [heap_openGroup, group_openGroup, if_neg] at hwanted
      · exact hwanted
      -- every task has a known group
      · rintro ⟨hg, hnone⟩
        rw [← hg] at hnone
        exact hsound.group r hr hnone
    rw [desk_openGroup]
    exact hL r hr hold
  | @create n d task hdesk =>
    by_cases hrq : r = L.heap.next
    · refine ⟨n, _, Function.update_self _ _ _, ?_⟩
      rw [hrq] at hr ⊢
      exact Desk.mem_list_assign_self (hinj hdesk hr)
    · have hlt : r < L.heap.next := Nat.lt_of_le_of_ne (Nat.lt_succ_iff.mp hr) hrq
      have hold : L.Wanted r := by
        unfold Wanted at hwanted ⊢
        rwa [heap_create, Heap.get_alloc_ne hrq] at hwanted
      exact hL.updateDesk hlt hold hdesk Desk.mem_list_assign_of_mem
  | @cancelGroup g G hG =>
    rcases hwanted with ⟨hrunning, G', hG', hG'running⟩
    rcases update_eq_some.mp hG' with ⟨-, rfl⟩ | ⟨-, hG'⟩
    · cases hG'running
    · exact hL r hr ⟨hrunning, G', hG', hG'running⟩
  | @withdraw t q G hindex _ hG hcancelled =>
    rcases hL r hr hwanted with ⟨n, d, hd, hmem⟩
    refine ⟨n, d.unassign L.heap t, congrArg (Option.map (Desk.unassign L.heap t)) hd, ?_⟩
    rw [Desk.mem_list_unassign (hsound.distinct n d hd)]
    refine ⟨hmem, fun hid => ?_⟩
    -- the task withdrawn belongs to a cancelled group
    have hq := hsound.index t q hindex
    have hrq : r = q := hindexed.id_inj hnext hr hq.1 (hid.trans hq.2.symm)
    rcases hwanted with ⟨-, G', hG', hG'running⟩
    rw [hrq] at hG'
    cases hG.symm.trans hG'
    rw [hcancelled] at hG'running
    cases hG'running
  | @settle q G result hindex _ hG =>
    rcases hwanted with ⟨hrunning, G', hG', hG'running⟩
    rw [status_setStatus] at hrunning
    split at hrunning
    next => cases hrunning
    next hrq =>
      rw [groupId_setStatus] at hG'
      apply hL r hr ⟨hrunning, ?_⟩
      rcases update_eq_some.mp hG' with ⟨hg, rfl⟩ | ⟨-, hG'⟩
      · exact ⟨G, by rw [hg]; exact hG, State.running_of_acceptResult _ _ hG'running⟩
      · exact ⟨G', hG', hG'running⟩

end Ledger

/-! ## Runs -/

namespace State

/-- Every running task of a running group is in the list of a live node. -/
def NoOrphan (s : State) : Prop :=
  ∀ t task G, s.task? t = some task → task.status = .tsRunning → s.group? task.groupId = some G →
    G.status = .tsRunning → ∃ n, s.Holds n t

/-- The step does not remove a node that has a running task of a running group in its list. -/
def sparesWanted (s : State) : Op → Prop
  | .erase n => ∀ node ∈ s.node? n, ∀ r ∈ node.tasks, (s.taskHeap.get r).status = .tsRunning →
    ∀ G ∈ s.group? (s.taskHeap.get r).groupId, G.status ≠ .tsRunning
  | _ => True

instance (s : State) (op : Op) : Decidable (s.sparesWanted op) :=
  match op with
  | .erase n => inferInstanceAs (Decidable (∀ node ∈ s.node? n, ∀ r ∈ node.tasks,
    (s.taskHeap.get r).status = .tsRunning →
    ∀ G ∈ s.group? (s.taskHeap.get r).groupId, G.status ≠ .tsRunning))
  | .select _ | .assign | .cancel _ | .balance | .maintain _ | .accept _ | .insert | .result _
  | .hello _ _ | .notify _ _ _ | .write _ | .rehash _ _ _ => .isTrue trivial

variable {s s' : State}

theorem noOrphan_iff (hs : s.Regular) : s.NoOrphan ↔ s.ledger.Attended := by
  constructor
  · intro h r hr hwanted
    rcases hwanted with ⟨hrunning, G, hG, hGrunning⟩
    have htask := hs.task?_id hr
    rcases h _ _ G htask.2 hrunning hG hGrunning with ⟨n, node, hnode, hlists⟩
    exact ⟨n, node.desk, ledger_desk hnode, (hs.lists_iff htask.1 hnode).mp hlists⟩
  · intro h t task G htask hrunning hG hGrunning
    rcases Option.map_eq_some_iff.mp htask with ⟨r, hr, hget⟩
    rw [← hget] at hrunning hG
    have hindex := hs.wellFormed.sound.index t r hr
    rcases h r hindex.1 ⟨hrunning, G, hG, hGrunning⟩ with ⟨n, d, hd, hmem⟩
    rcases ledger_desk_iff.mp hd with ⟨node, hnode, rfl⟩
    exact ⟨n, node, hnode, (hs.lists_iff hr hnode).mpr hmem⟩

/-- A section leaves no orphan exactly when it spares the wanted tasks. -/
theorem attended_step_iff {op : Op} (hs : s.Regular) (hattended : s.ledger.Attended)
    (hok : s.step op = .ok s') (hs' : s'.Regular) :
    s'.ledger.Attended ↔ s.sparesWanted op := by
  have hfollows := follows_step hs.wellFormed hok
  have hsound := hs.wellFormed.sound
  -- every other act keeps all desks
  have hother (hnot : ∀ n, ¬ s.mayDo op (.drop n)) : s'.ledger.Attended := by
    refine (does_indexed ?_ hfollows.does hsound hs.indexed hattended (Nat.le_of_lt hs'.few)).2
    intro L a L' hsound _ hL hQ hstep hindexed' hnext
    apply hL.step hsound hstep _ hindexed' hnext
    intro n ha
    rw [ha] at hQ
    exact absurd hQ (hnot n)
  cases op with
  | erase n =>
    have hledger := ledger_eraseNode hok
    constructor
    · intro h node hnode r hr hrunning G hG hGrunning
      have hdesk := ledger_desk hnode
      have hwanted : s'.ledger.Wanted r := by
        rw [hledger]
        exact ⟨hrunning, G, hG, hGrunning⟩
      have hlt : r < s'.ledger.heap.next := by
        rw [hledger]
        exact hsound.list n _ hdesk r hr
      rcases h r hlt hwanted with ⟨m, d, hd, hmem⟩
      rw [hledger] at hd
      by_cases hm : m = n
      · rw [hm] at hd
        change Function.update s.ledger.desk n none n = some d at hd
        rw [Function.update_self] at hd
        cases hd
      · change Function.update s.ledger.desk n none m = some d at hd
        rw [Function.update_of_ne hm] at hd
        exact hm (hs.exclusive.once m n d _ hd hdesk r hmem hr)
    · intro h
      have hstep : Ledger.Step s.ledger (.drop n) s'.ledger := by
        rw [hledger]
        exact .drop
      apply hattended.step hsound hstep _ hs'.indexed (Nat.le_of_lt hs'.few)
      intro m hm d hd r hr hwanted
      cases hm
      rcases ledger_desk_iff.mp hd with ⟨node, hnode, rfl⟩
      rcases hwanted with ⟨hrunning, G, hG, hGrunning⟩
      exact h node hnode r hr hrunning G hG hGrunning
  | _ => exact ⟨fun _ => trivial, fun _ => hother fun n => nofun⟩

end State

/-- In a run that makes fewer than `2 ^ 32` sub-tasks no task is ever orphaned exactly when no node is
removed that has a running task of a running group in its list. -/
theorem no_orphan_throughout_iff {config : CoordinatorConfig} {ops : List Op} {s : State}
    (hrun : coordinator.FreeRun (initial config) ops s) (hfew : s.subTasks < 2 ^ 32) :
    coordinator.Throughout State.NoOrphan (initial config) ops s ↔
      coordinator.Run State.sparesWanted (initial config) ops s := by
  have hregular := regular_throughout hrun (regular_initial config) hfew
  apply Machine.throughout_iff (K := State.Regular) (J := fun _ => True) _
    (fun _ _ _ _ _ _ _ _ _ => trivial) hregular.1 hregular.2 trivial nofun
  intro s op s' hs _ hno _ hok hs'
  rw [State.noOrphan_iff hs']
  exact State.attended_step_iff hs ((State.noOrphan_iff hs).mp hno) hok hs'

/-- A node that is lost before it has anything to do. -/
theorem no_orphan_throughout_idle :
    coordinator.Throughout State.NoOrphan (initial soloConfig)
      (joining 1 5 ++ joining 2 6 ++ [.erase 1, .balance] ++ tasking 1)
      (after soloConfig (joining 1 5 ++ joining 2 6 ++ [.erase 1, .balance] ++ tasking 1)) := by
  have hrun := run_after (show (coordinator.exec State.sparesWanted (initial soloConfig)
    (joining 1 5 ++ joining 2 6 ++ [.erase 1, .balance] ++ tasking 1)).isSome by decide +kernel)
  exact (no_orphan_throughout_iff hrun.free (by decide +kernel)).mpr hrun

/-- A node is removed while it has a task: the task stays running and nobody has it, although the
other node could take it. -/
theorem orphaned_by_terminate : ¬ ∀ (config : CoordinatorConfig) (ops : List Op) (s : State),
    coordinator.FreeRun (initial config) ops s → s.subTasks < 2 ^ 32 → s.NoOrphan := by
  intro h
  have hrun := run_after (show (coordinator.exec (fun _ _ => True) (initial soloConfig)
    (joining 1 5 ++ tasking 1 ++ joining 2 6 ++ [.erase 1, .balance])).isSome by decide +kernel)
  have hno := h _ _ _ hrun (by decide +kernel)
  have hholds := hno 1
    { id := 1, groupId := 1, gameId := 1, agent1 := 1, agent2 := 1, status := .tsRunning }
    { id := 1, remainingTasks := 1, status := .tsRunning }
    (by decide +kernel) rfl (by decide +kernel) rfl
  rw [State.exists_holds_iff] at hholds
  revert hholds
  decide +kernel

end Bem
