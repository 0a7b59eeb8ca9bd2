import Bem.Coordinator.Exclusive
import Mathlib.Data.Finset.Card
import Mathlib.Order.Interval.Finset.Nat

/-!
# What a group waits for

The counter of a running group is compared with the number of its tasks that are not done.  The two
are set apart by `command_task`, which counts the selected nodes and skips those without games, and
every result takes one off both.
-/

namespace Bem

theorem toNat_sub_one {i : UInt32} (h : 0 < i.toNat) : (i - 1).toNat = i.toNat - 1 := by
  have hone : (1 : UInt32) ≤ i := UInt32.le_iff_toNat_le.mpr h
  exact UInt32.toNat_sub_of_le _ _ hone

namespace Ledger

variable {L L' : Ledger} {a : Act} {g : TaskId}

/-! ## The tasks of a group -/

/-- The tasks of a group. -/
def members (L : Ledger) (g : TaskId) : Finset Ref :=
  (Finset.range L.heap.next).filter fun r => (L.heap.get r).groupId = g

/-- The tasks of a group that are not done. -/
def unfinished (L : Ledger) (g : TaskId) : Finset Ref :=
  (L.members g).filter fun r => (L.heap.get r).status ≠ .tsDone

theorem mem_members {r : Ref} :
    r ∈ L.members g ↔ r < L.heap.next ∧ (L.heap.get r).groupId = g := by
  rw [members, Finset.mem_filter, Finset.mem_range]

theorem mem_unfinished {r : Ref} : r ∈ L.unfinished g ↔
    (r < L.heap.next ∧ (L.heap.get r).groupId = g) ∧ (L.heap.get r).status ≠ .tsDone := by
  rw [unfinished, Finset.mem_filter, mem_members]

/-- A group that is not known has no tasks. -/
theorem members_eq_empty (hsound : L.Sound) (hg : L.group g = none) : L.members g = ∅ := by
  apply Finset.eq_empty_of_forall_notMem
  intro r hr
  rw [mem_members] at hr
  exact hsound.group r hr.1 (by rw [hr.2, hg])

/-- Only `create` makes tasks. -/
theorem Step.members (h : Step L a L') (ha : ∀ n task, a = .create n task → task.groupId ≠ g) :
    L'.members g = L.members g := by
  ext r
  rw [mem_members, mem_members]
  by_cases hr : r < L.heap.next
  · rw [(h.get hr).2]
    exact and_congr_left fun _ => iff_of_true (hr.trans_le h.next_le) hr
  · refine iff_of_false (fun hr' => ?_) fun hr' => hr hr'.1
    cases h with
    | @create n d task =>
      rw [heap_create, Heap.next_alloc] at hr'
      rw [Nat.eq_of_lt_succ_of_not_lt hr'.1 hr, Heap.get_alloc_self] at hr'
      exact ha n task rfl hr'.2
    | release =>
      rw [next_giveBack] at hr'
      exact hr hr'.1
    | openGroup =>
      rw [heap_openGroup] at hr'
      exact hr hr'.1
    | _ => exact hr hr'.1

theorem members_create {n : NodeId} {d : Desk} {task : Task} (hg : task.groupId = g) :
    (L.create n d task).members g = insert L.heap.next (L.members g) := by
  ext r
  rw [Finset.mem_insert, mem_members, mem_members, heap_create, Heap.next_alloc]
  by_cases hr : r = L.heap.next
  · rw [hr, Heap.get_alloc_self]
    exact iff_of_true ⟨Nat.lt_succ_self _, hg⟩ (Or.inl rfl)
  · rw [Heap.get_alloc_ne hr, Nat.lt_succ_iff_lt_or_eq]
    simp [hr]

theorem notMem_members_next : L.heap.next ∉ L.members g := by
  rw [mem_members]
  exact fun h => Nat.lt_irrefl _ h.1

/-! ## Counters -/

/-- The counter of every running group is ahead of its unfinished tasks by the group's debt. -/
def Owes (L : Ledger) (debt : TaskId → Nat) : Prop :=
  ∀ g G, L.group g = some G → G.status = .tsRunning →
    G.remainingTasks.toNat = (L.unfinished g).card + debt g

/-- No task of the group becomes done or undone. -/
private theorem unfinished_congr (h : Step L a L')
    (ha : ∀ n task, a = .create n task → task.groupId ≠ g)
    (hstatus : ∀ r, r < L.heap.next → (L.heap.get r).groupId = g →
      ((L'.heap.get r).status = .tsDone ↔ (L.heap.get r).status = .tsDone)) :
    L'.unfinished g = L.unfinished g := by
  unfold unfinished
  rw [h.members ha]
  apply Finset.filter_congr
  intro r hr
  rw [mem_members] at hr
  exact not_congr (hstatus r hr.1 hr.2)

/-- The acts outside `command_task` keep every debt. -/
theorem Owes.step {debt : TaskId → Nat} (hL : L.Owes debt) (hsound : L.Sound) (h : Step L a L')
    (hopen : ∀ g nNodes, a ≠ .openGroup g nNodes) (hcreate : ∀ n task, a ≠ .create n task) :
    L'.Owes debt := by
  intro g G' hG' hrunning
  have hnot : ∀ n task, a = .create n task → task.groupId ≠ g :=
    fun n task ha => absurd ha (hcreate n task)
  by_cases hsettle : ∃ r result, a = .settle r result ∧ (L.heap.get r).groupId = g
  · rcases hsettle with ⟨r, result, rfl, hg⟩
    cases h with
    | @settle _ G _ hindex hrunning' hG =>
      rw [hg] at hG
      have hr := hsound.index _ _ hindex
      -- the task that is done now was counted before
      have hmem : r ∈ L.unfinished g := by
        rw [mem_unfinished, hrunning']
        exact ⟨⟨hr.1, hg⟩, by decide⟩
      have herase : unfinished { L with
          heap := setStatus L.heap r .tsDone
          group := Function.update L.group (L.heap.get r).groupId
            (some (State.acceptResult G result)) } g = (L.unfinished g).erase r := by
        ext q
        rw [Finset.mem_erase, mem_unfinished, mem_unfinished]
        change (q < L.heap.next ∧ ((setStatus L.heap r .tsDone).get q).groupId = g) ∧
          ((setStatus L.heap r .tsDone).get q).status ≠ .tsDone ↔ _
        rw [groupId_setStatus, status_setStatus]
        by_cases hq : q = r
        · simp [hq]
        · simp [hq]
      have hpos : 0 < (L.unfinished g).card := Finset.card_pos.mpr ⟨r, hmem⟩
      rw [herase, Finset.card_erase_of_mem hmem]
      rcases update_eq_some.mp hG' with ⟨-, rfl⟩ | ⟨hne, -⟩
      · have hold := hL g G hG (State.running_of_acceptResult _ _ hrunning)
        rw [State.remainingTasks_acceptResult, toNat_sub_one (by omega)]
        omega
      · exact absurd hg.symm hne
  · have hunfinished : L'.unfinished g = L.unfinished g := by
      apply unfinished_congr h hnot
      intro r hr hg
      apply h.done_iff hr
      intro result ha
      exact hsettle ⟨r, result, ha, hg⟩
    rw [hunfinished]
    apply hL g G' _ hrunning
    cases hG : L.group g with
    | none =>
      have hnone := h.group_eq_none hG fun nNodes => hopen g nNodes
      cases hnone.symm.trans hG'
    | some G =>
      rcases h.group_cases hG with hsame | ⟨-, -, hcancel⟩ | ⟨r, result, ha, hg, -⟩
      · exact hsame.symm.trans hG'
      · cases hcancel.symm.trans hG'
        cases hrunning
      · exact absurd ⟨r, result, ha, hg⟩ hsettle

/-- A new group owes all its sub-tasks. -/
theorem Owes.openGroup {debt : TaskId → Nat} (hL : L.Owes debt) (hsound : L.Sound)
    {nNodes : Nat} (hnew : L.group g = none) (hn : nNodes < 2 ^ 32) :
    (L.openGroup g nNodes).Owes (Function.update debt g nNodes) := by
  intro g' G hG hrunning
  rw [group_openGroup] at hG
  have hunfinished : (L.openGroup g nNodes).unfinished g' = L.unfinished g' := by
    unfold unfinished members
    rw [heap_openGroup]
  rw [hunfinished]
  by_cases hg : g' = g
  · rw [if_pos ⟨hg, hnew⟩] at hG
    cases hG
    rw [hg, Function.update_self, unfinished, members_eq_empty hsound hnew, Finset.filter_empty,
      Finset.card_empty, Nat.zero_add]
    exact UInt32.toNat_ofNat_of_lt' hn
  · rw [if_neg (fun h => hg h.1)] at hG
    rw [Function.update_of_ne hg]
    exact hL g' G hG hrunning

/-- Every task made pays one off. -/
theorem Owes.create {debt : TaskId → Nat} {c : Nat} {n : NodeId} {d : Desk} {task : Task}
    (hL : L.Owes (Function.update debt task.groupId (c + 1))) (hrunning : task.status = .tsRunning) :
    (L.create n d task).Owes (Function.update debt task.groupId c) := by
  intro g G hG hGrunning
  have hold := hL g G hG hGrunning
  have hget {r : Ref} (hr : r ∈ L.members g) : (L.heap.alloc task).get r = L.heap.get r := by
    rw [mem_members] at hr
    exact Heap.get_alloc_ne (Nat.ne_of_lt hr.1)
  have hfilter : (L.members g).filter (fun r => ((L.heap.alloc task).get r).status ≠ .tsDone) =
      L.unfinished g := Finset.filter_congr fun r hr => by rw [hget hr]
  by_cases hg : g = task.groupId
  · -- one more member that runs
    have hunfinished : (L.create n d task).unfinished g =
        insert L.heap.next (L.unfinished g) := by
      unfold unfinished
      rw [members_create hg.symm, heap_create, Finset.filter_insert, Heap.get_alloc_self, hrunning,
        if_pos (by decide)]
      exact congrArg _ hfilter
    have hnew : L.heap.next ∉ L.unfinished g :=
      fun h => notMem_members_next (Finset.mem_of_mem_filter _ h)
    rw [hg, Function.update_self] at hold
    rw [hunfinished, Finset.card_insert_of_notMem hnew, hg, Function.update_self]
    omega
  -- the other groups do not see the task
  · have hunfinished : (L.create n d task).unfinished g = L.unfinished g := by
      rw [← hfilter]
      unfold unfinished
      congr 1
      ext r
      rw [mem_members, mem_members, heap_create, Heap.next_alloc]
      by_cases hr : r = L.heap.next
      · rw [hr, Heap.get_alloc_self]
        exact iff_of_false (fun h => hg h.2.symm) fun h => Nat.lt_irrefl _ h.1
      · rw [Heap.get_alloc_ne hr, Nat.lt_succ_iff_lt_or_eq]
        simp [hr]
    rw [hunfinished]
    rw [Function.update_of_ne hg] at hold ⊢
    exact hold

end Ledger

/-! ## Commands -/

namespace State

variable {s s' : State} {selection : Selection}

/-- What holds after a new group is entered, and is carried on by every task that is made in it, holds
at the end of `command_task`.  The list is that of the shares still to be given out. -/
theorem assignShares_rule_used {I : List (NodeId × UInt32) → Ledger → Prop} (hs : s.WellFormed)
    (hselection : s.selection = some selection)
    (hopen : I selection.used (s.ledger.openGroup s.nextGroupId selection.nodeIds.length))
    (hcreate : ∀ share l L task L', L.Sound → I (share :: l) L → task.groupId = s.nextGroupId →
      task.games = share.2 → Ledger.Step L (.create share.1 task) L' → I l L')
    (hok : s.assignShares = .ok s') : I [] s'.ledger := by
  rcases assignShares_cases hok with ⟨hnone, -⟩ | ⟨selection', hselection', hloop⟩
  · cases hselection.symm.trans hnone
  cases hselection.symm.trans hselection'
  have hopened := follows_openGroup hs selection.nodeIds.length
  have hledger := hopened.1.eq_openGroup
  have hgroup : (s.openGroup selection.nodeIds.length).groups.at? s.nextGroupId ≠ none := by
    rcases hopened.2.groups s.nextGroupId (KeyedMap.mem_emplace.mpr (Or.inl rfl)) with ⟨G, hG⟩
    rw [hG]
    exact Option.some_ne_none G
  -- of the shares that are left only those with games in them count
  let J (l : List (NodeId × UInt32)) (t : State) : Prop :=
    t.WellFormed ∧ t.groups.at? s.nextGroupId ≠ none ∧ I (l.filter fun share => share.2 ≠ 0) t.ledger
  have hJ : J [] s' := by
    apply Except.foldlM_rest (I := J) _ ⟨hopened.2, hgroup, by rwa [hledger]⟩ hloop
    intro share l t t' ht hstep
    rcases follows_assignShare ht.1 ht.2.1 hstep with ⟨ht', hgroups, ⟨hzero, rfl⟩ | ⟨hne, hact⟩⟩
    · refine ⟨ht', ht.2.1, ?_⟩
      have hI := ht.2.2
      rwa [List.filter_cons_of_neg (by simpa using hzero)] at hI
    · refine ⟨ht', by rw [hgroups]; exact ht.2.1, ?_⟩
      have hI := ht.2.2
      rw [List.filter_cons_of_pos (by simpa using hne)] at hI
      exact hcreate _ _ _ _ _ ht.1.sound hI rfl rfl hact
  exact hJ.2.2

/-- The same with the number of the tasks still to be made. -/
theorem assignShares_rule {I : Nat → Ledger → Prop} (hs : s.WellFormed)
    (hselection : s.selection = some selection)
    (hopen : I selection.used.length
      (s.ledger.openGroup s.nextGroupId selection.nodeIds.length))
    (hcreate : ∀ c L n task L', L.Sound → I (c + 1) L → task.groupId = s.nextGroupId →
      Ledger.Step L (.create n task) L' → I c L')
    (hok : s.assignShares = .ok s') : I 0 s'.ledger := by
  apply assignShares_rule_used (I := fun l L => I l.length L) hs hselection hopen _ hok
  intro share l L task L' hsound hI hgroup _ hstep
  exact hcreate _ _ _ _ _ hsound hI hgroup hstep

theorem subTasks_assignShares (hs : s.WellFormed) (hselection : s.selection = some selection)
    (hok : s.assignShares = .ok s') : s'.subTasks = s.subTasks + selection.used.length := by
  have hrule := assignShares_rule
    (I := fun c L => L.heap.next + c = s.subTasks + selection.used.length) hs hselection
    (by rw [Ledger.heap_openGroup]; rfl)
    (by
      intro c L n task L' _ hc _ hstep
      cases hstep
      rw [Ledger.heap_create, Heap.next_alloc, ← hc, Nat.add_assoc, Nat.add_comm 1])
    hok
  exact hrule

/-- Afterwards the group is owed the sub-tasks that were not made. -/
theorem owes_assignShares (hs : s.Regular) (hfresh : s.groups.at? s.nextGroupId = none)
    (hselection : s.selection = some selection) (howes : s.ledger.Owes fun _ => 0)
    (hok : s.assignShares = .ok s') :
    s'.ledger.Owes (Function.update (fun _ => 0) s.nextGroupId
      (selection.nodeIds.length - selection.used.length)) := by
  have hlength := (hs.populated.selection selection hselection).2
  have hle := length_used_le selection
  apply assignShares_rule (I := fun c L => L.Owes (Function.update (fun _ => 0) s.nextGroupId
    (selection.nodeIds.length - selection.used.length + c))) hs.wellFormed hselection _ _ hok
  · rw [Nat.sub_add_cancel hle]
    exact howes.openGroup hs.wellFormed.sound hfresh (by omega)
  · intro c L n task L' _ hL hgroup hstep
    cases hstep with
    | create _ _ hrunning =>
      rw [← hgroup] at hL ⊢
      exact Ledger.Owes.create hL hrunning

/-- The new group is running afterwards. -/
theorem group_assignShares (hs : s.WellFormed) (hfresh : s.groups.at? s.nextGroupId = none)
    (hselection : s.selection = some selection) (hok : s.assignShares = .ok s') :
    s'.groups.at? s.nextGroupId = some (newGroup s.nextGroupId selection.nodeIds.length) := by
  apply assignShares_rule (I := fun _ L => L.group s.nextGroupId =
    some (newGroup s.nextGroupId selection.nodeIds.length)) hs hselection _ _ hok
  · rw [Ledger.group_openGroup, if_pos ⟨rfl, hfresh⟩]
  · intro c L n task L' _ hL _ hstep
    cases hstep
    exact hL

/-! ## Counting in the map -/

/-- No task is in the map twice. -/
theorem WellFormed.nodup_refs (hs : s.WellFormed) : (s.tasks.pointees.map Prod.snd).Nodup := by
  have hid (e : TaskId × Ref) (he : e ∈ s.tasks.pointees) : (s.taskHeap.get e.2).id = e.1 :=
    (hs.sound.index e.1 e.2 (KeyedMap.mem_pointees.mp he)).2
  apply List.Nodup.map_on _ (List.Nodup.of_map _ s.tasks.nodup_pointees)
  intro e he e' he' heq
  apply List.inj_on_of_nodup_map s.tasks.nodup_pointees he he'
  rw [← hid e he, ← hid e' he', heq]

/-- Without a wrap every task is in the map. -/
theorem Regular.mem_refs (hs : s.Regular) {r : Ref} :
    r ∈ s.tasks.pointees.map Prod.snd ↔ r < s.taskHeap.next := by
  constructor
  · intro hr
    rcases List.mem_map.mp hr with ⟨e, he, rfl⟩
    exact (hs.wellFormed.sound.index e.1 e.2 (KeyedMap.mem_pointees.mp he)).1
  · intro hr
    exact List.mem_map.mpr ⟨_, KeyedMap.mem_pointees.mpr (hs.task?_id hr).1, rfl⟩

theorem Regular.countTasks_eq_card (hs : s.Regular) (p : Task → Bool) : s.countTasks p =
    ((Finset.range s.taskHeap.next).filter fun r => p (s.taskHeap.get r)).card := by
  have hcount : s.countTasks p =
      ((s.tasks.pointees.map Prod.snd).filter fun r => p (s.taskHeap.get r)).length := by
    rw [← List.countP_eq_length_filter, List.countP_map]
    rfl
  rw [hcount, ← List.toFinset_card_of_nodup (hs.wellFormed.nodup_refs.filter _)]
  congr 1
  ext r
  rw [List.mem_toFinset, List.mem_filter, hs.mem_refs, Finset.mem_filter, Finset.mem_range]

/-- The sub-tasks of a group that are not done. -/
def unfinishedTasks (s : State) (g : TaskId) : Nat :=
  s.countTasks fun task => task.groupId = g ∧ task.status ≠ .tsDone

theorem Regular.unfinishedTasks_eq_card (hs : s.Regular) (g : TaskId) :
    s.unfinishedTasks g = (s.ledger.unfinished g).card := by
  rw [unfinishedTasks, hs.countTasks_eq_card]
  congr 1
  ext r
  rw [Ledger.mem_unfinished, Finset.mem_filter, Finset.mem_range, decide_eq_true_eq, and_assoc]
  rfl

/-! ## Groups that wait for exactly their sub-tasks -/

/-- The counter of a running group is the number of its unfinished tasks, and the result of the last
one finishes the group. -/
structure WaitsExactly (s : State) : Prop where
  remaining : ∀ g G, s.group? g = some G → G.status = .tsRunning →
    G.remainingTasks.toNat = s.unfinishedTasks g
  last : ∀ msg task G s', s.task? msg.taskId = some task → task.status = .tsRunning →
    s.group? task.groupId = some G → G.status = .tsRunning → s.unfinishedTasks task.groupId = 1 →
    s.handleResultMessage msg = .ok s' →
    ∃ G', s'.group? task.groupId = some G' ∧ G'.status = .tsDone

/-- `command_task` has at least one game for every node it has selected. -/
def enoughGames (s : State) : Op → Prop
  | .assign => ∀ selection ∈ s.selection,
    selection.nodeIds.length ≤ selection.task.games.toNat
  | _ => True

instance (s : State) (op : Op) : Decidable (s.enoughGames op) :=
  match op with
  | .assign => inferInstanceAs (Decidable (∀ selection ∈ s.selection,
    selection.nodeIds.length ≤ selection.task.games.toNat))
  | .select _ | .cancel _ | .erase _ | .balance | .maintain _ | .accept _ | .insert | .result _
  | .hello _ _ | .notify _ _ _ | .write _ | .rehash _ _ _ => .isTrue trivial

theorem waitsExactly_iff (hs : s.Regular) : s.WaitsExactly ↔ s.ledger.Owes fun _ => 0 := by
  constructor
  · intro h g G hG hrunning
    rw [h.remaining g G hG hrunning, hs.unfinishedTasks_eq_card]
    rfl
  · intro h
    have hremaining : ∀ g G, s.group? g = some G → G.status = .tsRunning →
        G.remainingTasks.toNat = s.unfinishedTasks g := by
      intro g G hG hrunning
      rw [hs.unfinishedTasks_eq_card]
      exact h g G hG hrunning
    refine ⟨hremaining, ?_⟩
    intro msg task G s' htask hrunning hG hGrunning hone hok
    -- the result of the last task that is not done
    have hremainingOne := (hremaining _ G hG hGrunning).trans hone
    rcases Option.map_eq_some_iff.mp htask with ⟨r, hr, rfl⟩
    rcases handleResultMessage_cases hok with
      ⟨q, hq, ⟨hnot, -⟩ | ⟨G', hG', -, ⟨hdone, -⟩ | ⟨-, rfl⟩⟩⟩
    · cases hr.symm.trans hq
      exact absurd hrunning hnot
    · cases hr.symm.trans hq
      cases hG.symm.trans hG'
      rw [hGrunning] at hdone
      cases hdone
    · cases hr.symm.trans hq
      cases hG.symm.trans hG'
      refine ⟨acceptResult G msg.result, ?_, ?_⟩
      · change (s.groups.store _ _).at? _ = _
        rw [KeyedMap.at?_store_of_at? hG', Function.update_self]
      · have hzero : G.remainingTasks - 1 = 0 := by
          rw [← UInt32.toNat_inj, toNat_sub_one (by omega)]
          change _ = 0
          omega
        rw [status_acceptResult, if_pos hzero]

/-- A section leaves no debt exactly when there are enough games. -/
theorem owes_step_iff {op : Op} {k : Nat} (hs : s.Regular) (hk : s.outline.Numbered k)
    (hle : k ≤ s.subTasks) (howes : s.ledger.Owes fun _ => 0) (hok : s.step op = .ok s') :
    (s'.ledger.Owes fun _ => 0) ↔ s.enoughGames op := by
  have hfollows := follows_step hs.wellFormed hok
  have hother (hopen : ∀ g nNodes, ¬ s.mayDo op (.openGroup g nNodes))
      (hcreate : ∀ n task, ¬ s.mayDo op (.create n task)) : s'.ledger.Owes fun _ => 0 := by
    have hboth : s'.ledger.Sound ∧ s'.ledger.Owes fun _ => 0 := by
      apply hfollows.does.invariant (I := fun L => L.Sound ∧ L.Owes fun _ => 0) _
        ⟨hs.wellFormed.sound, howes⟩
      intro L a L' hL hQ hstep
      refine ⟨hL.1.step hstep, hL.2.step hL.1 hstep ?_ ?_⟩
      · intro g nNodes ha
        exact hopen g nNodes (ha ▸ hQ)
      · intro n task ha
        exact hcreate n task (ha ▸ hQ)
    exact hboth.2
  cases op with
  | assign =>
    cases hselection : s.selection with
    | none =>
      rcases assignShares_cases hok with ⟨-, rfl⟩ | ⟨selection, hsome, -⟩
      · refine iff_of_true howes fun selection hsome => ?_
        rw [hselection] at hsome
        cases hsome
      · cases hselection.symm.trans hsome
    | some selection =>
      -- ids have not wrapped, so the number of the group is new
      have hfresh : s.groups.at? s.nextGroupId = none := by
        have hknown := hk.fresh (hle.trans_lt hs.few)
        exact Option.not_isSome_iff_eq_none.mp (by rw [Bool.not_eq_true]; exact hknown)
      have hdebt := owes_assignShares hs hfresh hselection howes hok
      have hG := group_assignShares hs.wellFormed hfresh hselection hok
      have hiff := length_used_eq_iff (hs.populated.selection selection hselection).1
      have hused := length_used_le selection
      have hP : s.enoughGames .assign ↔
          selection.nodeIds.length ≤ selection.task.games.toNat := by
        unfold enoughGames
        rw [hselection]
        simp
      rw [hP, ← hiff]
      constructor
      -- a group that waits for more results than it has tasks owes the difference
      · intro h
        have hremaining := h _ _ hG rfl
        rw [hdebt _ _ hG rfl, Function.update_self] at hremaining
        change _ = _ + 0 at hremaining
        omega
      · intro h
        rw [h, Nat.sub_self, Function.update_eq_self_iff.mpr rfl] at hdebt
        exact hdebt
  | _ => exact ⟨fun _ => trivial, fun _ => hother (fun _ _ => nofun) fun _ _ => nofun⟩

end State

/-- In a run that makes fewer than `2 ^ 32` sub-tasks every group waits for exactly its sub-tasks
exactly when no command has fewer games than nodes. -/
theorem waits_exactly_throughout_iff {config : CoordinatorConfig} {ops : List Op} {s : State}
    (hrun : coordinator.FreeRun (initial config) ops s) (hfew : s.subTasks < 2 ^ 32) :
    coordinator.Throughout State.WaitsExactly (initial config) ops s ↔
      coordinator.Run State.enoughGames (initial config) ops s := by
  have hregular := regular_throughout hrun (regular_initial config) hfew
  -- the number of groups is bounded by that of the sub-tasks, so that it does not wrap either
  let J (s : State) : Prop := ∃ k, s.outline.Numbered k ∧ k ≤ s.subTasks
  have hJ : J (initial config) := ⟨0, ⟨rfl, nofun⟩, Nat.zero_le _⟩
  have hwaits : (initial config).WaitsExactly := by
    rw [State.waitsExactly_iff (regular_initial config)]
    exact nofun
  apply Machine.throughout_iff (K := State.Regular) (J := J) _ _ hregular.1 hregular.2 hJ hwaits
  · intro s op s' hs hJ hwaits _ hok hs'
    rcases hJ with ⟨k, hk, hle⟩
    rw [State.waitsExactly_iff hs']
    exact State.owes_step_iff hs hk hle ((State.waitsExactly_iff hs).mp hwaits) hok
  · intro s op s' hs hJ _ hP hok _
    rcases hJ with ⟨k, hk, hle⟩
    cases hselection : s.selection with
    | none =>
      exact ⟨k, numbered_step hk hok fun _ => hselection,
        hle.trans (subTasks_le_of_step hs.wellFormed hok)⟩
    | some selection =>
      by_cases hop : op = .assign
      · -- the command makes a sub-task for every node, so at least one
        subst hop
        have hne := (hs.populated.selection selection hselection).1
        have hused := (length_used_eq_iff hne).mpr (hP selection hselection)
        have hpos := List.length_pos_of_ne_nil hne
        refine ⟨k + 1, numbered_assign hk hselection hok, ?_⟩
        rw [State.subTasks_assignShares hs.wellFormed hselection hok]
        omega
      · exact ⟨k, numbered_step hk hok fun h => absurd h hop,
          hle.trans (subTasks_le_of_step hs.wellFormed hok)⟩

/-- Two nodes share two games. -/
theorem waits_exactly_throughout_shared :
    coordinator.Throughout State.WaitsExactly (initial soloConfig)
      (joining 1 5 ++ joining 2 6 ++ tasking 2 ++ [.result { taskId := 1 }])
      (after soloConfig (joining 1 5 ++ joining 2 6 ++ tasking 2 ++ [.result { taskId := 1 }])) := by
  have hrun := run_after (show (coordinator.exec State.enoughGames (initial soloConfig)
    (joining 1 5 ++ joining 2 6 ++ tasking 2 ++ [.result { taskId := 1 }])).isSome by
      decide +kernel)
  exact (waits_exactly_throughout_iff hrun.free (by decide +kernel)).mpr hrun

/-- Two nodes for one game: the group waits for two sub-tasks and has one. -/
theorem waits_for_missing_task : ¬ ∀ (config : CoordinatorConfig) (ops : List Op) (s : State),
    coordinator.FreeRun (initial config) ops s → s.subTasks < 2 ^ 32 → s.WaitsExactly := by
  intro h
  have hrun := run_after (show (coordinator.exec (fun _ _ => True) (initial soloConfig)
    (joining 1 5 ++ joining 2 6 ++ tasking 1)).isSome by decide +kernel)
  have hwaits := h _ _ _ hrun (by decide +kernel)
  have hremaining := hwaits.remaining 1 { id := 1, remainingTasks := 2, status := .tsRunning }
    (by decide +kernel) rfl
  revert hremaining
  decide +kernel

end Bem
