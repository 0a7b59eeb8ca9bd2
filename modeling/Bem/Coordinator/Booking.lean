import Bem.Coordinator.Accounts

/-!
# The account of a group

A group is opened for a number of tasks.  Every result it accepts takes one off the counter, goes into
the sum and makes its task done, so that the three agree at any time, whatever else happens.
-/

namespace Bem

namespace Ledger

variable {L L' : Ledger} {a : Act} {g : TaskId} {nNodes : Nat} {log : List (TaskId × Result)}

/-- The account of a group that was opened for `nNodes` tasks, `log` being the results it has accepted,
under the ids of their tasks. -/
structure Booked (L : Ledger) (g : TaskId) (nNodes : Nat) (log : List (TaskId × Result)) : Prop where
  room : (L.members g).card ≤ nNodes
  nodup : (log.map Prod.fst).Nodup
  done : ∀ t, t ∈ log.map Prod.fst ↔
    ∃ r, L.index t = some r ∧ (L.heap.get r).groupId = g ∧ (L.heap.get r).status = .tsDone
  group : ∃ G, L.group g = some G ∧ G.remainingTasks.toNat + log.length = nNodes ∧
    G.aggregateResult = Result.sum (log.map Prod.snd) ∧ (G.status = .tsDone → G.remainingTasks = 0)

namespace Booked

/-- A result is still to come for every task of the map that is not done. -/
theorem length_add_card_le (hL : L.Booked g nNodes log) (hsound : L.Sound) {rs : Finset Ref}
    (hrs : ∀ r ∈ rs, (∃ t, L.index t = some r) ∧ (L.heap.get r).groupId = g ∧
      (L.heap.get r).status ≠ .tsDone) : log.length + rs.card ≤ nNodes := by
  have hsub : rs ⊆ L.members g := by
    intro r hr
    obtain ⟨⟨t, hindex⟩, hg, -⟩ := hrs r hr
    exact mem_members.mpr ⟨(hsound.index t r hindex).1, hg⟩
  -- every id in the log stands for a task of the group that is not in `rs`
  have hcard : (log.map Prod.fst).toFinset.card ≤ (L.members g \ rs).card := by
    apply Finset.card_le_card_of_injOn fun t => (L.index t).getD 0
    · intro t' ht'
      rw [Finset.mem_coe, List.mem_toFinset, hL.done] at ht'
      rcases ht' with ⟨q, hq, hqg, hqdone⟩
      dsimp only
      rw [hq, Option.getD_some, Finset.mem_coe, Finset.mem_sdiff, mem_members]
      exact ⟨⟨(hsound.index t' q hq).1, hqg⟩, fun hmem => (hrs q hmem).2.2 hqdone⟩
    · intro t₁ ht₁ t₂ ht₂ heq
      rw [Finset.mem_coe, List.mem_toFinset, hL.done] at ht₁ ht₂
      rcases ht₁ with ⟨q₁, hq₁, -⟩
      rcases ht₂ with ⟨q₂, hq₂, -⟩
      dsimp only at heq
      rw [hq₁, hq₂, Option.getD_some, Option.getD_some] at heq
      rw [← (hsound.index t₁ q₁ hq₁).2, ← (hsound.index t₂ q₂ hq₂).2, heq]
  have hroom := hL.room
  have hle := Finset.card_le_card hsub
  rw [List.toFinset_card_of_nodup hL.nodup, List.length_map, Finset.card_sdiff_of_subset hsub] at hcard
  omega

/-- While a task of the group is not done, some result is still to come. -/
theorem length_lt (hL : L.Booked g nNodes log) (hsound : L.Sound) {t : TaskId} {r : Ref}
    (hindex : L.index t = some r) (hg : (L.heap.get r).groupId = g)
    (hstatus : (L.heap.get r).status ≠ .tsDone) : log.length < nNodes := by
  have hrs : ∀ q ∈ ({r} : Finset Ref), (∃ t, L.index t = some q) ∧ (L.heap.get q).groupId = g ∧
      (L.heap.get q).status ≠ .tsDone := by
    intro q hq
    rw [Finset.mem_singleton.mp hq]
    exact ⟨⟨t, hindex⟩, hg, hstatus⟩
  have hle := hL.length_add_card_le hsound hrs
  rw [Finset.card_singleton] at hle
  omega

/-- Acts that are no results for the group, and make no task in it, leave the account alone. -/
theorem step (hL : L.Booked g nNodes log) (hsound : L.Sound) (h : Step L a L')
    (hcreate : ∀ n task, a = .create n task → task.groupId ≠ g)
    (hsettle : ∀ r result, a = .settle r result → (L.heap.get r).groupId ≠ g) :
    L'.Booked g nNodes log where
  room := by
    rw [h.members hcreate]
    exact hL.room
  nodup := hL.nodup
  done t := by
    rw [hL.done]
    have hkept {r : Ref} (hr : L.index t = some r) (hg : (L.heap.get r).groupId = g) :
        (L'.heap.get r).status = .tsDone ↔ (L.heap.get r).status = .tsDone := by
      apply h.done_iff (hsound.index t r hr).1
      intro result ha
      exact hsettle r result ha hg
    constructor
    · intro hdone
      rcases hdone with ⟨r, hr, hg, hdone⟩
      refine ⟨r, h.index_eq hr, ?_, (hkept hr hg).mpr hdone⟩
      rw [(h.get (hsound.index t r hr).1).2, hg]
    · intro hdone
      rcases hdone with ⟨r, hr, hg, hdone⟩
      rcases h.index_cases hr with hr | ⟨n, task, ha, -, rfl, hheap⟩
      · rw [(h.get (hsound.index t r hr).1).2] at hg
        exact ⟨r, hr, hg, (hkept hr hg).mp hdone⟩
      · rw [hheap, Heap.get_alloc_self] at hg
        exact absurd hg (hcreate n task ha)
  group := by
    rcases hL.group with ⟨G, hG, hremaining, hsum, hfinished⟩
    rcases h.group_cases hG with hsame | ⟨-, -, hcancel⟩ | ⟨r, result, ha, hg, -⟩
    · exact ⟨G, hsame, hremaining, hsum, hfinished⟩
    · exact ⟨_, hcancel, hremaining, hsum, nofun⟩
    · exact absurd hg (hsettle r result ha)

/-- An accepted result is entered. -/
theorem settle (hL : L.Booked g nNodes log) (hsound : L.Sound) {r : Ref} {result : Result}
    (h : Step L (.settle r result) L') (hg : (L.heap.get r).groupId = g) :
    L'.Booked g nNodes (log ++ [((L.heap.get r).id, result)]) := by
  have hroom : (L'.members g).card ≤ nNodes := by
    rw [h.members (fun _ _ => nofun)]
    exact hL.room
  cases h with
  | @settle _ G _ hindex hrunning hG hopen =>
    have hnot : (L.heap.get r).status ≠ .tsDone := by
      rw [hrunning]
      decide
    -- the settled task was not done, so it is not in the log yet
    have hlt := hL.length_lt hsound hindex hg hnot
    have hnew : (L.heap.get r).id ∉ log.map Prod.fst := by
      rw [hL.done]
      intro hdone
      rcases hdone with ⟨q, hq, -, hqdone⟩
      cases hindex.symm.trans hq
      exact hnot hqdone
    refine ⟨hroom, ?_, fun t => ?_, ?_⟩
    · rw [List.map_append, List.map_singleton, List.nodup_append_comm, List.singleton_append,
        List.nodup_cons]
      exact ⟨hnew, hL.nodup⟩
    · rw [List.map_append, List.mem_append, hL.done, List.map_singleton, List.mem_singleton]
      dsimp only
      constructor
      · intro ht
        rcases ht with ⟨q, hq, hqg, hqdone⟩ | ht
        · refine ⟨q, hq, ?_, ?_⟩
          · rw [groupId_setStatus, hqg]
          · rw [status_setStatus, hqdone, ite_self]
        · refine ⟨r, ?_, ?_, ?_⟩
          · rw [ht, hindex]
          · rw [groupId_setStatus, hg]
          · rw [status_setStatus, if_pos rfl]
      · intro ht
        rcases ht with ⟨q, hq, hqg, hqdone⟩
        rw [groupId_setStatus] at hqg
        rw [status_setStatus] at hqdone
        by_cases hqr : q = r
        · right
          rw [← hqr]
          exact (hsound.index t q hq).2.symm
        · left
          rw [if_neg hqr] at hqdone
          exact ⟨q, hq, hqg, hqdone⟩
    · rcases hL.group with ⟨G', hG', hremaining, hsum, -⟩
      rw [hg] at hG
      cases hG.symm.trans hG'
      refine ⟨State.acceptResult G result, ?_, ?_, ?_, ?_⟩
      · change Function.update L.group (L.heap.get r).groupId _ g = _
        rw [hg, Function.update_self]
      · rw [State.remainingTasks_acceptResult, toNat_sub_one (by omega), List.length_append,
          List.length_singleton]
        omega
      · rw [State.aggregateResult_acceptResult, hsum, List.map_append, List.map_singleton,
          Result.sum_concat]
      · intro hdone
        rw [State.status_acceptResult] at hdone
        split at hdone
        next hzero => rwa [State.remainingTasks_acceptResult]
        next => exact absurd hdone hopen

end Booked

end Ledger

/-! ## Sections -/

namespace State

variable {s s' : State} {g : TaskId} {nNodes : Nat} {log : List (TaskId × Result)}

/-- The result that a section enters into the account of a group. -/
def accepted (g : TaskId) (s : State) : Op → List (TaskId × Result)
  | .result msg => if s.accepts g msg then [(msg.taskId, msg.result)] else []
  | _ => []

/-- If the section opens a group, it is not known yet. -/
def opensFresh (s : State) : Op → Prop
  | .assign => s.selection ≠ none → s.groups.at? s.nextGroupId = none
  | _ => True

instance (s : State) (op : Op) : Decidable (s.opensFresh op) :=
  match op with
  | .assign => inferInstanceAs (Decidable (s.selection ≠ none → s.groups.at? s.nextGroupId = none))
  | .select _ | .cancel _ | .erase _ | .balance | .maintain _ | .accept _ | .insert | .result _
  | .hello _ _ | .notify _ _ _ | .write _ | .rehash _ _ _ => .isTrue trivial

theorem booked_step {op : Op} (hs : s.WellFormed) (hbooked : s.ledger.Booked g nNodes log)
    (hfresh : s.opensFresh op) (hok : s.step op = .ok s') :
    s'.ledger.Booked g nNodes (log ++ s.accepted g op) := by
  have hother (hcreate : ∀ n task, s.mayDo op (.create n task) → task.groupId ≠ g)
      (hsettle : ∀ r result, ¬ s.mayDo op (.settle r result)) :
      s'.ledger.Booked g nNodes (log ++ []) := by
    have hboth : s'.ledger.Sound ∧ s'.ledger.Booked g nNodes log := by
      apply (follows_step hs hok).does.invariant
        (I := fun L => L.Sound ∧ L.Booked g nNodes log) _ ⟨hs.sound, hbooked⟩
      intro L a L' hL hQ hstep
      refine ⟨hL.1.step hstep, hL.2.step hL.1 hstep ?_ ?_⟩
      · intro n task ha
        exact hcreate n task (ha ▸ hQ)
      · intro r result ha
        exact absurd (ha ▸ hQ) (hsettle r result)
    rw [List.append_nil]
    exact hboth.2
  cases op with
  | result msg =>
    change s'.ledger.Booked g nNodes
      (log ++ if s.accepts g msg then [(msg.taskId, msg.result)] else [])
    rcases step_handleResultMessage hs hok with ⟨hnot, rfl⟩ | ⟨r, hr, haccepts, hstep, -⟩
    · rw [if_neg (hnot g), List.append_nil]
      exact hbooked
    · have hid : (s.ledger.heap.get r).id = msg.taskId := (hs.sound.index _ _ hr).2
      by_cases hg : (s.taskHeap.get r).groupId = g
      · rw [hg] at haccepts
        rw [if_pos haccepts, ← hid]
        exact hbooked.settle hs.sound hstep hg
      · rw [if_neg, List.append_nil]
        · apply hbooked.step hs.sound hstep (fun _ _ => nofun)
          intro q result ha
          cases ha
          exact hg
        · intro hg'
          rcases hg' with ⟨task, htask, hgroup, -⟩
          rw [task?, hr] at htask
          cases htask
          exact hg hgroup
  | assign =>
    rcases assignShares_cases hok with ⟨-, rfl⟩ | ⟨selection, hselection, -⟩
    · change s'.ledger.Booked g nNodes (log ++ [])
      rwa [List.append_nil]
    · apply hother _ (fun _ _ h => h.elim)
      intro n task hgroup hg
      -- the group of the account is known, the new one is not
      rcases hbooked.group with ⟨G, hG, -⟩
      have hnone := hfresh (by rw [hselection]; exact Option.some_ne_none _)
      rw [← hg, show task.groupId = s.nextGroupId from hgroup] at hG
      cases hG.symm.trans hnone
  | _ => exact hother (fun _ _ h => h.elim) fun _ _ h => h.elim

/-- `command_task` opens the account. -/
theorem booked_assignShares {selection : Selection} (hs : s.WellFormed)
    (hpopulated : s.outline.Populated) (hfresh : s.groups.at? s.nextGroupId = none)
    (hselection : s.selection = some selection) (hok : s.assignShares = .ok s') :
    s'.ledger.Booked s.nextGroupId selection.nodeIds.length [] := by
  have hlength := (hpopulated.selection selection hselection).2
  have hused := length_used_le selection
  -- with `c` shares to go there are no more members than nodes, and all of them run
  let I (c : Nat) (L : Ledger) : Prop := L.Sound ∧
    (L.members s.nextGroupId).card + c ≤ selection.nodeIds.length ∧
    (∀ r ∈ L.members s.nextGroupId, (L.heap.get r).status = .tsRunning) ∧
    L.group s.nextGroupId = some (newGroup s.nextGroupId selection.nodeIds.length)
  have hI : I 0 s'.ledger := by
    apply assignShares_rule (I := I) hs hselection _ _ hok
    · have hempty : (s.ledger.openGroup s.nextGroupId selection.nodeIds.length).members
          s.nextGroupId = ∅ := by
        rw [Ledger.Step.members .openGroup (fun _ _ => nofun)]
        exact Ledger.members_eq_empty hs.sound hfresh
      refine ⟨hs.sound.step .openGroup, ?_, ?_, ?_⟩
      · rw [hempty, Finset.card_empty, Nat.zero_add]
        exact hused
      · rw [hempty]
        exact nofun
      · rw [Ledger.group_openGroup, if_pos ⟨rfl, hfresh⟩]
    · intro c L n task L' hsound hL hgroup hstep
      refine ⟨hsound.step hstep, ?_⟩
      cases hstep with
      | create _ _ hrunning =>
        rw [Ledger.members_create hgroup, Finset.card_insert_of_notMem Ledger.notMem_members_next]
        have hcard := hL.2.1
        refine ⟨by omega, ?_, hL.2.2.2⟩
        intro r hr
        rw [Ledger.heap_create]
        rcases Finset.mem_insert.mp hr with rfl | hr
        · rw [Heap.get_alloc_self, hrunning]
        · rw [Heap.get_alloc_ne (Nat.ne_of_lt (Ledger.mem_members.mp hr).1)]
          exact hL.2.2.1 r hr
  refine ⟨hI.2.1, List.nodup_nil, fun t => ?_, _, hI.2.2.2, ?_, rfl, nofun⟩
  · refine iff_of_false List.not_mem_nil fun hdone => ?_
    rcases hdone with ⟨r, hr, hg, hdone⟩
    have hrunning := hI.2.2.1 r (Ledger.mem_members.mpr ⟨(hI.1.index t r hr).1, hg⟩)
    rw [hdone] at hrunning
    cases hrunning
  · have hlt : selection.nodeIds.length < 2 ^ 32 := by omega
    exact UInt32.toNat_ofNat_of_lt' hlt

/-! ## Accounts -/

/-- The account of a group: its counter, its sum and its tasks.  `log` has the results accepted for
it so far. -/
structure Accounted (s : State) (g : TaskId) (nNodes : Nat) (log : List (TaskId × Result)) :
    Prop where
  counter : ∀ G, s.group? g = some G → G.remainingTasks.toNat +
    s.countTasks (fun task => task.groupId = g ∧ task.status = .tsDone) = nNodes
  noWrap : ∀ G msg, s.group? g = some G → s.accepts g msg → G.remainingTasks ≠ 0
  aggregate : ∀ G, s.group? g = some G → G.aggregateResult = Result.sum (log.map Prod.snd)
  once : (log.map Prod.fst).Nodup
  done : ∀ t, t ∈ log.map Prod.fst ↔
    ∃ task, s.task? t = some task ∧ task.groupId = g ∧ task.status = .tsDone
  finished : ∀ G, s.group? g = some G → G.status = .tsDone →
    ∀ t task, s.task? t = some task → task.groupId = g → task.status = .tsDone
  known : s.group? g ≠ none

/-- What is done stays done. -/
structure KeepsDone (s s' : State) : Prop where
  task : ∀ t task, s.task? t = some task → task.status = .tsDone →
    ∃ task', s'.task? t = some task' ∧ task'.status = .tsDone
  group : ∀ g G, s.group? g = some G → G.status = .tsDone →
    ∃ G', s'.group? g = some G' ∧ G'.status = .tsDone

/-- The tasks that are done are those in the log. -/
theorem countTasks_eq_length (hbooked : s.ledger.Booked g nNodes log) :
    s.countTasks (fun task => task.groupId = g ∧ task.status = .tsDone) = log.length := by
  let isDone (e : TaskId × Ref) : Bool :=
    decide ((s.taskHeap.get e.2).groupId = g ∧ (s.taskHeap.get e.2).status = .tsDone)
  have hperm : ((s.tasks.pointees.filter isDone).map Prod.fst).Perm (log.map Prod.fst) := by
    rw [List.perm_ext_iff_of_nodup _ hbooked.nodup]
    · intro t
      rw [hbooked.done, List.mem_map]
      constructor
      · intro ht
        rcases ht with ⟨e, he, rfl⟩
        rw [List.mem_filter, decide_eq_true_eq] at he
        exact ⟨e.2, KeyedMap.mem_pointees.mp he.1, he.2⟩
      · intro ht
        rcases ht with ⟨r, hr, hdone⟩
        exact ⟨(t, r), List.mem_filter.mpr ⟨KeyedMap.mem_pointees.mpr hr, by simpa [isDone]⟩, rfl⟩
    · exact s.tasks.nodup_pointees.sublist ((List.filter_sublist).map _)
  have hlength := hperm.length_eq
  rw [List.length_map, List.length_map, ← List.countP_eq_length_filter] at hlength
  exact hlength

theorem accounted_of_booked (hs : s.WellFormed) (hbooked : s.ledger.Booked g nNodes log) :
    s.Accounted g nNodes log := by
  rcases hbooked.group with ⟨G, hG, hremaining, hsum, hfinished⟩
  have heq {G' : TaskGroup} (hG' : s.group? g = some G') : G' = G :=
    Option.some.inj (hG'.symm.trans hG)
  -- a task of the group that is not done keeps the counter up
  have hpos {t : TaskId} {task : Task} (htask : s.task? t = some task) (hg : task.groupId = g)
      (hnot : task.status ≠ .tsDone) : G.remainingTasks ≠ 0 := by
    rcases task?_eq_some.mp htask with ⟨r, hr, rfl⟩
    have hlt := hbooked.length_lt hs.sound hr hg hnot
    intro hzero
    rw [hzero, show (0 : UInt32).toNat = 0 from rfl] at hremaining
    omega
  refine ⟨fun G' hG' => ?_, fun G' msg hG' haccepts => ?_, fun G' hG' => ?_, hbooked.nodup,
    fun t => ?_, fun G' hG' hdone t task htask hg => ?_, ?_⟩
  · rw [heq hG', countTasks_eq_length hbooked]
    exact hremaining
  · rcases haccepts with ⟨task, htask, hg, hrunning, -⟩
    rw [heq hG']
    apply hpos htask hg
    rw [hrunning]
    decide
  · rw [heq hG', hsum]
  · rw [hbooked.done]
    constructor
    · intro hdone
      rcases hdone with ⟨r, hr, hdone⟩
      exact ⟨_, task?_eq_some.mpr ⟨r, hr, rfl⟩, hdone⟩
    · intro hdone
      rcases hdone with ⟨task, htask, hdone⟩
      rcases task?_eq_some.mp htask with ⟨r, hr, rfl⟩
      exact ⟨r, hr, hdone⟩
  · by_contra hnot
    rw [heq hG'] at hdone
    exact hpos htask hg hnot (hfinished hdone)
  · intro hnone
    cases hnone.symm.trans hG

theorem keepsDone_step {op : Op} (hs : s.WellFormed) (hok : s.step op = .ok s') :
    s.KeepsDone s' := by
  have hdoes := (follows_step hs hok).does
  refine ⟨fun t task htask hdone => ?_, fun g G hG hdone => ?_⟩
  · rcases task?_eq_some.mp htask with ⟨r, hr, rfl⟩
    have hkept := hdoes.invariant
      (I := fun L => L.Sound ∧ L.index t = some r ∧ (L.heap.get r).status = .tsDone)
      (fun L a L' hL _ hstep => ⟨hL.1.step hstep, hstep.index_eq hL.2.1,
        hstep.done (hL.1.index t r hL.2.1).1 hL.2.2⟩) ⟨hs.sound, hr, hdone⟩
    exact ⟨_, task?_eq_some.mpr ⟨r, hkept.2.1, rfl⟩, hkept.2.2⟩
  · apply hdoes.invariant (I := fun L => ∃ G, L.group g = some G ∧ G.status = .tsDone) _
      ⟨G, hG, hdone⟩
    intro L a L' hL _ hstep
    rcases hL with ⟨G, hG, hdone⟩
    rcases hstep.group_cases hG with hsame | ⟨-, hrunning, -⟩ | ⟨_, _, -, -, -, hopen, -⟩
    · exact ⟨G, hsame, hdone⟩
    · rw [hdone] at hrunning
      cases hrunning
    · exact absurd hdone hopen

theorem keepsDone_run {P : State → Op → Prop} {ops : List Op} (hs : s.WellFormed)
    (hrun : coordinator.Run P s ops s') : s.KeepsDone s' := by
  have hboth := hrun.invariant (I := fun t => t.WellFormed ∧ s.KeepsDone t)
    (by
      intro t op t' ht _ _ hok
      have hstep := keepsDone_step ht.1 hok
      refine ⟨(follows_step ht.1 hok).wellFormed, fun i task htask hdone => ?_,
        fun g G hG hdone => ?_⟩
      · rcases ht.2.task i task htask hdone with ⟨task', htask', hdone'⟩
        exact hstep.task i task' htask' hdone'
      · rcases ht.2.group g G hG hdone with ⟨G', hG', hdone'⟩
        exact hstep.group g G' hG' hdone')
    ⟨hs, fun _ task htask hdone => ⟨task, htask, hdone⟩, fun _ G hG hdone => ⟨G, hG, hdone⟩⟩
  exact hboth.2

end State

/-! ## Runs -/

/-- A `task` command for no games, which is only complained about. -/
def Op.asksNoGames : Op → Bool
  | .select args => args.games == 0
  | _ => false

namespace State

variable {s s' : State}

/-- The command that is being carried out is for no games. -/
def pending (s : State) : Nat := if ∃ selection ∈ s.selection, selection.task.games = 0 then 1 else 0

/-- No more groups were opened than sub-tasks made and commands given for no games. -/
def Counted (s : State) (c : Nat) : Prop :=
  ∃ k, s.outline.Numbered k ∧ k + s.pending ≤ s.subTasks + c

theorem pending_congr (h : s'.selection = s.selection) : s'.pending = s.pending := by
  unfold pending
  rw [h]

theorem counted_step {op : Op} {c : Nat} (hs : s.Regular) (h : s.Counted c)
    (henabled : s.enabled op) (hok : s.step op = .ok s') :
    s'.Counted (c + if op.asksNoGames then 1 else 0) := by
  rcases h with ⟨k, hk, hle⟩
  have hsubTasks := subTasks_le_of_step hs.wellFormed hok
  have hother (hselection : s'.selection = s.selection) (hop : op = .assign → s.selection = none) :
      s'.Counted (c + if op.asksNoGames then 1 else 0) := by
    refine ⟨k, numbered_step hk hok hop, ?_⟩
    rw [pending_congr hselection]
    omega
  cases op with
  | select args =>
    rcases selectNodes_cases hok with rfl | ⟨nodeIds, -, -, rfl⟩
    · exact hother rfl nofun
    · refine ⟨k, numbered_step hk hok nofun, ?_⟩
      -- a command for no games may open a group without a task
      by_cases hgames : args.games = 0
      · have hone : (Op.select args).asksNoGames = true := beq_iff_eq.mpr hgames
        have hpending : pending { s with
            selection := some { task := template args, nodeIds } } ≤ 1 := by
          unfold pending
          split
          · exact le_refl 1
          · exact Nat.zero_le 1
        rw [if_pos hone]
        change k + _ ≤ s.subTasks + (c + 1)
        omega
      · have hzero : pending { s with
            selection := some { task := template args, nodeIds } } = 0 := by
          unfold pending
          rw [if_neg]
          intro hnone
          rcases hnone with ⟨selection, hselection, hnone⟩
          cases hselection
          exact hgames hnone
        rw [hzero]
        change k + 0 ≤ s.subTasks + _
        omega
  | assign =>
    cases hselection : s.selection with
    | none =>
      rcases assignShares_cases hok with ⟨-, rfl⟩ | ⟨selection, hsome, -⟩
      · exact hother rfl fun _ => hselection
      · cases hselection.symm.trans hsome
    | some selection =>
      refine ⟨k + 1, numbered_assign hk hselection hok, ?_⟩
      have hnone : s'.selection = none := by
        rcases outline_assignShares hok with ⟨hnone, -⟩ | ⟨_, -, houtline⟩
        · cases hselection.symm.trans hnone
        · exact congrArg Outline.selection houtline
      have hzero : s'.pending = 0 := by
        unfold pending
        rw [hnone]
        rfl
      -- a group has been opened, and a task with it unless no games were asked for
      rw [hzero, subTasks_assignShares hs.wellFormed hselection hok]
      by_cases hgames : selection.task.games = 0
      · have hone : s.pending = 1 := if_pos ⟨selection, hselection, hgames⟩
        omega
      · have hpos := length_used_pos (hs.populated.selection selection hselection).1 hgames
        omega
  | _ => exact hother (selection_step hok (fun _ => nofun) nofun) nofun

end State

/-- While fewer than `2 ^ 32` groups were opened every new one has an id of its own. -/
theorem fresh_throughout {ops : List Op} {s s' : State} {c : Nat}
    (hrun : coordinator.FreeRun s ops s') (hs : s.Regular) (hc : s.Counted c)
    (hfew : s'.subTasks + (c + ops.countP Op.asksNoGames) < 2 ^ 32) :
    coordinator.Run State.opensFresh s ops s' ∧ s'.Regular ∧
      s'.Counted (c + ops.countP Op.asksNoGames) := by
  induction hrun generalizing c with
  | nil => exact ⟨.nil _, hs, hc⟩
  | @cons s s₁ s₂ op ops henabled _ hok hrest ih =>
    have hwellFormed := (State.follows_step hs.wellFormed hok).wellFormed
    have hle := subTasks_le_of_run hrest hwellFormed
    have hle₀ := subTasks_le_of_step hs.wellFormed hok
    have hs₁ : s₁.Regular := hs.step henabled hok (by omega)
    have hcount : c + (op :: ops).countP Op.asksNoGames =
        (c + if op.asksNoGames then 1 else 0) + ops.countP Op.asksNoGames := by
      rw [List.countP_cons]
      omega
    rw [hcount] at hfew ⊢
    have htail := ih hs₁ (State.counted_step hs hc henabled hok) hfew
    refine ⟨.cons henabled ?_ hok htail.1, htail.2⟩
    cases op with
    | assign =>
      intro _
      rcases hc with ⟨k, hk, hkle⟩
      have hfresh := hk.fresh (by omega)
      exact Option.not_isSome_iff_eq_none.mp (by rw [Bool.not_eq_true]; exact hfresh)
    | _ => exact trivial

/-- Exactly-once accounting.  A command opens the group `s₀.nextGroupId` for the nodes of its selection;
however the run goes on, the account of the group is right, and what is done stays done. -/
theorem exactly_once {config : CoordinatorConfig} {ops₁ ops₂ : List Op} {s₀ s : State}
    {selection : Selection} (hrun₁ : coordinator.FreeRun (initial config) ops₁ s₀)
    (hselection : s₀.selection = some selection)
    (hrun₂ : coordinator.FreeRun s₀ (.assign :: ops₂) s)
    (hfew : s.subTasks + (ops₁ ++ ops₂).countP Op.asksNoGames < 2 ^ 32) :
    s.Accounted s₀.nextGroupId selection.nodeIds.length
      (coordinator.outputs (State.accepted s₀.nextGroupId) s₀ (.assign :: ops₂)) ∧
    ∀ ops₃ s', coordinator.FreeRun s ops₃ s' → s.KeepsDone s' := by
  have hwellFormed := wellFormed_run hrun₁ (wellFormed_initial config)
  have hle := subTasks_le_of_run hrun₂ hwellFormed
  rw [List.countP_append] at hfew
  -- few groups and few tasks mean that no id has come round again
  have hcounted : (initial config).Counted 0 := ⟨0, ⟨rfl, nofun⟩, le_refl 0⟩
  have h₀ := fresh_throughout hrun₁ (regular_initial config) hcounted (by omega)
  have hassign : (Op.assign :: ops₂).countP Op.asksNoGames = ops₂.countP Op.asksNoGames := rfl
  have h₁ := fresh_throughout hrun₂ h₀.2.1 h₀.2.2 (by rw [hassign]; omega)
  refine ⟨State.accounted_of_booked h₁.2.1.wellFormed ?_,
    fun ops₃ s' => State.keepsDone_run h₁.2.1.wellFormed⟩
  cases h₁.1 with
  | @cons _ s₁ _ _ _ _ hfresh hok hrest =>
    have hnone : s₀.groups.at? s₀.nextGroupId = none :=
      hfresh (by rw [hselection]; exact Option.some_ne_none _)
    -- the command opens the books of the group, and every later section keeps them
    have hopen := State.booked_assignShares hwellFormed h₀.2.1.populated hnone hselection hok
    have hs₁ := (State.follows_assignShares hwellFormed hok).wellFormed
    rw [Machine.outputs, hok]
    have hend := hrest.outputs_invariant (State.accepted s₀.nextGroupId)
      (I := fun t log => t.WellFormed ∧
        t.ledger.Booked s₀.nextGroupId selection.nodeIds.length log)
      (fun t op t' log ht _ hP hok => ⟨(State.follows_step ht.1 hok).wellFormed,
        State.booked_step ht.1 ht.2 hP hok⟩) ⟨hs₁, hopen⟩
    exact hend.2

/-- Node 1 falls silent and its task goes to node 2; both report it, after node 2 has reported its own
task twice. -/
theorem exactly_once_late :
    (after soloConfig (joining 1 5 ++ joining 2 6 ++ tasking 2 ++
      [.maintain fun _ => 1, .notify 2 { taskId := 2, taskStatus := .tsRunning } 2,
        .maintain fun _ => 11000000001, .balance,
        .result { taskId := 2, result := { games := 1, winAgent1 := 1 } },
        .result { taskId := 2, result := { games := 1, winAgent1 := 1 } },
        .result { taskId := 1, result := { games := 1, winAgent2 := 1 } },
        .result { taskId := 1, result := { games := 1, timeoutAgent1 := 1 } }])).Accounted 1 2
      [(2, { games := 1, winAgent1 := 1 }), (1, { games := 1, winAgent2 := 1 })] := by
  let ops₁ : List Op := joining 1 5 ++ joining 2 6 ++ (tasking 2).take 1
  let ops₂ : List Op := [.maintain fun _ => 1, .notify 2 { taskId := 2, taskStatus := .tsRunning } 2,
    .maintain fun _ => 11000000001, .balance,
    .result { taskId := 2, result := { games := 1, winAgent1 := 1 } },
    .result { taskId := 2, result := { games := 1, winAgent1 := 1 } },
    .result { taskId := 1, result := { games := 1, winAgent2 := 1 } },
    .result { taskId := 1, result := { games := 1, timeoutAgent1 := 1 } }]
  have hrun := run_after (show (coordinator.exec (fun _ _ => True) (initial soloConfig)
    (ops₁ ++ .assign :: ops₂)).isSome by decide +kernel)
  rcases hrun.split with ⟨s₀, hrun₁, hrun₂⟩
  have hs₀ : s₀ = after soloConfig ops₁ := eq_after hrun₁
  have hselection : (s₀.selection.map fun selection => selection.nodeIds.length) = some 2 := by
    rw [hs₀]
    decide +kernel
  rcases Option.map_eq_some_iff.mp hselection with ⟨selection, hsome, hlength⟩
  have h := (exactly_once hrun₁ hsome hrun₂ (by decide +kernel)).1
  rw [hlength, hs₀, show (after soloConfig ops₁).nextGroupId = 1 by decide +kernel,
    show coordinator.outputs (State.accepted 1) (after soloConfig ops₁) (.assign :: ops₂) =
      [(2, { games := 1, winAgent1 := 1 }), (1, { games := 1, winAgent2 := 1 })] by
        decide +kernel] at h
  exact h

end Bem
