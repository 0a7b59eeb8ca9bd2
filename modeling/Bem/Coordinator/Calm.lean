import Bem.Coordinator.Accounts
import Bem.Coordinator.Attended
import Bem.Coordinator.Booking
import Bem.Coordinator.Courtesy
import Bem.Coordinator.Totals

/-!
# Runs without disturbance

Nothing is called off and no node is lost that has work.  Then every task and every group runs until it
is done, a running group waits for a task, and the node that has the task has never been told to drop
anything.
-/

namespace Bem

namespace Ledger

variable {L L' : Ledger} {a : Act}

/-- What is not done is running, and a group that is running waits for something. -/
structure Busy (L : Ledger) : Prop where
  task : ∀ r < L.heap.next, (L.heap.get r).status = .tsRunning ∨ (L.heap.get r).status = .tsDone
  group : ∀ g G, L.group g = some G →
    G.status = .tsRunning ∧ G.remainingTasks ≠ 0 ∨ G.status = .tsDone

/-- No message to a node calls anything off. -/
def Kept (L : Ledger) : Prop := ∀ n d, L.desk n = some d → ∀ m ∈ d.sent, ¬ m.isCancel

/-- No running task lies on the desks of these nodes. -/
def Free (P : NodeId → Prop) (L : Ledger) : Prop :=
  ∀ n, P n → ∀ d, L.desk n = some d → ∀ r ∈ d.list, (L.heap.get r).status ≠ .tsRunning

/-- From a desk without running tasks nothing is taken. -/
theorem Free.release {P : NodeId → Prop} {n : NodeId} (hL : L.Free P) (hn : P n)
    (h : Step L (.release n) L') : L' = L := by
  cases h with
  | @release _ d hdesk =>
    have hnone : d.list.filter (Desk.isRunning L.heap) = [] :=
      List.filter_eq_nil_iff.mpr fun r hr => by simpa [Desk.isRunning] using hL n hn d hdesk r hr
    have hall : (d.list.filter fun r => ! Desk.isRunning L.heap r) = d.list :=
      List.filter_eq_self.mpr fun r hr => by simpa [Desk.isRunning] using hL n hn d hdesk r hr
    have hsame : d.release L.heap = d := by
      unfold Desk.release
      rw [hnone, hall, List.map_nil, List.append_nil]
    rw [giveBack_of_filter_nil L.heap d.list hnone, hsame, Function.update_eq_self_iff.mpr hdesk.symm]

theorem Busy.step (hL : L.Busy) (h : Step L a L') (hrelease : ∀ n, a ≠ .release n)
    (hcancel : ∀ g, a ≠ .cancelGroup g)
    (hopen : ∀ g nNodes, a = .openGroup g nNodes → UInt32.ofNat nNodes ≠ 0) : L'.Busy := by
  cases h with
  | join | drop | note | withdraw => exact ⟨hL.task, hL.group⟩
  | @hand n d q =>
    refine ⟨fun r hr => ?_, hL.group⟩
    rw [status_setStatus]
    split
    · exact .inl rfl
    · exact hL.task r hr
  | release => exact absurd rfl (hrelease _)
  | @openGroup g nNodes =>
    refine ⟨?_, fun g' G hG => ?_⟩
    · rw [heap_openGroup]
      exact hL.task
    · rw [group_openGroup] at hG
      split at hG
      next =>
        cases hG
        exact .inl ⟨rfl, hopen g nNodes rfl⟩
      next => exact hL.group g' G hG
  | create hdesk hid hrunning =>
    refine ⟨fun r hr => ?_, hL.group⟩
    rw [heap_create] at hr ⊢
    by_cases hnew : r = L.heap.next
    · rw [hnew, Heap.get_alloc_self]
      exact .inl hrunning
    · rw [Heap.get_alloc_ne hnew]
      exact hL.task r (Nat.lt_of_le_of_ne (Nat.lt_succ_iff.mp hr) hnew)
  | cancelGroup => exact absurd rfl (hcancel _)
  | @settle q G result hindex hrunning hG hnot =>
    refine ⟨fun r hr => ?_, fun g' G' hG' => ?_⟩
    · rw [status_setStatus]
      split
      · exact .inr rfl
      · exact hL.task r hr
    · cases update_eq_some.mp hG' with
      | inl hself =>
        obtain ⟨-, rfl⟩ := hself
        rw [State.status_acceptResult, State.remainingTasks_acceptResult]
        by_cases hzero : G.remainingTasks - 1 = 0
        · exact .inr (if_pos hzero)
        · rw [if_neg hzero]
          exact .inl ⟨((hL.group _ G hG).resolve_right hnot).1, hzero⟩
      | inr hother => exact hL.group g' G' hother.2

end Ledger

namespace Desk

/-- A task that lies on the desk has been sent to the node. -/
theorem Consistent.exists_task {heap : Heap Task} {d : Desk} {t : TaskId} (h : d.Consistent heap)
    (ht : t ≠ taskIdNone) (hlists : d.lists heap t) :
    ∃ m : TaskMessage, .task m ∈ d.sent ∧ m.task.id = t := by
  obtain ⟨halternates, hodd⟩ := h t ht
  have hpos : 0 < (d.about t).length := by
    have hlength := hodd.mp hlists
    omega
  obtain ⟨m, hm, hid⟩ := halternates 0 _ (List.getElem?_eq_getElem hpos)
  have hmem := List.getElem_mem hpos
  rw [hm] at hmem
  exact ⟨m, (List.mem_filter.mp hmem).1, hid⟩

end Desk

namespace State

variable {s s' : State} {n : NodeId}

/-- Every command has a game for each of its nodes, no running group is cancelled, no node is removed
that has a task of one, and none that has a running task is found to have been silent for too long. -/
def calm (s : State) : Op → Prop
  | .assign => s.enoughGames .assign
  | .cancel g => ∀ G ∈ s.group? g, G.status ≠ .tsRunning
  | .erase n => s.sparesWanted (.erase n)
  | .maintain clock => ∀ e ∈ s.nodes.pointees, s.isSilent clock e →
    ∀ r ∈ e.2.tasks, (s.taskHeap.get r).status ≠ .tsRunning
  | _ => True

instance (s : State) (op : Op) : Decidable (s.calm op) :=
  match op with
  | .assign => inferInstanceAs (Decidable (s.enoughGames .assign))
  | .cancel g => inferInstanceAs (Decidable (∀ G ∈ s.group? g, G.status ≠ .tsRunning))
  | .erase n => inferInstanceAs (Decidable (s.sparesWanted (.erase n)))
  | .maintain clock => inferInstanceAs (Decidable (∀ e ∈ s.nodes.pointees, s.isSilent clock e →
      ∀ r ∈ e.2.tasks, (s.taskHeap.get r).status ≠ .tsRunning))
  | .select _ | .balance | .accept _ | .insert | .result _ | .hello _ _ | .notify _ _ _ | .write _
  | .rehash _ _ _ => .isTrue trivial

/-- What holds as long as nothing disturbs the coordinator. -/
structure Calm (s : State) : Prop where
  numbered : ∃ k, s.outline.Numbered k ∧ k ≤ s.subTasks
  owes : s.ledger.Owes fun _ => 0
  attended : s.ledger.Attended
  busy : s.ledger.Busy
  kept : s.ledger.Kept

theorem calm_initial (config : CoordinatorConfig) : (initial config).Calm where
  numbered := ⟨0, ⟨rfl, nofun⟩, Nat.zero_le _⟩
  owes := nofun
  attended := fun _ h => absurd h (Nat.not_lt_zero _)
  busy := ⟨fun _ h => absurd h (Nat.not_lt_zero _), nofun⟩
  kept := nofun

/-- A refused cancel changes nothing. -/
theorem eq_of_refused {g : TaskId} (hcalm : s.calm (.cancel g)) (hok : s.step (.cancel g) = .ok s') :
    s' = s := by
  cases commandCancel_cases hok with
  | inl hsame => exact hsame.2
  | inr hcancelled =>
    obtain ⟨G, hG, hrunning, -⟩ := hcancelled
    exact absurd hrunning (hcalm G hG)

/-- An undisturbed round of the maintenance loop only asks. -/
theorem calm_maintain {clock : NodeId → TimePoint} (hbusy : s.ledger.Busy) (hkept : s.ledger.Kept)
    (hs : s.WellFormed) (hcalm : s.calm (.maintain clock)) (hok : s.step (.maintain clock) = .ok s') :
    s'.ledger.Busy ∧ s'.ledger.Kept := by
  let silent (n : NodeId) : Prop := ∃ node, s.node? n = some node ∧ s.isSilent clock (n, node)
  have hfree : s.ledger.Free silent := by
    intro n hsilent d hd r hr
    obtain ⟨node, hnode, hsilent⟩ := hsilent
    cases (ledger_desk hnode).symm.trans hd
    exact hcalm (n, node) (KeyedMap.mem_pointees.mpr hnode) hsilent r hr
  have h := (follows_step hs hok).does.invariant
    (I := fun L => L.Busy ∧ L.Kept ∧ L.Free silent) (fun L a L' hL ha hstep => ?_) ⟨hbusy, hkept, hfree⟩
  · exact ⟨h.1, h.2.1⟩
  cases a with
  | note n message =>
    obtain rfl : message = Node.ping := ha
    cases hstep with
    | @note _ d _ hdesk =>
      refine ⟨⟨hL.1.task, hL.1.group⟩, fun m d' hd' => ?_, fun m hm d' hd' => ?_⟩
      · cases Ledger.update_eq_some.mp hd' with
        | inl hself =>
          obtain ⟨rfl, rfl⟩ := hself
          rw [List.forall_mem_append, List.forall_mem_singleton]
          exact ⟨hL.2.1 _ d hdesk, Bool.noConfusion⟩
        | inr hother => exact hL.2.1 m d' hother.2
      · cases Ledger.update_eq_some.mp hd' with
        | inl hself =>
          obtain ⟨rfl, rfl⟩ := hself
          exact hL.2.2 _ hm d hdesk
        | inr hother => exact hL.2.2 m hm d' hother.2
  | release n =>
    rw [hL.2.2.release ha hstep]
    exact hL
  | _ => exact ha.elim

/-- The acts of the other sections. -/
theorem mayDo_of_calm {op : Op} {a : Act} (ha : s.mayDo op a) (hcancel : ∀ g, op ≠ .cancel g)
    (hmaintain : ∀ clock, op ≠ .maintain clock) : (∀ n, a ≠ .release n) ∧ ∀ g, a ≠ .cancelGroup g := by
  refine ⟨fun n heq => ?_, fun g heq => ?_⟩
  · subst heq
    cases op with
    | maintain clock => exact hmaintain clock rfl
    | _ => exact ha
  · subst heq
    cases op with
    | cancel g' => exact hcancel g' rfl
    | _ => exact ha

theorem busy_step {op : Op} (h : s.ledger.Busy) (hs : s.Regular) (hcancel : ∀ g, op ≠ .cancel g)
    (hmaintain : ∀ clock, op ≠ .maintain clock) (hok : s.step op = .ok s') : s'.ledger.Busy := by
  apply (follows_step hs.wellFormed hok).does.invariant (I := Ledger.Busy) _ h
  intro L a L' hL ha hstep
  obtain ⟨hrelease, hcancelGroup⟩ := mayDo_of_calm ha hcancel hmaintain
  refine hL.step hstep hrelease hcancelGroup fun g nNodes heq hzero => ?_
  subst heq
  cases op with
  | assign =>
    -- there is a node in a selection, and there are fewer than `2 ^ 32`
    obtain ⟨-, selection, hselection, rfl⟩ := ha
    obtain ⟨hne, hfew⟩ := hs.populated.selection selection hselection
    have hvalue := congrArg UInt32.toNat hzero
    rw [UInt32.toNat_ofNat_of_lt' (by show _ < 2 ^ 32; omega)] at hvalue
    exact hne (List.length_eq_zero_iff.mp hvalue)
  | _ => exact ha

theorem nothingCalledOff_step {op : Op} (h : s.ledger.Kept) (hs : s.WellFormed) (hcancel : ∀ g, op ≠ .cancel g)
    (hmaintain : ∀ clock, op ≠ .maintain clock) (hok : s.step op = .ok s') : s'.ledger.Kept := by
  intro n d' hd' m hm
  obtain ⟨node', hnode', rfl⟩ := ledger_desk_iff.mp hd'
  cases history_cases hs hok hnode' hm with
  | inl hold =>
    obtain ⟨node, hnode, hm⟩ := hold
    exact h n node.desk (ledger_desk hnode) m hm
  | inr hnew =>
    cases hnew with
    | inl hreply =>
      obtain ⟨msg, rfl⟩ := hreply
      exact Bool.noConfusion
    | inr hposted =>
      obtain ⟨a, ha, hposts, hhello⟩ := hposted
      have hrelease := (mayDo_of_calm ha hcancel hmaintain).1
      cases a with
      | note k message =>
        obtain ⟨-, rfl⟩ := hposts
        cases op with
        | maintain clock => exact absurd rfl (hmaintain clock)
        | hello k msg => exact absurd rfl (hhello k msg)
        | _ => exact ha.elim
      | hand | create =>
        obtain ⟨-, task, rfl⟩ := hposts
        exact Bool.noConfusion
      | release k => exact absurd rfl (hrelease k)
      | withdraw =>
        cases op with
        | cancel g => exact absurd rfl (hcancel g)
        | _ => exact ha.elim
      | _ => exact hposts.elim

/-- The ids of the groups count up with those of the sub-tasks. -/
theorem numbered_calm {op : Op} (h : ∃ k, s.outline.Numbered k ∧ k ≤ s.subTasks) (hs : s.Regular)
    (hcalm : s.calm op) (hok : s.step op = .ok s') :
    ∃ k, s'.outline.Numbered k ∧ k ≤ s'.subTasks := by
  obtain ⟨k, hk, hle⟩ := h
  have hmore := subTasks_le_of_step hs.wellFormed hok
  by_cases hop : op = .assign
  · subst hop
    cases hselection : s.selection with
    | none => exact ⟨k, numbered_step hk hok fun _ => hselection, hle.trans hmore⟩
    | some selection =>
      -- there is a sub-task for every node, so at least one
      have hne := (hs.populated.selection selection hselection).1
      have hused := (length_used_eq_iff hne).mpr (hcalm selection hselection)
      have hpos := List.length_pos_of_ne_nil hne
      refine ⟨k + 1, numbered_assign hk hselection hok, ?_⟩
      rw [subTasks_assignShares hs.wellFormed hselection hok]
      omega
  · exact ⟨k, numbered_step hk hok fun heq => absurd heq hop, hle.trans hmore⟩

theorem Calm.step {op : Op} (h : s.Calm) (hs : s.Regular) (hcalm : s.calm op)
    (hok : s.step op = .ok s') (hs' : s'.Regular) : s'.Calm := by
  by_cases hrefused : ∃ g, op = .cancel g
  · obtain ⟨g, rfl⟩ := hrefused
    rw [eq_of_refused hcalm hok]
    exact h
  have hcancel (g : TaskId) : op ≠ .cancel g := fun heq => hrefused ⟨g, heq⟩
  have hwork : s'.ledger.Busy ∧ s'.ledger.Kept := by
    by_cases hmaintain : ∃ clock, op = .maintain clock
    · obtain ⟨clock, rfl⟩ := hmaintain
      exact calm_maintain h.busy h.kept hs.wellFormed hcalm hok
    · have hmaintain (clock : NodeId → TimePoint) : op ≠ .maintain clock :=
        fun heq => hmaintain ⟨clock, heq⟩
      exact ⟨busy_step h.busy hs hcancel hmaintain hok, nothingCalledOff_step h.kept hs.wellFormed hcancel hmaintain hok⟩
  obtain ⟨k, hk, hle⟩ := h.numbered
  refine ⟨numbered_calm h.numbered hs hcalm hok, ?_, ?_, hwork.1, hwork.2⟩
  · rw [owes_step_iff hs hk hle h.owes hok]
    cases op with
    | assign => exact hcalm
    | _ => trivial
  · rw [attended_step_iff hs h.attended hok hs']
    cases op with
    | erase n => exact hcalm
    | _ => trivial

/-- A group that is running waits for a task that a live node has and was sent. -/
theorem Calm.exists_task (h : s.Calm) (hs : s.Regular) {g : TaskId} {G : TaskGroup}
    (hG : s.group? g = some G) (hrunning : G.status = .tsRunning) :
    ∃ r n node, r < s.taskHeap.next ∧ (s.taskHeap.get r).groupId = g ∧
      (s.taskHeap.get r).status = .tsRunning ∧ s.node? n = some node ∧ r ∈ node.tasks ∧
      ∃ m : TaskMessage, .task m ∈ node.history ∧ m.task.id = (s.taskHeap.get r).id := by
  have hwaits : G.remainingTasks ≠ 0 := by
    cases h.busy.group g G hG with
    | inl hbusy => exact hbusy.2
    | inr hdone => cases hrunning.symm.trans hdone
  have hremaining := h.owes g G hG hrunning
  have hpos : 0 < (s.ledger.unfinished g).card := by
    have hne : G.remainingTasks.toNat ≠ 0 := fun hzero => hwaits (UInt32.toNat_inj.mp hzero)
    rw [hremaining] at hne
    exact Nat.pos_of_ne_zero hne
  obtain ⟨r, hr⟩ := Finset.card_pos.mp hpos
  obtain ⟨⟨hlt, hgroup⟩, hnot⟩ := Ledger.mem_unfinished.mp hr
  have hbusy := (h.busy.task r hlt).resolve_right hnot
  have hwanted : s.ledger.Wanted r := ⟨hbusy, G, by rw [hgroup]; exact hG, hrunning⟩
  obtain ⟨n, d, hd, hmem⟩ := h.attended r hlt hwanted
  obtain ⟨node, hnode, rfl⟩ := ledger_desk_iff.mp hd
  have hne : (s.taskHeap.get r).id ≠ taskIdNone := hs.id_ne hlt
  have hlists : node.desk.lists s.taskHeap (s.taskHeap.get r).id :=
    Desk.lists_iff.mpr ⟨r, hmem, rfl⟩
  obtain ⟨m, hm, hid⟩ := (hs.exclusive.consistent n node.desk hd).exists_task hne hlists
  exact ⟨r, n, node, hlt, hgroup, hbusy, hnode, hmem, m, hm, hid⟩

/-- The result of a task has been handled. -/
def Settled (s : State) (t : TaskId) : Prop :=
  ∃ r, s.tasks.at? t = some r ∧ ((s.taskHeap.get r).status = .tsDone ∨
    ∃ G, s.group? (s.taskHeap.get r).groupId = some G ∧ G.status = .tsDone)

theorem Settled.step {op : Op} {t : TaskId} (h : s.Settled t) (hs : s.WellFormed)
    (hok : s.step op = .ok s') : s'.Settled t := by
  obtain ⟨r, hr, hdone⟩ := h
  have hkeeps := keepsDone_step hs hok
  have hr' := at?_step hs hok hr
  have hsame := (order_step hs hok (hs.sound.index t r hr).1).2
  refine ⟨r, hr', hdone.imp (fun hdone => ?_) fun hdone => ?_⟩
  · obtain ⟨task, htask, hdone'⟩ := hkeeps.task t _ (task?_eq_some.mpr ⟨r, hr, rfl⟩) hdone
    obtain ⟨q, hq, rfl⟩ := task?_eq_some.mp htask
    cases hr'.symm.trans hq
    exact hdone'
  · obtain ⟨G, hG, hdone⟩ := hdone
    rw [Task.congr_order Task.groupId (fun _ => rfl) hsame]
    exact hkeeps.group _ G hG hdone

theorem Calm.settled {msg : ResultMessage} (h : s.Calm) (hs : s.WellFormed)
    (hok : s.step (.result msg) = .ok s') : s'.Settled msg.taskId := by
  obtain ⟨r, hr, hcases⟩ := handleResultMessage_cases hok
  have hlt := (hs.sound.index _ r hr).1
  cases hcases with
  | inl hignored =>
    obtain ⟨hnot, rfl⟩ := hignored
    exact ⟨r, hr, .inl ((h.busy.task r hlt).resolve_left hnot)⟩
  | inr hheard =>
    obtain ⟨G, hG, -, hcases⟩ := hheard
    cases hcases with
    | inl hlate =>
      obtain ⟨hdone, rfl⟩ := hlate
      exact ⟨r, hr, .inr ⟨G, hG, hdone⟩⟩
    | inr hcounted =>
      obtain ⟨-, rfl⟩ := hcounted
      refine ⟨r, hr, .inl ?_⟩
      rw [status_setStatus, if_pos rfl]

end State

end Bem
