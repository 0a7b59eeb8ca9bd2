import Bem.Coordinator.Balancing

/-!
# Withdrawing tasks

`command_cancel` goes through all pairs of a running task of the group and a node.  What that comes to
for a single node, and for the whole state.
-/

namespace Bem

/-! ## One node -/

namespace Node

variable {heap : Heap Task} {node : Node} {t : TaskId} {ids : List TaskId}

/-- Whatever has one of the ids is taken off the list, and called off. -/
def relieved (heap : Heap Task) (ids : List TaskId) (node : Node) : Node :=
  { node with
    tasks := node.tasks.filter fun r => (heap.get r).id ∉ ids
    messageQueue := node.messageQueue ++ (ids.filter fun t => node.lists heap t).map cancelled }

theorem unassignTask_eq_relieved (hd : node.desk.Distinct heap) :
    node.unassignTask heap t = node.relieved heap [t] := by
  have hlist : (node.unassignTask heap t).tasks = node.tasks.filter fun r => (heap.get r).id ≠ t := by
    have hdesk := congrArg Desk.list (desk_unassignTask heap t node)
    rw [Desk.list_unassign hd] at hdesk
    refine hdesk.trans (List.filter_congr fun r _ => ?_)
    rw [bne, Bool.beq_eq_decide_eq, decide_not]
  unfold relieved
  by_cases hl : node.lists heap t
  · unfold unassignTask at hlist ⊢
    rw [if_pos hl] at hlist ⊢
    unfold send at hlist ⊢
    dsimp only at hlist
    rw [hlist]
    simp [hl]
  · have hnot : ∀ r ∈ node.tasks, (heap.get r).id ≠ t := by
      intro r hr hid
      exact hl (lists_iff.mpr ⟨r, hr, hid⟩)
    have hsame : node.tasks.filter (fun r => (heap.get r).id ∉ [t]) = node.tasks :=
      List.filter_eq_self.mpr fun r hr => by simpa using hnot r hr
    unfold unassignTask
    rw [if_neg hl, hsame]
    simp [hl]

theorem relieved_nil : node.relieved heap [] = node := by
  unfold relieved
  simp

theorem lists_relieved {t' : TaskId} :
    (node.relieved heap ids).lists heap t' ↔ node.lists heap t' ∧ t' ∉ ids := by
  rw [lists_iff, lists_iff]
  unfold relieved
  simp only [List.mem_filter, decide_eq_true_eq]
  constructor
  · rintro ⟨r, ⟨hr, hnot⟩, rfl⟩
    exact ⟨⟨r, hr, rfl⟩, hnot⟩
  · rintro ⟨⟨r, hr, rfl⟩, hnot⟩
    exact ⟨r, ⟨hr, hnot⟩, rfl⟩

theorem distinct_relieved (hd : node.desk.Distinct heap) :
    (node.relieved heap ids).desk.Distinct heap :=
  List.Nodup.sublist (List.Sublist.map _ List.filter_sublist) hd

/-- The ids may come one after the other. -/
theorem relieved_relieved (ht : t ∉ ids) :
    (node.relieved heap [t]).relieved heap ids = node.relieved heap (t :: ids) := by
  have hlists : ids.filter (fun t' => (node.relieved heap [t]).lists heap t') =
      ids.filter fun t' => node.lists heap t' := by
    apply List.filter_congr
    intro t' ht'
    have hne : t' ∉ [t] := by
      rw [List.mem_singleton]
      exact fun h => ht (h ▸ ht')
    rw [Bool.eq_iff_iff, lists_relieved]
    exact and_iff_left hne
  have htasks : (node.relieved heap [t]).tasks.filter (fun r => (heap.get r).id ∉ ids) =
      node.tasks.filter fun r => (heap.get r).id ∉ t :: ids := by
    unfold relieved
    rw [List.filter_filter]
    apply List.filter_congr
    intro r _
    simp [Bool.and_comm]
  unfold relieved at hlists htasks ⊢
  rw [hlists]
  dsimp only at htasks ⊢
  rw [htasks, List.append_assoc, ← List.map_append]
  by_cases hl : node.lists heap t
  · simp [hl]
  · simp [hl]

theorem foldl_unassignTask (hd : node.desk.Distinct heap) (hids : ids.Nodup) :
    ids.foldl (fun node t => node.unassignTask heap t) node = node.relieved heap ids := by
  induction ids generalizing node with
  | nil => exact relieved_nil.symm
  | cons t ids ih =>
    rw [List.nodup_cons] at hids
    rw [List.foldl_cons, unassignTask_eq_relieved hd, ih (distinct_relieved hd) hids.2,
      relieved_relieved hids.1]

end Node

/-! ## The command -/

namespace State

variable {s s' t : State} {g : TaskId} {G : TaskGroup} {n : NodeId} {node : Node} {r : Ref}

/-- The task runs in the group. -/
def runsIn (s : State) (g : TaskId) (r : Ref) : Bool :=
  (s.taskHeap.get r).groupId = g ∧ (s.taskHeap.get r).status = .tsRunning

theorem runsIn_iff : s.runsIn g r ↔
    (s.taskHeap.get r).groupId = g ∧ (s.taskHeap.get r).status = .tsRunning := decide_eq_true_iff

/-- The ids under which the map has the running tasks of the group. -/
def runningIds (s : State) (g : TaskId) (l : List (TaskId × Ref)) : List TaskId :=
  (l.filter fun e => s.runsIn g e.2).map Prod.fst

theorem runningIds_cons (e : TaskId × Ref) (l : List (TaskId × Ref)) : s.runningIds g (e :: l) =
    if s.runsIn g e.2 then e.1 :: s.runningIds g l else s.runningIds g l := by
  unfold runningIds
  rw [List.filter_cons]
  split
  · rfl
  · rfl

/-- The loop unassigns the running tasks of the group, in the order of the map. -/
theorem foldlM_cancelTask (hnodes : s.nodes.NonNull) (l : List (TaskId × Ref)) :
    l.foldlM (cancelTask g) s = .ok { s with
      nodes := s.nodes.mapPointees fun _ node =>
        (s.runningIds g l).foldl (fun node t => node.unassignTask s.taskHeap t) node } := by
  induction l generalizing s with
  | nil =>
    show Except.ok s = Except.ok { s with nodes := s.nodes.mapPointees fun _ node => node }
    rw [KeyedMap.mapPointees_same fun _ _ _ => rfl]
  | cons e l ih =>
    rw [Except.foldlM_cons_eq_ok, runningIds_cons]
    by_cases hruns : s.runsIn g e.2
    · have hboth := runsIn_iff.mp hruns
      -- every node is asked to give the task up
      let t : State := { s with
        nodes := s.nodes.mapPointees fun _ node => node.unassignTask s.taskHeap e.1 }
      have hfirst : cancelTask g s e = .ok t := by
        unfold cancelTask
        rw [if_neg (not_not.mpr hboth.1), if_neg (not_not.mpr hboth.2),
          KeyedMap.pointees?_of_nonNull hnodes]
      have hrest := @ih t (hnodes.mapPointees _)
      have hnodes : t.nodes.mapPointees (fun _ node => (s.runningIds g l).foldl
          (fun node t => node.unassignTask s.taskHeap t) node) =
          s.nodes.mapPointees fun _ node => (e.1 :: s.runningIds g l).foldl
            (fun node t => node.unassignTask s.taskHeap t) node :=
        KeyedMap.mapPointees_mapPointees (fun _ node => (s.runningIds g l).foldl
          (fun node t => node.unassignTask s.taskHeap t) node)
          (fun _ node => node.unassignTask s.taskHeap e.1) s.nodes
      rw [if_pos hruns, ← hnodes]
      exact ⟨t, hfirst, hrest⟩
    · -- the task is of another group, or does not run
      refine ⟨s, ?_, ?_⟩
      · unfold cancelTask
        by_cases hgroup : (s.taskHeap.get e.2).groupId = g
        · rw [if_neg (not_not.mpr hgroup), if_pos fun h => hruns (runsIn_iff.mpr ⟨hgroup, h⟩)]
        · rw [if_pos hgroup]
      · rw [if_neg hruns]
        exact ih hnodes

/-- A running group is cancelled, and the nodes relieved of what the map has of it. -/
theorem commandCancel_running (hs : s.WellFormed) (hG : s.group? g = some G)
    (hstatus : G.status = .tsRunning) : s.commandCancel g = .ok { s with
      groups := s.groups.store g { G with status := .tsCancelled }
      nodes := s.nodes.mapPointees fun _ =>
        Node.relieved s.taskHeap (s.runningIds g s.tasks.pointees) } := by
  have hG : s.groups.at? g = some G := hG
  let marked : State := { s with groups := s.groups.store g { G with status := .tsCancelled } }
  have hloop := foldlM_cancelTask (s := marked) (g := g) hs.nodes s.tasks.pointees
  have hnodup : (s.runningIds g s.tasks.pointees).Nodup :=
    s.tasks.nodup_pointees.sublist (List.Sublist.map _ List.filter_sublist)
  have hnodes : (s.nodes.mapPointees fun _ node => (s.runningIds g s.tasks.pointees).foldl
      (fun node t => node.unassignTask s.taskHeap t) node) =
      s.nodes.mapPointees fun _ =>
        Node.relieved s.taskHeap (s.runningIds g s.tasks.pointees) := by
    apply KeyedMap.mapPointees_congr
    intro n node hnode
    have hdistinct : node.desk.Distinct s.taskHeap := hs.sound.distinct n _ (ledger_desk hnode)
    exact Node.foldl_unassignTask hdistinct hnodup
  unfold commandCancel groupExists
  rw [if_pos (by simpa using KeyedMap.mem_of_at? hG), KeyedMap.index_of_at? hG]
  dsimp only
  rw [if_pos hstatus, KeyedMap.pointees?_of_nonNull hs.tasks, ← hnodes]
  exact hloop

theorem commandCancel_otherwise (hs : s.WellFormed)
    (hnot : ∀ G, s.group? g = some G → G.status ≠ .tsRunning) : s.commandCancel g = .ok s := by
  unfold commandCancel groupExists
  by_cases hmem : g ∈ s.groups
  · obtain ⟨G, hG⟩ := hs.groups g hmem
    rw [if_pos (by simpa using hmem), KeyedMap.index_of_at? hG]
    dsimp only
    rw [if_neg (hnot G hG)]
  · rw [if_neg (by simpa using hmem)]

/-- The ids of the running tasks of the group that lie on the list, in the order of the map. -/
def calledOff (s : State) (g : TaskId) (node : Node) : List TaskId :=
  (s.tasks.pointees.filter fun e => s.runsIn g e.2 && decide (e.2 ∈ node.tasks)).map Prod.fst

/-- The node without the running tasks of the group. -/
def relieve (s : State) (g : TaskId) (node : Node) : Node :=
  { node with
    tasks := node.tasks.filter fun r => ! s.runsIn g r
    messageQueue := node.messageQueue ++ (s.calledOff g node).map Node.cancelled }

/-- What `command_cancel` does. -/
structure Withdraws (s : State) (g : TaskId) (s' : State) : Prop where
  running : ∀ G, s.group? g = some G → G.status = .tsRunning → s' = { s with
    groups := s.groups.store g { G with status := .tsCancelled }
    nodes := s.nodes.mapPointees fun _ => s.relieve g }
  otherwise : (∀ G, s.group? g = some G → G.status ≠ .tsRunning) → s' = s
  group : ∀ G, s.group? g = some G → G.status = .tsRunning →
    s'.group? g = some { G with status := .tsCancelled }
  cleared : ∀ G, s.group? g = some G → G.status = .tsRunning →
    ∀ n node, s'.node? n = some node → ∀ r ∈ node.tasks, ¬ s'.runsIn g r
  once : ∀ n node, s.node? n = some node → (s.calledOff g node).Nodup ∧
    ∀ t, t ∈ s.calledOff g node ↔ ∃ r ∈ node.tasks, s.runsIn g r ∧ (s.taskHeap.get r).id = t

theorem nodup_calledOff : (s.calledOff g node).Nodup :=
  s.tasks.nodup_pointees.sublist (List.Sublist.map _ List.filter_sublist)

/-- Every listed task is found under its id. -/
theorem Regular.index_of_listed (hs : s.Regular) (hnode : s.node? n = some node)
    (hr : r ∈ node.tasks) : s.tasks.at? (s.taskHeap.get r).id = some r :=
  (hs.task?_id (hs.wellFormed.sound.list n _ (ledger_desk hnode) r hr)).1

theorem Regular.mem_calledOff (hs : s.Regular) (hnode : s.node? n = some node) {t : TaskId} :
    t ∈ s.calledOff g node ↔ ∃ r ∈ node.tasks, s.runsIn g r ∧ (s.taskHeap.get r).id = t := by
  simp only [calledOff, List.mem_map, List.mem_filter, Bool.and_eq_true, decide_eq_true_eq]
  constructor
  · rintro ⟨e, ⟨he, hruns, hlisted⟩, rfl⟩
    exact ⟨e.2, hlisted, hruns, (hs.wellFormed.sound.index e.1 e.2 (KeyedMap.mem_pointees.mp he)).2⟩
  · rintro ⟨r, hr, hruns, rfl⟩
    exact ⟨(_, r), ⟨KeyedMap.mem_pointees.mpr (hs.index_of_listed hnode hr), hruns, hr⟩, rfl⟩

/-- By their ids the loop meets the tasks themselves. -/
theorem Regular.relieved_eq (hs : s.Regular) (hnode : s.node? n = some node) :
    node.relieved s.taskHeap (s.runningIds g s.tasks.pointees) = s.relieve g node := by
  have hat {e : TaskId × Ref} (he : e ∈ s.tasks.pointees) : s.tasks.at? e.1 = some e.2 :=
    KeyedMap.mem_pointees.mp he
  -- what stays on the list, and what messages are sent
  have htasks : node.tasks.filter (fun r =>
      (s.taskHeap.get r).id ∉ s.runningIds g s.tasks.pointees) =
      node.tasks.filter fun r => ! s.runsIn g r := by
    apply List.filter_congr
    intro r hr
    have hindex := hs.index_of_listed hnode hr
    have hmem : (s.taskHeap.get r).id ∈ s.runningIds g s.tasks.pointees ↔ s.runsIn g r := by
      rw [runningIds, List.mem_map]
      constructor
      · rintro ⟨e, he, hid⟩
        obtain ⟨he, hruns⟩ := List.mem_filter.mp he
        have heq : e.2 = r := Option.some.inj ((hat he).symm.trans (hid ▸ hindex))
        exact heq ▸ hruns
      · intro hruns
        exact ⟨(_, r), List.mem_filter.mpr ⟨KeyedMap.mem_pointees.mpr hindex, hruns⟩, rfl⟩
    rw [decide_not, Bool.eq_iff_iff, Bool.not_eq_true', Bool.not_eq_true', decide_eq_false_iff_not,
      hmem, Bool.not_eq_true]
  have hids : (s.runningIds g s.tasks.pointees).filter (fun t => node.lists s.taskHeap t) =
      s.calledOff g node := by
    unfold calledOff runningIds
    rw [List.filter_map, List.filter_filter]
    congr 1
    apply List.filter_congr
    intro e he
    have hlists := hs.lists_iff (hat he) hnode
    rw [Bool.and_comm]
    congr 1
    rw [Bool.eq_iff_iff, decide_eq_true_eq]
    exact hlists
  unfold Node.relieved relieve
  rw [htasks, hids]

theorem withdraws (hs : s.Regular) (g : TaskId) :
    ∃ s', s.commandCancel g = .ok s' ∧ s.Withdraws g s' := by
  have honce : ∀ n node, s.node? n = some node → (s.calledOff g node).Nodup ∧
      ∀ t, t ∈ s.calledOff g node ↔
        ∃ r ∈ node.tasks, s.runsIn g r ∧ (s.taskHeap.get r).id = t :=
    fun n node hnode => ⟨nodup_calledOff, fun t => hs.mem_calledOff hnode⟩
  by_cases hrunning : ∃ G, s.group? g = some G ∧ G.status = .tsRunning
  · obtain ⟨G, hG, hstatus⟩ := hrunning
    have hnodes : (s.nodes.mapPointees fun _ =>
        Node.relieved s.taskHeap (s.runningIds g s.tasks.pointees)) =
        s.nodes.mapPointees fun _ => s.relieve g :=
      KeyedMap.mapPointees_congr fun n node hnode => hs.relieved_eq hnode
    have hok := commandCancel_running hs.wellFormed hG hstatus
    rw [hnodes] at hok
    -- the group that is cancelled is the one that was found
    have honly {G' : TaskGroup} (hG' : s.group? g = some G') : G' = G :=
      Option.some.inj (hG'.symm.trans hG)
    refine ⟨_, hok, fun G' hG' _ => ?_, fun hnot => absurd hstatus (hnot G hG), fun G' hG' _ => ?_,
      fun G' hG' _ n node hnode r hr => ?_, honce⟩
    · rw [honly hG']
    · rw [honly hG']
      exact KeyedMap.at?_store_self hG
    · obtain ⟨node₀, -, rfl⟩ := Option.map_eq_some_iff.mp
        ((KeyedMap.at?_mapPointees _ s.nodes n).symm.trans hnode)
      -- what the node keeps has passed the filter
      have hnot := (List.mem_filter.mp hr).2
      show ¬ s.runsIn g r = true
      simpa using hnot
  · have hnot : ∀ G, s.group? g = some G → G.status ≠ .tsRunning :=
      fun G hG hstatus => hrunning ⟨G, hG, hstatus⟩
    exact ⟨s, commandCancel_otherwise hs.wellFormed hnot,
      fun G hG hstatus => absurd hstatus (hnot G hG), fun _ => rfl,
      fun G hG hstatus => absurd hstatus (hnot G hG),
      fun G hG hstatus => absurd hstatus (hnot G hG), honce⟩

end State

/-- Cancelling a running group takes its running tasks off the lists, with one notification for each to
the node that had it; cancelling anything else does nothing. -/
theorem withdraws_exactly {config : CoordinatorConfig} {ops : List Op} {s : State}
    (hrun : coordinator.FreeRun (initial config) ops s) (hfew : s.subTasks < 2 ^ 32) (g : TaskId) :
    ∃ s', s.commandCancel g = .ok s' ∧ s.Withdraws g s' :=
  State.withdraws (regular_throughout hrun (regular_initial config) hfew).2 g

theorem withdraws_exactly_two :
    let s := after soloConfig (joining 1 5 ++ joining 2 6 ++ tasking 2 ++ tasking 2)
    s.subTasks < 2 ^ 32 ∧ ∃ s', s.commandCancel 2 = .ok s' ∧ s.Withdraws 2 s' := by
  have hfew : (after soloConfig
      (joining 1 5 ++ joining 2 6 ++ tasking 2 ++ tasking 2)).subTasks < 2 ^ 32 := by decide +kernel
  exact ⟨hfew, withdraws_exactly (run_after (by decide +kernel)) hfew 2⟩

/-- The loop looks for the task that the map has under the id, which does not run. -/
theorem namesake_not_withdrawn : ¬ ∀ (config : CoordinatorConfig) (ops : List Op) (s : State)
    (g : TaskId), coordinator.FreeRun (initial config) ops s →
    ∃ s', s.commandCancel g = .ok s' ∧ s.Withdraws g s' := by
  intro hall
  obtain ⟨ops, s, r, hrun, hs⟩ := ids_met_again
  obtain ⟨s', hok, hexact⟩ := hall soloConfig ops s 1 hrun
  obtain ⟨queue, halone⟩ := hs.alone
  obtain ⟨G, hG, hstatus⟩ := hs.group
  have hnode : s.node? 2 = some { newcomer 2 6 with tasks := [r], messageQueue := queue } :=
    halone.at?
  have hruns : s.runsIn 1 r := by
    rw [State.runsIn_iff, hs.second]
    exact ⟨rfl, rfl⟩
  have hwellFormed := (wellFormed_throughout hrun (wellFormed_initial soloConfig)).2
  rw [State.commandCancel_running hwellFormed hG hstatus] at hok
  cases hok
  -- the id of the task is not among those that the loop calls off
  have hnot : (s.taskHeap.get r).id ∉ s.runningIds 1 s.tasks.pointees := by
    intro hmem
    obtain ⟨e, he, hid⟩ := List.mem_map.mp hmem
    obtain ⟨he, hrunning⟩ := List.mem_filter.mp he
    have hone : e.1 = 1 := hid.trans (by rw [hs.second]; rfl)
    have hat : s.tasks.at? e.1 = some e.2 := KeyedMap.mem_pointees.mp he
    rw [hone, hs.index] at hat
    rw [← Option.some.inj hat, State.runsIn_iff, hs.first] at hrunning
    cases hrunning.2
  have hlisted : r ∈ (Node.relieved s.taskHeap (s.runningIds 1 s.tasks.pointees)
      { newcomer 2 6 with tasks := [r], messageQueue := queue }).tasks :=
    List.mem_filter.mpr ⟨List.mem_singleton_self r, decide_eq_true hnot⟩
  exact hexact.cleared G hG hstatus 2 _
    ((KeyedMap.at?_mapPointees _ _ _).trans (congrArg _ hnode)) r hlisted hruns

end Bem
