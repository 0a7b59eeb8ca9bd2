import Bem.Coordinator.Failover

/-!
# Balancing

What `balanceTasks` does, task by task and node by node, and that a second call finds nothing to do.
-/

namespace Bem

/-- The tasks are appended to the list of the node, and sent to it. -/
def Node.handed (heap : Heap Task) (given : List Ref) (node : Node) : Node :=
  { node with
    tasks := node.tasks ++ given
    messageQueue := node.messageQueue ++ given.map fun r => .task { task := heap.get r } }

theorem Node.handed_nil (heap : Heap Task) (node : Node) : node.handed heap [] = node := by
  unfold handed
  rw [List.map_nil, List.append_nil, List.append_nil]

theorem Node.handed_concat (heap : Heap Task) (given : List Ref) (r : Ref) (node : Node) :
    (node.handed heap given).handed heap [r] = node.handed heap (given ++ [r]) := by
  unfold handed
  dsimp only
  rw [List.map_append, List.append_assoc, List.append_assoc]

theorem Node.profile_handed (heap : Heap Task) (given : List Ref) (node : Node) :
    (node.handed heap given).profile = node.profile := rfl

/-- A task that no task of the list shares its id with is appended and sent. -/
theorem Node.assignTask_of_not_lists {heap : Heap Task} {r : Ref} {node : Node}
    (h : ¬ node.lists heap (heap.get r).id) : node.assignTask heap r = node.handed heap [r] := by
  unfold assignTask
  rw [if_neg h]
  rfl

namespace State

variable {s s' t : State} {given : NodeId → List Ref} {n : NodeId} {node : Node} {r : Ref}

/-- Some node is eligible for the task. -/
def Placeable (s : State) (r : Ref) : Prop :=
  ∃ n node, s.node? n = some node ∧ node.eligible (s.taskHeap.get r)

/-- What balancing has done when the nodes have been given the tasks `given`. -/
structure Distributed (s t : State) (given : NodeId → List Ref) : Prop where
  rest : t = { s with
    nodes := s.nodes.mapPointees fun n => Node.handed s.taskHeap (given n)
    taskHeap := t.taskHeap
    assignCalls := t.assignCalls }
  next : t.taskHeap.next = s.taskHeap.next
  running : ∀ n, ∀ r ∈ given n,
    t.taskHeap.get r = { s.taskHeap.get r with status := .tsRunning }
  untouched : ∀ r, (∀ n, r ∉ given n) → t.taskHeap.get r = s.taskHeap.get r
  waiting : ∀ n, ∀ r ∈ given n, s.ledger.Waiting r
  fit : ∀ n, ∀ r ∈ given n, ∃ node, s.node? n = some node ∧ node.eligible (s.taskHeap.get r)
  once : ∀ n m, ∀ r ∈ given n, r ∈ given m → n = m
  nodup : ∀ n, (given n).Nodup

theorem distributed_start (s : State) : s.Distributed s fun _ => [] where
  rest := by
    have hsame : s.nodes.mapPointees (fun n => Node.handed s.taskHeap []) = s.nodes :=
      KeyedMap.mapPointees_same fun _ node _ => Node.handed_nil _ node
    rw [hsame]
  next := rfl
  running _ r hr := absurd hr List.not_mem_nil
  untouched _ _ := rfl
  waiting _ r hr := absurd hr List.not_mem_nil
  fit _ r hr := absurd hr List.not_mem_nil
  once _ _ r hr := absurd hr List.not_mem_nil
  nodup _ := List.nodup_nil

namespace Distributed

theorem node?_eq (h : s.Distributed t given) :
    t.node? n = (s.node? n).map (Node.handed s.taskHeap (given n)) := by
  show t.nodes.at? n = (s.nodes.at? n).map _
  rw [h.rest]
  exact KeyedMap.at?_mapPointees _ _ _

theorem node? (h : s.Distributed t given) (hnode : t.node? n = some node) :
    ∃ node₀, s.node? n = some node₀ ∧ node = node₀.handed s.taskHeap (given n) := by
  rw [h.node?_eq] at hnode
  obtain ⟨node₀, hnode₀, heq⟩ := Option.map_eq_some_iff.mp hnode
  exact ⟨node₀, hnode₀, heq.symm⟩

theorem tasks (h : s.Distributed t given) : t.tasks = s.tasks := by rw [h.rest]

/-- A task that still waits has not been given to anybody. -/
theorem get_of_none (h : s.Distributed t given) (hnone : (t.taskHeap.get r).status = .tsNone) :
    (∀ n, r ∉ given n) ∧ t.taskHeap.get r = s.taskHeap.get r := by
  have hnot : ∀ n, r ∉ given n := by
    intro n hr
    rw [h.running n r hr] at hnone
    cases hnone
  exact ⟨hnot, h.untouched r hnot⟩

theorem mem_given_iff {m : NodeId} {q : Ref} :
    q ∈ Function.update given n (given n ++ [r]) m ↔ q ∈ given m ∨ (m = n ∧ q = r) := by
  by_cases hm : m = n
  · rw [hm, Function.update_self, List.mem_append, List.mem_singleton]
    simp
  · rw [Function.update_of_ne hm]
    simp [hm]

/-- One more task for the node is one more in what it was handed. -/
theorem mapPointees_given {nodes : KeyedMap NodeId (Option Node)} (heap : Heap Task)
    (hnode : nodes.at? n = some node) :
    (nodes.mapPointees fun m => Node.handed heap (given m)).store n
        ((node.handed heap (given n)).handed heap [r]) =
      nodes.mapPointees fun m =>
        Node.handed heap (Function.update given n (given n ++ [r]) m) := by
  show KeyedMap.mapPointees _ (KeyedMap.mapPointees _ _) = _
  rw [KeyedMap.mapPointees_mapPointees]
  apply KeyedMap.mapPointees_congr
  intro m other hother
  split
  next hm =>
    rw [hm] at hother ⊢
    cases hnode.symm.trans hother
    rw [Function.update_self, Node.handed_concat]
  next hm => rw [Function.update_of_ne hm]

/-- The next task goes to a node `n`. -/
theorem give (h : s.Distributed t given) (hwaiting : s.ledger.Waiting r)
    (hnot : ∀ m, r ∉ given m) (hnode : s.node? n = some node)
    (hfit : node.eligible (s.taskHeap.get r))
    (hs' : s' = { t with
      nodes := t.nodes.store n ((node.handed s.taskHeap (given n)).handed s.taskHeap [r])
      assignCalls := s'.assignCalls
      taskHeap := setStatus t.taskHeap r .tsRunning }) :
    s.Distributed s' (Function.update given n (given n ++ [r])) := by
  have hget (q : Ref) : s'.taskHeap.get q =
      if q = r then { t.taskHeap.get r with status := .tsRunning } else t.taskHeap.get q := by
    rw [hs']
    exact get_setStatus _ _ _ _
  exact {
    rest := by
      have hnodes : t.nodes = s.nodes.mapPointees fun m => Node.handed s.taskHeap (given m) := by
        rw [h.rest]
      have ht : t = { s with
          nodes := t.nodes, taskHeap := t.taskHeap, assignCalls := t.assignCalls } := by
        conv_lhs => rw [h.rest]
        rw [h.rest]
      rw [hs', hnodes, mapPointees_given s.taskHeap hnode]
      conv_lhs => rw [ht]
    next := by
      rw [hs']
      exact h.next
    running := by
      intro m q hq
      rw [hget]
      rcases mem_given_iff.mp hq with hq | ⟨-, rfl⟩
      · have hne : q ≠ r := fun heq => hnot m (heq ▸ hq)
        rw [if_neg hne]
        exact h.running m q hq
      · rw [if_pos rfl, h.untouched q hnot]
    untouched := by
      intro q hq
      have hne : q ≠ r := fun heq => hq n (mem_given_iff.mpr (Or.inr ⟨rfl, heq⟩))
      rw [hget, if_neg hne]
      exact h.untouched q fun m hm => hq m (mem_given_iff.mpr (Or.inl hm))
    waiting := by
      intro m q hq
      rcases mem_given_iff.mp hq with hq | ⟨-, rfl⟩
      · exact h.waiting m q hq
      · exact hwaiting
    fit := by
      intro m q hq
      rcases mem_given_iff.mp hq with hq | ⟨rfl, rfl⟩
      · exact h.fit m q hq
      · exact ⟨node, hnode, hfit⟩
    once := by
      intro m m' q hq hq'
      -- `r` was given to nobody before, so it has only `n` now
      rcases mem_given_iff.mp hq with hq | ⟨hm, hqr⟩
      · rcases mem_given_iff.mp hq' with hq' | ⟨-, hqr⟩
        · exact h.once m m' q hq hq'
        · exact absurd (hqr ▸ hq) (hnot m)
      · rcases mem_given_iff.mp hq' with hq' | ⟨hm', -⟩
        · exact absurd (hqr ▸ hq') (hnot m')
        · rw [hm, hm']
    nodup := by
      intro m
      by_cases hm : m = n
      · rw [hm, Function.update_self, List.nodup_append]
        refine ⟨h.nodup n, List.nodup_singleton r, fun q hq p hp heq => ?_⟩
        rw [List.mem_singleton] at hp
        exact hnot n (hp ▸ heq ▸ hq)
      · rw [Function.update_of_ne hm]
        exact h.nodup m }

end Distributed

/-- One task of the loop: it is passed over, or waits and goes to a node that is eligible for it. -/
theorem distributed_balanceTask (h : s.Distributed t given) (ht : t.Regular) {id : TaskId}
    (hindex : t.tasks.at? id = some r) (hok : t.balanceTask r = .ok s') :
    ∃ given', s.Distributed s' given' := by
  rcases balanceTask_cases hok with rfl | ⟨n, node, hnode, heligible, hnone, hs'⟩
  · exact ⟨given, h⟩
  · obtain ⟨hnot, hsame⟩ := h.get_of_none hnone
    obtain ⟨node₀, hnode₀, heq⟩ := h.node? hnode
    have hid : (t.taskHeap.get r).id = id := (ht.wellFormed.sound.index id r hindex).2
    -- a task that waits is on no list
    have hlists : ¬ node.lists t.taskHeap (t.taskHeap.get r).id := by
      rw [hid, ht.lists_iff hindex hnode]
      exact fun hr => ht.exclusive.held n _ (ledger_desk hnode) r hr hnone
    have hassign : node.assignTask t.taskHeap r =
        (node₀.handed s.taskHeap (given n)).handed s.taskHeap [r] := by
      rw [Node.assignTask_of_not_lists hlists, heq]
      unfold Node.handed
      dsimp only [List.map]
      rw [hsame]
    have hfit : node₀.eligible (s.taskHeap.get r) := by
      rw [heq, Node.eligible_congr (Node.profile_handed _ _ _), hsame] at heligible
      exact heligible
    have hwaiting : s.ledger.Waiting r := by
      refine ⟨⟨id, ?_⟩, hsame ▸ hnone⟩
      rw [h.tasks] at hindex
      exact hindex
    rw [hassign] at hs'
    refine ⟨_, h.give hwaiting hnot hnode₀ hfit ?_⟩
    rw [hs']

/-- What balancing does: every task that waits goes to one of the nodes that are eligible for it, if
there are any, and nothing else changes. -/
structure BalancedExactly (s s' : State) (given : NodeId → List Ref) : Prop where
  rest : s' = { s with
    nodes := s.nodes.mapPointees fun n => Node.handed s.taskHeap (given n)
    taskHeap := s'.taskHeap
    suspectedBalancing := false
    assignCalls := s'.assignCalls }
  next : s'.taskHeap.next = s.taskHeap.next
  running : ∀ n, ∀ r ∈ given n,
    s'.taskHeap.get r = { s.taskHeap.get r with status := .tsRunning }
  untouched : ∀ r, (∀ n, r ∉ given n) → s'.taskHeap.get r = s.taskHeap.get r
  given_iff : ∀ r, (∃ n, r ∈ given n) ↔ s.ledger.Waiting r ∧ s.Placeable r
  fit : ∀ n, ∀ r ∈ given n, ∃ node, s.node? n = some node ∧ node.eligible (s.taskHeap.get r)
  once : ∀ n m, ∀ r ∈ given n, r ∈ given m → n = m
  unlisted : ∀ n, ∀ r ∈ given n, ∀ m node, s.node? m = some node → r ∉ node.tasks
  ids : ∀ n, ((given n).map fun r => (s.taskHeap.get r).id).Nodup
  exhausted : ∀ r, s'.ledger.Waiting r → ¬ s'.Placeable r

theorem suits_iff_placeable : s.outline.Suits (s.taskHeap.get r) ↔ s.Placeable r := by
  constructor
  · rintro ⟨n, p, hp, hfit⟩
    obtain ⟨node, hnode, rfl⟩ := Option.map_eq_some_iff.mp hp
    exact ⟨n, node, hnode, Node.eligible_iff.mpr hfit⟩
  · rintro ⟨n, node, hnode, hfit⟩
    exact ⟨n, _, profile_of_at? hnode, Node.eligible_iff.mp hfit⟩

theorem balancedExactly (hs : s.Regular) (hok : s.balanceTasks = .ok s') :
    ∃ given, s.BalancedExactly s' given := by
  obtain ⟨s₁, hloop, heq⟩ := balanceTasks_eq_ok hok
  let I (l : List Ref) (t : State) : Prop :=
    (∀ r ∈ l, ∃ id, s.tasks.at? id = some r) ∧ t.Regular ∧ ∃ given, s.Distributed t given
  have hI : I [] s₁ := by
    apply Except.foldlM_rest (I := I) _ _ hloop
    · intro r l t t' ht hstep
      obtain ⟨hindex, hregular, given, hgiven⟩ := ht
      obtain ⟨id, hid⟩ := hindex r List.mem_cons_self
      rw [← hgiven.tasks] at hid
      exact ⟨fun q hq => hindex q (List.mem_cons_of_mem r hq),
        (hregular.balanceTask hid hstep).1, distributed_balanceTask hgiven hregular hid hstep⟩
    · refine ⟨fun r hr => ?_, hs, _, distributed_start s⟩
      obtain ⟨e, he, rfl⟩ := List.mem_map.mp hr
      exact ⟨e.1, KeyedMap.mem_pointees.mp he⟩
  obtain ⟨-, -, given, h⟩ := hI
  have hheap : s'.taskHeap = s₁.taskHeap := by rw [heq]
  have hplaceable (r : Ref) (hsame : s'.taskHeap.get r = s.taskHeap.get r) :
      s'.Placeable r ↔ s.Placeable r := by
    rw [← suits_iff_placeable, ← suits_iff_placeable, hsame, outline_balanceTasks hok]
  have hexhausted (r : Ref) (hr : s'.ledger.Waiting r) : ¬ s'.Placeable r := by
    rw [← suits_iff_placeable]
    exact balanceTasks_places hs.wellFormed hok hr
  refine ⟨given, ?_, ?_, ?_, ?_, fun r => ⟨?_, ?_⟩, h.fit, h.once, ?_, fun n => ?_, hexhausted⟩
  · rw [heq]
    conv_lhs => rw [h.rest]
  · rw [hheap]
    exact h.next
  · rw [hheap]
    exact h.running
  · rw [hheap]
    exact h.untouched
  · rintro ⟨n, hr⟩
    obtain ⟨node, hnode, hfit⟩ := h.fit n r hr
    exact ⟨h.waiting n r hr, n, node, hnode, hfit⟩
  · intro hr
    by_contra hnot
    have hsame : s'.taskHeap.get r = s.taskHeap.get r := by
      rw [hheap]
      exact h.untouched r fun n hn => hnot ⟨n, hn⟩
    -- the task would still wait for a node
    have hwaits : s'.ledger.Waiting r := by
      refine ⟨?_, by rw [← hr.1.2]; exact congrArg Task.status hsame⟩
      obtain ⟨id, hid⟩ := hr.1.1
      refine ⟨id, ?_⟩
      show s'.tasks.at? id = some r
      rw [heq, h.rest]
      exact hid
    exact hexhausted r hwaits ((hplaceable r hsame).mpr hr.2)
  · intro n r hr m node hnode hlisted
    exact hs.exclusive.held m _ (ledger_desk hnode) r hlisted (h.waiting n r hr).2
  · apply List.Nodup.map_on _ (h.nodup n)
    intro q hq r hr hid
    have hindex {p : Ref} (hp : p ∈ given n) : s.tasks.at? (s.taskHeap.get p).id = some p := by
      obtain ⟨id, hid⟩ := (h.waiting n p hp).1
      exact (hs.task?_id (hs.wellFormed.sound.index id p hid).1).1
    have hboth := (hindex hq).symm.trans ((congrArg s.tasks.at? hid).trans (hindex hr))
    exact Option.some.inj hboth

/-! ## Balancing again -/

/-- A loop whose body changes nothing. -/
theorem foldlM_same {α : Type} {f : State → α → Except Fault State} {l : List α}
    (h : ∀ a ∈ l, f s a = .ok s) : l.foldlM f s = .ok s := by
  induction l with
  | nil => rfl
  | cons a l ih =>
    exact Except.foldlM_cons_eq_ok.mpr
      ⟨s, h a List.mem_cons_self, ih fun b hb => h b (List.mem_cons_of_mem a hb)⟩

theorem balanceTask_same (hnodes : s.nodes.NonNull)
    (h : (s.taskHeap.get r).status = .tsNone → ¬ s.Placeable r) : s.balanceTask r = .ok s := by
  unfold balanceTask
  split
  next hnone =>
    obtain ⟨nodeIds, hnodeIds⟩ : ∃ nodeIds,
        s.getEligibleNodesForTask (s.taskHeap.get r) = .ok nodeIds := by
      unfold getEligibleNodesForTask
      rw [KeyedMap.pointees?_of_nonNull hnodes]
      exact ⟨_, rfl⟩
    refine Except.bind_eq_ok.mpr ⟨nodeIds, hnodeIds, ?_⟩
    cases nodeIds with
    | nil => rfl
    | cons n nodeIds =>
      have hfit := eligible_of_getEligibleNodesForTask hnodeIds List.mem_cons_self
      exact absurd ⟨n, hfit⟩ (h hnone)
  next => rfl

/-- Where no task waits for a node, only the flag changes. -/
theorem balanceTasks_same (hs : s.WellFormed) (hflag : s.suspectedBalancing = false)
    (h : ∀ r, s.ledger.Waiting r → ¬ s.Placeable r) : s.balanceTasks = .ok s := by
  have hloop : (s.tasks.pointees.map Prod.snd).foldlM balanceTask s = .ok s := by
    apply foldlM_same
    intro r hr
    obtain ⟨e, he, rfl⟩ := List.mem_map.mp hr
    exact balanceTask_same hs.nodes fun hnone => h e.2 ⟨⟨e.1, KeyedMap.mem_pointees.mp he⟩, hnone⟩
  unfold balanceTasks
  rw [KeyedMap.pointees?_of_nonNull hs.tasks]
  refine Except.bind_eq_ok.mpr ⟨s, hloop, ?_⟩
  show Except.ok { s with suspectedBalancing := false } = .ok s
  rw [← hflag]

end State

/-- Balancing gives every task that waits, and that some node is eligible for, to exactly one such node,
changes nothing else, and leaves nothing for a second call. -/
theorem balances_exactly {config : CoordinatorConfig} {ops : List Op} {s : State}
    (hrun : coordinator.FreeRun (initial config) ops s) (hfew : s.subTasks < 2 ^ 32) :
    ∃ s' given, s.balanceTasks = .ok s' ∧ s.BalancedExactly s' given ∧ s'.balanceTasks = .ok s' := by
  have hs : s.Regular := (regular_throughout hrun (regular_initial config) hfew).2
  obtain ⟨t, hok, -⟩ := State.balanceTasks_rule (I := fun _ => True) hs.wellFormed.nodes
    hs.wellFormed.tasks (fun _ _ _ _ _ => trivial) trivial
  obtain ⟨given, hgiven⟩ := State.balancedExactly hs hok
  have hstep : s.step .balance = .ok { t with suspectedBalancing := false } := hok
  have hwellFormed := (State.follows_step hs.wellFormed hstep).wellFormed
  exact ⟨_, given, hok, hgiven, State.balanceTasks_same hwellFormed rfl hgiven.exhausted⟩

/-- A node falls silent with its only task, and the task goes to the other one. -/
theorem balances_exactly_moved :
    let s := after soloConfig (joining 1 5 ++ tasking 1 ++ silence ++ joining 2 6)
    s.subTasks < 2 ^ 32 ∧ ∃ s' given, s.balanceTasks = .ok s' ∧ s.BalancedExactly s' given ∧
      s'.balanceTasks = .ok s' := by
  have hfew : (after soloConfig (joining 1 5 ++ tasking 1 ++ silence ++ joining 2 6)).subTasks <
      2 ^ 32 := by decide +kernel
  exact ⟨hfew, balances_exactly (run_after (by decide +kernel)) hfew⟩

/-! ## Two tasks of one id -/

/-- Task `1` waits for a node, while node `2` plays another one of its id and group that the map does
not hold. -/
structure State.Namesakes (s : State) (r : Ref) : Prop where
  alone : ∃ queue, s.Alone soloConfig 2 { newcomer 2 6 with tasks := [r], messageQueue := queue }
  index : s.tasks.at? 1 = some 0
  first : s.taskHeap.get 0 =
    { State.subTask { State.template (soloArgs 1) with groupId := 1 } 1 1 with status := .tsNone }
  second : s.taskHeap.get r =
    State.subTask { State.template (soloArgs 1) with groupId := 1 } 1 1
  unmapped : ∀ t, s.tasks.at? t ≠ some r
  group : ∃ G, s.groups.at? 1 = some G ∧ G.status = .tsRunning

/-- The node of task `1` falls silent and comes back, and the task is not given to it again yet. -/
theorem returned : ∃ ops s node, coordinator.FreeRun (initial soloConfig) ops s ∧
    s.Alone soloConfig 1 node ∧ node.eligible (State.template (soloArgs 1)) ∧
    s.tasks.at? 1 = some 0 ∧ s.taskHeap.get 0 = { State.subTask
      { State.template (soloArgs 1) with groupId := 1 } 1 1 with status := .tsNone } ∧
    s.groups.at? 1 = some (State.newGroup 1 1) ∧ s.subTasks = 1 ∧ s.nextGroupId = 2 :=
  ⟨joining 1 5 ++ tasking 1 ++ silence ++ [.balance,
      .notify 1 { taskId := taskIdNone, taskStatus := .tsNone } 12000000000,
      .maintain fun _ => 12000000001], _, _, run_after (by decide +kernel),
    ⟨rfl, rfl, rfl, rfl, rfl⟩, rfl, by decide +kernel, by decide +kernel, by decide +kernel,
    by decide +kernel, by decide +kernel⟩

/-- Before the task is given to the node again, the commands go once round all ids, and the node makes
way for another. -/
theorem ids_met_again : ∃ ops s r, coordinator.FreeRun (initial soloConfig) ops s ∧
    s.Namesakes r := by
  obtain ⟨ops₀, s₀, node₀, hrun₀, halone₀, hfit₀, hindex₀, hget₀, hgroup₀, hnext₀, hgroupId₀⟩ :=
    returned
  have hknown : soloConfig.gamelist.offers (State.template (soloArgs 1)) := by decide
  have hgames : (soloArgs 1).games ≠ 0 := by decide
  obtain ⟨ops₁, s₁, node₁, hrun₁, halone₁, -, hnext₁, hkept₁⟩ :=
    halone₀.load hknown hfit₀ hgames (2 ^ 32 - 1)
  obtain ⟨s₂, hrun₂, halone₂, hheap₂, htasks₂, hgroups₂, hgroupId₂⟩ := halone₁.succeeded
  have hfit₂ : (newcomer 2 6).eligible (State.template (soloArgs 1)) := by decide
  obtain ⟨s₃, hrun₃, -, hgroups₃, hcase⟩ := halone₂.command hknown hfit₂
  rcases hcase with ⟨hzero, -⟩ | ⟨-, halone₃, hheap₃, htasks₃⟩
  · cases hzero
  have hrun := (hrun₀.append hrun₁).append hrun₂
  have hwellFormed : s₂.WellFormed :=
    (wellFormed_throughout hrun (wellFormed_initial soloConfig)).2
  have hnext : s₂.taskHeap.next = 2 ^ 32 := by
    rw [hheap₂]
    exact hnext₁.trans (congrArg (· + (2 ^ 32 - 1)) hnext₀)
  -- both counters are back at `1`
  have hid : s₂.nextTaskId = 1 := by
    rw [hwellFormed.nextTaskId, hnext]
    rfl
  have hgroupId : s₂.nextGroupId = 1 := by
    rw [hgroupId₂, hkept₁.nextGroupId, hgroupId₀]
    rfl
  have hindex₂ : s₂.tasks.at? 1 = some 0 := by
    rw [htasks₂]
    exact hkept₁.tasks 1 0 hindex₀
  have htasks : s₃.tasks = s₂.tasks := by
    rw [htasks₃, hid, KeyedMap.emplace_of_mem (KeyedMap.mem_of_at? hindex₂)]
  refine ⟨_, s₃, s₂.taskHeap.next, hrun.append hrun₃, ⟨_, halone₃⟩, htasks ▸ hindex₂, ?_, ?_,
    fun t ht => ?_, ?_⟩
  · have hne : 0 ≠ s₂.taskHeap.next := by
      rw [hnext]
      exact Nat.ne_of_lt (Nat.two_pow_pos 32)
    rw [hheap₃, Heap.get_alloc_ne hne, hheap₂,
      hkept₁.heap 0 (by rw [hnext₀]; exact Nat.one_pos), hget₀]
  · rw [hheap₃, Heap.get_alloc_self, hid, hgroupId]
    rfl
  · rw [htasks] at ht
    exact absurd (hwellFormed.sound.index t _ ht).1 (lt_irrefl _)
  · have hgroup₂ : s₂.groups.at? 1 = some (State.newGroup 1 1) := by
      rw [hgroups₂]
      exact hkept₁.groups 1 _ hgroup₀
    refine ⟨State.newGroup 1 1, ?_, rfl⟩
    rw [hgroups₃]
    exact KeyedMap.at?_emplace_of_at? hgroup₂

namespace State

variable {s s' : State} {r q : Ref}

/-- A task whose id every node has in its list already is put on no list. -/
theorem not_listed_of_balanceTasks (hlists : ∀ n node, s.node? n = some node →
      node.lists s.taskHeap (s.taskHeap.get r).id ∧ r ∉ node.tasks)
    (hok : s.balanceTasks = .ok s') {n : NodeId} {node : Node} (hnode : s'.node? n = some node) :
    r ∉ node.tasks := by
  obtain ⟨s₁, hloop, rfl⟩ := balanceTasks_eq_ok hok
  let I (_ : List Ref) (t : State) : Prop := ∀ n node, t.node? n = some node →
    node.lists t.taskHeap (t.taskHeap.get r).id ∧ r ∉ node.tasks
  have hI : I [] s₁ := by
    apply Except.foldlM_rest (I := I) _ hlists hloop
    intro q l t t' ht hstep
    rcases balanceTask_cases hstep with rfl | ⟨m, other, hother, -, -, rfl⟩
    · exact ht
    · intro n node hnode
      -- lists are searched by ids, which the status has nothing to do with
      have hids (p : Ref) : ((setStatus t.taskHeap q .tsRunning).get p).id = (t.taskHeap.get p).id :=
        id_setStatus _ _ _ _
      have hsame (node : Node) (id : TaskId) : node.lists (setStatus t.taskHeap q .tsRunning) id =
          node.lists t.taskHeap id := by
        unfold Node.lists
        simp only [hids]
      have hat : (t.nodes.store m (other.assignTask t.taskHeap q)).at? n = some node := hnode
      show node.lists (setStatus t.taskHeap q .tsRunning)
        ((setStatus t.taskHeap q .tsRunning).get r).id ∧ _
      rw [hsame, hids]
      rw [KeyedMap.at?_store_of_at? hother] at hat
      rcases Ledger.update_eq_some.mp hat with ⟨rfl, rfl⟩ | ⟨-, hold⟩
      · obtain ⟨hlisted, hnot⟩ := ht n other hother
        unfold Node.assignTask
        split
        next => exact ⟨hlisted, hnot⟩
        next hq =>
          obtain ⟨p, hp, hid⟩ := Node.lists_iff.mp hlisted
          refine ⟨Node.lists_iff.mpr ⟨p, List.mem_append_left _ hp, hid⟩, fun hmem => ?_⟩
          rcases List.mem_append.mp hmem with hmem | hmem
          · exact hnot hmem
          · -- the task itself is passed over, as its id is listed
            rw [List.mem_singleton] at hmem
            exact hq (hmem ▸ hlisted)
      · exact ht n node hold
  exact (hI n node hnode).2

end State

/-- Balancing marks the task that waits as running, and gives it to nobody. -/
theorem namesake_not_assigned : ¬ ∀ (config : CoordinatorConfig) (ops : List Op) (s : State),
    coordinator.FreeRun (initial config) ops s →
    ∃ s' given, s.balanceTasks = .ok s' ∧ s.BalancedExactly s' given ∧ s'.balanceTasks = .ok s' := by
  intro hall
  obtain ⟨ops, s, r, hrun, hs⟩ := ids_met_again
  obtain ⟨s', given, hok, hexact, -⟩ := hall soloConfig ops s hrun
  obtain ⟨queue, halone⟩ := hs.alone
  have hnode : s.node? 2 = some { newcomer 2 6 with tasks := [r], messageQueue := queue } :=
    halone.at?
  have honly {n : NodeId} {node : Node} (h : s.node? n = some node) : n = 2 ∧
      node = { newcomer 2 6 with tasks := [r], messageQueue := queue } := by
    have hmem := KeyedMap.mem_pointees.mpr h
    rw [halone.pointees, List.mem_singleton] at hmem
    exact ⟨congrArg Prod.fst hmem, congrArg Prod.snd hmem⟩
  have hne : r ≠ 0 := fun h => hs.unmapped 1 (h ▸ hs.index)
  have hgiven : ∃ n, 0 ∈ given n := by
    refine (hexact.given_iff 0).mpr ⟨⟨⟨1, hs.index⟩, ?_⟩, 2, _, hnode, ?_⟩
    · show (s.taskHeap.get 0).status = .tsNone
      rw [hs.first]
    · rw [hs.first]
      rfl
  obtain ⟨n, hn⟩ := hgiven
  obtain ⟨node, hat, -⟩ := hexact.fit n 0 hn
  have hafter : s'.node? n = some (node.handed s.taskHeap (given n)) := by
    show s'.nodes.at? n = _
    rw [hexact.rest]
    exact (KeyedMap.at?_mapPointees _ _ _).trans (congrArg _ hat)
  refine State.not_listed_of_balanceTasks (fun m other hother => ?_) hok hafter
    (List.mem_append_right _ hn)
  obtain ⟨-, rfl⟩ := honly hother
  refine ⟨Node.lists_iff.mpr ⟨r, List.mem_singleton_self r, ?_⟩, fun hmem => ?_⟩
  · rw [hs.first, hs.second]
  · exact hne (List.mem_singleton.mp hmem).symm

end Bem
