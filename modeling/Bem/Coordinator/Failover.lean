import Bem.Coordinator.Exclusive
import Bem.Coordinator.LongRuns
import Bem.Coordinator.Posting
import Bem.Coordinator.Remembered

/-!
# Failover

What one tick of the maintenance loop does with the tasks of the nodes that have fallen silent: it
takes them off their lists and calls them off, and balancing gives them to other nodes.
-/

namespace Bem

/-! ## Giving tasks back -/

theorem Desk.release_congr {heap heap' : Heap Task} {d : Desk}
    (h : ∀ r ∈ d.list, heap'.get r = heap.get r) : d.release heap' = d.release heap := by
  have hrunning : ∀ r ∈ d.list, isRunning heap' r = isRunning heap r := by
    intro r hr
    unfold isRunning
    rw [h r hr]
  have hfilter : d.list.filter (isRunning heap') = d.list.filter (isRunning heap) :=
    List.filter_congr hrunning
  have hrest : d.list.filter (fun r => ! isRunning heap' r) =
      d.list.filter fun r => ! isRunning heap r :=
    List.filter_congr fun r hr => congrArg not (hrunning r hr)
  have hids : (d.list.filter (isRunning heap)).map (fun r => Node.cancelled (heap'.get r).id) =
      (d.list.filter (isRunning heap)).map fun r => Node.cancelled (heap.get r).id :=
    List.map_congr_left fun r hr => by rw [h r (List.mem_of_mem_filter hr)]
  unfold release
  rw [hfilter, hrest, hids]

/-- No task lies on two lists. -/
def Ledger.HeldOnce (L : Ledger) : Prop :=
  ∀ n m d e, L.desk n = some d → L.desk m = some e → ∀ r ∈ d.list, r ∈ e.list → n = m

namespace State

variable {s s' : State} {clock : NodeId → TimePoint} {n : NodeId} {node : Node}

/-! ## The loop over the nodes -/

/-- What the loop makes of a silent node. -/
structure GivenUp (heap : Heap Task) (node node' : Node) : Prop where
  broken : node'.flags.connBroken = true
  tasks : node'.tasks = node.tasks.filter fun r => ! Desk.isRunning heap r
  history : node'.history = node.history ++
    (node.tasks.filter (Desk.isRunning heap)).map fun r => Node.cancelled (heap.get r).id

theorem GivenUp.congr {heap heap' : Heap Task} {node' : Node} (h : GivenUp heap node node')
    (hsame : ∀ r ∈ node.tasks, heap'.get r = heap.get r) : GivenUp heap' node node' := by
  have hrelease := Desk.release_congr (d := node.desk) hsame
  exact ⟨h.broken, h.tasks.trans (congrArg Desk.list hrelease).symm,
    h.history.trans (congrArg Desk.sent hrelease).symm⟩

/-- What the loop makes of any other node. -/
structure Kept (node node' : Node) : Prop where
  broken : node'.flags.connBroken = true → node.flags.connBroken = true
  tasks : node'.tasks = node.tasks
  history : ∃ pings, node'.history = node.history ++ pings ∧ ∀ message ∈ pings, message = Node.ping

theorem maintainNode_spec (hs : s.WellFormed) (hnode : s.node? n = some node) :
    ∃ s', s' = maintainNode clock s (n, node) ∧ s'.tasks = s.tasks ∧ s'.groups = s.groups ∧
      ∃ node', s'.node? n = some node' ∧
        ((s.isSilent clock (n, node) ∧ s'.taskHeap = giveBack s.taskHeap node.tasks ∧
          GivenUp s.taskHeap node node') ∨
        (¬ s.isSilent clock (n, node) ∧ s'.taskHeap = s.taskHeap ∧ Kept node node')) := by
  rcases maintainNode_cases s clock (n, node) with
    ⟨hawait, b, heq⟩ | ⟨hsilent, node', marked, b, hnode', hmarked, heq⟩ | ⟨-, hloud, heq⟩
  · rw [heq]
    refine ⟨_, rfl, rfl, rfl, _, KeyedMap.at?_store_self hnode,
      Or.inr ⟨fun hsilent => hawait hsilent.1, rfl, ⟨Bool.noConfusion, rfl, [Node.ping], ?_, ?_⟩⟩⟩
    · exact (List.append_assoc _ _ _).symm
    · exact fun message hmem => List.mem_singleton.mp hmem
  · obtain ⟨hheap, hfinal⟩ := released_of_silent hs hnode hnode' hmarked
    rw [heq]
    refine ⟨_, rfl, rfl, rfl, _, KeyedMap.at?_store_self hnode,
      Or.inl ⟨hsilent, hheap, ?_, ?_, ?_⟩⟩
    · have hprofile := Node.profile_foldl_unassignTask marked.1 node' marked.2
      exact (congrArg (fun p : Node.Profile => p.flags.connBroken) hprofile).trans
        (by rw [hnode']; rfl)
    · exact congrArg Desk.list hfinal
    · exact congrArg Desk.sent hfinal
  · rw [heq]
    exact ⟨s, rfl, rfl, rfl, node, hnode, Or.inr ⟨hloud, rfl, id, rfl, [],
      (List.append_nil _).symm, fun _ hmem => absurd hmem List.not_mem_nil⟩⟩

/-- The task runs on a silent node. -/
def GivesUp (s : State) (clock : NodeId → TimePoint) (n : NodeId) (r : Ref) : Prop :=
  ∃ node, s.node? n = some node ∧ s.isSilent clock (n, node) ∧ r ∈ node.tasks ∧
    (s.taskHeap.get r).status = .tsRunning

/-- What the loop does. -/
structure Maintained (clock : NodeId → TimePoint) (s s' : State) : Prop where
  tasks : s'.tasks = s.tasks
  groups : s'.groups = s.groups
  givenUp : ∀ n r, s.GivesUp clock n r →
    s'.taskHeap.get r = { s.taskHeap.get r with status := .tsNone }
  others : ∀ r, (∀ n, ¬ s.GivesUp clock n r) → s'.taskHeap.get r = s.taskHeap.get r
  nodes : ∀ n node, s.node? n = some node → ∃ node', s'.node? n = some node' ∧
    ((s.isSilent clock (n, node) ∧ GivenUp s.taskHeap node node') ∨
      (¬ s.isSilent clock (n, node) ∧ Kept node node'))
  joins : ∀ n node', s'.node? n = some node' → ∃ node, s.node? n = some node

/-- The task runs on a silent node that is not in the list `l` of the nodes still to come. -/
def GaveUp (s : State) (clock : NodeId → TimePoint) (l : List (NodeId × Node)) (r : Ref) : Prop :=
  ∃ n node, s.node? n = some node ∧ (n, node) ∉ l ∧ s.isSilent clock (n, node) ∧ r ∈ node.tasks ∧
    (s.taskHeap.get r).status = .tsRunning

/-- What the loop has done when the nodes in `l` are still to come. -/
structure Maintaining (clock : NodeId → TimePoint) (s : State) (l : List (NodeId × Node))
    (t : State) : Prop where
  nodup : (l.map Prod.fst).Nodup
  tasks : t.tasks = s.tasks
  groups : t.groups = s.groups
  givenUp : ∀ r, s.GaveUp clock l r →
    t.taskHeap.get r = { s.taskHeap.get r with status := .tsNone }
  others : ∀ r, ¬ s.GaveUp clock l r → t.taskHeap.get r = s.taskHeap.get r
  nodes : ∀ n node, s.node? n = some node → (n, node) ∉ l → ∃ node', t.node? n = some node' ∧
    ((s.isSilent clock (n, node) ∧ GivenUp s.taskHeap node node') ∨
      (¬ s.isSilent clock (n, node) ∧ Kept node node'))

theorem maintaining_start : s.Maintaining clock s.nodes.pointees s := by
  refine ⟨s.nodes.nodup_pointees, rfl, rfl, fun r hdone => ?_, fun _ _ => rfl, ?_⟩
  · obtain ⟨n, node, hnode, hnot, -⟩ := hdone
    exact absurd (KeyedMap.mem_pointees.mpr hnode) hnot
  · intro n node hnode hnot
    exact absurd (KeyedMap.mem_pointees.mpr hnode) hnot

theorem Maintaining.next {l : List (NodeId × Node)} {t : State}
    (h : s.Maintaining clock ((n, node) :: l) t) (honce : s.ledger.HeldOnce) (ht : t.WellFormed)
    (hconfig : t.config = s.config) (hnode : s.node? n = some node)
    (hnode' : t.node? n = some node) : s.Maintaining clock l (maintainNode clock t (n, node)) := by
  have hnodup := h.nodup
  rw [List.map_cons, List.nodup_cons] at hnodup
  have hlast : ∀ m other, s.node? m = some other → (m, other) ∉ l →
      m = n ∧ other = node ∨ m ≠ n ∧ (m, other) ∉ (n, node) :: l := by
    intro m other hother hnot
    by_cases hm : m = n
    · subst hm
      exact Or.inl ⟨rfl, Option.some.inj (hother.symm.trans hnode)⟩
    · refine Or.inr ⟨hm, fun hmem => ?_⟩
      rcases List.mem_cons.mp hmem with heq | hmem
      · exact hm (congrArg Prod.fst heq)
      · exact hnot hmem
  have hfresh : (n, node) ∉ l := fun hmem => hnodup.1 (List.mem_map_of_mem hmem)
  -- nobody else has given the tasks of this node back
  have hsame : ∀ r ∈ node.tasks, t.taskHeap.get r = s.taskHeap.get r := by
    intro r hr
    apply h.others
    rintro ⟨m, other, hother, hnot, -, hr', -⟩
    have hm := honce m n _ _ (ledger_desk hother) (ledger_desk hnode) r hr' hr
    subst hm
    cases (show some other = some node from hother.symm.trans hnode)
    exact hnot List.mem_cons_self
  obtain ⟨t', heq, htasks', hgroups', node', hafter, hcase⟩ :=
    @maintainNode_spec _ clock _ _ ht hnode'
  have hsilent : t.isSilent clock (n, node) ↔ s.isSilent clock (n, node) := by
    unfold isSilent
    rw [hconfig]
  rw [hsilent] at hcase
  have hmore : ∀ r, s.GaveUp clock ((n, node) :: l) r → s.GaveUp clock l r := by
    rintro r ⟨m, other, hother, hnot, hrest⟩
    exact ⟨m, other, hother, fun hmem => hnot (List.mem_cons_of_mem _ hmem), hrest⟩
  rw [← heq]
  refine ⟨hnodup.2, htasks'.trans h.tasks, hgroups'.trans h.groups, ?_, ?_, ?_⟩
  · rintro r ⟨m, other, hother, hnot, hup, hr, hrunning⟩
    rcases hlast m other hother hnot with ⟨rfl, rfl⟩ | ⟨hm, hnot⟩
    · rcases hcase with ⟨-, hheap, -⟩ | ⟨hloud, -⟩
      · rw [hheap, get_giveBack, hsame r hr, if_pos ⟨hr, hrunning⟩]
      · exact absurd hup hloud
    · have hnone := h.givenUp r ⟨m, other, hother, hnot, hup, hr, hrunning⟩
      rcases hcase with ⟨-, hheap, -⟩ | ⟨-, hheap, -⟩
      · rw [hheap, get_giveBack, hnone, if_neg (fun hboth => by cases hboth.2)]
      · rw [hheap, hnone]
  · intro r hnot
    have hkept := h.others r fun hfirst => hnot (hmore r hfirst)
    rcases hcase with ⟨hup, hheap, -⟩ | ⟨-, hheap, -⟩
    · rw [hheap, get_giveBack, hkept, if_neg]
      rintro ⟨hr, hrunning⟩
      exact hnot ⟨n, node, hnode, hfresh, hup, hr, hrunning⟩
    · rw [hheap, hkept]
  · intro m other hother hnot
    rcases hlast m other hother hnot with ⟨rfl, rfl⟩ | ⟨hm, hnot⟩
    · refine ⟨node', hafter, ?_⟩
      rcases hcase with ⟨hup, -, hgiven⟩ | ⟨hloud, -, hkept⟩
      · exact Or.inl ⟨hup, hgiven.congr fun r hr => (hsame r hr).symm⟩
      · exact Or.inr ⟨hloud, hkept⟩
    · obtain ⟨other', hother', hstate⟩ := h.nodes m other hother hnot
      refine ⟨other', ?_, hstate⟩
      rw [heq]
      exact (nodes_maintainNode_ne hm).trans hother'

theorem maintained (hs : s.WellFormed) (honce : s.ledger.HeldOnce)
    (h : s.maintain clock = .ok s') : s.Maintained clock s' := by
  have hend := (maintain_rule clock (I := s.Maintaining clock) hs maintaining_start
    (fun _ _ _ _ hnode hnode' hconfig ht hI => hI.next honce ht hconfig hnode hnode') h).2
  refine ⟨hend.tasks, hend.groups, fun n r hup => ?_, fun r hnot => ?_, fun n node hnode => ?_,
    fun n node' hnode' => ?_⟩
  · obtain ⟨node, hnode, hsilent, hr, hrunning⟩ := hup
    exact hend.givenUp r ⟨n, node, hnode, List.not_mem_nil, hsilent, hr, hrunning⟩
  · apply hend.others
    rintro ⟨n, node, hnode, -, hsilent, hr, hrunning⟩
    exact hnot n ⟨node, hnode, hsilent, hr, hrunning⟩
  · exact hend.nodes n node hnode List.not_mem_nil
  · obtain ⟨profile, houtline, hvacant, -⟩ := outline_maintain h
    have hprofile := profile_of_at? hnode'
    rw [houtline] at hprofile
    cases hnode : s.nodes.at? n with
    | none =>
      have hprofile : profile n = some node'.profile := hprofile
      rw [hvacant n hnode] at hprofile
      cases hprofile
    | some node => exact ⟨node, hnode⟩

/-- Only `command_task` makes tasks. -/
theorem subTasks_step {op : Op} (hs : s.WellFormed) (hok : s.step op = .ok s')
    (hassign : op ≠ .assign) : s'.subTasks = s.subTasks := by
  have hrule := (follows_step hs hok).does.invariant (I := fun L => L.heap.next = s.taskHeap.next)
    (by
      intro L a L' hL ha hstep
      rw [← hL]
      cases hstep with
      | create =>
        cases op with
        | assign => exact absurd rfl hassign
        | _ => exact ha.elim
      | release => exact next_giveBack _ _
      | openGroup => rw [Ledger.heap_openGroup]
      | _ => rfl)
    rfl
  exact hrule

/-! ## Balancing -/

/-- What balancing does. -/
structure Balanced (s s' : State) : Prop where
  tasks : s'.tasks = s.tasks
  groups : s'.groups = s.groups
  outline : s'.outline = s.outline
  heap : ∀ r, s'.taskHeap.get r = s.taskHeap.get r ∨
    ((s.taskHeap.get r).status = .tsNone ∧
      s'.taskHeap.get r = { s.taskHeap.get r with status := .tsRunning } ∧
      ∃ n node, s'.node? n = some node ∧ r ∈ node.tasks ∧ node.eligible (s.taskHeap.get r))
  nodes : ∀ n node, s.node? n = some node → ∃ node' given, s'.node? n = some node' ∧
    node'.tasks = node.tasks ++ given ∧
    node'.history = node.history ++ given.map (fun r => .task { task := s.taskHeap.get r }) ∧
    ∀ r ∈ given, (s.taskHeap.get r).status = .tsNone

theorem balanced_refl (s : State) : s.Balanced s where
  tasks := rfl
  groups := rfl
  outline := rfl
  heap _ := Or.inl rfl
  nodes _ node hnode := ⟨node, [], hnode, (List.append_nil _).symm, (List.append_nil _).symm,
    fun _ hr => absurd hr List.not_mem_nil⟩

/-- A waiting task is on no list, so that the node does get it. -/
theorem assignTask_waiting (hs : s.Regular) (hnode : s.node? n = some node) {r : Ref} {t : TaskId}
    (hindex : s.tasks.at? t = some r) (hnone : (s.taskHeap.get r).status = .tsNone) :
    (node.assignTask s.taskHeap r).tasks = node.tasks ++ [r] ∧
      (node.assignTask s.taskHeap r).history =
        node.history ++ [.task { task := s.taskHeap.get r }] := by
  have hid : (s.taskHeap.get r).id = t := (hs.wellFormed.sound.index t r hindex).2
  have hlists : ¬ node.lists s.taskHeap (s.taskHeap.get r).id := by
    rw [hid, hs.lists_iff hindex hnode]
    exact fun hr => hs.exclusive.held n _ (ledger_desk hnode) r hr hnone
  unfold Node.assignTask
  rw [if_neg hlists]
  exact ⟨rfl, Node.history_send _ _⟩

theorem Balanced.assign {t : State} (h : s.Balanced t) (ht : t.Regular) {m : NodeId}
    {other : Node} (hother : t.node? m = some other) {r : Ref} {id : TaskId}
    (hindex : t.tasks.at? id = some r) (hnone : (t.taskHeap.get r).status = .tsNone)
    (heligible : other.eligible (t.taskHeap.get r)) (hs' : s' = { t with
      nodes := t.nodes.store m (other.assignTask t.taskHeap r)
      assignCalls := s'.assignCalls
      taskHeap := setStatus t.taskHeap r .tsRunning })
    (houtline : s'.outline = t.outline) : s.Balanced s' := by
  have hassigned := assignTask_waiting ht hother hindex hnone
  -- a task that still waits is as it was before the loop
  have hwaits : t.taskHeap.get r = s.taskHeap.get r := by
    rcases h.heap r with hsame | ⟨-, hrunning, -⟩
    · exact hsame
    · rw [hrunning] at hnone
      cases hnone
  have hat : s'.node? = Function.update t.node? m (some (other.assignTask t.taskHeap r)) := by
    rw [hs']
    exact KeyedMap.at?_store_of_at? hother
  have hget (q : Ref) : s'.taskHeap.get q =
      if q = r then { t.taskHeap.get r with status := .tsRunning } else t.taskHeap.get q := by
    rw [hs']
    exact get_setStatus _ _ _ _
  refine ⟨by rw [hs']; exact h.tasks, by rw [hs']; exact h.groups, houtline.trans h.outline,
    fun q => ?_, fun n node hnode => ?_⟩
  · rw [hget]
    by_cases hq : q = r
    · rw [if_pos hq, hq]
      refine Or.inr ⟨hwaits ▸ hnone, by rw [hwaits], m, _, by rw [hat, Function.update_self], ?_, ?_⟩
      · rw [hassigned.1]
        exact List.mem_append_right _ (List.mem_singleton_self r)
      · rw [Node.eligible_congr (Node.profile_assignTask _ _ _), ← hwaits]
        exact heligible
    · rw [if_neg hq]
      refine (h.heap q).imp_right ?_
      rintro ⟨hnone', hrunning, n, node, hnode, hmem, hfit⟩
      refine ⟨hnone', hrunning, n, ?_⟩
      by_cases hn : n = m
      · subst hn
        cases hnode.symm.trans hother
        refine ⟨_, by rw [hat, Function.update_self], ?_, ?_⟩
        · rw [hassigned.1]
          exact List.mem_append_left _ hmem
        · rw [Node.eligible_congr (Node.profile_assignTask _ _ _)]
          exact hfit
      · exact ⟨node, by rw [hat, Function.update_of_ne hn]; exact hnode, hmem, hfit⟩
  · obtain ⟨node', given, hnode', htasks, hhistory, hgiven⟩ := h.nodes n node hnode
    by_cases hn : n = m
    · subst hn
      cases hnode'.symm.trans hother
      refine ⟨_, given ++ [r], by rw [hat, Function.update_self], ?_, ?_, ?_⟩
      · rw [hassigned.1, htasks, List.append_assoc]
      · rw [hassigned.2, hhistory, hwaits, List.map_append, List.append_assoc]
        rfl
      · rw [List.forall_mem_append, List.forall_mem_singleton]
        exact ⟨hgiven, hwaits ▸ hnone⟩
    · exact ⟨node', given, by rw [hat, Function.update_of_ne hn]; exact hnode', htasks, hhistory,
        hgiven⟩

theorem Regular.balanceTask (hs : s.Regular) {r : Ref} {t : TaskId}
    (hindex : s.tasks.at? t = some r) (hok : s.balanceTask r = .ok s') :
    s'.Regular ∧ s'.tasks = s.tasks := by
  have hid : (s.taskHeap.get r).id = t := (hs.wellFormed.sound.index t r hindex).2
  have hfollows := follows_balanceTask hs.wellFormed (by rwa [hid]) hok
  have hnext : s'.subTasks = s.subTasks := by
    rcases balanceTask_cases hok with rfl | ⟨m, other, -, -, -, rfl⟩
    · rfl
    · rfl
  have hfew : s'.subTasks < 2 ^ 32 := hnext ▸ hs.few
  have hkept := does_indexed (fun L a L' hsound _ hL _ hstep _ _ => hL.step hsound hstep)
    hfollows.1.does hs.wellFormed.sound hs.indexed hs.exclusive (Nat.le_of_lt hfew)
  have hpopulated : s'.outline.Populated := by
    rw [outline_balanceTask hok]
    exact hs.populated
  exact ⟨⟨hfollows.1.wellFormed, hpopulated, hfew, hkept.1, hkept.2⟩, hfollows.2⟩

theorem balanced (hs : s.Regular) (h : s.balanceTasks = .ok s') : s.Balanced s' := by
  obtain ⟨s₁, hloop, rfl⟩ := balanceTasks_eq_ok h
  let I (l : List Ref) (t : State) : Prop :=
    (∀ r ∈ l, ∃ id, s.tasks.at? id = some r) ∧ t.Regular ∧ s.Balanced t
  have hI : I [] s₁ := by
    apply Except.foldlM_rest (I := I) _ _ hloop
    · intro r l t t' ht hstep
      obtain ⟨hindex, hregular, hbalanced⟩ := ht
      obtain ⟨id, hid⟩ := hindex r List.mem_cons_self
      rw [← hbalanced.tasks] at hid
      refine ⟨fun q hq => hindex q (List.mem_cons_of_mem r hq),
        (hregular.balanceTask hid hstep).1, ?_⟩
      have houtline := outline_balanceTask hstep
      rcases balanceTask_cases hstep with heq | ⟨m, other, hother, heligible, hnone, heq⟩
      · rw [heq]
        exact hbalanced
      · refine hbalanced.assign hregular hother hid hnone heligible ?_ houtline
        rw [heq]
    · refine ⟨fun r hr => ?_, hs, balanced_refl s⟩
      obtain ⟨e, he, rfl⟩ := List.mem_map.mp hr
      exact ⟨e.1, KeyedMap.mem_pointees.mp he⟩
  obtain ⟨-, -, hbalanced⟩ := hI
  exact ⟨hbalanced.tasks, hbalanced.groups, hbalanced.outline, hbalanced.heap, hbalanced.nodes⟩

/-! ## A tick -/

end State

/-- The message hands the task out. -/
def Message.hands (t : TaskId) : Message → Bool
  | .task m => m.task.id == t
  | _ => false

namespace State

variable {s s' : State} {clock : NodeId → TimePoint} {n : NodeId} {node : Node}

/-- The tick has found the node silent. -/
def NewlyBroken (s s' : State) (n : NodeId) : Prop :=
  ∃ node ∈ s.node? n, ∃ node' ∈ s'.node? n, ¬ node.flags.connBroken ∧ node'.flags.connBroken

/-- The task runs, and lies on the list of one node only, which is eligible for it and was sent it once. -/
def Moved (s s' : State) (r : Ref) : Prop :=
  (s'.taskHeap.get r).status = .tsRunning ∧ ∃ n node node' sent, s.node? n = some node ∧
    s'.node? n = some node' ∧ node'.profile.FitFor (s'.taskHeap.get r) ∧ r ∈ node'.tasks ∧
    node'.history = node.history ++ sent ∧
    (sent.filter (Message.hands (s.taskHeap.get r).id)).length = 1 ∧
    ∀ m other, s'.node? m = some other → r ∈ other.tasks → m = n

/-- The task waits, and no node is eligible for it. -/
def Stranded (s' : State) (r : Ref) : Prop :=
  (s'.taskHeap.get r).status = .tsNone ∧
    ∀ n node, s'.node? n = some node → ¬ node.profile.FitFor (s'.taskHeap.get r)

/-- What a tick does with the tasks of the nodes that it finds silent. -/
structure FailsOver (s s' : State) : Prop where
  broken : ∀ n node, s.node? n = some node → s.NewlyBroken s' n →
    (node.tasks.map fun r => (s.taskHeap.get r).id).Nodup ∧
      ∃ node', s'.node? n = some node' ∧ GivenUp s.taskHeap node node'
  removed : ∀ n node, s.node? n = some node → s.NewlyBroken s' n → ∀ r ∈ node.tasks,
    (s.taskHeap.get r).status = .tsRunning → s.Moved s' r ∨ s'.Stranded r
  others : ∀ n node, s.node? n = some node → ¬ s.NewlyBroken s' n →
    ∃ node' more sent, s'.node? n = some node' ∧ node'.tasks = node.tasks ++ more ∧
      node'.history = node.history ++ sent ∧ (∀ t, Node.cancelled t ∉ sent) ∧
      ∀ r ∈ node.tasks, s'.taskHeap.get r = s.taskHeap.get r
  done : ∀ r, (s.taskHeap.get r).status = .tsDone → s'.taskHeap.get r = s.taskHeap.get r
  tasks : s'.tasks = s.tasks
  groups : s'.groups = s.groups

/-- A tick whose loop leads to `s₁`. -/
structure Tick (clock : NodeId → TimePoint) (s s₁ s' : State) : Prop where
  before : s.Regular
  between : s₁.Regular
  after : s'.Regular
  maintained : s.Maintained clock s₁
  balanced : s₁.Balanced s'

namespace Tick

variable {s₁ : State} {r : Ref}

/-- A node through the tick. -/
theorem node? (h : Tick clock s s₁ s') (hnode : s.node? n = some node) :
    ∃ node₁ node' given, s₁.node? n = some node₁ ∧ s'.node? n = some node' ∧
      ((s.isSilent clock (n, node) ∧ GivenUp s.taskHeap node node₁) ∨
        (¬ s.isSilent clock (n, node) ∧ Kept node node₁)) ∧
      node'.flags = node₁.flags ∧ node'.tasks = node₁.tasks ++ given ∧
      node'.history = node₁.history ++ given.map (fun r => .task { task := s₁.taskHeap.get r }) ∧
      ∀ r ∈ given, (s₁.taskHeap.get r).status = .tsNone := by
  obtain ⟨node₁, hnode₁, hcase⟩ := h.maintained.nodes n node hnode
  obtain ⟨node', given, hnode', htasks, hhistory, hgiven⟩ := h.balanced.nodes n node₁ hnode₁
  refine ⟨node₁, node', given, hnode₁, hnode', hcase, ?_, htasks, hhistory, hgiven⟩
  have hprofile := profile_of_at? hnode'
  rw [h.balanced.outline, profile_of_at? hnode₁] at hprofile
  exact (congrArg Node.Profile.flags (Option.some.inj hprofile)).symm

theorem newlyBroken_iff (h : Tick clock s s₁ s') (hnode : s.node? n = some node) :
    s.NewlyBroken s' n ↔ s.isSilent clock (n, node) := by
  obtain ⟨node₁, node', given, -, hnode', hcase, hflags, -⟩ := h.node? hnode
  constructor
  · rintro ⟨other, hother, other', hother', hbefore, hafter⟩
    cases (show some node = some other from hnode.symm.trans hother)
    cases (show some node' = some other' from hnode'.symm.trans hother')
    rw [hflags] at hafter
    rcases hcase with ⟨hsilent, -⟩ | ⟨-, hkept⟩
    · exact hsilent
    · exact absurd (hkept.broken hafter) hbefore
  · intro hsilent
    rcases hcase with ⟨-, hgiven⟩ | ⟨hloud, -⟩
    · exact ⟨node, hnode, node', hnode', hsilent.2.2, hflags ▸ hgiven.broken⟩
    · exact absurd hsilent hloud

/-- Nodes neither come nor go. -/
theorem node?_before {other : Node} (h : Tick clock s s₁ s') (hother : s'.node? n = some other) :
    ∃ node, s.node? n = some node := by
  have hprofile := profile_of_at? hother
  rw [h.balanced.outline] at hprofile
  obtain ⟨node₁, hnode₁, -⟩ := Option.map_eq_some_iff.mp hprofile
  exact h.maintained.joins n node₁ hnode₁

/-- A task that the tick hands to a node lies on the list of that node only. -/
theorem handed (h : Tick clock s s₁ s') (hnone : (s₁.taskHeap.get r).status = .tsNone)
    {node' : Node} (hnode' : s'.node? n = some node') (hr : r ∈ node'.tasks) :
    (s'.taskHeap.get r).status = .tsRunning ∧ node'.eligible (s'.taskHeap.get r) := by
  have hheld : (s'.taskHeap.get r).status ≠ .tsNone :=
    h.after.exclusive.held n _ (ledger_desk hnode') r hr
  rcases h.balanced.heap r with hsame | ⟨-, hrunning, m, other, hother, hmem, heligible⟩
  · exact absurd (hsame ▸ hnone) hheld
  · have hm := h.after.exclusive.once m n _ _ (ledger_desk hother) (ledger_desk hnode') r hmem hr
    subst hm
    cases (show some other = some node' from hother.symm.trans hnode')
    rw [hrunning]
    exact ⟨rfl, heligible⟩

theorem givenUp (h : Tick clock s s₁ s') (hnode : s.node? n = some node)
    (hsilent : s.isSilent clock (n, node)) :
    ∃ node', s'.node? n = some node' ∧ GivenUp s.taskHeap node node' := by
  obtain ⟨node₁, node', given, -, hnode', hcase, hflags, htasks, hhistory, hgiven⟩ :=
    h.node? hnode
  rcases hcase with ⟨-, hup⟩ | ⟨hloud, -⟩
  · have hbroken : node'.flags.connBroken = true := hflags ▸ hup.broken
    -- a broken node is eligible for nothing
    have hnil : given = [] := by
      refine List.eq_nil_iff_forall_not_mem.mpr fun r hr => ?_
      have heligible := (h.handed (hgiven r hr) hnode'
        (htasks ▸ List.mem_append_right _ hr)).2
      exact (Node.eligible_iff.mp heligible).connected hbroken
    rw [hnil] at htasks hhistory
    exact ⟨node', hnode', hbroken, htasks.trans ((List.append_nil _).trans hup.tasks),
      hhistory.trans ((List.append_nil _).trans hup.history)⟩
  · exact absurd hsilent hloud

/-- A task that is not given up, and does not wait already, goes through the tick unchanged. -/
theorem untouched (h : Tick clock s s₁ s') (hnot : ∀ n, ¬ s.GivesUp clock n r)
    (hheld : (s.taskHeap.get r).status ≠ .tsNone) :
    s'.taskHeap.get r = s.taskHeap.get r := by
  have hsame := h.maintained.others r hnot
  rcases h.balanced.heap r with heq | ⟨hnone, -⟩
  · exact heq.trans hsame
  · exact absurd (hsame ▸ hnone) hheld

theorem kept (h : Tick clock s s₁ s') (hnode : s.node? n = some node)
    (hloud : ¬ s.isSilent clock (n, node)) :
    ∃ node' more sent, s'.node? n = some node' ∧ node'.tasks = node.tasks ++ more ∧
      node'.history = node.history ++ sent ∧ (∀ t, Node.cancelled t ∉ sent) ∧
      ∀ r ∈ node.tasks, s'.taskHeap.get r = s.taskHeap.get r := by
  obtain ⟨node₁, node', given, -, hnode', hcase, -, htasks, hhistory, -⟩ := h.node? hnode
  rcases hcase with ⟨hsilent, -⟩ | ⟨-, hkept⟩
  · exact absurd hsilent hloud
  · obtain ⟨pings, hpings, hall⟩ := hkept.history
    refine ⟨node', given, pings ++ given.map fun r => .task { task := s₁.taskHeap.get r }, hnode',
      by rw [htasks, hkept.tasks], by rw [hhistory, hpings, List.append_assoc], fun t hmem => ?_,
      fun r hr => ?_⟩
    · rcases List.mem_append.mp hmem with hping | htask
      · cases hall _ hping
      · obtain ⟨r, -, hr⟩ := List.mem_map.mp htask
        cases hr
    · refine h.untouched (fun m hup => ?_) (h.before.exclusive.held n _ (ledger_desk hnode) r hr)
      obtain ⟨other, hother, hsilent, hmem, -⟩ := hup
      have hm := h.before.exclusive.once m n _ _ (ledger_desk hother) (ledger_desk hnode) r hmem hr
      subst hm
      cases (show some other = some node from hother.symm.trans hnode)
      exact hloud hsilent

/-- The tasks handed to a node differ in their ids, so that each is sent once. -/
theorem hands_once {heap heap' : Heap Task} {tasks given : List Ref} {r : Ref}
    (hdistinct : ((tasks ++ given).map fun r => (heap.get r).id).Nodup)
    (hids : ∀ r ∈ given, (heap'.get r).id = (heap.get r).id) (hr : r ∈ given) :
    ((given.map fun r => Message.task { task := heap'.get r }).filter
      (Message.hands (heap.get r).id)).length = 1 := by
  rw [List.map_append] at hdistinct
  have hnodup := (List.nodup_append.mp hdistinct).2.1
  calc ((given.map fun r => Message.task { task := heap'.get r }).filter
        (Message.hands (heap.get r).id)).length
      = given.countP fun q => (heap'.get q).id == (heap.get r).id := by
        rw [← List.countP_eq_length_filter, List.countP_map]
        rfl
    _ = given.countP fun q => (heap.get q).id == (heap.get r).id :=
        List.countP_congr fun q hq => by rw [hids q hq]
    _ = (given.map fun q => (heap.get q).id).count (heap.get r).id := by
        rw [List.count_eq_countP, List.countP_map]
        rfl
    _ = 1 := List.count_eq_one_of_mem hnodup (List.mem_map_of_mem hr)

theorem moved (h : Tick clock s s₁ s') (hnone : (s₁.taskHeap.get r).status = .tsNone)
    (hid : (s₁.taskHeap.get r).id = (s.taskHeap.get r).id)
    (hheld : (s'.taskHeap.get r).status ≠ .tsNone) : s.Moved s' r := by
  rcases h.balanced.heap r with hsame | ⟨-, hrunning, n, node', hnode', hmem, heligible⟩
  · exact absurd (hsame ▸ hnone) hheld
  · obtain ⟨node, hnode⟩ := h.node?_before hnode'
    obtain ⟨node₁, other, given, hnode₁, hother, hcase, hflags, htasks, hhistory, hgiven⟩ :=
      h.node? hnode
    cases (show some node' = some other from hnode'.symm.trans hother)
    have hidS (q : Ref) : (s'.taskHeap.get q).id = (s₁.taskHeap.get q).id := by
      rcases h.balanced.heap q with heq | ⟨-, heq, -⟩
      · rw [heq]
      · rw [heq]
    rcases hcase with ⟨-, hup⟩ | ⟨-, hkept⟩
    · have hconnected : ¬ node'.flags.connBroken := (Node.eligible_iff.mp heligible).connected
      exact absurd (hflags ▸ hup.broken) hconnected
    · obtain ⟨pings, hpings, hall⟩ := hkept.history
      -- a task that waits is on no list, so the node has it from balancing
      have hr : r ∈ given := by
        rw [htasks] at hmem
        refine (List.mem_append.mp hmem).resolve_left fun hlisted => ?_
        exact h.between.exclusive.held n _ (ledger_desk hnode₁) r hlisted hnone
      have hdistinct : ((node₁.tasks ++ given).map fun q => (s'.taskHeap.get q).id).Nodup := by
        rw [← htasks]
        exact h.after.wellFormed.sound.distinct n _ (ledger_desk hnode')
      have honce := hands_once hdistinct (fun q _ => (hidS q).symm) hr
      refine ⟨hrunning ▸ rfl, n, node, node', pings ++ given.map fun r => .task
        { task := s₁.taskHeap.get r }, hnode, hnode',
        Node.eligible_iff.mp (hrunning ▸ heligible), hmem,
        by rw [hhistory, hpings, List.append_assoc], ?_, fun m other hother hlisted => ?_⟩
      · rw [List.filter_append, List.length_append, ← hid, ← hidS r, honce]
        have hquiet : pings.filter (Message.hands (s'.taskHeap.get r).id) = [] := by
          refine List.filter_eq_nil_iff.mpr fun message hmessage => ?_
          rw [hall message hmessage]
          exact Bool.false_ne_true
        rw [hquiet]
        rfl
      · exact h.after.exclusive.once m n _ _ (ledger_desk hother) (ledger_desk hnode') r hlisted
          hmem

theorem failsOver (h : Tick clock s s₁ s')
    (hplaced : ∀ r, s₁.taskHeap.get r ≠ s.taskHeap.get r → s'.ledger.Waiting r →
      ¬ s'.outline.Suits (s'.taskHeap.get r)) : s.FailsOver s' where
  broken n node hnode hbroken := ⟨h.before.wellFormed.sound.distinct n _ (ledger_desk hnode),
    h.givenUp hnode ((h.newlyBroken_iff hnode).mp hbroken)⟩
  removed n node hnode hbroken r hr hrunning := by
    have hsilent := (h.newlyBroken_iff hnode).mp hbroken
    have hup := h.maintained.givenUp n r ⟨node, hnode, hsilent, hr, hrunning⟩
    have hnone : (s₁.taskHeap.get r).status = .tsNone := by rw [hup]
    -- given back in the first loop, the task is handed out in the second or waits for a node
    by_cases hheld : (s'.taskHeap.get r).status = .tsNone
    · refine Or.inr ⟨hheld, fun m other hother hfit => ?_⟩
      have hlisted : r < s.taskHeap.next :=
        h.before.wellFormed.sound.list n _ (ledger_desk hnode) r hr
      have hindex : s'.tasks.at? (s.taskHeap.get r).id = some r := by
        rw [h.balanced.tasks, h.maintained.tasks]
        exact (h.before.task?_id hlisted).1
      refine hplaced r ?_ ⟨⟨_, hindex⟩, hheld⟩ ?_
      · intro heq
        rw [← heq, hnone] at hrunning
        cases hrunning
      · exact ⟨m, _, profile_of_at? hother, hfit⟩
    · exact Or.inl (h.moved hnone (by rw [hup]) hheld)
  others n node hnode hloud := h.kept hnode fun hsilent =>
    hloud ((h.newlyBroken_iff hnode).mpr hsilent)
  done r hdone := by
    refine h.untouched (fun n hup => ?_) (by rw [hdone]; decide)
    obtain ⟨-, -, -, -, hrunning⟩ := hup
    rw [hdone] at hrunning
    cases hrunning
  tasks := h.balanced.tasks.trans h.maintained.tasks
  groups := h.balanced.groups.trans h.maintained.groups

end Tick

/-- Both sections of an iteration keep what every run keeps. -/
theorem Regular.tick (hs : s.Regular) (clock : NodeId → TimePoint) :
    ∃ s₁ s', s.doMaintenance clock = .ok s' ∧ Tick clock s s₁ s' ∧
      s.maintain clock = .ok s₁ ∧
      (s₁.suspectedBalancing = true → s₁.balanceTasks = .ok s') := by
  obtain ⟨s₁, hmaintain⟩ : ∃ s₁, s.maintain clock = .ok s₁ := by
    unfold maintain
    rw [KeyedMap.pointees?_of_nonNull hs.wellFormed.nodes]
    exact ⟨_, rfl⟩
  have hstep : s.step (.maintain clock) = .ok s₁ := hmaintain
  have hnext : s₁.subTasks = s.subTasks :=
    subTasks_step hs.wellFormed hstep fun h => by cases h
  have henabled : s.enabled (.maintain clock) := trivial
  have hs₁ : s₁.Regular := hs.step henabled hstep (hnext ▸ hs.few)
  have hmaintained := maintained hs.wellFormed hs.exclusive.once hmaintain
  unfold State.doMaintenance
  rw [hmaintain]
  by_cases hflag : s₁.suspectedBalancing
  · obtain ⟨t, hbalance, -⟩ := balanceTasks_rule (I := fun _ => True) hs₁.wellFormed.nodes
      hs₁.wellFormed.tasks (fun _ _ _ _ _ => trivial) trivial
    have hlast : s₁.step .balance = .ok { t with suspectedBalancing := false } := hbalance
    have hnext' := subTasks_step hs₁.wellFormed hlast fun h => by cases h
    have henabled' : s₁.enabled .balance := trivial
    exact ⟨s₁, _, (if_pos hflag).trans hbalance,
      ⟨hs, hs₁, hs₁.step henabled' hlast (hnext' ▸ hs₁.few), hmaintained, balanced hs₁ hbalance⟩,
      rfl, fun _ => hbalance⟩
  · exact ⟨s₁, s₁, if_neg hflag, ⟨hs, hs₁, hs₁, hmaintained, balanced_refl s₁⟩, rfl,
      fun h => absurd h hflag⟩

end State

/-- An iteration of the maintenance loop fails over what runs on the nodes it finds silent. -/
theorem fails_over {config : CoordinatorConfig} {ops : List Op} {s : State}
    (hrun : coordinator.FreeRun (initial config) ops s) (hfew : s.subTasks < 2 ^ 32)
    (clock : NodeId → TimePoint) : ∃ s', s.doMaintenance clock = .ok s' ∧ s.FailsOver s' := by
  have hs : s.Regular := (regular_throughout hrun (regular_initial config) hfew).2
  obtain ⟨s₁, s', hok, htick, hmaintain, hflagged⟩ := hs.tick clock
  refine ⟨s', hok, htick.failsOver fun r hmoved hwaits => ?_⟩
  cases hflag : s₁.suspectedBalancing with
  | true => exact State.balanceTasks_places htick.between.wellFormed (hflagged hflag) hwaits
  | false =>
    -- nothing has been given up
    have hheap := (State.unflagged_maintain hs.wellFormed hmaintain hflag).2.1
    exact absurd (by rw [hheap]) hmoved

theorem fails_over_silent :
    let s := after soloConfig (joining 1 5 ++ tasking 1 ++ [.maintain fun _ => 1] ++ joining 2 6)
    s.subTasks < 2 ^ 32 ∧
      ∃ s', s.doMaintenance (fun _ => 11000000001) = .ok s' ∧ s.FailsOver s' := by
  have hfew : (after soloConfig
      (joining 1 5 ++ tasking 1 ++ [.maintain fun _ => 1] ++ joining 2 6)).subTasks < 2 ^ 32 := by
    decide +kernel
  exact ⟨hfew, fails_over (run_after (by decide +kernel)) hfew _⟩

/-! ## Tasks that are not in the map -/

namespace State

variable {s s' : State} {clock : NodeId → TimePoint} {n m : NodeId} {node other : Node} {r : Ref}

theorem get_balanceTasks_of_unmapped (h : s.balanceTasks = .ok s')
    (hunmapped : ∀ t, s.tasks.at? t ≠ some r) : s'.taskHeap.get r = s.taskHeap.get r := by
  obtain ⟨s₁, hloop, rfl⟩ := balanceTasks_eq_ok h
  let I (l : List Ref) (t : State) : Prop :=
    (∀ q ∈ l, q ≠ r) ∧ t.taskHeap.get r = s.taskHeap.get r
  have hI : I [] s₁ := by
    apply Except.foldlM_rest (I := I) _ _ hloop
    · intro q l t t' ht hstep
      refine ⟨fun p hp => ht.1 p (List.mem_cons_of_mem q hp), ?_⟩
      rcases balanceTask_cases hstep with rfl | ⟨-, -, -, -, -, rfl⟩
      · exact ht.2
      · show (setStatus t.taskHeap q .tsRunning).get r = _
        rw [get_setStatus, if_neg (ht.1 q List.mem_cons_self).symm, ht.2]
    · refine ⟨fun q hq hqr => ?_, rfl⟩
      obtain ⟨e, he, rfl⟩ := List.mem_map.mp hq
      exact hunmapped e.1 (hqr ▸ KeyedMap.mem_pointees.mp he)
  exact hI.2

/-- Balancing passes over a task that the map does not hold, whoever else might play it. -/
theorem not_failsOver (hs : s.WellFormed) (honce : s.ledger.HeldOnce)
    (hnode : s.node? n = some node) (hsilent : s.isSilent clock (n, node)) (hr : r ∈ node.tasks)
    (hrunning : (s.taskHeap.get r).status = .tsRunning)
    (hunmapped : ∀ t, s.tasks.at? t ≠ some r) (hother : s.node? m = some other)
    (hfit : other.profile.FitFor (s.taskHeap.get r)) (hanswered : ¬ other.awaitingResponse)
    (hok : s.doMaintenance clock = .ok s') : ¬ s.FailsOver s' := by
  intro hfails
  obtain ⟨s₁, hmaintain, hbalance⟩ := Except.bind_eq_ok.mp hok
  have hmaintained := maintained hs honce hmaintain
  have hup := hmaintained.givenUp n r ⟨node, hnode, hsilent, hr, hrunning⟩
  -- what the tick gives up the balancing behind it does not find in the map
  have hlast : s'.outline = s₁.outline ∧ s'.taskHeap.get r = s₁.taskHeap.get r := by
    split at hbalance
    · refine ⟨outline_balanceTasks hbalance, get_balanceTasks_of_unmapped hbalance fun t ht => ?_⟩
      rw [hmaintained.tasks] at ht
      exact hunmapped t ht
    · cases hbalance
      exact ⟨rfl, rfl⟩
  obtain ⟨profile, houtline, -, hprofile⟩ := outline_maintain hmaintain
  have hat (k : NodeId) (before : Node) (hbefore : s.node? k = some before) :
      ∃ after broken, s'.node? k = some after ∧
        (broken = true ↔ s.brokenAfter clock (k, before)) ∧
        after.profile = { before.profile with flags := { before.flags with connBroken := broken } } := by
    obtain ⟨broken, hbroken, hk⟩ := hprofile k before hbefore
    have hafter : s'.outline.profile k = profile k := by rw [hlast.1, houtline]
    rw [hk] at hafter
    obtain ⟨after, hsome, hafter⟩ := Option.map_eq_some_iff.mp hafter
    exact ⟨after, broken, hsome, hbroken, hafter⟩
  obtain ⟨node', broken, hnode', hbroken, hflags⟩ := hat n node hnode
  obtain ⟨other', alive, hother', halive, hfine⟩ := hat m other hother
  have hnewly : s.NewlyBroken s' n := by
    refine ⟨node, hnode, node', hnode', hsilent.2.2, ?_⟩
    have hset := congrArg (fun p : Node.Profile => p.flags.connBroken) hflags
    exact hset.trans (hbroken.mpr ⟨hsilent.1, Or.inl hsilent⟩)
  have hnone : (s'.taskHeap.get r).status = .tsNone := by rw [hlast.2, hup]
  -- it was not handed out, though there is a node for it
  rcases hfails.removed n node hnode hnewly r hr hrunning with hmoved | hstranded
  · rw [hmoved.1] at hnone
    cases hnone
  · refine hstranded.2 m other' hother' ?_
    rw [hlast.2, hup, hfine]
    refine ⟨hfit.registered, fun h => ?_, hfit.offers⟩
    exact hanswered (halive.mp h).1

end State

/-- The first `2 ^ 32` sub-tasks of node `1` take all ids, and their entries stay when it leaves. -/
theorem ids_used_up : ∃ ops s, coordinator.FreeRun (initial soloConfig) ops s ∧
    s.Alone soloConfig 2 (newcomer 2 6) ∧ s.subTasks = 2 ^ 32 ∧ 1 ∈ s.tasks := by
  have hrun₀ : coordinator.FreeRun (initial soloConfig) (joining 1 5) _ :=
    run_after (by decide +kernel)
  have halone₀ : (after soloConfig (joining 1 5)).Alone soloConfig 1 (newcomer 1 5) :=
    ⟨rfl, rfl, rfl, rfl, rfl⟩
  have hknown : soloConfig.gamelist.offers (State.template (soloArgs 1)) := by decide
  have hfit : (newcomer 1 5).eligible (State.template (soloArgs 1)) := by decide
  obtain ⟨s₁, hrun₁, -, -, hcase⟩ := halone₀.command hknown hfit
  rcases hcase with ⟨hzero, -⟩ | ⟨hgames, halone₁, hheap₁, htasks₁⟩
  · cases hzero
  have hone : s₁.tasks.at? 1 = some 0 := by
    rw [htasks₁]
    rfl
  have hnext : s₁.subTasks = 1 := congrArg Heap.next hheap₁
  have hfit₁ : ((newcomer 1 5).assignTask s₁.taskHeap
      (after soloConfig (joining 1 5)).taskHeap.next).eligible (State.template (soloArgs 1)) := by
    rw [Node.eligible_congr (Node.profile_assignTask _ _ _)]
    exact hfit
  obtain ⟨ops₂, s₂, node₂, hrun₂, halone₂, -, hnext₂, hkept₂⟩ :=
    halone₁.load hknown hfit₁ hgames (2 ^ 32 - 1)
  obtain ⟨s₃, hrun₃, halone₃, hheap₃, htasks₃, -⟩ := halone₂.succeeded
  refine ⟨_, s₃, ((hrun₀.append hrun₁).append hrun₂).append hrun₃, halone₃, ?_, ?_⟩
  · show s₃.taskHeap.next = 2 ^ 32
    rw [hheap₃]
    exact hnext₂.trans (congrArg (· + (2 ^ 32 - 1)) hnext)
  · rw [htasks₃]
    exact KeyedMap.mem_of_at? (hkept₂.tasks 1 _ hone)

/-- The next sub-task is given the id of the first, and the map keeps the first.  The node that has
it falls silent while another one is fit for it. -/
theorem unmapped_task_stranded : ¬ ∀ (config : CoordinatorConfig) (ops : List Op) (s : State)
    (clock : NodeId → TimePoint), coordinator.FreeRun (initial config) ops s →
    ∃ s', s.doMaintenance clock = .ok s' ∧ s.FailsOver s' := by
  intro hall
  obtain ⟨ops₀, s₀, hrun₀, halone₀, hnext, hone⟩ := ids_used_up
  have hwellFormed : s₀.WellFormed :=
    (wellFormed_throughout hrun₀ (wellFormed_initial soloConfig)).2
  have hknown : soloConfig.gamelist.offers (State.template (soloArgs 1)) := by decide
  have hfit : (newcomer 2 6).eligible (State.template (soloArgs 1)) := by decide
  obtain ⟨s₁, hrun₁, -, -, hcase⟩ := halone₀.command hknown hfit
  rcases hcase with ⟨hzero, -⟩ | ⟨-, halone₁, hheap₁, htasks₁⟩
  · cases hzero
  obtain ⟨s₂, hrun₂, hconfig, hpointees, hheap₂, htasks₂⟩ := State.Alone.joined halone₁
  have hrun := (hrun₀.append hrun₁).append hrun₂
  have hid : s₀.nextTaskId = 1 := by
    rw [hwellFormed.nextTaskId, show s₀.taskHeap.next = 2 ^ 32 from hnext]
    rfl
  have htasks : s₂.tasks = s₀.tasks := by
    rw [htasks₂, htasks₁, hid, KeyedMap.emplace_of_mem hone]
  have hunmapped (t : TaskId) : s₂.tasks.at? t ≠ some s₀.taskHeap.next := by
    rw [htasks]
    intro ht
    exact absurd (hwellFormed.sound.index t _ ht).1 (lt_irrefl _)
  have hget : s₂.taskHeap.get s₀.taskHeap.next = State.subTask
      { State.template (soloArgs 1) with groupId := s₀.nextGroupId } s₀.nextTaskId 1 := by
    rw [hheap₂, hheap₁, Heap.get_alloc_self]
    rfl
  have hat (n : NodeId) (node : Node) : (n, node) ∈ s₂.nodes.pointees → s₂.node? n = some node :=
    KeyedMap.mem_pointees.mp
  rw [hpointees] at hat
  -- node `3` has no task yet
  have holder (n : NodeId) (d : Desk) (hd : s₂.ledger.desk n = some d) (r : Ref)
      (hr : r ∈ d.list) : n = 2 := by
    obtain ⟨node, hnode, rfl⟩ := State.ledger_desk_iff.mp hd
    rw [← KeyedMap.mem_pointees, hpointees] at hnode
    rcases List.mem_cons.mp hnode with heq | hmem
    · exact congrArg Prod.fst heq
    · cases List.mem_singleton.mp hmem
      exact absurd hr List.not_mem_nil
  have honce : s₂.ledger.HeldOnce := fun n m d e hd he r hr hr' =>
    (holder n d hd r hr).trans (holder m e he r hr').symm
  obtain ⟨s', hok, hfails⟩ := hall soloConfig _ s₂ (fun _ => 11000000001) hrun
  refine State.not_failsOver (wellFormed_throughout hrun (wellFormed_initial soloConfig)).2 honce
    (hat 2 _ List.mem_cons_self) ⟨rfl, ?_, Bool.false_ne_true⟩ (List.mem_singleton_self _) ?_
    hunmapped (hat 3 _ (List.mem_cons_of_mem _ (List.mem_singleton_self _))) ?_ (by decide) hok
    hfails
  · rw [hconfig]
    show decide ((11000000001 : Int) - 1 > (10 : UInt64).toNat * 1000000000) = true
    decide
  · rw [hget]
    rfl
  · rw [hget]
    exact Node.eligible_iff.mp rfl

end Bem
