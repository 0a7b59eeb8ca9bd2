import Bem.Coordinator.Fitness

/-!
# Waiting tasks

The flag `suspectedBalancing` is to be set whenever some task waits and some node could take it.
Every section keeps it so, but for a HELLO, which makes a node eligible without setting the flag: it
relies on the flag that `acceptConnections` has set, and balancing may have cleared that one since.
-/

namespace Bem

namespace Ledger

variable {L L' : Ledger} {a : Act} {r : Ref}

/-- A task of the map waits for a node. -/
def Waiting (L : Ledger) (r : Ref) : Prop :=
  (∃ t, L.index t = some r) ∧ (L.heap.get r).status = .tsNone

/-- Only the tasks that are given back start to wait. -/
theorem Step.waiting (h : Step L a L') (hL : L.Sound) (ha : ∀ n, a ≠ .release n)
    (hr : L'.Waiting r) : L.Waiting r ∧ (L'.heap.get r).order = (L.heap.get r).order := by
  obtain ⟨⟨t, ht⟩, hnone⟩ := hr
  have hold : L.index t = some r → L.Waiting r ∧ (L'.heap.get r).order = (L.heap.get r).order := by
    intro hindex
    have hlt := (hL.index t r hindex).1
    refine ⟨⟨⟨t, hindex⟩, ?_⟩, h.order hlt⟩
    cases h with
    -- what is handed out or settled does not wait
    | hand =>
      rw [status_setStatus] at hnone
      split at hnone
      · cases hnone
      · exact hnone
    | settle =>
      rw [status_setStatus] at hnone
      split at hnone
      · cases hnone
      · exact hnone
    | release => exact absurd rfl (ha _)
    | openGroup => rwa [heap_openGroup] at hnone
    | create => rwa [heap_create, Heap.get_alloc_ne (Nat.ne_of_lt hlt)] at hnone
    | _ => exact hnone
  rcases h.index_cases ht with hindex | ⟨n, task, rfl, -, rfl, hheap⟩
  · exact hold hindex
  · -- a new sub-task is running
    cases h with
    | create _ _ hrunning =>
      rw [heap_create, Heap.get_alloc_self, hrunning] at hnone
      cases hnone

theorem waiting_of_does {Q : Act → Prop} (h : Does Step Q L L') (hL : L.Sound)
    (hQ : ∀ n, ¬ Q (.release n)) (hr : L'.Waiting r) :
    L.Waiting r ∧ (L'.heap.get r).order = (L.heap.get r).order := by
  have hrule := h.invariant
    (I := fun M => M.Sound ∧ (M.Waiting r →
      L.Waiting r ∧ (M.heap.get r).order = (L.heap.get r).order))
    (by
      intro M a M' hM ha hstep
      refine ⟨hM.1.step hstep, fun hwaits => ?_⟩
      have hback := hstep.waiting hM.1 (fun n heq => hQ n (heq ▸ ha)) hwaits
      have hfirst := hM.2 hback.1
      exact ⟨hfirst.1, hback.2.trans hfirst.2⟩)
    ⟨hL, fun hwaits => ⟨hwaits, rfl⟩⟩
  exact hrule.2 hr

end Ledger

/-- Some node is fit for the task. -/
def Outline.Suits (F : Outline) (task : Task) : Prop := ∃ n, ∃ p ∈ F.profile n, p.FitFor task

/-- Whether a node is fit does not depend on the status of the task. -/
theorem Outline.Suits.congr {F : Outline} {task task' : Task} (h : F.Suits task)
    (horder : task'.order = task.order) : F.Suits task' := by
  obtain ⟨n, p, hp, hfit⟩ := h
  have hfit' : p.FitFor task.order := ⟨hfit.1, hfit.2, hfit.3⟩
  rw [← horder] at hfit'
  exact ⟨n, p, hp, hfit'.1, hfit'.2, hfit'.3⟩

namespace State

variable {s s' : State}

/-- A task waits, and `get_eligible_nodes_for_task` finds nodes for it. -/
def HasPlacement (s : State) : Prop :=
  ∃ t task nodeIds, s.task? t = some task ∧ task.status = .tsNone ∧
    s.getEligibleNodesForTask task = .ok nodeIds ∧ nodeIds ≠ []

def Remembers (s : State) : Prop := s.HasPlacement → s.suspectedBalancing = true

/-- A HELLO that makes its node eligible for a waiting task finds the flag set. -/
def heedsHello (s : State) : Op → Prop
  | .hello n msg => s.suspectedBalancing = true ∨ ∀ node ∈ s.node? n, ∀ e ∈ s.tasks.pointees,
    (s.taskHeap.get e.2).status = .tsNone →
      ¬ { node.markRegistered with gamelist := msg.gamelist }.eligible (s.taskHeap.get e.2)
  | _ => True

instance (s : State) (op : Op) : Decidable (s.heedsHello op) :=
  match op with
  | .hello n msg => inferInstanceAs (Decidable (s.suspectedBalancing = true ∨
    ∀ node ∈ s.node? n, ∀ e ∈ s.tasks.pointees, (s.taskHeap.get e.2).status = .tsNone →
      ¬ { node.markRegistered with gamelist := msg.gamelist }.eligible (s.taskHeap.get e.2) = true))
  | .select _ | .assign | .cancel _ | .erase _ | .balance | .maintain _ | .accept _ | .insert
  | .result _ | .notify _ _ _ | .write _ | .rehash _ _ _ => .isTrue trivial

theorem hasPlacement_iff (hs : s.WellFormed) :
    s.HasPlacement ↔ ∃ r, s.ledger.Waiting r ∧ s.outline.Suits (s.taskHeap.get r) := by
  have hsuits (task : Task) : (∃ nodeIds, s.getEligibleNodesForTask task = .ok nodeIds ∧
      nodeIds ≠ []) ↔ s.outline.Suits task := by
    constructor
    · intro h
      obtain ⟨nodeIds, hok, hne⟩ := h
      obtain ⟨n, hn⟩ := List.exists_mem_of_ne_nil nodeIds hne
      obtain ⟨node, hnode, heligible⟩ := eligible_of_getEligibleNodesForTask hok hn
      exact ⟨n, node.profile, profile_of_at? hnode, Node.eligible_iff.mp heligible⟩
    · intro h
      obtain ⟨n, p, hp, hfit⟩ := h
      obtain ⟨node, hnode, rfl⟩ := Option.map_eq_some_iff.mp hp
      unfold getEligibleNodesForTask
      rw [KeyedMap.pointees?_of_nonNull hs.nodes]
      refine ⟨_, rfl, List.ne_nil_of_mem (a := n) ?_⟩
      exact List.mem_map.mpr ⟨(n, node), List.mem_filter.mpr
        ⟨KeyedMap.mem_pointees.mpr hnode, Node.eligible_iff.mpr hfit⟩, rfl⟩
  constructor
  · intro h
    obtain ⟨t, task, nodeIds, htask, hnone, hplace⟩ := h
    obtain ⟨r, hr, rfl⟩ := task?_eq_some.mp htask
    exact ⟨r, ⟨⟨t, hr⟩, hnone⟩, (hsuits _).mp ⟨nodeIds, hplace⟩⟩
  · intro h
    obtain ⟨r, ⟨⟨t, hr⟩, hnone⟩, hfit⟩ := h
    obtain ⟨nodeIds, hplace⟩ := (hsuits _).mpr hfit
    exact ⟨t, _, nodeIds, task?_eq_some.mpr ⟨r, hr, rfl⟩, hnone, hplace⟩

theorem hasPlacement_of_eligible (hs : s.WellFormed) {n : NodeId}
    (h : ∃ e ∈ s.tasks.pointees, (s.taskHeap.get e.2).status = .tsNone ∧
      ∃ node ∈ s.node? n, node.eligible (s.taskHeap.get e.2)) : s.HasPlacement := by
  obtain ⟨e, he, hnone, node, hnode, hfit⟩ := h
  rw [hasPlacement_iff hs]
  exact ⟨e.2, ⟨⟨e.1, KeyedMap.mem_pointees.mp he⟩, hnone⟩, n, node.profile, profile_of_at? hnode,
    Node.eligible_iff.mp hfit⟩

/-- No task starts to wait, no node becomes fit, and the flag stays. -/
theorem Remembers.of_fewer (h : s.Remembers) (hs : s.WellFormed) (hs' : s'.WellFormed)
    (hwaiting : ∀ r, s'.ledger.Waiting r →
      s.ledger.Waiting r ∧ (s'.taskHeap.get r).order = (s.taskHeap.get r).order)
    (hsuits : ∀ task, s'.outline.Suits task → s.outline.Suits task)
    (hflag : s.suspectedBalancing = true → s'.suspectedBalancing = true) : s'.Remembers := by
  intro hplace
  obtain ⟨r, hr, hfit⟩ := (hasPlacement_iff hs').mp hplace
  have hold := hwaiting r hr
  have hfit' := (hsuits _ hfit).congr hold.2.symm
  exact hflag (h ((hasPlacement_iff hs).mpr ⟨r, hold.1, hfit'⟩))

/-! ## Balancing -/

/-- A task that still waits had no eligible node. -/
theorem not_eligible_of_balanceTask {r : Ref} (h : s.balanceTask r = .ok s')
    (hnone : (s'.taskHeap.get r).status = .tsNone) {n : NodeId} {node : Node}
    (hnode : s.nodes.at? n = some node) : ¬ node.eligible (s.taskHeap.get r) := by
  intro heligible
  unfold balanceTask at h
  split at h
  next =>
    obtain ⟨nodeIds, hnodeIds, h⟩ := Except.bind_eq_ok.mp h
    cases nodeIds with
    | nil =>
      have hempty := getEligibleNodesForTask_eq_ok hnodeIds
      have hmem : n ∈ ([] : List NodeId) := by
        rw [hempty]
        exact List.mem_map.mpr ⟨(n, node), List.mem_filter.mpr
          ⟨KeyedMap.mem_pointees.mpr hnode, heligible⟩, rfl⟩
      exact List.not_mem_nil hmem
    | cons m nodeIds =>
      obtain ⟨s₁, -, h⟩ := Except.bind_eq_ok.mp h
      cases h
      rw [status_setStatus, if_pos rfl] at hnone
      cases hnone
  next hstatus =>
    cases h
    exact hstatus hnone

/-- After balancing, no node is fit for a task that waits. -/
theorem balanceTasks_places (hs : s.WellFormed) (h : s.balanceTasks = .ok s') {r : Ref}
    (hr : s'.ledger.Waiting r) : ¬ s'.outline.Suits (s'.taskHeap.get r) := by
  obtain ⟨s₁, hloop, rfl⟩ := balanceTasks_eq_ok h
  -- whatever waits for a fit node is still to come
  let I (l : List Ref) (t : State) : Prop :=
    (∀ q ∈ l, ∃ id, s.tasks.at? id = some q) ∧ t.WellFormed ∧ t.tasks = s.tasks ∧
      t.outline = s.outline ∧
      ∀ q, t.ledger.Waiting q → s.outline.Suits (t.taskHeap.get q) → q ∈ l
  have hI : I [] s₁ := by
    apply Except.foldlM_rest (I := I) _ _ hloop
    · intro q l t t' ht hstep
      obtain ⟨hindex, hwf, htasks, houtline, hwaits⟩ := ht
      obtain ⟨id, hid⟩ := hindex q List.mem_cons_self
      have hat : t.tasks.at? (t.taskHeap.get q).id = some q := by
        have hsame := (hwf.sound.index id q (by rw [← hid, ← htasks]; rfl)).2
        rw [show (t.taskHeap.get q).id = id from hsame, htasks, hid]
      have hfollows := follows_balanceTask hwf hat hstep
      refine ⟨fun q' hq' => hindex q' (List.mem_cons_of_mem q hq'), hfollows.1.wellFormed,
        hfollows.2.trans htasks, (outline_balanceTask hstep).trans houtline, ?_⟩
      intro q' hq' hfit
      have hback := Ledger.waiting_of_does hfollows.1.does hwf.sound
        (fun n hn => by cases hn with | intro m heq => cases heq) hq'
      have hmem := hwaits q' hback.1 (hfit.congr hback.2.symm)
      rcases List.mem_cons.mp hmem with rfl | hmem
      · -- it has just been looked at, and no node was found
        exfalso
        obtain ⟨n, p, hp, hp'⟩ := hfit.congr hback.2.symm
        rw [← houtline] at hp
        obtain ⟨node, hnode, rfl⟩ := Option.map_eq_some_iff.mp hp
        exact not_eligible_of_balanceTask hstep hq'.2 hnode (Node.eligible_iff.mpr hp')
      · exact hmem
    · refine ⟨fun q hq => ?_, hs, rfl, rfl, fun q hq _ => ?_⟩
      · obtain ⟨e, he, rfl⟩ := List.mem_map.mp hq
        exact ⟨e.1, KeyedMap.mem_pointees.mp he⟩
      · obtain ⟨⟨t, ht⟩, -⟩ := hq
        exact List.mem_map.mpr ⟨(t, q), KeyedMap.mem_pointees.mpr ht, rfl⟩
  obtain ⟨-, -, -, houtline, hnone⟩ := hI
  intro hfit
  have hfit' : s.outline.Suits (s₁.taskHeap.get r) := by
    rw [← houtline]
    exact hfit
  exact List.not_mem_nil (hnone r hr hfit')

/-! ## Maintenance -/

/-- A node that leaves the flag unset is not restored and has nothing given back. -/
theorem unflagged_maintainNode {clock : NodeId → TimePoint} {e : NodeId × Node}
    (hnodup : e.2.tasks.Nodup) (h : (maintainNode clock s e).suspectedBalancing = false) :
    s.suspectedBalancing = false ∧ (maintainNode clock s e).taskHeap = s.taskHeap ∧
      (maintainNode clock s e).tasks = s.tasks ∧
      (¬ e.2.awaitingResponse → ¬ e.2.flags.connBroken) := by
  unfold maintainNode at h ⊢
  dsimp only at h ⊢
  by_cases hawait : e.2.awaitingResponse
  · rw [if_neg (not_not.mpr hawait)] at h ⊢
    split at h
    next hsilent =>
      rw [if_pos hsilent]
      rw [markForDelete_eq hnodup] at h ⊢
      obtain ⟨hunset, hempty⟩ := Bool.or_eq_false_iff.mp h
      have hnil : e.2.tasks.filter (Desk.isRunning s.taskHeap) = [] := by simpa using hempty
      exact ⟨hunset, giveBack_of_filter_nil _ _ hnil, rfl, fun hnot => absurd hawait hnot⟩
    next hloud =>
      rw [if_neg hloud]
      exact ⟨h, rfl, rfl, fun hnot => absurd hawait hnot⟩
  · rw [if_pos hawait] at h ⊢
    split at h
    next => cases h
    next hconnected =>
      rw [if_neg hconnected]
      exact ⟨h, rfl, rfl, fun _ => hconnected⟩

theorem unflagged_maintain {clock : NodeId → TimePoint} (hs : s.WellFormed)
    (h : s.maintain clock = .ok s') (hflag : s'.suspectedBalancing = false) :
    s.suspectedBalancing = false ∧ s'.taskHeap = s.taskHeap ∧ s'.tasks = s.tasks ∧
      ∀ n node, s.nodes.at? n = some node → ¬ node.awaitingResponse → ¬ node.flags.connBroken := by
  have hrule := maintain_rule clock
    (I := fun l t => t.suspectedBalancing = false → s.suspectedBalancing = false ∧
      t.taskHeap = s.taskHeap ∧ t.tasks = s.tasks ∧ ∀ n node, s.nodes.at? n = some node →
        (n, node) ∉ l → ¬ node.awaitingResponse → ¬ node.flags.connBroken)
    hs
    (fun hunset => ⟨hunset, rfl, rfl, fun n node hnode hnot =>
      absurd (KeyedMap.mem_pointees.mpr hnode) hnot⟩)
    (by
      intro n node l t _ hnode _ ht hI hunset
      have hnodup : node.tasks.Nodup :=
        List.Nodup.of_map _ (ht.sound.distinct n _ (ledger_desk hnode))
      obtain ⟨hunset', hheap, htasks, hrestored⟩ := unflagged_maintainNode hnodup hunset
      obtain ⟨hstart, hheap', htasks', hrest⟩ := hI hunset'
      refine ⟨hstart, hheap.trans hheap', htasks.trans htasks', fun m other hm hnot => ?_⟩
      by_cases heq : (m, other) = (n, node)
      · cases heq
        exact hrestored
      · exact hrest m other hm (by simp only [List.mem_cons, heq, hnot, or_self, not_false_eq_true]))
    h
  obtain ⟨hstart, hheap, htasks, hrestored⟩ := hrule.2 hflag
  exact ⟨hstart, hheap, htasks, fun n node hnode => hrestored n node hnode (List.not_mem_nil)⟩

theorem remembers_maintain {clock : NodeId → TimePoint} (hs : s.WellFormed) (h : s.Remembers)
    (hok : s.maintain clock = .ok s') : s'.Remembers := by
  have hs' := (follows_maintain hs hok).wellFormed
  cases hflag : s'.suspectedBalancing with
  | true => exact fun _ => hflag
  | false =>
    -- no node has broken or come back, so that no task has been given back either
    obtain ⟨hunset, hheap, htasks, hrestored⟩ := unflagged_maintain hs hok hflag
    apply h.of_fewer hs hs'
    · intro r hr
      obtain ⟨⟨t, ht⟩, hnone⟩ := hr
      change s'.tasks.at? t = some r at ht
      change (s'.taskHeap.get r).status = .tsNone at hnone
      rw [htasks] at ht
      rw [hheap] at hnone ⊢
      exact ⟨⟨⟨t, ht⟩, hnone⟩, rfl⟩
    · -- a node that is fit now was not broken before
      intro task hfit
      obtain ⟨n, p, hp, hfit⟩ := hfit
      obtain ⟨profile, houtline, hnone, hsome⟩ := outline_maintain hok
      rw [houtline] at hp
      cases hnode : s.nodes.at? n with
      | none => cases (hnone n hnode).symm.trans hp
      | some node =>
        obtain ⟨broken, hbroken, heq⟩ := hsome n node hnode
        cases heq.symm.trans hp
        refine ⟨n, node.profile, profile_of_at? hnode, hfit.registered, ?_, hfit.offers⟩
        intro hconn
        have hawait : node.awaitingResponse := by
          by_contra hnot
          exact hrestored n node hnode hnot hconn
        exact hfit.connected (hbroken.mpr ⟨hawait, Or.inr hconn⟩)
    · intro hset
      rw [hunset] at hset
      cases hset

/-! ## Sections -/

/-- Only balancing clears the flag. -/
theorem flagged_step {op : Op} (hok : s.step op = .ok s') (hop : op ≠ .balance)
    (hset : s.suspectedBalancing = true) : s'.suspectedBalancing = true := by
  cases op with
  | select args =>
    rcases selectNodes_cases hok with rfl | ⟨nodeIds, -, -, rfl⟩
    · exact hset
    · exact hset
  | assign =>
    rcases assignShares_cases hok with ⟨-, rfl⟩ | ⟨selection, -, hloop⟩
    · exact hset
    · apply Except.foldlM_rest (I := fun _ t => t.suspectedBalancing = true) _ hset hloop
      intro share l t t' ht hstep
      rcases assignShare_cases hstep with ⟨-, rfl⟩ | ⟨-, node, tt, heap, -, -, -, rfl⟩
      · exact ht
      · exact ht
  | cancel g =>
    rcases commandCancel_cases hok with ⟨-, rfl⟩ | ⟨G, -, -, hloop⟩
    · exact hset
    · apply Except.foldlM_rest (I := fun _ t => t.suspectedBalancing = true) _ hset hloop
      intro e l t t' ht hstep
      rcases cancelTask_cases hstep with ⟨-, rfl⟩ | ⟨-, -, rfl⟩
      · exact ht
      · exact ht
  | erase n =>
    rcases eraseNode_cases hok with ⟨-, rfl⟩ | ⟨node, -, rfl⟩
    · exact hset
    · exact hset
  | balance => exact absurd rfl hop
  | maintain clock =>
    apply maintain_keeps (I := fun t => t.suspectedBalancing = true) _ hok hset
    intro t e ht
    -- the loop sets the flag for a node that breaks or comes back, and never clears it
    unfold maintainNode
    dsimp only
    split
    · split
      · rfl
      · exact ht
    split
    · simp [ht]
    · exact ht
  | accept nodeSocket =>
    cases hok
    unfold acceptConnection
    split
    · exact hset
    · rfl
  | insert =>
    cases hok
    unfold insertNode
    split
    · exact hset
    · exact hset
  | result msg =>
    rcases handleResultMessage_cases hok with ⟨r, -, ⟨-, rfl⟩ | ⟨G, -, -, ⟨-, rfl⟩ | ⟨-, rfl⟩⟩⟩
    · exact hset
    · exact hset
    · exact hset
  | hello n msg =>
    rcases handleHelloMessage_cases hok with ⟨-, rfl⟩ | ⟨node, -, rfl⟩
    · exact hset
    · exact hset
  | notify n msg now =>
    rcases handleNotifyTaskMessage_cases hok with rfl | ⟨node, g, -, rfl⟩
    · exact hset
    · exact hset
  | write n =>
    cases hok
    exact hset
  | rehash nodes groups tasks =>
    cases hok
    exact hset

/-- Only a HELLO and the maintenance make a node fit for a task. -/
theorem suits_step {op : Op} (hok : s.step op = .ok s') (hhello : ∀ n msg, op ≠ .hello n msg)
    (hmaintain : ∀ clock, op ≠ .maintain clock) {task : Task} (h : s'.outline.Suits task) :
    s.outline.Suits task := by
  have hsame (houtline : s'.outline = s.outline) : s.outline.Suits task := by rwa [← houtline]
  cases op with
  | select args =>
    rcases selectNodes_cases hok with rfl | ⟨nodeIds, -, -, rfl⟩
    · exact h
    · exact h
  | assign =>
    rcases outline_assignShares hok with ⟨-, rfl⟩ | ⟨selection, -, houtline⟩
    · exact h
    · rw [houtline] at h
      exact h
  | cancel g => exact hsame (outline_commandCancel hok)
  | erase n =>
    rw [outline_eraseNode hok] at h
    -- the node that the task suits is not the one that has gone
    obtain ⟨m, p, hp, hfit⟩ := h
    change Function.update s.outline.profile n none m = some p at hp
    by_cases hm : m = n
    · rw [hm, Function.update_self] at hp
      cases hp
    · rw [Function.update_of_ne hm] at hp
      exact ⟨m, p, hp, hfit⟩
  | balance => exact hsame (outline_balanceTasks hok)
  | maintain clock => exact absurd rfl (hmaintain clock)
  | accept nodeSocket =>
    cases hok
    unfold acceptConnection at h
    split at h
    · exact h
    · exact h
  | insert =>
    cases hok
    unfold insertNode at h
    split at h
    · exact h
    · -- the new node has not said HELLO
      obtain ⟨n, p, hp, hfit⟩ := h
      obtain ⟨node, hnode, rfl⟩ := Option.map_eq_some_iff.mp hp
      rw [KeyedMap.at?_emplace] at hnode
      split at hnode
      next =>
        cases hnode
        cases hfit.registered
      next => exact ⟨n, node.profile, profile_of_at? hnode, hfit⟩
  | result msg => exact hsame (outline_handleResultMessage hok)
  | hello n msg => exact absurd rfl (hhello n msg)
  | notify n msg now => exact hsame (outline_handleNotifyTaskMessage hok)
  | write n =>
    cases hok
    exact hsame (outline_takeMessage n)
  | rehash nodes groups tasks =>
    cases hok
    obtain ⟨n, p, hp, hfit⟩ := h
    obtain ⟨node, hnode, rfl⟩ := Option.map_eq_some_iff.mp hp
    rw [KeyedMap.at?_reorder] at hnode
    exact ⟨n, node.profile, profile_of_at? hnode, hfit⟩

theorem remembers_hello_iff {n : NodeId} {msg : HelloMessage} (hs : s.WellFormed) (h : s.Remembers)
    (hok : s.handleHelloMessage n msg = .ok s') :
    s'.Remembers ↔ s.heedsHello (.hello n msg) := by
  have hs' := (follows_handleHelloMessage hs hok).wellFormed
  rcases handleHelloMessage_cases hok with ⟨hnot, rfl⟩ | ⟨node, hnode, hs₁⟩
  · refine iff_of_true h (Or.inr fun node hnode => ?_)
    have hnone : s'.node? n = none := KeyedMap.at?_eq_none_of_notMem hnot
    rw [hnone] at hnode
    cases hnode
  have htasks : s'.tasks = s.tasks := by rw [hs₁]
  have hheap : s'.taskHeap = s.taskHeap := by rw [hs₁]
  have hflag : s'.suspectedBalancing = s.suspectedBalancing := by rw [hs₁]
  -- only the profile of this one node changes, and no task
  let node' : Node := { node.markRegistered with gamelist := msg.gamelist }
  have hprofile : s'.outline.profile = Function.update s.outline.profile n (some node'.profile) := by
    rw [hs₁]
    exact KeyedMap.map_at?_store hnode
  have heligible (task : Task) : node'.eligible task ↔ node'.profile.FitFor task :=
    Node.eligible_iff
  have hwaiting (r : Ref) : s'.ledger.Waiting r ↔ s.ledger.Waiting r := by
    unfold Ledger.Waiting ledger
    rw [htasks, hheap]
  constructor
  · intro hremembers
    by_cases hset : s.suspectedBalancing = true
    · exact Or.inl hset
    · -- a task that the node is now eligible for would have to be remembered
      refine Or.inr fun other hother e he hnone hfit => hset ?_
      cases hnode.symm.trans hother
      rw [← hflag]
      apply hremembers
      rw [hasPlacement_iff hs']
      refine ⟨e.2, (hwaiting _).mpr ⟨⟨e.1, KeyedMap.mem_pointees.mp he⟩, hnone⟩, n, node'.profile,
        ?_, ?_⟩
      · rw [hprofile]
        exact Function.update_self _ _ _
      · rw [hheap]
        exact (heligible _).mp hfit
  · intro hheeds hplace
    rw [hflag]
    rcases hheeds with hset | hnone
    · exact hset
    obtain ⟨r, hr, m, p, hp, hfit⟩ := (hasPlacement_iff hs').mp hplace
    rw [hwaiting] at hr
    rw [hheap] at hfit
    rw [hprofile] at hp
    by_cases hm : m = n
    · rw [hm, Option.mem_def, Function.update_self] at hp
      cases hp
      obtain ⟨⟨t, ht⟩, hwaits⟩ := hr
      exact absurd ((heligible _).mpr hfit)
        (hnone node hnode (t, r) (KeyedMap.mem_pointees.mpr ht) hwaits)
    · rw [Option.mem_def, Function.update_of_ne hm] at hp
      exact h ((hasPlacement_iff hs).mpr ⟨r, hr, m, p, hp, hfit⟩)

theorem remembers_step_iff {op : Op} (hs : s.WellFormed) (h : s.Remembers)
    (hok : s.step op = .ok s') : s'.Remembers ↔ s.heedsHello op := by
  have hfollows := follows_step hs hok
  have hothers (hrelease : ∀ n, ¬ s.mayDo op (.release n)) (hbalance : op ≠ .balance)
      (hhello : ∀ n msg, op ≠ .hello n msg) (hmaintain : ∀ clock, op ≠ .maintain clock) :
      s'.Remembers :=
    h.of_fewer hs hfollows.wellFormed
      (fun _ => Ledger.waiting_of_does hfollows.does hs.sound hrelease)
      (fun _ => suits_step hok hhello hmaintain) (flagged_step hok hbalance)
  cases op with
  | balance =>
    -- the flag is cleared, and nothing is left to remember
    refine iff_of_true (fun hplace => ?_) trivial
    obtain ⟨r, hr, hfit⟩ := (hasPlacement_iff hfollows.wellFormed).mp hplace
    exact absurd hfit (balanceTasks_places hs hok hr)
  | maintain clock => exact iff_of_true (remembers_maintain hs h hok) trivial
  | hello n msg => exact remembers_hello_iff hs h hok
  | _ => exact iff_of_true (hothers (fun _ hn => hn) (by simp) (by simp) (by simp)) trivial

end State

/-- In every state of a run, a waiting task that has an eligible node is remembered by the flag, exactly
when every HELLO that makes its node eligible for a waiting task comes while the flag is set. -/
theorem remembered_throughout_iff {config : CoordinatorConfig} {ops : List Op} {s : State}
    (hrun : coordinator.FreeRun (initial config) ops s) :
    coordinator.Throughout State.Remembers (initial config) ops s ↔
      coordinator.Run State.heedsHello (initial config) ops s := by
  have hwellFormed := wellFormed_throughout hrun (wellFormed_initial config)
  have hinitial : (initial config).Remembers := by
    intro hplace
    obtain ⟨t, task, nodeIds, htask, -⟩ := hplace
    cases htask
  apply Machine.throughout_iff (K := State.WellFormed) (J := fun _ => True) _
    (fun _ _ _ _ _ _ _ _ _ => trivial) hwellFormed.1 hwellFormed.2 trivial hinitial
  intro s op s' hs _ hremembers _ hok _
  exact State.remembers_step_iff hs hremembers hok

/-- The task of a silent node waits until the next node says HELLO, and nothing balances in between. -/
theorem remembered_throughout_joining :
    coordinator.Throughout State.Remembers (initial soloConfig)
      (joining 1 5 ++ tasking 1 ++ silence ++ joining 2 6)
      (after soloConfig (joining 1 5 ++ tasking 1 ++ silence ++ joining 2 6)) := by
  have hrun := run_after (show (coordinator.exec State.heedsHello (initial soloConfig)
    (joining 1 5 ++ tasking 1 ++ silence ++ joining 2 6)).isSome by decide +kernel)
  exact (remembered_throughout_iff hrun.free).mpr hrun

/-- Balancing clears the flag between the acceptance of a node and its HELLO. -/
theorem forgotten_by_hello : ¬ ∀ (config : CoordinatorConfig) (ops : List Op) (s : State),
    coordinator.FreeRun (initial config) ops s → s.Remembers := by
  intro h
  have hrun := run_after (show (coordinator.exec (fun _ _ => True) (initial soloConfig)
    (joining 1 5 ++ tasking 1 ++ silence ++
      [.accept 6, .insert, .balance, .hello 2 { protoVer := 1, gamelist := soloGames }])).isSome
    by decide +kernel)
  have hplace := State.hasPlacement_of_eligible (n := 2)
    (wellFormed_run hrun (wellFormed_initial soloConfig)) (by decide +kernel)
  have hset := h _ _ _ hrun hplace
  have hunset : (after soloConfig (joining 1 5 ++ tasking 1 ++ silence ++
      [.accept 6, .insert, .balance,
        .hello 2 { protoVer := 1, gamelist := soloGames }])).suspectedBalancing = false := by
    decide +kernel
  rw [hunset] at hset
  cases hset

end Bem
