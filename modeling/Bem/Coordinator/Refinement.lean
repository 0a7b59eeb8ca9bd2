import Bem.Coordinator.Soundness
import Bem.Coordinator.System

/-!
# The coordinator keeps the ledger

`State.ledger` reads a ledger off a state.  Every critical section takes a well-formed state to a
well-formed one, and what it does to the ledger is a trace of acts: `Op.mayDo` says which.
-/

namespace Bem

/-! ## Nodes and desks -/

namespace Node

def desk (node : Node) : Desk where
  list := node.tasks
  sent := node.history

variable (heap : Heap Task) (r : Ref) (t : TaskId) (node : Node)

@[simp] theorem desk_send (message : Message) : (node.send message).desk =
    { node.desk with sent := node.desk.sent ++ [message] } := by
  unfold desk
  rw [history_send]
  rfl

theorem lists_desk : node.desk.lists heap t = node.lists heap t := rfl

@[simp] theorem desk_assignTask : (node.assignTask heap r).desk = node.desk.assign heap r := by
  unfold assignTask
  by_cases hlists : node.lists heap (heap.get r).id
  · rw [if_pos hlists, Desk.assign_of_lists (by rwa [lists_desk])]
  · have hnot : node.desk.lists heap (heap.get r).id = false := by simpa [lists_desk] using hlists
    rw [if_neg hlists, Desk.assign_of_not_lists hnot, desk_send]
    rfl

@[simp] theorem desk_unassignTask :
    (node.unassignTask heap t).desk = node.desk.unassign heap t := by
  unfold unassignTask
  by_cases hlists : node.lists heap t
  · rw [if_pos hlists, Desk.unassign_of_lists (by rwa [lists_desk]), desk_send]
    rfl
  · have hnot : node.desk.lists heap t = false := by simpa [lists_desk] using hlists
    rw [if_neg hlists, Desk.unassign_of_not_lists hnot]

theorem desk_foldl_unassignTask (ids : List TaskId) :
    (ids.foldl (fun node taskId => node.unassignTask heap taskId) node).desk =
      ids.foldl (fun d taskId => d.unassign heap taskId) node.desk := by
  induction ids generalizing node with
  | nil => rfl
  | cons t ids ih => rw [List.foldl_cons, ih, desk_unassignTask, List.foldl_cons]

theorem profile_foldl_unassignTask (ids : List TaskId) :
    (ids.foldl (fun node taskId => node.unassignTask heap taskId) node).profile = node.profile := by
  induction ids generalizing node with
  | nil => rfl
  | cons t ids ih => rw [List.foldl_cons, ih, profile_unassignTask]

end Node

/-! ## Giving back the tasks of a silent node -/

section Release

variable {heap : Heap Task} {d : Desk}

/-- Setting the status of a task does not concern the others. -/
private theorem filter_isRunning_setStatus {q : Ref} {status : TaskStatus} {tasks : List Ref}
    (h : q ∉ tasks) : tasks.filter (Desk.isRunning (setStatus heap q status)) =
      tasks.filter (Desk.isRunning heap) := by
  apply List.filter_congr
  intro r hr
  have hne : r ≠ q := fun heq => h (heq ▸ hr)
  unfold Desk.isRunning
  rw [status_setStatus, if_neg hne]

theorem markForDelete_eq {tasks : List Ref} (h : tasks.Nodup) : Node.markForDelete heap tasks =
    (giveBack heap tasks,
      (tasks.filter (Desk.isRunning heap)).map fun r => (heap.get r).id) := by
  -- the loop from any list of ids
  suffices hloop : ∀ (heap : Heap Task) (ids : List TaskId), tasks.foldl
      (fun (acc : Heap Task × List TaskId) r =>
        if (acc.1.get r).status = .tsRunning then
          (setStatus acc.1 r .tsNone, acc.2 ++ [(acc.1.get r).id])
        else acc) (heap, ids) =
      (giveBack heap tasks,
        ids ++ (tasks.filter (Desk.isRunning heap)).map fun r => (heap.get r).id) from
    hloop heap []
  induction tasks with
  | nil =>
    intro heap ids
    rw [List.filter_nil, List.map_nil, List.append_nil]
    rfl
  | cons q tasks ih =>
    intro heap ids
    rw [List.nodup_cons] at h
    rw [List.foldl_cons, giveBack_cons]
    by_cases hq : (heap.get q).status = .tsRunning
    · have hrunning : Desk.isRunning heap q = true := Desk.isRunning_iff.mpr hq
      rw [if_pos hq, ih h.2, if_pos hrunning, List.filter_cons_of_pos hrunning, List.map_cons,
        filter_isRunning_setStatus h.1]
      simp only [id_setStatus, List.append_assoc, List.singleton_append]
    · have hnot : ¬ Desk.isRunning heap q = true := fun hr => hq (Desk.isRunning_iff.mp hr)
      rw [if_neg hq, ih h.2, if_neg hnot, List.filter_cons_of_neg hnot]

/-- Unassigning several tasks of a desk one after the other. -/
theorem foldl_unassign {ids : List TaskId} (hids : ids.Nodup) (hd : d.Distinct heap)
    (hlists : ∀ t ∈ ids, d.lists heap t) : ids.foldl (fun d t => d.unassign heap t) d =
      { list := d.list.filter fun r => decide ((heap.get r).id ∉ ids)
        sent := d.sent ++ ids.map Node.cancelled } := by
  induction ids generalizing d with
  | nil => simp
  | cons t ids ih =>
    rw [List.nodup_cons] at hids
    have hsent : (d.unassign heap t).sent = d.sent ++ [Node.cancelled t] := by
      rw [Desk.unassign_of_lists (hlists t List.mem_cons_self)]
    rw [List.foldl_cons, ih hids.2 hd.unassign, hsent, Desk.list_unassign hd, List.filter_filter,
      List.append_assoc, List.map_cons, List.singleton_append]
    · congr 1
      apply List.filter_congr
      intro r hr
      rw [Bool.eq_iff_iff]
      simp only [List.mem_cons, not_or, Bool.and_eq_true, decide_eq_true_eq, bne_iff_ne]
      exact and_comm
    · intro t' ht'
      rcases Desk.lists_iff.mp (hlists t' (List.mem_cons_of_mem t ht')) with ⟨r, hr, hid⟩
      rw [Desk.lists_iff]
      refine ⟨r, (Desk.mem_list_unassign hd).mpr ⟨hr, ?_⟩, hid⟩
      rw [hid]
      exact fun heq => hids.1 (heq ▸ ht')

/-- Giving the running tasks back and then taking them off one by one is a release. -/
theorem foldl_unassign_eq_release (hd : d.Distinct heap) :
    (Node.markForDelete heap d.list).2.foldl
      (fun d' t => d'.unassign (Node.markForDelete heap d.list).1 t) d = d.release heap := by
  have hnodup : d.list.Nodup := List.Nodup.of_map _ hd
  rw [markForDelete_eq hnodup]
  have hd' : d.Distinct (giveBack heap d.list) := hd.of_ids fun r _ => id_giveBack _ _ _
  rw [foldl_unassign _ hd' _]
  · unfold Desk.release
    rw [List.map_map]
    congr 1
    apply List.filter_congr
    intro r hr
    rw [Bool.eq_iff_iff, decide_eq_true_eq, id_giveBack, Bool.not_eq_true', ← Bool.not_eq_true,
      not_iff_not, List.mem_map]
    constructor
    · rintro ⟨q, hq, hid⟩
      rw [List.mem_filter] at hq
      rw [← List.inj_on_of_nodup_map hd hq.1 hr hid]
      exact hq.2
    · exact fun hrunning => ⟨r, List.mem_filter.mpr ⟨hr, hrunning⟩, rfl⟩
  · exact hd.sublist ((List.filter_sublist).map _)
  · intro t ht
    rcases List.mem_map.mp ht with ⟨r, hr, hid⟩
    rw [Desk.lists_iff]
    exact ⟨r, (List.mem_filter.mp hr).1, by rw [id_giveBack, hid]⟩

end Release

/-! ## The ledger of a state -/

namespace State

def ledger (s : State) : Ledger where
  heap := s.taskHeap
  index := s.tasks.at?
  group := s.groups.at?
  desk n := (s.nodes.at? n).map Node.desk

structure WellFormed (s : State) : Prop where
  nodes : s.nodes.NonNull
  groups : s.groups.NonNull
  tasks : s.tasks.NonNull
  nodeId : ∀ n node, s.nodes.at? n = some node → node.id = n
  groupId : ∀ g G, s.groups.at? g = some G → G.id = g
  nextTaskId : s.nextTaskId = UInt32.ofNat (s.taskHeap.next + 1)
  sound : s.ledger.Sound

/-- The acts that a section may do. -/
def mayDo (s : State) : Op → Act → Prop
  | .insert, .join n => n = s.nextNodeId
  | .erase n, .drop n' => n' = n
  | .balance, .hand _ _ => True
  | .maintain _, .note _ message => message = Node.ping
  | .maintain clock, .release n => ∃ node, s.node? n = some node ∧ s.isSilent clock (n, node)
  | .cancel g, .cancelGroup g' => g' = g
  | .cancel _, .withdraw _ => True
  | .assign, .openGroup g nNodes => g = s.nextGroupId ∧
    ∃ selection, s.selection = some selection ∧ nNodes = selection.nodeIds.length
  | .assign, .create _ task => task.groupId = s.nextGroupId
  | .result msg, .settle r result => s.tasks.at? msg.taskId = some r ∧ result = msg.result
  | .hello n _, .note n' _ => n' = n
  | _, _ => False

/-- `s'` is well formed, and on the ledger the way to it is a trace of acts with `Q`. -/
structure Follows (Q : Act → Prop) (s s' : State) : Prop where
  wellFormed : s'.WellFormed
  does : Does Ledger.Step Q s.ledger s'.ledger

section Nodes

variable {nodes : KeyedMap NodeId (Option Node)} {n : NodeId} {node node' : Node}

theorem nodeId_store (hids : ∀ n node, nodes.at? n = some node → node.id = n)
    (h : nodes.at? n = some node) (hid : node'.id = node.id) (m : NodeId) (other : Node)
    (hm : (nodes.store n node').at? m = some other) : other.id = m := by
  rw [KeyedMap.at?_store_of_at? h] at hm
  rcases Ledger.update_eq_some.mp hm with ⟨rfl, rfl⟩ | ⟨-, hm⟩
  · rw [hid]
    exact hids m node h
  · exact hids m other hm

end Nodes

variable {s s' : State} {Q : Act → Prop}

theorem ledger_desk {n : NodeId} {node : Node} (h : s.nodes.at? n = some node) :
    s.ledger.desk n = some node.desk := by
  change (s.nodes.at? n).map Node.desk = _
  rw [h]
  rfl

theorem ledger_desk_iff {n : NodeId} {d : Desk} :
    s.ledger.desk n = some d ↔ ∃ node, s.nodes.at? n = some node ∧ node.desk = d :=
  Option.map_eq_some_iff

theorem Follows.sound (hs : s.WellFormed) (hdoes : Does Ledger.Step Q s.ledger s'.ledger) :
    s'.ledger.Sound :=
  hdoes.invariant (fun _ _ _ hL _ hstep => hL.step hstep) hs.sound

/-- A section that changes one node only. -/
theorem follows_store {n : NodeId} {node node' : Node} {heap : Heap Task} (hs : s.WellFormed)
    (hnode : s.nodes.at? n = some node) (hid : node'.id = node.id)
    (heq : s' = { s with
      nodes := s.nodes.store n node', taskHeap := heap, suspectedBalancing := s'.suspectedBalancing
      assignCalls := s'.assignCalls })
    (hnext : heap.next = s.taskHeap.next)
    (hdoes : Does Ledger.Step Q s.ledger
      { s.ledger with
        heap, desk := Function.update s.ledger.desk n (some node'.desk) }) : s.Follows Q s' := by
  have hledger : s'.ledger = { s.ledger with
      heap, desk := Function.update s.ledger.desk n (some node'.desk) } := by
    rw [heq]
    unfold ledger
    rw [← KeyedMap.map_at?_store hnode]
  rw [← hledger] at hdoes
  refine ⟨?_, hdoes⟩
  have hsound := Follows.sound hs hdoes
  rw [heq] at hsound ⊢
  exact { hs with
    nodes := hs.nodes.mapPointees _
    nodeId := nodeId_store hs.nodeId hnode hid
    nextTaskId := by
      rw [hnext]
      exact hs.nextTaskId
    sound := hsound }

theorem follows_refl (hs : s.WellFormed) : s.Follows Q s := ⟨hs, .refl _⟩

/-! ## Connections -/

theorem follows_insertNode (hs : s.WellFormed) : s.Follows (s.mayDo .insert) s.insertNode := by
  unfold insertNode
  split
  · exact follows_refl hs
  next nodeSocket haccepting =>
    dsimp only
    by_cases hmem : s.nextNodeId ∈ s.nodes
    -- an id that has come round again is not inserted
    · rw [KeyedMap.emplace_of_mem hmem]
      exact ⟨{ hs with }, .refl _⟩
    · have hnone := KeyedMap.at?_eq_none_of_notMem hmem
      have hdesk : (fun m => ((s.nodes.emplace s.nextNodeId
          (some { socket := nodeSocket, id := s.nextNodeId })).at? m).map Node.desk) =
          Function.update s.ledger.desk s.nextNodeId (some {}) := by
        funext m
        rw [KeyedMap.at?_emplace, Function.update_apply]
        by_cases hm : m = s.nextNodeId
        · rw [if_pos ⟨hm, hmem⟩, if_pos hm]
          rfl
        · rw [if_neg (fun h => hm h.1), if_neg hm]
          rfl
      have hdoes : Does Ledger.Step (s.mayDo .insert) s.ledger
          { s.ledger with desk := Function.update s.ledger.desk s.nextNodeId (some {}) } := by
        have hnew : s.ledger.desk s.nextNodeId = none := by
          change (s.nodes.at? s.nextNodeId).map Node.desk = none
          rw [hnone]
          rfl
        exact Does.single (Ledger.Step.join hnew) (show s.nextNodeId = s.nextNodeId from rfl)
      rw [← hdesk] at hdoes
      refine ⟨{ hs with nodes := hs.nodes.emplace _ _, nodeId := ?_, sound := ?_ }, hdoes⟩
      · intro n node hn
        rw [KeyedMap.at?_emplace] at hn
        split at hn
        next heq =>
          cases hn
          exact heq.1.symm
        next => exact hs.nodeId n node hn
      · exact Follows.sound hs hdoes

theorem follows_takeMessage (hs : s.WellFormed) (n : NodeId) :
    s.Follows (s.mayDo (.write n)) (s.takeMessage n) := by
  have hdesk (node : Node) : node.takeMessage.desk = node.desk := by
    unfold Node.desk
    rw [Node.tasks_takeMessage, Node.history_takeMessage]
  have hledger : (s.takeMessage n).ledger = s.ledger := by
    unfold ledger takeMessage
    congr 1
    funext m
    by_cases hm : m = n
    · rw [hm, KeyedMap.at?_modify_self, Option.map_map]
      congr 1
      funext node
      exact hdesk node
    · rw [KeyedMap.at?_modify_ne hm]
  refine ⟨{ hs with nodes := hs.nodes.mapPointees _, nodeId := ?_, sound := ?_ }, .of_eq hledger⟩
  · intro m node hm
    by_cases hmn : m = n
    · unfold takeMessage at hm
      rw [hmn, KeyedMap.at?_modify_self] at hm
      rcases Option.map_eq_some_iff.mp hm with ⟨node', hnode', rfl⟩
      rw [hmn, ← hs.nodeId n node' hnode']
      exact congrArg Node.Profile.id (Node.profile_takeMessage node')
    · unfold takeMessage at hm
      rw [KeyedMap.at?_modify_ne hmn] at hm
      exact hs.nodeId m node hm
  · rw [hledger]
    exact hs.sound

/-- The desk of the node is gone. -/
theorem ledger_eraseNode {n : NodeId} (h : s.eraseNode n = .ok s') :
    s'.ledger = { s.ledger with desk := Function.update s.ledger.desk n none } := by
  rcases eraseNode_cases h with ⟨hnot, rfl⟩ | ⟨node, -, rfl⟩
  · rw [Function.update_eq_self_iff.mpr]
    change none = (s'.nodes.at? n).map Node.desk
    rw [KeyedMap.at?_eq_none_of_notMem hnot]
    rfl
  · unfold ledger
    congr 1
    funext m
    by_cases hm : m = n
    · rw [hm, KeyedMap.at?_erase_self, Function.update_self]
      rfl
    · rw [KeyedMap.at?_erase_ne hm, Function.update_of_ne hm]

theorem follows_eraseNode {n : NodeId} (hs : s.WellFormed) (h : s.eraseNode n = .ok s') :
    s.Follows (s.mayDo (.erase n)) s' := by
  have hdoes : Does Ledger.Step (s.mayDo (.erase n)) s.ledger s'.ledger := by
    rw [ledger_eraseNode h]
    exact .single .drop rfl
  refine ⟨?_, hdoes⟩
  have hsound := Follows.sound hs hdoes
  rcases eraseNode_cases h with ⟨-, rfl⟩ | ⟨node, -, rfl⟩
  · exact hs
  · exact { hs with
      nodes := hs.nodes.erase n
      nodeId := fun m node hm => hs.nodeId m node (KeyedMap.at?_erase_some hm).2
      sound := hsound }

/-! ## Messages -/

theorem follows_handleHelloMessage {n : NodeId} {msg : HelloMessage} (hs : s.WellFormed)
    (h : s.handleHelloMessage n msg = .ok s') : s.Follows (s.mayDo (.hello n msg)) s' := by
  rcases handleHelloMessage_cases h with ⟨-, rfl⟩ | ⟨node, hnode, rfl⟩
  · exact follows_refl hs
  · apply follows_store hs hnode _ rfl rfl
    · rw [Node.desk_send]
      change Does Ledger.Step _ _ { s.ledger with
        desk := Function.update s.ledger.desk n
          (some { node.desk with sent := node.desk.sent ++ [helloReply s.config msg] }) }
      exact Does.single (Ledger.Step.note (ledger_desk hnode) trivial) (show n = n from rfl)
    · rfl

theorem follows_handleNotifyTaskMessage {n : NodeId} {msg : TaskNotifyMessage} {now : TimePoint}
    (hs : s.WellFormed) (h : s.handleNotifyTaskMessage n msg now = .ok s') :
    s.Follows (s.mayDo (.notify n msg now)) s' := by
  rcases handleNotifyTaskMessage_cases h with rfl | ⟨node, g, hnode, rfl⟩
  · exact follows_refl hs
  · apply follows_store hs hnode _ rfl rfl
    · apply Does.of_eq
      rw [Function.update_eq_self_iff.mpr]
      · rfl
      · exact (ledger_desk hnode).symm
    · rfl

/-- A result that is accepted settles its task, and any other changes nothing. -/
theorem step_handleResultMessage {msg : ResultMessage} (hs : s.WellFormed)
    (h : s.handleResultMessage msg = .ok s') :
    ((∀ g, ¬ s.accepts g msg) ∧ s' = s) ∨ ∃ r, s.tasks.at? msg.taskId = some r ∧
      s.accepts (s.taskHeap.get r).groupId msg ∧
      Ledger.Step s.ledger (.settle r msg.result) s'.ledger ∧ s'.WellFormed := by
  rcases handleResultMessage_cases h with ⟨r, hr, hcases⟩
  have htask : s.task? msg.taskId = some (s.taskHeap.get r) := by rw [task?, hr, Option.map_some]
  rcases hcases with ⟨hnot, rfl⟩ | ⟨G, hG, hrunning, ⟨hdone, rfl⟩ | ⟨hopen, rfl⟩⟩
  -- the task does not run, or its group is done, or the result is accepted
  · refine Or.inl ⟨fun g haccepts => ?_, rfl⟩
    rcases haccepts with ⟨task, htask', -, hrunning, -⟩
    cases htask.symm.trans htask'
    exact hnot hrunning
  · refine Or.inl ⟨fun g haccepts => ?_, rfl⟩
    rcases haccepts with ⟨task, htask', rfl, -, G', hG', hopen⟩
    cases htask.symm.trans htask'
    cases hG.symm.trans hG'
    exact hopen hdone
  · have hid := (hs.sound.index _ _ hr).2
    have hgroup := KeyedMap.at?_store_of_at? (w := acceptResult G msg.result) hG
    have hstep : Ledger.Step s.ledger (.settle r msg.result) { s.ledger with
        heap := setStatus s.taskHeap r .tsDone
        group := Function.update s.ledger.group (s.taskHeap.get r).groupId
          (some (acceptResult G msg.result)) } := by
      apply Ledger.Step.settle _ hrunning hG hopen
      change s.tasks.at? (s.taskHeap.get r).id = some r
      rw [show (s.taskHeap.get r).id = msg.taskId from hid]
      exact hr
    change Ledger.Step _ _ ⟨_, _, Function.update s.groups.at? _ _, _⟩ at hstep
    rw [← hgroup] at hstep
    refine Or.inr ⟨r, hr, ⟨_, htask, rfl, hrunning, G, hG, hopen⟩, hstep, ?_⟩
    refine { hs with groups := hs.groups.mapPointees _, groupId := ?_, sound := ?_ }
    · intro g G' hG'
      dsimp only at hG'
      rw [hgroup] at hG'
      rcases Ledger.update_eq_some.mp hG' with ⟨rfl, rfl⟩ | ⟨-, hG'⟩
      · rw [id_acceptResult]
        exact hs.groupId _ G hG
      · exact hs.groupId g G' hG'
    · exact hs.sound.step hstep

theorem follows_handleResultMessage {msg : ResultMessage} (hs : s.WellFormed)
    (h : s.handleResultMessage msg = .ok s') : s.Follows (s.mayDo (.result msg)) s' := by
  rcases step_handleResultMessage hs h with ⟨-, rfl⟩ | ⟨r, hr, -, hstep, hs'⟩
  · exact follows_refl hs
  · exact ⟨hs', .single hstep ⟨hr, rfl⟩⟩

/-! ## Balancing -/

theorem follows_balanceTask {r : Ref} (hs : s.WellFormed)
    (hindex : s.tasks.at? (s.taskHeap.get r).id = some r) (h : s.balanceTask r = .ok s') :
    s.Follows (fun a => ∃ n, a = .hand n r) s' ∧ s'.tasks = s.tasks := by
  rcases balanceTask_cases h with rfl | ⟨n, node, hnode, -, hnone, rfl⟩
  · exact ⟨follows_refl hs, rfl⟩
  · have hid : (node.assignTask s.taskHeap r).id = node.id :=
      congrArg Node.Profile.id (Node.profile_assignTask _ _ _)
    refine ⟨follows_store hs hnode hid rfl rfl ?_, rfl⟩
    rw [Node.desk_assignTask]
    exact .single (.hand (ledger_desk hnode) hindex hnone) ⟨n, rfl⟩

theorem follows_balanceTasks (hs : s.WellFormed) (h : s.balanceTasks = .ok s') :
    s.Follows (s.mayDo .balance) s' := by
  rcases balanceTasks_eq_ok h with ⟨s₁, hloop, rfl⟩
  have hbody : ∀ (t : State) r t', r ∈ s.tasks.pointees.map Prod.snd →
      (t.WellFormed ∧ t.tasks = s.tasks) → t.balanceTask r = .ok t' →
      (t'.WellFormed ∧ t'.tasks = s.tasks) ∧
        Does Ledger.Step (s.mayDo .balance) t.ledger t'.ledger := by
    rintro t r t' hr ⟨ht, htasks⟩ hstep
    rcases List.mem_map.mp hr with ⟨e, he, rfl⟩
    have hat : t.tasks.at? e.1 = some e.2 := by
      rw [htasks]
      exact KeyedMap.mem_pointees.mp he
    have hid : (t.taskHeap.get e.2).id = e.1 := (ht.sound.index _ _ hat).2
    rcases follows_balanceTask ht (by rwa [hid]) hstep with ⟨hfollows, hsame⟩
    refine ⟨⟨hfollows.wellFormed, hsame.trans htasks⟩, hfollows.does.mono ?_⟩
    rintro a ⟨n, rfl⟩
    exact trivial
  rcases Does.foldlM hbody ⟨hs, rfl⟩ hloop with ⟨⟨hs₁, -⟩, hdoes⟩
  exact ⟨{ hs₁ with }, hdoes⟩

/-! ## Maintenance -/

/-- Marking the tasks of a silent node and taking them off it releases its desk. -/
theorem released_of_silent {n : NodeId} {node node' : Node} {marked : Heap Task × List TaskId}
    (hs : s.WellFormed) (hnode : s.nodes.at? n = some node)
    (hnode' : node' = { node with flags := { node.flags with connBroken := true } })
    (hmarked : marked = Node.markForDelete s.taskHeap node'.tasks) :
    marked.1 = giveBack s.taskHeap node.tasks ∧
      (marked.2.foldl (fun node taskId => node.unassignTask marked.1 taskId) node').desk =
        node.desk.release s.taskHeap := by
  have hdesk : node'.desk = node.desk := by
    rw [hnode']
    rfl
  have hlist : node'.tasks = node.tasks := congrArg Desk.list hdesk
  have hdistinct : node.desk.Distinct s.taskHeap := hs.sound.distinct n _ (ledger_desk hnode)
  refine ⟨?_, ?_⟩
  · rw [hmarked, hlist]
    exact congrArg Prod.fst (markForDelete_eq (List.Nodup.of_map _ hdistinct))
  · rw [Node.desk_foldl_unassignTask, hdesk, hmarked, hlist]
    exact foldl_unassign_eq_release hdistinct

theorem follows_maintainNode (clock : NodeId → TimePoint) {n : NodeId} {node : Node}
    (hs : s.WellFormed) (hnode : s.nodes.at? n = some node) :
    s.Follows (fun a => a = .note n Node.ping ∨ a = .release n ∧ s.isSilent clock (n, node))
      (maintainNode clock s (n, node)) := by
  rcases maintainNode_cases s clock (n, node) with
    ⟨-, b, heq⟩ | ⟨hsilent, node', marked, b, hnode', hmarked, heq⟩ | ⟨-, -, heq⟩
  · rw [heq]
    apply follows_store hs hnode _ rfl rfl
    · change Does Ledger.Step _ _ { s.ledger with
        desk := Function.update s.ledger.desk n (some (node.send Node.ping).desk) }
      rw [Node.desk_send]
      exact .single (.note (ledger_desk hnode) rfl) (Or.inl rfl)
    · rfl
  · rw [heq]
    rcases released_of_silent hs hnode hnode' hmarked with ⟨hheap, hfinal⟩
    apply follows_store hs hnode _ rfl
    · rw [hheap]
      exact next_giveBack _ _
    · rw [hfinal, hheap]
      exact .single (.release (ledger_desk hnode)) (Or.inr ⟨rfl, hsilent⟩)
    · have hprofile := Node.profile_foldl_unassignTask marked.1 node' marked.2
      exact (congrArg Node.Profile.id hprofile).trans (by rw [hnode']; rfl)
  · rw [heq]
    exact follows_refl hs

/-- One node of the loop leaves the others alone. -/
theorem nodes_maintainNode_ne {clock : NodeId → TimePoint} {e : NodeId × Node} {m : NodeId}
    (hm : m ≠ e.1) : (maintainNode clock s e).nodes.at? m = s.nodes.at? m := by
  rcases maintainNode_cases s clock e with ⟨-, b, heq⟩ | ⟨-, _, _, b, _, _, heq⟩ | ⟨-, -, heq⟩
  · rw [heq, KeyedMap.at?_modify_ne hm]
  · rw [heq, KeyedMap.at?_modify_ne hm]
  · rw [heq]

theorem config_maintainNode (clock : NodeId → TimePoint) (e : NodeId × Node) :
    (maintainNode clock s e).config = s.config := by
  rcases maintainNode_cases s clock e with ⟨-, b, heq⟩ | ⟨-, _, _, b, _, _, heq⟩ | ⟨-, -, heq⟩
  · rw [heq]
  · rw [heq]
  · rw [heq]

/-- What the start of the loop satisfies and every node of it carries on holds at the end of the tick.
The list is that of the nodes still to come, which are as they were at the start. -/
theorem maintain_rule (clock : NodeId → TimePoint) {I : List (NodeId × Node) → State → Prop}
    (hs : s.WellFormed) (hstart : I s.nodes.pointees s)
    (hbody : ∀ n node l t, s.nodes.at? n = some node → t.nodes.at? n = some node →
      t.config = s.config → t.WellFormed → I ((n, node) :: l) t →
      I l (maintainNode clock t (n, node)))
    (h : s.maintain clock = .ok s') : s'.WellFormed ∧ I [] s' := by
  rw [maintain_eq_ok h]
  -- the loop goes over the nodes as they were, and none of its rounds changes a node still to come
  suffices hloop : ∀ (l : List (NodeId × Node)) (t : State), (l.map Prod.fst).Nodup →
      (∀ e ∈ l, s.nodes.at? e.1 = some e.2 ∧ t.nodes.at? e.1 = some e.2) →
      t.config = s.config → t.WellFormed → I l t →
      (l.foldl (maintainNode clock) t).WellFormed ∧ I [] (l.foldl (maintainNode clock) t) from
    hloop _ s s.nodes.nodup_pointees
      (fun e he => ⟨KeyedMap.mem_pointees.mp he, KeyedMap.mem_pointees.mp he⟩) rfl hs hstart
  intro l
  induction l with
  | nil => exact fun t _ _ _ ht hI => ⟨ht, hI⟩
  | cons e l ih =>
    intro t hnodup hat hconfig ht hI
    rw [List.map_cons, List.nodup_cons] at hnodup
    have he := hat e List.mem_cons_self
    rw [List.foldl_cons]
    apply ih _ hnodup.2
    · intro e' he'
      have hne : e'.1 ≠ e.1 := fun heq => hnodup.1 (heq ▸ List.mem_map_of_mem he')
      rw [nodes_maintainNode_ne hne]
      exact hat e' (List.mem_cons_of_mem e he')
    · exact (config_maintainNode clock e).trans hconfig
    · exact (follows_maintainNode clock ht he.2).wellFormed
    · exact hbody e.1 e.2 l t he.1 he.2 hconfig ht hI

theorem follows_maintain {clock : NodeId → TimePoint} (hs : s.WellFormed)
    (h : s.maintain clock = .ok s') : s.Follows (s.mayDo (.maintain clock)) s' := by
  have hrule := maintain_rule clock
    (I := fun _ t => Does Ledger.Step (s.mayDo (.maintain clock)) s.ledger t.ledger) hs (.refl _)
    (by
      intro n node l t hnode hnode' hconfig ht hdoes
      have hfirst := follows_maintainNode clock ht hnode'
      refine hdoes.trans (hfirst.does.mono fun a ha => ?_)
      rcases ha with rfl | ⟨rfl, hsilent⟩
      · exact rfl
      · refine ⟨node, hnode, ?_⟩
        unfold isSilent at hsilent ⊢
        rwa [hconfig] at hsilent)
    h
  exact ⟨hrule.1, hrule.2⟩

/-! ## Commands -/

/-- A running task of the group is taken off every desk. -/
theorem step_cancelTask {g : TaskId} {e : TaskId × Ref} {G : TaskGroup} (hs : s.WellFormed)
    (hindex : s.tasks.at? e.1 = some e.2) (hG : s.groups.at? g = some G)
    (hcancelled : G.status = .tsCancelled) (h : cancelTask g s e = .ok s') :
    s'.WellFormed ∧ s' = { s with nodes := s'.nodes } ∧
    ((((s.taskHeap.get e.2).groupId ≠ g ∨ (s.taskHeap.get e.2).status ≠ .tsRunning) ∧ s' = s) ∨
      Ledger.Step s.ledger (.withdraw e.1) s'.ledger) := by
  rcases cancelTask_cases h with ⟨hnot, rfl⟩ | ⟨hgroup, hrunning, rfl⟩
  · exact ⟨hs, rfl, Or.inl ⟨hnot, rfl⟩⟩
  · have hdesk : (fun n => ((s.nodes.mapPointees fun _ node =>
        node.unassignTask s.taskHeap e.1).at? n).map Node.desk) =
        fun n => (s.ledger.desk n).map (Desk.unassign s.taskHeap e.1) := by
      funext n
      change _ = ((s.nodes.at? n).map Node.desk).map _
      rw [KeyedMap.at?_mapPointees, Option.map_map, Option.map_map]
      congr 1
      funext node
      exact Node.desk_unassignTask _ _ _
    have hstep : Ledger.Step s.ledger (.withdraw e.1) { s.ledger with
        desk := fun n => (s.ledger.desk n).map (Desk.unassign s.taskHeap e.1) } := by
      have hG' : s.ledger.group (s.ledger.heap.get e.2).groupId = some G := by
        rw [← hG, ← hgroup]
        rfl
      exact .withdraw hindex hrunning hG' hcancelled
    rw [← hdesk] at hstep
    -- only the lists of the nodes have changed
    refine ⟨{ hs with nodes := hs.nodes.mapPointees _, nodeId := ?_, sound := ?_ }, rfl, Or.inr hstep⟩
    · intro n node hn
      rw [KeyedMap.at?_mapPointees] at hn
      rcases Option.map_eq_some_iff.mp hn with ⟨node', hnode', rfl⟩
      rw [← hs.nodeId n node' hnode']
      exact congrArg Node.Profile.id (Node.profile_unassignTask _ _ _)
    · exact hs.sound.step hstep

/-- What holds after the group is marked, and is carried on by every task of the loop, holds at the end
of `command_cancel`.  The list is that of the tasks still to come. -/
theorem commandCancel_rule {I : List (TaskId × Ref) → Ledger → Prop} {g : TaskId} {G : TaskGroup}
    (hs : s.WellFormed) (hG : s.groups.at? g = some G) (hrunning : G.status = .tsRunning)
    (hopen : ∀ L, Ledger.Step s.ledger (.cancelGroup g) L → I s.tasks.pointees L)
    (hskip : ∀ e l L, L.heap = s.taskHeap →
      (s.taskHeap.get e.2).groupId ≠ g ∨ (s.taskHeap.get e.2).status ≠ .tsRunning →
      I (e :: l) L → I l L)
    (hwithdraw : ∀ e l L L', L.Sound → s.tasks.at? e.1 = some e.2 → L.heap = s.taskHeap →
      I (e :: l) L → Ledger.Step L (.withdraw e.1) L' → I l L')
    (hok : s.commandCancel g = .ok s') : s'.WellFormed ∧ I [] s'.ledger := by
  rcases commandCancel_cases hok with ⟨hnot, -⟩ | ⟨G', hG', -, hloop⟩
  · exact absurd hrunning (hnot G hG)
  cases hG.symm.trans hG'
  have hgroup := KeyedMap.at?_store_of_at? (w := { G with status := .tsCancelled }) hG
  have hstep : Ledger.Step s.ledger (.cancelGroup g) { s.ledger with
      group := Function.update s.groups.at? g (some { G with status := .tsCancelled }) } :=
    .cancelGroup hG hrunning
  rw [← hgroup] at hstep
  have hs₁ : WellFormed { s with groups := s.groups.store g { G with status := .tsCancelled } } := by
    refine { hs with groups := hs.groups.mapPointees _, groupId := ?_, sound := ?_ }
    · intro g' G' hG'
      rw [hgroup] at hG'
      rcases Ledger.update_eq_some.mp hG' with ⟨rfl, rfl⟩ | ⟨-, hG'⟩
      · exact hs.groupId g' G hG
      · exact hs.groupId g' G' hG'
    · exact hs.sound.step hstep
  -- the loop changes the nodes only
  let J (l : List (TaskId × Ref)) (t : State) : Prop :=
    (∀ e ∈ l, s.tasks.at? e.1 = some e.2) ∧ t.WellFormed ∧ t.tasks = s.tasks ∧
      t.taskHeap = s.taskHeap ∧ t.groups.at? g = some { G with status := .tsCancelled } ∧
      I l t.ledger
  have hJ : J [] s' := by
    apply Except.foldlM_rest (I := J) _ _ hloop
    · intro e l t t' ht hbody
      rcases ht with ⟨hl, ht, htasks, hheap, hcancelled, hI⟩
      have hindex := hl e List.mem_cons_self
      rcases step_cancelTask ht (by rw [htasks, hindex]) hcancelled rfl hbody with
        ⟨ht', heq, hact⟩
      have hl' : ∀ e' ∈ l, s.tasks.at? e'.1 = some e'.2 :=
        fun e' he' => hl e' (List.mem_cons_of_mem e he')
      have hI' : I l t'.ledger := by
        rcases hact with ⟨hnot, rfl⟩ | hact
        · rw [hheap] at hnot
          exact hskip e l _ hheap hnot hI
        · exact hwithdraw e l _ _ ht.sound hindex hheap hI hact
      rw [heq] at ht' hI' ⊢
      exact ⟨hl', ht', htasks, hheap, hcancelled, hI'⟩
    · exact ⟨fun e he => KeyedMap.mem_pointees.mp he, hs₁, rfl, rfl,
        hgroup ▸ Function.update_self _ _ _, hopen _ hstep⟩
  exact ⟨hJ.2.1, hJ.2.2.2.2.2⟩

theorem follows_commandCancel {g : TaskId} (hs : s.WellFormed) (h : s.commandCancel g = .ok s') :
    s.Follows (s.mayDo (.cancel g)) s' := by
  rcases commandCancel_cases h with ⟨-, rfl⟩ | ⟨G, hG, hrunning, -⟩
  · exact follows_refl hs
  · have hrule := commandCancel_rule
      (I := fun _ L => Does Ledger.Step (s.mayDo (.cancel g)) s.ledger L) hs hG hrunning
      (fun L hstep => .single hstep rfl) (fun e l L _ _ hL => hL)
      (fun e l L L' _ _ _ hL hstep => hL.trans (.single hstep trivial)) h
    exact ⟨hrule.1, hrule.2⟩

theorem follows_openGroup (hs : s.WellFormed) (nNodes : Nat) :
    Ledger.Step s.ledger (.openGroup s.nextGroupId nNodes) (s.openGroup nNodes).ledger ∧
      (s.openGroup nNodes).WellFormed := by
  have hgroup : (s.ledger.openGroup s.nextGroupId nNodes) = (s.openGroup nNodes).ledger := by
    unfold Ledger.openGroup
    by_cases hmem : s.nextGroupId ∈ s.groups
    · -- `emplace` does nothing for an id that has come round again
      rcases hs.groups _ hmem with ⟨G, hG⟩
      rw [if_pos]
      · unfold openGroup
        rw [KeyedMap.emplace_of_mem hmem]
        rfl
      · change (s.groups.at? s.nextGroupId).isSome = true
        rw [hG]
        rfl
    · have hnone := KeyedMap.at?_eq_none_of_notMem hmem
      rw [if_neg]
      · unfold ledger openGroup
        congr 1
        funext g
        rw [KeyedMap.at?_emplace, Function.update_apply]
        by_cases hg : g = s.nextGroupId
        · rw [if_pos hg, if_pos ⟨hg, hmem⟩]
        · rw [if_neg hg, if_neg (fun h => hg h.1)]
      · change ¬ (s.groups.at? s.nextGroupId).isSome = true
        rw [hnone]
        decide
  have hstep : Ledger.Step s.ledger (.openGroup s.nextGroupId nNodes)
      (s.openGroup nNodes).ledger := hgroup ▸ .openGroup
  refine ⟨hstep, { hs with groups := hs.groups.emplace _ _, groupId := ?_, sound := ?_ }⟩
  · intro g G hG
    change (s.groups.emplace _ _).at? g = some G at hG
    rw [KeyedMap.at?_emplace] at hG
    split at hG
    next heq =>
      cases hG
      exact heq.1.symm
    next => exact hs.groupId g G hG
  · exact hs.sound.step hstep

/-- One share of the games becomes one task, unless it is empty. -/
theorem follows_assignShare {task : Task} {share : NodeId × UInt32} (hs : s.WellFormed)
    (hgroup : s.groups.at? task.groupId ≠ none) (h : assignShare task s share = .ok s') :
    s'.WellFormed ∧ s'.groups = s.groups ∧ ((share.2 = 0 ∧ s' = s) ∨ (share.2 ≠ 0 ∧
      Ledger.Step s.ledger (.create share.1 (subTask task s.nextTaskId share.2)) s'.ledger)) := by
  rcases assignShare_cases h with ⟨hzero, rfl⟩ | ⟨hne, node, tt, heap, hnode, htt, hheap, rfl⟩
  · exact ⟨hs, rfl, Or.inl ⟨hzero, rfl⟩⟩
  · have hid : tt.id = UInt32.ofNat (s.taskHeap.next + 1) := by
      rw [htt]
      exact hs.nextTaskId
    -- `emplace` and the ledger both leave an id alone that is taken
    have hindex : (s.tasks.emplace tt.id (some s.taskHeap.next)).at? =
        (s.ledger.create share.1 node.desk tt).index := by
      funext t
      rw [KeyedMap.at?_emplace, Ledger.index_create]
      change (if t = tt.id ∧ tt.id ∉ s.tasks then _ else s.tasks.at? t) =
        if t = tt.id ∧ s.tasks.at? tt.id = none then _ else s.tasks.at? t
      have hmem : tt.id ∉ s.tasks ↔ s.tasks.at? tt.id = none :=
        ⟨KeyedMap.at?_eq_none_of_notMem, hs.tasks.notMem_of_at?⟩
      simp only [hmem]
      rfl
    have hdesk : (fun m => ((s.nodes.store share.1
        (node.assignTask heap s.taskHeap.next)).at? m).map Node.desk) =
        (s.ledger.create share.1 node.desk tt).desk := by
      rw [KeyedMap.map_at?_store hnode, Node.desk_assignTask, hheap]
      rfl
    have hstep : Ledger.Step s.ledger (.create share.1 tt)
        (s.ledger.create share.1 node.desk tt) := by
      apply Ledger.Step.create (ledger_desk hnode) hid
      · rw [htt]
        rfl
      · rw [htt]
        exact hgroup
    have hledger : s.ledger.create share.1 node.desk tt = ⟨s.taskHeap.alloc tt,
        (s.ledger.create share.1 node.desk tt).index, s.groups.at?,
        (s.ledger.create share.1 node.desk tt).desk⟩ := rfl
    rw [hledger, ← hindex, ← hdesk, ← hheap] at hstep
    refine ⟨{ hs with
      nodes := hs.nodes.mapPointees _
      tasks := hs.tasks.emplace _ _
      nodeId := nodeId_store hs.nodeId hnode (congrArg Node.Profile.id
        (Node.profile_assignTask _ _ _))
      nextTaskId := ?_
      sound := ?_ }, rfl, Or.inr ⟨hne, ?_⟩⟩
    · change s.nextTaskId + 1 = UInt32.ofNat (heap.next + 1)
      rw [hs.nextTaskId, hheap, Heap.next_alloc]
      exact (UInt32.ofNat_add _ 1).symm
    · exact hs.sound.step hstep
    · rw [← htt]
      exact hstep

theorem follows_assignShares (hs : s.WellFormed) (h : s.assignShares = .ok s') :
    s.Follows (s.mayDo .assign) s' := by
  rcases assignShares_cases h with ⟨-, rfl⟩ | ⟨selection, hselection, hloop⟩
  · exact follows_refl hs
  · have hopen := follows_openGroup hs selection.nodeIds.length
    have hgroup : (s.openGroup selection.nodeIds.length).groups.at? s.nextGroupId ≠ none := by
      rcases hopen.2.groups s.nextGroupId (KeyedMap.mem_emplace.mpr (Or.inl rfl)) with ⟨G, hG⟩
      rw [hG]
      exact Option.some_ne_none G
    have hbody : ∀ (t : State) share t', share ∈ Selection.shares selection →
        (t.WellFormed ∧ t.groups = (s.openGroup selection.nodeIds.length).groups) →
        assignShare { selection.task with groupId := s.nextGroupId } t share = .ok t' →
        (t'.WellFormed ∧ t'.groups = (s.openGroup selection.nodeIds.length).groups) ∧
          Does Ledger.Step (s.mayDo .assign) t.ledger t'.ledger := by
      rintro t share t' - ⟨ht, hgroups⟩ hstep
      rcases follows_assignShare ht (by rwa [hgroups]) hstep with ⟨ht', hsame, hact⟩
      refine ⟨⟨ht', hsame.trans hgroups⟩, ?_⟩
      rcases hact with ⟨-, rfl⟩ | ⟨-, hact⟩
      · exact .refl _
      · exact .single hact rfl
    rcases Does.foldlM hbody ⟨hopen.2, rfl⟩ hloop with ⟨⟨hs', -⟩, hdoes⟩
    exact ⟨hs', (Does.single hopen.1 ⟨rfl, selection, hselection, rfl⟩).trans hdoes⟩

/-! ## Steps and runs -/

/-- Every section keeps the state well formed and follows the ledger. -/
theorem follows_step {op : Op} (hs : s.WellFormed) (h : s.step op = .ok s') :
    s.Follows (s.mayDo op) s' := by
  cases op with
  | select args =>
    rcases selectNodes_cases h with rfl | ⟨nodeIds, -, -, rfl⟩
    · exact follows_refl hs
    · exact ⟨{ hs with }, .refl _⟩
  | assign => exact follows_assignShares hs h
  | cancel g => exact follows_commandCancel hs h
  | erase n => exact follows_eraseNode hs h
  | balance => exact follows_balanceTasks hs h
  | maintain clock => exact follows_maintain hs h
  | accept nodeSocket =>
    cases h
    unfold acceptConnection
    split
    · exact follows_refl hs
    · exact ⟨{ hs with }, .refl _⟩
  | insert =>
    cases h
    exact follows_insertNode hs
  | result msg => exact follows_handleResultMessage hs h
  | hello n msg => exact follows_handleHelloMessage hs h
  | notify n msg now => exact follows_handleNotifyTaskMessage hs h
  | write n =>
    cases h
    exact follows_takeMessage hs n
  | rehash nodes groups tasks =>
    cases h
    -- the ledger has functions where the state has tables, so that an order is not seen
    have hledger : ledger { s with
        nodes := s.nodes.reorder nodes
        groups := s.groups.reorder groups
        tasks := s.tasks.reorder tasks } = s.ledger := by
      unfold ledger
      congr 1
      · exact funext fun t => KeyedMap.at?_reorder _ _ t
      · exact funext fun g => KeyedMap.at?_reorder _ _ g
      · exact funext fun n => congrArg _ (KeyedMap.at?_reorder _ _ n)
    refine ⟨{ hs with
      nodes := hs.nodes.reorder nodes
      groups := hs.groups.reorder groups
      tasks := hs.tasks.reorder tasks
      nodeId := ?_
      groupId := ?_
      sound := ?_ }, .of_eq hledger⟩
    · intro n node hn
      rw [KeyedMap.at?_reorder] at hn
      exact hs.nodeId n node hn
    · intro g G hG
      rw [KeyedMap.at?_reorder] at hG
      exact hs.groupId g G hG
    · rw [hledger]
      exact hs.sound

end State

theorem wellFormed_initial (config : CoordinatorConfig) : (initial config).WellFormed where
  nodes := KeyedMap.nonNull_empty
  groups := KeyedMap.nonNull_empty
  tasks := KeyedMap.nonNull_empty
  nodeId n node h := by cases h
  groupId g G h := by cases h
  nextTaskId := rfl
  sound := {
    index := fun t r h => by cases h
    list := fun n d h => by cases h
    distinct := fun n d h => by cases h
    group := fun r h => (Nat.not_lt_zero r h).elim }

theorem wellFormed_run {P : State → Op → Prop} {s s' : State} {ops : List Op}
    (h : coordinator.Run P s ops s') (hs : s.WellFormed) : s'.WellFormed :=
  h.invariant (fun _ _ _ hI _ _ hok => (State.follows_step hI hok).wellFormed) hs

theorem wellFormed_throughout {P : State → Op → Prop} {s s' : State} {ops : List Op}
    (h : coordinator.Run P s ops s') (hs : s.WellFormed) :
    coordinator.Throughout State.WellFormed s ops s' := by
  have halong := h.along (fun _ _ _ hI _ _ hok => (State.follows_step hI hok).wellFormed) hs
  exact ⟨halong.1.imp fun _ _ hboth => hboth.1, halong.2⟩

theorem subTasks_le_of_step {s s' : State} {op : Op} (hs : s.WellFormed)
    (h : s.step op = .ok s') : s.subTasks ≤ s'.subTasks :=
  (State.follows_step hs h).does.invariant (I := fun L => s.ledger.heap.next ≤ L.heap.next)
    (fun _ _ _ hle _ hstep => hle.trans hstep.next_le) (le_refl _)

theorem subTasks_le_of_run {P : State → Op → Prop} {s s' : State} {ops : List Op}
    (h : coordinator.Run P s ops s') (hs : s.WellFormed) : s.subTasks ≤ s'.subTasks := by
  induction h with
  | nil => exact le_refl _
  | cons _ _ hok _ ih =>
    exact (subTasks_le_of_step hs hok).trans (ih (State.follows_step hs hok).wellFormed)

/-- What the acts of a section keep as long as ids have not wrapped. -/
theorem does_indexed {I : Ledger → Prop} {Q : Act → Prop} {L L' : Ledger}
    (hI : ∀ L a L', L.Sound → L.Indexed → I L → Q a → Ledger.Step L a L' → L'.Indexed →
      L'.heap.next ≤ 2 ^ 32 → I L')
    (hdoes : Does Ledger.Step Q L L') (hsound : L.Sound) (hindexed : L.Indexed) (hL : I L)
    (hnext : L'.heap.next ≤ 2 ^ 32) : L'.Indexed ∧ I L' := by
  let J (L : Ledger) : Prop := L.Sound ∧ (L.heap.next ≤ 2 ^ 32 → L.Indexed ∧ I L)
  have hJ : J L' := by
    apply hdoes.invariant (I := J) _ ⟨hsound, fun _ => ⟨hindexed, hL⟩⟩
    intro L a L' hL hQ hstep
    refine ⟨hL.1.step hstep, fun hnext => ?_⟩
    have hold := hL.2 (hstep.next_le.trans hnext)
    have hindexed' := Ledger.Indexed.step hL.1 (fun _ => hold.1) hstep hnext
    exact ⟨hindexed', hI L a L' hL.1 hold.1 hold.2 hQ hstep hindexed' hnext⟩
  exact hJ.2 hnext

theorem indexed_initial (config : CoordinatorConfig) : (initial config).ledger.Indexed :=
  fun r hr => (Nat.not_lt_zero r hr).elim

end Bem
