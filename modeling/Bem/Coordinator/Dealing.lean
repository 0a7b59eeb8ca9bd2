import Bem.Coordinator.Handshake
import Bem.Coordinator.Lasting
import Bem.Coordinator.Totals

/-!
# What was dealt out

The calls of `AssignTask` for a node say which tasks it can have been sent, and in which order.
-/

namespace Bem

/-- The body is one of a task. -/
def Message.isTask : Message → Bool
  | task _ => true
  | _ => false

theorem tasksIn_eq_nil {messages : List Message} (h : ∀ m ∈ messages, ¬ m.isTask) :
    tasksIn messages = [] := by
  unfold tasksIn
  rw [List.filterMap_eq_nil_iff]
  intro m hm
  cases m with
  | task msg => exact absurd rfl (h _ hm)
  | _ => rfl

namespace Node

/-- The task is sent, or the list has one with its id. -/
theorem tasksIn_history_assignTask (heap : Heap Task) (r : Ref) (node : Node) :
    tasksIn (node.assignTask heap r).history = tasksIn node.history ∨
      tasksIn (node.assignTask heap r).history = tasksIn node.history ++ [heap.get r] := by
  unfold assignTask
  split
  · exact .inl rfl
  · rw [history_send, tasksIn_append]
    exact .inr rfl

end Node

namespace State

/-- The tasks of the calls of `AssignTask` for the node. -/
def calls (s : State) (n : NodeId) : List Task :=
  (s.assignCalls.filter fun call => call.nodeId = n).map AssignCall.task

/-- The tasks that were sent to a node are among those that were assigned to it, in their order, and
each of them is in the map. -/
structure Dealt (s : State) : Prop where
  sent : ∀ n node, s.node? n = some node → (tasksIn node.history).Sublist (s.calls n)
  known : ∀ call ∈ s.assignCalls, (s.tasks.at? call.task.id).isSome

theorem dealt_initial (config : CoordinatorConfig) : (initial config).Dealt where
  sent _ _ h := by cases h
  known _ h := absurd h List.not_mem_nil

variable {s s' : State} {n : NodeId}

theorem calls_append {calls : List AssignCall} (h : s'.assignCalls = s.assignCalls ++ calls)
    (n : NodeId) : s'.calls n = s.calls n ++
      (calls.filter fun call => call.nodeId = n).map AssignCall.task := by
  unfold State.calls
  rw [h, List.filter_append, List.map_append]

/-- A task is assigned to a node. -/
theorem Dealt.assign (h : s.Dealt) {heap : Heap Task} {r : Ref} {node : Node}
    {tasks : KeyedMap TaskId (Option Ref)} {nextTaskId : TaskId} {taskHeap : Heap Task}
    (hnode : s.nodes.at? n = some node)
    (htasks : ∀ t, (s.tasks.at? t).isSome → (tasks.at? t).isSome)
    (hknown : (tasks.at? (heap.get r).id).isSome) :
    Dealt { s with
      nextTaskId, taskHeap, tasks
      nodes := s.nodes.store n (node.assignTask heap r)
      assignCalls := s.assignCalls ++ [{ nodeId := n, node, task := heap.get r }] } where
  sent m other hother := by
    have hcalls : calls { s with
          assignCalls := s.assignCalls ++ [{ nodeId := n, node, task := heap.get r }] } m =
        s.calls m ++ _ := calls_append rfl m
    show (tasksIn other.history).Sublist (calls { s with assignCalls := _ } m)
    rw [hcalls]
    have hother : Function.update s.nodes.at? n (some (node.assignTask heap r)) m = some other := by
      rw [← KeyedMap.at?_store_of_at? hnode]
      exact hother
    by_cases hm : m = n
    · subst hm
      rw [Function.update_self] at hother
      cases hother
      have hold := h.sent m node hnode
      have hnew : List.map AssignCall.task (List.filter (fun call => decide (call.nodeId = m))
          [{ nodeId := m, node, task := heap.get r }]) = [heap.get r] := by simp
      rw [hnew]
      cases node.tasksIn_history_assignTask heap r with
      | inl hsame =>
        rw [hsame]
        exact hold.trans (List.sublist_append_left _ _)
      | inr hsent =>
        rw [hsent]
        exact hold.append_right _
    · rw [Function.update_of_ne hm] at hother
      exact (h.sent m other hother).trans (List.sublist_append_left _ _)
  known := by
    rw [List.forall_mem_append, List.forall_mem_singleton]
    exact ⟨fun call hcall => htasks _ (h.known call hcall), hknown⟩

theorem Dealt.assignShare {task : Task} {share : NodeId × UInt32} (htasks : s.tasks.NonNull)
    (h : s.Dealt) (hok : assignShare task s share = .ok s') : s'.tasks.NonNull ∧ s'.Dealt := by
  cases assignShare_cases hok with
  | inl hsame =>
    rw [hsame.2]
    exact ⟨htasks, h⟩
  | inr hassigned =>
    obtain ⟨-, node, tt, heap, hnode, htt, rfl, rfl⟩ := hassigned
    clear htt
    have hget : (s.taskHeap.alloc tt).get s.taskHeap.next = tt := Heap.get_alloc_self _ _
    refine ⟨htasks.emplace _ _, ?_⟩
    have hdealt := @Dealt.assign s share.1 h (s.taskHeap.alloc tt) s.taskHeap.next node
      (s.tasks.emplace tt.id (some s.taskHeap.next)) (s.nextTaskId + 1) (s.taskHeap.alloc tt) hnode ?_ ?_
    · rwa [hget] at hdealt
    · intro t ht
      obtain ⟨r, hr⟩ := Option.isSome_iff_exists.mp ht
      rw [KeyedMap.at?_emplace_of_at? hr]
      rfl
    · rw [hget]
      by_cases hin : tt.id ∈ s.tasks
      · obtain ⟨r, hr⟩ := htasks _ hin
        rw [KeyedMap.at?_emplace_of_at? hr]
        rfl
      · rw [KeyedMap.at?_emplace_self hin]
        rfl

theorem Dealt.balanceTask {r : Ref} (h : s.Dealt)
    (hr : (s.tasks.at? (s.taskHeap.get r).id).isSome) (hok : s.balanceTask r = .ok s') :
    s'.Dealt ∧ s'.tasks = s.tasks ∧ ∀ q, (s'.taskHeap.get q).id = (s.taskHeap.get q).id := by
  cases balanceTask_cases hok with
  | inl hsame =>
    rw [hsame]
    exact ⟨h, rfl, fun _ => rfl⟩
  | inr hassigned =>
    obtain ⟨n, node, hnode, -, -, rfl⟩ := hassigned
    exact ⟨h.assign hnode (fun _ => id) hr, rfl, fun q => id_setStatus _ _ _ _⟩

/-- The calls are only added to. -/
theorem prefix_calls {op : Op} (hok : s.step op = .ok s') :
    ∃ calls, s'.assignCalls = s.assignCalls ++ calls := by
  let I (t : State) : Prop := ∃ calls, t.assignCalls = s.assignCalls ++ calls
  have hstart : I s := ⟨[], (List.append_nil _).symm⟩
  by_cases hassign : op = .assign
  · subst hassign
    cases assignShares_cases hok with
    | inl hsame =>
      rw [hsame.2]
      exact hstart
    | inr hassigned =>
      obtain ⟨selection, -, hloop⟩ := hassigned
      apply Except.foldlM_rest (I := fun _ t => I t) _ _ hloop
      · intro share l t t' ht hstep
        cases assignShare_cases hstep with
        | inl hsame => exact hsame.2 ▸ ht
        | inr hassigned =>
          obtain ⟨-, node, tt, heap, -, -, -, rfl⟩ := hassigned
          obtain ⟨calls, hcalls⟩ := ht
          exact ⟨calls ++ [_], by rw [hcalls, List.append_assoc]⟩
      · exact hstart
  by_cases hbalance : op = .balance
  · subst hbalance
    obtain ⟨s₁, hloop, rfl⟩ := balanceTasks_eq_ok hok
    have hkept : I s₁ := by
      apply Except.foldlM_rest (I := fun _ t => I t) _ hstart hloop
      intro r l t t' ht hstep
      cases balanceTask_cases hstep with
      | inl hsame => exact hsame ▸ ht
      | inr hassigned =>
        obtain ⟨n, node, -, -, -, rfl⟩ := hassigned
        obtain ⟨calls, hcalls⟩ := ht
        exact ⟨calls ++ [_], by rw [hcalls, List.append_assoc]⟩
    exact hkept
  · exact ⟨[], by rw [assignCalls_step hok hassign hbalance, List.append_nil]⟩

/-- Apart from the two sections that assign tasks, none sends one. -/
theorem tasksIn_history_step {op : Op} {node : Node} (hs : s.WellFormed) (hok : s.step op = .ok s')
    (hassign : op ≠ .assign) (hbalance : op ≠ .balance) (herase : op ≠ .erase n)
    (hnode : s.node? n = some node) :
    ∃ node', s'.node? n = some node' ∧ tasksIn node'.history = tasksIn node.history := by
  by_cases hhello : ∃ m msg, op = .hello m msg
  · obtain ⟨m, msg, rfl⟩ := hhello
    by_cases hm : n = m
    · subst hm
      cases handleHelloMessage_cases hok with
      | inl hsame => exact absurd (KeyedMap.mem_of_at? hnode) hsame.1
      | inr hgreeted =>
        obtain ⟨greeted, hgreeted, rfl⟩ := hgreeted
        cases hnode.symm.trans hgreeted
        refine ⟨_, KeyedMap.at?_store_self hgreeted, ?_⟩
        rw [Node.history_send, tasksIn_append]
        exact List.append_nil _
    · exact ⟨node, (node?_handleHelloMessage_ne hok hm).trans hnode, rfl⟩
  · obtain ⟨node', more, hnode', hhistory, hposts⟩ := history_step hs hok hnode herase
    refine ⟨node', hnode', ?_⟩
    have hnone : tasksIn more = [] := by
      apply tasksIn_eq_nil
      intro m hm htask
      obtain ⟨a, ha, hpost⟩ := hposts m hm
      -- a ping or a cancellation
      cases a with
      | hand n' r => cases op <;> first | exact hbalance rfl | exact ha
      | create n' task => cases op <;> first | exact hassign rfl | exact ha
      | note n' message =>
        cases op with
        | maintain clock =>
          have hping : m = Node.ping := hpost.2.symm.trans ha
          rw [hping] at htask
          cases htask
        | hello m msg => exact hhello ⟨m, msg, rfl⟩
        | _ => exact ha
      | release n' =>
        obtain ⟨-, t, rfl⟩ := hpost
        cases htask
      | withdraw t =>
        rw [show m = Node.cancelled t from hpost] at htask
        cases htask
      | _ => exact hpost
    rw [hhistory, tasksIn_append, hnone, List.append_nil]

theorem Dealt.of_other {op : Op} (hs : s.WellFormed) (h : s.Dealt) (hok : s.step op = .ok s')
    (hassign : op ≠ .assign) (hbalance : op ≠ .balance) : s'.Dealt := by
  have hcalls := assignCalls_step hok hassign hbalance
  constructor
  · intro n node' hnode'
    have hsame : s'.calls n = s.calls n := by
      unfold State.calls
      rw [hcalls]
    rw [hsame]
    cases hnode : s.node? n with
    | none =>
      rw [(untouched_of_absent hs hok hnode node' hnode').history]
      exact List.nil_sublist _
    | some node =>
      have herase : op ≠ .erase n := fun heq => by
        subst heq
        cases (node?_eraseNode hok).symm.trans hnode'
      obtain ⟨node₁, hnode₁, htasks⟩ := tasksIn_history_step hs hok hassign hbalance herase hnode
      cases hnode'.symm.trans hnode₁
      rw [htasks]
      exact h.sent n node hnode
  · intro call hcall
    rw [hcalls] at hcall
    obtain ⟨r, hr⟩ := Option.isSome_iff_exists.mp (h.known call hcall)
    rw [at?_step hs hok hr]
    rfl

theorem dealt_step {op : Op} (hs : s.WellFormed) (h : s.Dealt) (hok : s.step op = .ok s') :
    s'.Dealt := by
  by_cases hassign : op = .assign
  · subst hassign
    cases assignShares_cases hok with
    | inl hsame => rwa [hsame.2]
    | inr hassigned =>
      obtain ⟨selection, -, hloop⟩ := hassigned
      have hkept := Except.foldlM_rest (I := fun _ t => t.tasks.NonNull ∧ t.Dealt)
        (fun share _ t t' ht hstep => Dealt.assignShare ht.1 ht.2 hstep)
        ⟨hs.tasks, h.sent, h.known⟩ hloop
      exact hkept.2
  by_cases hbalance : op = .balance
  · subst hbalance
    obtain ⟨s₁, hloop, rfl⟩ := balanceTasks_eq_ok hok
    let I (l : List Ref) (t : State) : Prop :=
      (∀ r ∈ l, (t.tasks.at? (t.taskHeap.get r).id).isSome) ∧ t.Dealt
    have hI : I [] s₁ := by
      apply Except.foldlM_rest (I := I) _ _ hloop
      · intro r l t t' ht hstep
        have hkept := ht.2.balanceTask (ht.1 r List.mem_cons_self) hstep
        refine ⟨fun q hq => ?_, hkept.1⟩
        rw [hkept.2.1, hkept.2.2]
        exact ht.1 q (List.mem_cons_of_mem r hq)
      · refine ⟨fun r hr => ?_, h⟩
        obtain ⟨e, he, rfl⟩ := List.mem_map.mp hr
        have hat := KeyedMap.mem_pointees.mp he
        have hid : (s.taskHeap.get e.2).id = e.1 := (hs.sound.index e.1 e.2 hat).2
        rw [hid, hat]
        rfl
    exact ⟨hI.2.sent, hI.2.known⟩
  · exact h.of_other hs hok hassign hbalance

end State

end Bem
