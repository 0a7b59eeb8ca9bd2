import Bem.Coordinator.Posting

/-!
# What lasts

An attribute of a node that has nothing to do with its work, its connection and its pings is left alone
by most sections.
-/

namespace Bem

namespace Node

variable {β : Type*}

/-- The attribute does not depend on what the commands, the balancer and the maintenance loop change. -/
def Lasting (f : Node → β) : Prop := ∀ node tasks messageQueue connBroken requestTs,
  f { node with tasks, messageQueue, requestTs, flags := { node.flags with connBroken } } = f node

namespace Lasting

variable {f : Node → β} (h : Lasting f) (heap : Heap Task) (node : Node)

include h

theorem assignTask (r : Ref) : f (node.assignTask heap r) = f node := by
  obtain ⟨tasks, messageQueue, heq⟩ := assignTask_eq heap r node
  rw [heq]
  exact h node tasks messageQueue node.flags.connBroken node.requestTs

theorem unassignTask (t : TaskId) : f (node.unassignTask heap t) = f node := by
  obtain ⟨tasks, messageQueue, heq⟩ := unassignTask_eq heap t node
  rw [heq]
  exact h node tasks messageQueue node.flags.connBroken node.requestTs

theorem foldl_unassignTask (ids : List TaskId) :
    f (ids.foldl (fun node t => node.unassignTask heap t) node) = f node := by
  induction ids generalizing node with
  | nil => rfl
  | cons t ids ih => rw [List.foldl_cons, ih, h.unassignTask]

end Lasting

end Node

namespace State

variable {β : Type*} {f : Node → β} {s s' : State}

/-- The attribute of every node that there is. -/
def trait (f : Node → β) (s : State) (n : NodeId) : Option β := (s.nodes.at? n).map f

theorem trait_of_node? {n : NodeId} {node : Node} (hnode : s.node? n = some node) :
    s.trait f n = some (f node) :=
  congrArg (Option.map f) hnode

theorem trait_store {n : NodeId} {node node' : Node} (hnode : s.nodes.at? n = some node)
    (h : f node' = f node) :
    (fun m => ((s.nodes.store n node').at? m).map f) = s.trait f :=
  KeyedMap.map_at?_store_same hnode h

theorem trait_foldlM {α : Type} {body : State → α → Except Fault State} {l : List α}
    (hbody : ∀ t a t', body t a = .ok t' → t'.trait f = t.trait f)
    (h : l.foldlM body s = .ok s') : s'.trait f = s.trait f := by
  apply Except.foldlM_rest (I := fun _ t => t.trait f = s.trait f) _ rfl h
  intro a l t t' ht hstep
  rw [hbody t a t' hstep, ht]

theorem trait_balanceTask (hf : Node.Lasting f) {r : Ref} (h : s.balanceTask r = .ok s') :
    s'.trait f = s.trait f := by
  cases balanceTask_cases h with
  | inl hsame => rw [hsame]
  | inr hassigned =>
    obtain ⟨n, node, hnode, -, -, rfl⟩ := hassigned
    exact trait_store hnode (hf.assignTask _ _ _)

theorem trait_assignShare (hf : Node.Lasting f) {task : Task} {share : NodeId × UInt32}
    (h : assignShare task s share = .ok s') : s'.trait f = s.trait f := by
  cases assignShare_cases h with
  | inl hsame => rw [hsame.2]
  | inr hassigned =>
    obtain ⟨-, node, tt, heap, hnode, -, -, rfl⟩ := hassigned
    exact trait_store hnode (hf.assignTask _ _ _)

theorem trait_cancelTask (hf : Node.Lasting f) {g : TaskId} {e : TaskId × Ref}
    (h : cancelTask g s e = .ok s') : s'.trait f = s.trait f := by
  cases cancelTask_cases h with
  | inl hsame => rw [hsame.2]
  | inr hcancelled =>
    obtain ⟨-, -, rfl⟩ := hcancelled
    funext n
    show ((s.nodes.mapPointees _).at? n).map f = (s.nodes.at? n).map f
    rw [KeyedMap.at?_mapPointees, Option.map_map]
    congr 1
    funext node
    exact hf.unassignTask _ _ _

theorem trait_maintainNode (hf : Node.Lasting f) {clock : NodeId → TimePoint}
    {e : NodeId × Node} (hnode : s.nodes.at? e.1 = some e.2) :
    (maintainNode clock s e).trait f = s.trait f := by
  rcases maintainNode_cases s clock e with
    ⟨-, b, heq⟩ | ⟨-, node', marked, b, hnode', -, heq⟩ | ⟨-, -, heq⟩
  · rw [heq]
    apply trait_store hnode
    exact hf e.2 e.2.tasks (e.2.messageQueue ++ [Node.ping]) false (clock e.1)
  · rw [heq]
    apply trait_store hnode
    rw [hf.foldl_unassignTask, hnode']
    exact hf e.2 e.2.tasks e.2.messageQueue true e.2.requestTs
  · rw [heq]

theorem trait_maintain (hf : Node.Lasting f) {clock : NodeId → TimePoint} (hs : s.WellFormed)
    (h : s.maintain clock = .ok s') : s'.trait f = s.trait f := by
  have hI := maintain_rule clock (I := fun _ t => t.trait f = s.trait f) hs rfl
    (fun m other l u _ hother _ _ hI => (trait_maintainNode hf hother).trans hI) h
  exact hI.2

/-- What the sections do to an attribute that lasts. -/
theorem trait_step (hf : Node.Lasting f) {op : Op} (hs : s.WellFormed)
    (hok : s.step op = .ok s') (herase : ∀ n, op ≠ .erase n) (hinsert : op ≠ .insert)
    (hhello : ∀ n msg, op ≠ .hello n msg) (hnotify : ∀ n msg now, op ≠ .notify n msg now)
    (hwrite : ∀ n, op ≠ .write n) : s'.trait f = s.trait f := by
  cases op with
  | select args =>
    cases selectNodes_cases hok with
    | inl hsame => rw [hsame]
    | inr hselected =>
      obtain ⟨nodeIds, -, -, rfl⟩ := hselected
      rfl
  | assign =>
    cases assignShares_cases hok with
    | inl hsame => rw [hsame.2]
    | inr hassigned =>
      obtain ⟨selection, -, hloop⟩ := hassigned
      have hkept := trait_foldlM (f := f) (fun _ _ _ => trait_assignShare hf) hloop
      exact hkept
  | cancel g =>
    cases commandCancel_cases hok with
    | inl hsame => rw [hsame.2]
    | inr hcancelled =>
      obtain ⟨G, -, -, hloop⟩ := hcancelled
      have hkept := trait_foldlM (f := f) (fun _ _ _ => trait_cancelTask hf) hloop
      exact hkept
  | balance =>
    obtain ⟨s₁, hloop, rfl⟩ := balanceTasks_eq_ok hok
    have hkept := trait_foldlM (f := f) (fun _ _ _ => trait_balanceTask hf) hloop
    exact hkept
  | maintain clock => exact trait_maintain hf hs hok
  | accept nodeSocket =>
    cases hok
    unfold trait
    rw [nodes_acceptConnection]
  | result msg =>
    obtain ⟨r, -, hcases⟩ := handleResultMessage_cases hok
    cases hcases with
    | inl hsame => rw [hsame.2]
    | inr hrunning =>
      obtain ⟨G, -, -, hcases⟩ := hrunning
      cases hcases with
      | inl hdone => rw [hdone.2]
      | inr hmerged => rw [hmerged.2]; rfl
  | rehash nodes groups tasks =>
    cases hok
    funext n
    show ((s.nodes.reorder nodes).at? n).map f = _
    rw [KeyedMap.at?_reorder]
    rfl
  | erase n => exact absurd rfl (herase n)
  | insert => exact absurd rfl hinsert
  | hello n msg => exact absurd rfl (hhello n msg)
  | notify n msg now => exact absurd rfl (hnotify n msg now)
  | write n => exact absurd rfl (hwrite n)

theorem trait_eraseNode {n : NodeId} (h : s.eraseNode n = .ok s') :
    s'.trait f = Function.update (s.trait f) n none := by
  cases eraseNode_cases h with
  | inl hsame =>
    obtain ⟨hnot, rfl⟩ := hsame
    exact (Function.update_eq_self_iff.mpr
      (congrArg (Option.map f) (KeyedMap.at?_eq_none_of_notMem hnot)).symm).symm
  | inr herased =>
    obtain ⟨node, -, rfl⟩ := herased
    funext m
    show (KeyedMap.at? (s.nodes.erase n) m).map f = _
    by_cases hm : m = n
    · rw [hm, KeyedMap.at?_erase_self, Function.update_self]
      rfl
    · rw [KeyedMap.at?_erase_ne hm, Function.update_of_ne hm]
      rfl

/-- A node is entered under the next id only. -/
theorem node?_insertNode_ne (s : State) {m : NodeId} (hne : m ≠ s.nextNodeId) :
    s.insertNode.node? m = s.node? m := by
  unfold insertNode
  split
  · rfl
  · exact KeyedMap.at?_emplace_ne hne

/-- Only `acceptConnections` enters a node. -/
theorem trait_insertNode {socket : Int} (haccepting : s.accepting = some socket)
    (hnew : s.node? s.nextNodeId = none) (hs : s.WellFormed) : s.insertNode.trait f =
      Function.update (s.trait f) s.nextNodeId (some (f { socket, id := s.nextNodeId })) := by
  have hnot : s.nextNodeId ∉ s.nodes := hs.nodes.notMem_of_at? hnew
  funext m
  unfold insertNode trait
  rw [haccepting]
  show ((s.nodes.emplace s.nextNodeId _).at? m).map f = _
  rw [KeyedMap.at?_emplace]
  by_cases hm : m = s.nextNodeId
  · rw [if_pos ⟨hm, hnot⟩, hm, Function.update_self]
    rfl
  · rw [if_neg (fun h => hm h.1), Function.update_of_ne hm]

theorem trait_takeMessage {n : NodeId} {node : Node} (hnode : s.node? n = some node) :
    (s.takeMessage n).trait f =
      Function.update (s.trait f) n (some (f node.takeMessage)) := by
  funext m
  show ((s.nodes.modify n Node.takeMessage).at? m).map f = _
  by_cases hm : m = n
  · rw [hm, KeyedMap.at?_modify_self, Function.update_self, show s.nodes.at? n = some node from hnode]
    rfl
  · rw [KeyedMap.at?_modify_ne hm, Function.update_of_ne hm]
    rfl

/-- A HELLO concerns its sender only. -/
theorem node?_handleHelloMessage_ne {n m : NodeId} {msg : HelloMessage}
    (h : s.handleHelloMessage m msg = .ok s') (hne : n ≠ m) : s'.node? n = s.node? n := by
  cases handleHelloMessage_cases h with
  | inl hsame => rw [hsame.2]
  | inr hgreeted =>
    obtain ⟨node, hnode, rfl⟩ := hgreeted
    show (s.nodes.store m _).at? n = s.nodes.at? n
    rw [KeyedMap.at?_store_of_at? hnode, Function.update_of_ne hne]

/-- The sender of a HELLO is sent the reply. -/
theorem history_handleHelloMessage {n : NodeId} {node node' : Node} {msg : HelloMessage}
    (h : s.handleHelloMessage n msg = .ok s') (hnode : s.node? n = some node)
    (hnode' : s'.node? n = some node') : node'.history = node.history ++ [helloReply s.config msg] := by
  cases handleHelloMessage_cases h with
  | inl hsame => exact absurd (KeyedMap.mem_of_at? hnode) hsame.1
  | inr hgreeted =>
    obtain ⟨other, hother, rfl⟩ := hgreeted
    cases hnode.symm.trans hother
    cases hnode'.symm.trans (KeyedMap.at?_store_self hother)
    exact Node.history_send _ _

theorem trait_handleNotifyTaskMessage {m : NodeId} {msg : TaskNotifyMessage} {now : TimePoint}
    (hf : ∀ (node : Node) (g : TaskId), f { node.markResponse now with activeTaskGroup := g } = f node)
    (h : s.handleNotifyTaskMessage m msg now = .ok s') : s'.trait f = s.trait f := by
  cases handleNotifyTaskMessage_cases h with
  | inl hsame => rw [hsame]
  | inr hanswer =>
    obtain ⟨node, g, hnode, rfl⟩ := hanswer
    exact trait_store hnode (hf node g)

end State

end Bem
