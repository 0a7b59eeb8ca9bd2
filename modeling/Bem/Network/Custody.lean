import Bem.Coordinator.Exclusive
import Bem.Coordinator.Lasting
import Bem.Network.System

/-!
# Where the messages are

What the coordinator has written to a node is what has come there and what is still under way, and the
other way around.  No id of a node is used twice, so that this also holds of nodes that are gone.
-/

namespace Bem

namespace State

variable {s s' : State} {n : NodeId}

/-- A section that has to do with an attribute of a node leaves those of the others alone, and it enters
no node unless it is `insert`. -/
theorem kept_step {β : Type*} {f : Node → β} {op : Op} {node' : Node} (hf : Node.Lasting f)
    (hhello : ∀ (node : Node) (gamelist : GameList) (message : Message),
      f ({ node.markRegistered with gamelist }.send message) = f node)
    (hnotify : ∀ msg now, op = .notify n msg now → ∀ (node : Node) (g : TaskId) (now : TimePoint),
      f { node.markResponse now with activeTaskGroup := g } = f node)
    (hwrite : op = .write n → ∀ node : Node, f node.takeMessage = f node) (hs : s.WellFormed)
    (hok : s.step op = .ok s') (hinsert : op ≠ .insert) (hnode' : s'.node? n = some node') :
    ∃ node, s.node? n = some node ∧ f node' = f node := by
  have htrait (h : s'.trait f n = s.trait f n) : s.trait f n = some (f node') := by
    rw [← h]
    exact trait_of_node? hnode'
  have hstored {m : NodeId} {node node' : Node} (hnode : s.nodes.at? m = some node)
      (hsame : n = m → f node' = f node) :
      ((s.nodes.store m node').at? n).map f = s.trait f n := by
    by_cases hm : n = m
    · exact congrFun (trait_store hnode (hsame hm)) n
    · rw [KeyedMap.at?_store_of_at? hnode, Function.update_of_ne hm]
      rfl
  have hall : s.trait f n = some (f node') := by
    cases op with
    | erase m =>
      have hkept := congrFun (trait_eraseNode (f := f) hok) n
      rw [trait_of_node? hnode'] at hkept
      by_cases hm : n = m
      · rw [hm, Function.update_self] at hkept
        cases hkept
      · rw [Function.update_of_ne hm] at hkept
        exact hkept.symm
    | hello m msg =>
      cases handleHelloMessage_cases hok with
      | inl hsame => exact htrait (by rw [hsame.2])
      | inr hello =>
        obtain ⟨node, hnode, rfl⟩ := hello
        exact htrait (hstored hnode fun _ => hhello node _ _)
    | notify m msg now =>
      cases handleNotifyTaskMessage_cases hok with
      | inl hsame => exact htrait (by rw [hsame])
      | inr hanswer =>
        obtain ⟨node, g, hnode, rfl⟩ := hanswer
        exact htrait (hstored hnode fun hm => hnotify msg now (by rw [hm]) node g now)
    | insert => exact absurd rfl hinsert
    | write m =>
      cases hok
      refine htrait ?_
      show ((s.nodes.modify m Node.takeMessage).at? n).map f = (s.nodes.at? n).map f
      by_cases hm : n = m
      · subst hm
        rw [KeyedMap.at?_modify_self, Option.map_map]
        congr 1
        funext node
        exact hwrite rfl node
      · rw [KeyedMap.at?_modify_ne hm]
    | _ =>
      exact htrait (congrFun (trait_step hf hs hok (fun _ => by simp) (by simp) (fun _ _ => by simp)
        (fun _ _ _ => by simp) (fun _ => by simp)) n)
  exact (Option.map_eq_some_iff.mp hall).imp fun _ h => ⟨h.1, h.2.symm⟩

/-- Only `writeNode` takes a message out of the queue of a node. -/
theorem written_step {op : Op} {node' : Node} (hs : s.WellFormed) (hok : s.step op = .ok s')
    (hinsert : op ≠ .insert) (hwrite : ∀ m, op ≠ .write m) (hnode' : s'.node? n = some node') :
    ∃ node, s.node? n = some node ∧ node'.written = node.written :=
  kept_step (fun _ _ _ _ _ => rfl) (fun _ _ _ => rfl) (fun _ _ _ _ _ _ => rfl)
    (fun heq => absurd heq (hwrite n)) hs hok hinsert hnode'

/-- Where an attribute is the same, it is the attribute of a node that was there. -/
theorem exists_of_trait {β : Type*} {f : Node → β} {node' : Node}
    (h : s'.trait f n = s.trait f n) (hnode' : s'.node? n = some node') :
    ∃ node, s.node? n = some node ∧ f node' = f node := by
  rw [trait_of_node? hnode'] at h
  exact (Option.map_eq_some_iff.mp h.symm).imp fun _ hnode => ⟨hnode.1, hnode.2.symm⟩

end State

namespace Network

/-! ## The links -/

section Links

variable (N : Network) {n m : NodeId} (l : Link)

@[simp] theorem link?_setLink_self : (N.setLink n l).link? n = some l := Function.update_self _ _ _

theorem link?_setLink_ne (h : m ≠ n) : (N.setLink n l).link? m = N.link? m :=
  Function.update_of_ne h _ _

@[simp] theorem connections_setLink : (N.setLink n l).connections = N.connections := rfl

theorem isSome_link?_setLink (h : (N.link? n).isSome) :
    ((N.setLink n l).link? m).isSome = (N.link? m).isSome := by
  by_cases hm : m = n
  · rw [hm, link?_setLink_self, h]
    rfl
  · rw [link?_setLink_ne N l hm]

/-- The messages of the node that `readNode` has taken off its connection. -/
def takenFrom (n : NodeId) : List Message := (N.inbox.sent.filter fun e => e.1 = n).map Prod.snd

end Links

/-- What is known of a connection, by the coordinator and by what was taken off. -/
structure Custody (s : State) (taken : List Message) (n : NodeId) (l : Link) : Prop where
  took : l.session.Took l.down.received
  written : ∀ node, s.node? n = some node → l.down.sent = node.written.map Message.delivered
  said : l.up.sent = l.session.node.written.map Message.delivered
  taken : taken = l.up.received

/-- What holds in all states of a run. -/
structure Sound (N : Network) : Prop where
  wellFormed : N.coordinator.WellFormed
  toldApart : ToldApart N.connections
  nextNodeId : N.coordinator.nextNodeId = UInt32.ofNat (N.connections.length + 1)
  accepting : ∀ nodeSocket ∈ N.coordinator.accepting, (0 ≤ nodeSocket ∧ nodeSocket < 2 ^ 31) ∧
    ∀ c ∈ N.connections, c.socket ≠ nodeSocket
  linked : ∀ n, (N.link? n).isSome ↔ ∃ c ∈ N.connections, c.nodeId = n
  nodes : ∀ n, (N.coordinator.node? n).isSome → (N.link? n).isSome
  inbox : ∀ e ∈ N.inbox.sent, (N.link? e.1).isSome
  custody : ∀ n l, N.link? n = some l → Custody N.coordinator (N.takenFrom n) n l

theorem sound_initial (config : CoordinatorConfig) : Sound { coordinator := initial config } where
  wellFormed := wellFormed_initial config
  toldApart := ⟨List.nodup_nil, fun _ hc => absurd hc List.not_mem_nil, rfl⟩
  nextNodeId := rfl
  accepting _ h := by cases h
  linked n := by simp [link?]
  nodes n h := by cases h
  inbox _ he := absurd he List.not_mem_nil
  custody n l hlink := by cases hlink

variable {N N' : Network} {n : NodeId} {l : Link}

/-- The id of the next node has not been given to any. -/
theorem Sound.link?_nextNodeId (h : N.Sound) : N.link? N.coordinator.nextNodeId = none := by
  by_contra hsome
  obtain ⟨c, hc, hid⟩ := (h.linked _).mp (Option.isSome_iff_ne_none.mpr hsome)
  -- the ids are those from `1` up to the number of connections
  have hlength := h.toldApart.length_le
  have hmem := List.mem_map_of_mem (f := Connection.nodeId) hc
  rw [h.toldApart.ids, hid, h.nextNodeId] at hmem
  obtain ⟨k, hk, heq⟩ := List.mem_map.mp hmem
  rw [List.mem_range] at hk
  have hvalue := congrArg UInt32.toNat heq
  rw [UInt32.toNat_ofNat_of_lt' (by show k + 1 < 2 ^ 32; omega),
    UInt32.toNat_ofNat_of_lt' (by show N.connections.length + 1 < 2 ^ 32; omega)] at hvalue
  omega

theorem Sound.node?_nextNodeId (h : N.Sound) :
    N.coordinator.node? N.coordinator.nextNodeId = none := by
  by_contra hsome
  have hlink := h.nodes _ (Option.isSome_iff_ne_none.mpr hsome)
  rw [h.link?_nextNodeId] at hlink
  cases hlink

/-- A section of the coordinator that enters no node and writes nothing. -/
theorem Sound.of_coordinator (h : N.Sound) {op : Op} {s : State}
    {inbox : Channel (NodeId × Message)} (hok : N.coordinator.step op = .ok s)
    (hkeeps : op.keepsConnections) (hinbox : inbox.sent = N.inbox.sent) :
    Sound { N with coordinator := s, inbox } := by
  have haccept (nodeSocket : Int) : op ≠ .accept nodeSocket := fun heq => by rw [heq] at hkeeps; cases hkeeps
  have hinsert : op ≠ .insert := fun heq => by rw [heq] at hkeeps; cases hkeeps
  have hwrite (m : NodeId) : op ≠ .write m := fun heq => by rw [heq] at hkeeps; cases hkeeps
  obtain ⟨haccepting, hid⟩ := State.accepting_step hok haccept hinsert
  have hwritten (n : NodeId) (node' : Node) (hnode' : s.node? n = some node') :=
    State.written_step h.wellFormed hok hinsert hwrite hnode'
  exact {
    wellFormed := (State.follows_step h.wellFormed hok).wellFormed
    toldApart := h.toldApart
    nextNodeId := hid.trans h.nextNodeId
    accepting := fun nodeSocket hsocket => h.accepting nodeSocket (haccepting ▸ hsocket)
    linked := h.linked
    nodes := fun n hnode => by
      obtain ⟨node', hnode'⟩ := Option.isSome_iff_exists.mp hnode
      obtain ⟨node, hnode, -⟩ := hwritten n node' hnode'
      exact h.nodes n (by rw [hnode]; rfl)
    inbox := by
      rw [hinbox]
      exact h.inbox
    custody := fun n l hlink => by
      have hold := h.custody n l hlink
      refine ⟨hold.took, fun node' hnode' => ?_, hold.said, ?_⟩
      · obtain ⟨node, hnode, hsame⟩ := hwritten n node' hnode'
        rw [hsame]
        exact hold.written node hnode
      · unfold takenFrom
        rw [hinbox]
        exact hold.taken }

/-- Something happens on one connection. -/
theorem Sound.setLink (h : N.Sound) {l' : Link} (hlink : N.link? n = some l)
    (hcustody : Custody N.coordinator (N.takenFrom n) n l') : (N.setLink n l').Sound := by
  have hsome : (N.link? n).isSome := by rw [hlink]; rfl
  refine ⟨h.wellFormed, h.toldApart, h.nextNodeId, h.accepting, fun m => ?_, fun m hnode => ?_,
    fun e he => ?_, fun m l₁ hl₁ => ?_⟩
  · rw [isSome_link?_setLink N l' hsome]
    exact h.linked m
  · rw [isSome_link?_setLink N l' hsome]
    exact h.nodes m hnode
  · rw [isSome_link?_setLink N l' hsome]
    exact h.inbox e he
  · by_cases hm : m = n
    · subst hm
      rw [link?_setLink_self] at hl₁
      cases hl₁
      exact hcustody
    · rw [link?_setLink_ne N l' hm] at hl₁
      exact h.custody m l₁ hl₁

theorem Sound.acceptConnection (h : N.Sound) {nodeSocket : Int}
    (hfresh : N.coordinator.FreshSocket nodeSocket) (hnew : ∀ c ∈ N.connections, c.socket ≠ nodeSocket) :
    Sound { N with coordinator := N.coordinator.acceptConnection nodeSocket } := by
  have hstep : N.coordinator.step (.accept nodeSocket) =
      .ok (N.coordinator.acceptConnection nodeSocket) := rfl
  have hwellFormed := (State.follows_step h.wellFormed hstep).wellFormed
  unfold State.acceptConnection at hwellFormed ⊢
  split at hwellFormed
  next hexists =>
    rw [if_pos hexists]
    exact h
  next hexists =>
    rw [if_neg hexists]
    refine ⟨hwellFormed, h.toldApart, h.nextNodeId, fun nodeSocket' hsocket => ?_, h.linked, h.nodes,
      h.inbox, fun n l hlink => ?_⟩
    · cases hsocket
      exact ⟨⟨hfresh.1, hfresh.2.1⟩, hnew⟩
    · have hold := h.custody n l hlink
      exact ⟨hold.took, hold.written, hold.said, hold.taken⟩

theorem Sound.join (h : N.Sound) {nodeSocket : Int} {config : NodeConfig} {protocolVersion : UInt8}
    (haccepting : N.coordinator.accepting = some nodeSocket) :
    Sound { N.setLink N.coordinator.nextNodeId
        { session := NodeProgram.start protocolVersion config } with
      coordinator := N.coordinator.insertNode
      connections := N.connections ++
        [{ socket := nodeSocket, nodeId := N.coordinator.nextNodeId, gamelist := config.gamelist }] } := by
  have hstep : N.coordinator.step .insert = .ok N.coordinator.insertNode := rfl
  have hsocket := h.accepting nodeSocket haccepting
  have hfree := h.link?_nextNodeId
  have hstate : N.coordinator.insertNode.accepting = none ∧
      N.coordinator.insertNode.nextNodeId = N.coordinator.nextNodeId + 1 := by
    unfold State.insertNode
    rw [haccepting]
    exact ⟨rfl, rfl⟩
  have hentered := State.trait_insertNode (f := Node.written) haccepting h.node?_nextNodeId h.wellFormed
  have hothers (m : NodeId) (hm : m ≠ N.coordinator.nextNodeId) :
      N.coordinator.insertNode.trait Node.written m = N.coordinator.trait Node.written m := by
    rw [hentered, Function.update_of_ne hm]
  have hlinks (m : NodeId) : ((N.setLink N.coordinator.nextNodeId
      { session := NodeProgram.start protocolVersion config }).link? m).isSome ↔
        m = N.coordinator.nextNodeId ∨ (N.link? m).isSome := by
    by_cases hm : m = N.coordinator.nextNodeId
    · simp [hm]
    · rw [link?_setLink_ne N _ hm]
      simp [hm]
  refine ⟨(State.follows_step h.wellFormed hstep).wellFormed, ?_, ?_, ?_, fun m => ?_, fun m hnode => ?_,
    fun e he => (hlinks e.1).mpr (.inr (h.inbox e he)), fun m l hlink => ?_⟩
  · exact h.toldApart.concat hsocket.1 hsocket.2 h.nextNodeId
  · show N.coordinator.insertNode.nextNodeId = _
    rw [hstate.2, h.nextNodeId, List.length_append, List.length_singleton]
    exact (UInt32.ofNat_add (N.connections.length + 1) 1).symm
  · intro nodeSocket' hpending
    rw [show N.coordinator.insertNode.accepting = none from hstate.1] at hpending
    cases hpending
  · refine (hlinks m).trans ?_
    rw [h.linked m]
    simp only [List.mem_append, List.mem_singleton, or_and_right, exists_or, exists_eq_left]
    rw [or_comm, eq_comm (a := m)]
  · refine (hlinks m).mpr ?_
    by_cases hm : m = N.coordinator.nextNodeId
    · exact .inl hm
    · obtain ⟨node', hnode'⟩ := Option.isSome_iff_exists.mp hnode
      obtain ⟨node, hnode, -⟩ := State.exists_of_trait (hothers m hm) hnode'
      exact .inr (h.nodes m (by rw [hnode]; rfl))
  · by_cases hm : m = N.coordinator.nextNodeId
    · subst hm
      have hlink' := hlink.symm.trans (link?_setLink_self N _)
      cases hlink'
      have hnone : N.takenFrom N.coordinator.nextNodeId = [] := by
        unfold takenFrom
        rw [List.map_eq_nil_iff, List.filter_eq_nil_iff]
        intro e he heq
        have hlinked := h.inbox e he
        rw [of_decide_eq_true heq, hfree] at hlinked
        cases hlinked
      refine ⟨NodeProgram.Session.took_start protocolVersion config, fun node hnode => ?_, rfl, hnone⟩
      have htrait := congrFun hentered N.coordinator.nextNodeId
      rw [Function.update_self, State.trait_of_node? hnode] at htrait
      rw [Option.some.inj htrait]
      rfl
    · have hold := h.custody m l ((link?_setLink_ne N _ hm).symm.trans hlink)
      refine ⟨hold.took, fun node' hnode' => ?_, hold.said, hold.taken⟩
      obtain ⟨node, hnode, hsame⟩ := State.exists_of_trait (hothers m hm) hnode'
      rw [hsame]
      exact hold.written node hnode

theorem Sound.write (h : N.Sound) {node : Node} {msg : Message} {messageQueue : List Message}
    (hnode : N.coordinator.node? n = some node) (hqueue : node.messageQueue = msg :: messageQueue) :
    Sound { N.onLink n fun l => { l with down := l.down.put msg.delivered } with
      coordinator := N.coordinator.takeMessage n } := by
  obtain ⟨l, hlink⟩ := Option.isSome_iff_exists.mp (h.nodes n (by rw [hnode]; rfl))
  have hstep : N.coordinator.step (.write n) = .ok (N.coordinator.takeMessage n) := rfl
  have htaken := State.trait_takeMessage (f := Node.written) hnode
  have hold := h.custody n l hlink
  have hsome : (N.link? n).isSome := by rw [hlink]; rfl
  have hwritten : node.takeMessage.written = node.written ++ [msg] := by
    unfold Node.takeMessage
    rw [hqueue]
  have hothers (m : NodeId) (hm : m ≠ n) : (N.coordinator.takeMessage n).trait Node.written m =
      N.coordinator.trait Node.written m := by rw [htaken, Function.update_of_ne hm]
  rw [onLink_of_link? hlink]
  refine ⟨(State.follows_step h.wellFormed hstep).wellFormed, h.toldApart, h.nextNodeId, h.accepting,
    fun m => ?_, fun m hm => ?_, fun e he => ?_, fun m l₁ hl₁ => ?_⟩
  · exact (iff_of_eq (congrArg (· = true) (isSome_link?_setLink N _ hsome))).trans (h.linked m)
  · refine (isSome_link?_setLink N _ hsome).trans ?_
    by_cases heq : m = n
    · rw [heq]
      exact hsome
    · obtain ⟨node', hnode'⟩ := Option.isSome_iff_exists.mp hm
      obtain ⟨node, hnode, -⟩ := State.exists_of_trait (hothers m heq) hnode'
      exact h.nodes m (by rw [hnode]; rfl)
  · exact (isSome_link?_setLink N _ hsome).trans (h.inbox e he)
  · by_cases hm : m = n
    · subst hm
      have hl₁' := hl₁.symm.trans (link?_setLink_self N _)
      cases hl₁'
      refine ⟨hold.took, fun node' hnode' => ?_, hold.said, hold.taken⟩
      have htrait := congrFun htaken m
      rw [Function.update_self, State.trait_of_node? hnode', Option.some.injEq] at htrait
      rw [htrait, hwritten, List.map_append, ← hold.written node hnode]
      rfl
    · have hold' := h.custody m l₁ ((link?_setLink_ne N _ hm).symm.trans hl₁)
      refine ⟨hold'.took, fun node' hnode' => ?_, hold'.said, hold'.taken⟩
      obtain ⟨node, hnode, hsame⟩ := State.exists_of_trait (hothers m hm) hnode'
      rw [hsame]
      exact hold'.written node hnode

theorem Sound.read (h : N.Sound) {msg : Message} {rest : List Message} (hlink : N.link? n = some l)
    (hnext : l.up.inFlight = msg :: rest) :
    Sound { N.setLink n { l with up := l.up.next } with inbox := N.inbox.put (n, msg) } := by
  have hold := h.custody n l hlink
  have hsome : (N.link? n).isSome := by rw [hlink]; rfl
  have htaken (m : NodeId) : takenFrom { N with inbox := N.inbox.put (n, msg) } m =
      N.takenFrom m ++ if m = n then [msg] else [] := by
    show ((N.inbox.sent ++ [(n, msg)]).filter _).map Prod.snd = _
    rw [List.filter_append, List.map_append]
    congr 1
    by_cases hm : m = n <;> simp [hm, eq_comm]
  refine ⟨h.wellFormed, h.toldApart, h.nextNodeId, h.accepting, fun m => ?_, fun m hm => ?_,
    fun e he => ?_, fun m l₁ hl₁ => ?_⟩
  · exact (iff_of_eq (congrArg (· = true) (isSome_link?_setLink N _ hsome))).trans (h.linked m)
  · exact (isSome_link?_setLink N _ hsome).trans (h.nodes m hm)
  · refine (isSome_link?_setLink N _ hsome).trans ?_
    cases List.mem_append.mp he with
    | inl hin => exact h.inbox e hin
    | inr hnew =>
      rw [List.mem_singleton.mp hnew]
      exact hsome
  · by_cases hm : m = n
    · subst hm
      have hl₁' := hl₁.symm.trans (link?_setLink_self N _)
      cases hl₁'
      refine ⟨hold.took, hold.written, hold.said, ?_⟩
      show takenFrom { N with inbox := N.inbox.put (m, msg) } m = l.up.next.received
      rw [htaken, if_pos rfl, hold.taken, Channel.received_next hnext]
    · have hold' := h.custody m l₁ ((link?_setLink_ne N _ hm).symm.trans hl₁)
      refine ⟨hold'.took, hold'.written, hold'.said, ?_⟩
      show takenFrom { N with inbox := N.inbox.put (n, msg) } m = l₁.up.received
      rw [htaken, if_neg hm, List.append_nil]
      exact hold'.taken

/-- What a step does to a connection that it leaves there. -/
inductive LinkStepped (op : NetworkOp) (n : NodeId) (l : Link) : Link → Prop
  | stay : LinkStepped op n l l
  | write (msg : Message) (hop : op = .write n) : LinkStepped op n l { l with down := l.down.put msg }
  | deliver {msg : Message} {rest : List Message} (halive : l.dead = false)
    (hnext : l.down.inFlight = msg :: rest) :
    LinkStepped op n l { l with session := l.session.receive msg, down := l.down.next }
  | act {nodeOp : NodeProgram.Op} {session : NodeProgram.Session} (halive : l.dead = false)
    (hown : nodeOp.isOwn) (henabled : l.session.enabled nodeOp)
    (hok : l.session.step nodeOp = .ok session) : LinkStepped op n l { l with session }
  | crash {nodeOp : NodeProgram.Op} {e : Fault} (halive : l.dead = false) (hown : nodeOp.isOwn)
    (henabled : l.session.enabled nodeOp) (hfault : l.session.step nodeOp = .error e) :
    LinkStepped op n l { l with dead := true }
  | send {msg : Message} {rest : List Message} (halive : l.dead = false)
    (hqueue : l.session.node.sendMessageQueue = msg :: rest) :
    LinkStepped op n l { l with session := l.session.takeMessage, up := l.up.put msg.delivered }
  | read {msg : Message} {rest : List Message} (hnext : l.up.inFlight = msg :: rest) :
    LinkStepped op n l { l with up := l.up.next }

/-- A connection is new, or was there before. -/
theorem Stepped.link {op : NetworkOp} {l' : Link} (h : Stepped N op N') (hlink' : N'.link? n = some l') :
    (∃ protocolVersion config, n = N.coordinator.nextNodeId ∧
      op = .join protocolVersion config ∧ l' = { session := NodeProgram.start protocolVersion config }) ∨
      ∃ l, N.link? n = some l ∧ LinkStepped op n l l' := by
  -- the one connection that is stored anew
  have hstore {m : NodeId} {l l₁ : Link} (hlink : N.link? m = some l)
      (hl' : (N.setLink m l₁).link? n = some l') (hstep : n = m → LinkStepped op n l l₁) :
      ∃ l, N.link? n = some l ∧ LinkStepped op n l l' := by
    by_cases hm : n = m
    · subst hm
      rw [link?_setLink_self] at hl'
      cases hl'
      exact ⟨l, hlink, hstep rfl⟩
    · rw [link?_setLink_ne N l₁ hm] at hl'
      exact ⟨l', hl', .stay⟩
  cases h with
  | own | accept | handle => exact .inr ⟨l', hlink', .stay⟩
  | join haccepting =>
    by_cases hm : n = N.coordinator.nextNodeId
    · subst hm
      have heq := hlink'.symm.trans (link?_setLink_self N _)
      cases heq
      exact .inl ⟨_, _, rfl, rfl, rfl⟩
    · exact .inr ⟨l', (link?_setLink_ne N _ hm).symm.trans hlink', .stay⟩
  | @write m node msg =>
    right
    change (N.onLink m fun l => { l with down := l.down.put msg.delivered }).link? n = some l' at hlink'
    unfold onLink at hlink'
    cases hm : N.link? m with
    | none =>
      rw [hm] at hlink'
      exact ⟨l', hlink', .stay⟩
    | some l =>
      rw [hm] at hlink'
      exact hstore hm hlink' fun heq => .write _ (by rw [heq])
  | deliver hlink halive hnext => exact .inr (hstore hlink hlink' fun _ => .deliver halive hnext)
  | act hlink halive hown henabled hok =>
    exact .inr (hstore hlink hlink' fun _ => .act halive hown henabled hok)
  | crash hlink halive hown henabled hfault =>
    exact .inr (hstore hlink hlink' fun _ => .crash halive hown henabled hfault)
  | send hlink halive hqueue => exact .inr (hstore hlink hlink' fun _ => .send halive hqueue)
  | read hlink hnext => exact .inr (hstore hlink hlink' fun _ => .read hnext)

/-- A connection that there is stays. -/
theorem Stepped.isSome_link? {op : NetworkOp} (h : Stepped N op N') (hsome : (N.link? n).isSome) :
    (N'.link? n).isSome := by
  cases h with
  | own | accept | handle => exact hsome
  | join haccepting =>
    by_cases hm : n = N.coordinator.nextNodeId
    · subst hm
      show ((N.setLink _ _).link? N.coordinator.nextNodeId).isSome
      rw [link?_setLink_self]
      rfl
    · exact (congrArg Option.isSome (link?_setLink_ne N _ hm)).trans hsome
  | @write m node msg =>
    show ((N.onLink m _).link? n).isSome
    unfold onLink
    cases hm : N.link? m with
    | none => exact hsome
    | some l =>
      dsimp only
      rw [isSome_link?_setLink N _ (by rw [hm]; rfl)]
      exact hsome
  | deliver hlink | act hlink | crash hlink | send hlink | read hlink =>
    exact (isSome_link?_setLink N _ (by rw [hlink]; rfl)).trans hsome

theorem Sound.step (h : N.Sound) {op : NetworkOp} (hstep : Stepped N op N') : N'.Sound := by
  cases hstep with
  | own hown henabled hok =>
    exact h.of_coordinator hok (Op.keepsConnections_of_isOwn hown) rfl
  | accept henabled hnew => exact h.acceptConnection henabled.2 hnew
  | join haccepting => exact h.join haccepting
  | write hnode hqueue => exact h.write hnode hqueue
  | deliver hlink halive hnext =>
    have hold := h.custody _ _ hlink
    refine h.setLink hlink ⟨?_, hold.written, hold.said, hold.taken⟩
    show NodeProgram.Session.Took _ (Channel.next _).received
    rw [Channel.received_next hnext]
    exact hold.took.receive _
  | act hlink halive hown henabled hok =>
    have hold := h.custody _ _ hlink
    have hstepped := NodeProgram.Session.stepped henabled hok hown
    refine h.setLink hlink ⟨hold.took.stepped hstepped hown, hold.written, ?_, hold.taken⟩
    exact hold.said.trans (congrArg _ (hstepped.written hown).symm)
  | crash hlink =>
    have hold := h.custody _ _ hlink
    exact h.setLink hlink ⟨hold.took, hold.written, hold.said, hold.taken⟩
  | @send _ l msg rest hlink halive hqueue =>
    have hold := h.custody _ _ hlink
    refine h.setLink hlink ⟨hold.took.takeMessage, hold.written, ?_, hold.taken⟩
    show (l.up.put msg.delivered).sent = l.session.node.takeMessage.written.map Message.delivered
    unfold NodeProgram.State.takeMessage
    rw [hqueue, Channel.sent_put, hold.said, List.map_append]
    rfl
  | read hlink hnext => exact h.read hlink hnext
  | @handle now e rest op s hnext hsection hok =>
    exact h.of_coordinator hok (keepsConnections_handlerSection hsection) rfl

/-! ## Runs with few sub-tasks -/

theorem Stepped.subTasks_le {op : NetworkOp} (h : Stepped N op N') (hs : N.Sound) :
    N.coordinator.subTasks ≤ N'.coordinator.subTasks :=
  subTasks_le_of_run h.sections hs.wellFormed

theorem Stepped.regular {op : NetworkOp} (h : Stepped N op N') (hs : N.coordinator.Regular)
    (hfew : N'.coordinator.subTasks < 2 ^ 32) : N'.coordinator.Regular :=
  (regular_throughout h.sections hs hfew).2

/-- The number of sub-tasks at the end is enough for all states of the run. -/
theorem regular_along {P : Network → NetworkOp → Prop} {ops : List NetworkOp}
    (hrun : network.Run P N ops N') (hsound : N.Sound) (hs : N.coordinator.Regular)
    (hfew : N'.coordinator.subTasks < 2 ^ 32) :
    network.Run (fun N op => N.coordinator.Regular ∧ P N op) N ops N' ∧ N'.coordinator.Regular := by
  induction hrun with
  | nil => exact ⟨.nil _, hs⟩
  | @cons N N₁ N₂ op ops henabled hP hok hrest ih =>
    have hstep := stepped henabled hok
    have hsound₁ := hsound.step hstep
    have hle := hrest.invariant (I := fun M => M.Sound ∧
        N₁.coordinator.subTasks ≤ M.coordinator.subTasks)
      (fun _ _ _ h henabled _ hok => ⟨h.1.step (stepped henabled hok),
        h.2.trans ((stepped henabled hok).subTasks_le h.1)⟩) ⟨hsound₁, le_rfl⟩
    have htail := ih hsound₁ (hstep.regular hs (hle.2.trans_lt hfew)) hfew
    exact ⟨.cons henabled ⟨hs, hP⟩ hok htail.1, htail.2⟩

theorem sound_run {P : Network → NetworkOp → Prop} {config : CoordinatorConfig} {ops : List NetworkOp}
    (hrun : network.Run P { coordinator := initial config } ops N) : N.Sound :=
  hrun.invariant (fun _ _ _ h henabled _ hok => h.step (stepped henabled hok)) (sound_initial config)

end Network

end Bem
