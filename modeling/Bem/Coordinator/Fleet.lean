import Bem.Common.Bson
import Bem.Coordinator.Handshake
import Bem.Node.Execute

/-!
# The coordinator and its nodes

Each node says HELLO with the games of its own configuration, and what the coordinator sends out is
looked up in that configuration again.  The two lists meet over the id and the socket of a connection:
the coordinator never closes the socket of a node, so `accept` returns none of them a second time, and
there are too few of them for the ids to wrap.
-/

namespace Bem

/-! ## Looking a task up -/

theorem exists_gameCommand_of_offers {gamelist : GameList} {task : Task} (h : gamelist.offers task)
    (gamesDir gameLauncher : String) :
    ∃ command, gameCommand ⟨gamesDir, gameLauncher, gamelist⟩ task = .ok command := by
  unfold GameList.offers GameList.containsGame GameList.containsAgent at h
  unfold gameCommand GameList.getGameName GameList.getAgentRelativePath
  cases hgame : gamelist.games.lookup task.gameId with
  | none =>
    rw [hgame] at h
    cases h
  | some game =>
    rw [hgame] at h
    simp only [Option.isSome_some, Bool.true_and, Bool.and_eq_true, Option.isSome_iff_exists] at h
    obtain ⟨⟨agent1, hagent1⟩, agent2, hagent2⟩ := h
    simp only [hagent1, hagent2]
    exact ⟨_, rfl⟩

/-! ## Fleets -/

/-- A socket that `accept` has returned, the id under which the node was entered, and the games of the
node at the other end. -/
structure Connection where
  socket : Int
  nodeId : NodeId
  gamelist : GameList

/-- The coordinator, and all connections there have been. -/
structure Fleet where
  coordinator : State
  connections : List Connection := []

/-- `step` is a section that neither takes up a connection nor handles a HELLO. -/
inductive FleetOp
  | step (op : Op)
  | accept (nodeSocket : Int)
  | join (gamelist : GameList)
  | greet (connection : Connection) (msg : HelloMessage)

/-- What the coordinator does. -/
def FleetOp.op : FleetOp → Op
  | .step op => op
  | .accept nodeSocket => .accept nodeSocket
  | .join _ => .insert
  | .greet connection msg => .hello connection.nodeId msg

def Op.isHandshake : Op → Bool
  | .accept _ | .insert | .hello _ _ => true
  | _ => false

/-- The coordinator has decoded the HELLO from what the node has sent, and every HELLO the node sends
has the games of its configuration. -/
def Connection.Announces (lib : BsonLibrary) (c : Connection) (msg : HelloMessage) : Prop :=
  ∃ written received, (∀ m, .hello m ∈ written → m.gamelist = c.gamelist) ∧
    Carries lib written received ∧ .hello msg ∈ received

namespace Fleet

/-- A new node has read its games from a document, and its socket is none that is open. -/
def allows (lib : BsonLibrary) (F : Fleet) : FleetOp → Prop
  | .step op => ¬ op.isHandshake
  | .accept nodeSocket => ∀ c ∈ F.connections, c.socket ≠ nodeSocket
  | .join gamelist => ∃ document, GameList.fromJson {} document = .ok gamelist
  | .greet c msg => c ∈ F.connections ∧ c.Announces lib msg

def joined (F : Fleet) : FleetOp → List Connection
  | .join gamelist => F.coordinator.accepting.toList.map fun socket =>
    { socket, nodeId := F.coordinator.nextNodeId, gamelist }
  | _ => []

def step (F : Fleet) (op : FleetOp) : Except Fault Fleet := do
  let coordinator ← F.coordinator.step op.op
  return { coordinator, connections := F.connections ++ F.joined op }

end Fleet

def fleet (lib : BsonLibrary) : Machine Fleet FleetOp Fault where
  enabled F op := F.coordinator.enabled op.op ∧ F.allows lib op
  step := Fleet.step

/-- Every task that has come at the other end of a node's socket can be looked up there. -/
def Fleet.TasksFound (lib : BsonLibrary) (F : Fleet) : Prop :=
  ∀ n node c received m, F.coordinator.node? n = some node → c ∈ F.connections →
    c.socket = node.socket → Carries lib node.written received → .task m ∈ received →
      ∀ gamesDir gameLauncher, ∃ command,
        gameCommand ⟨gamesDir, gameLauncher, c.gamelist⟩ m.task = .ok command

/-! ## What the coordinator knows of a node -/

/-- The node is the one that was entered for the connection, and it is only sent tasks that it has. -/
structure Connection.Serves (c : Connection) (n : NodeId) (node : Node) : Prop where
  nodeId : c.nodeId = n
  socket : node.socket = c.socket
  gamelist : node.isRegistered → node.gamelist = c.gamelist
  tasks : ∀ m, .task m ∈ node.history → c.gamelist.offers m.task

namespace Connection.Serves

variable {c : Connection} {n : NodeId} {node node' : Node}

theorem of_profile (h : c.Serves n node) (hsocket : node'.profile.socket = node.profile.socket)
    (hgamelist : node'.profile.gamelist = node.profile.gamelist)
    (hregistered : node'.profile.flags.registered = node.profile.flags.registered)
    (htasks : ∀ m, .task m ∈ node'.history → c.gamelist.offers m.task) : c.Serves n node' where
  nodeId := h.nodeId
  socket := hsocket.trans h.socket
  gamelist := by
    intro hnode'
    exact hgamelist.trans (h.gamelist (hregistered.symm.trans hnode'))
  tasks := htasks

theorem assignTask (h : c.Serves n node) {heap : Heap Task} {r : Ref}
    (hoffers : c.gamelist.offers (heap.get r)) : c.Serves n (node.assignTask heap r) := by
  have hprofile := Node.profile_assignTask heap r node
  apply h.of_profile (by rw [hprofile]) (by rw [hprofile]) (by rw [hprofile])
  intro m hm
  unfold Node.assignTask at hm
  split at hm
  · exact h.tasks m hm
  · rw [Node.history_send, List.mem_append, List.mem_singleton] at hm
    cases hm with
    | inl hold => exact h.tasks m hold
    | inr hnew =>
      cases hnew
      exact hoffers

/-- A registered node is eligible only for what is on its own list. -/
theorem offers (h : c.Serves n node) {task : Task} (heligible : node.eligible task) :
    c.gamelist.offers task := by
  have hfit := Node.eligible_iff.mp heligible
  rw [← h.gamelist hfit.registered]
  exact hfit.offers

end Connection.Serves

/-- Every node serves a connection, and the nodes of a pending selection have its game and agents. -/
structure Informed (connections : List Connection) (s : State) : Prop where
  node : ∀ n node, s.node? n = some node → ∃ c ∈ connections, c.Serves n node
  selection : ∀ selection ∈ s.selection, ∀ n ∈ selection.nodeIds,
    ∃ c ∈ connections, c.nodeId = n ∧ c.gamelist.offers selection.task

namespace Informed

variable {connections : List Connection} {s s' : State} {op : Op}

/-- What is known of the nodes is known of them when one is stored anew. -/
theorem node_store (h : Informed connections s) {n : NodeId} {node node' : Node}
    (hnode : s.nodes.at? n = some node) (hserves : ∃ c ∈ connections, c.Serves n node') :
    ∀ m other, (s.nodes.store n node').at? m = some other → ∃ c ∈ connections, c.Serves m other := by
  intro m other hother
  rw [KeyedMap.at?_store_of_at? hnode] at hother
  rcases Ledger.update_eq_some.mp hother with ⟨rfl, rfl⟩ | ⟨-, hm⟩
  · exact hserves
  · exact h.node m other hm

theorem balanceTask {r : Ref} (h : Informed connections s) (hok : s.balanceTask r = .ok s') :
    Informed connections s' := by
  rcases State.balanceTask_cases hok with rfl | ⟨n, node, hnode, heligible, -, rfl⟩
  · exact h
  · obtain ⟨c, hc, hserves⟩ := h.node n node hnode
    refine ⟨h.node_store hnode ⟨c, hc, ?_⟩, h.selection⟩
    exact hserves.assignTask (hserves.offers heligible)

theorem balanceTasks (h : Informed connections s) (hok : s.balanceTasks = .ok s') :
    Informed connections s' := by
  obtain ⟨s₁, hloop, rfl⟩ := State.balanceTasks_eq_ok hok
  have hloop' : Informed connections s₁ :=
    Except.foldlM_rest (I := fun _ t => Informed connections t)
      (fun _ _ _ _ ht hstep => ht.balanceTask hstep) h hloop
  exact ⟨hloop'.node, hloop'.selection⟩

/-- The nodes of the selection are still the ones that were selected, because ids are not given twice. -/
theorem assignShare {task : Task} {share : NodeId × UInt32} (h : Informed connections s)
    (hdistinct : ∀ c ∈ connections, ∀ c' ∈ connections, c.nodeId = c'.nodeId → c = c')
    (hshare : ∃ c ∈ connections, c.nodeId = share.1 ∧ c.gamelist.offers task)
    (hok : State.assignShare task s share = .ok s') : Informed connections s' := by
  rcases State.assignShare_cases hok with ⟨-, rfl⟩ | ⟨-, node, tt, heap, hnode, htt, hheap, rfl⟩
  · exact h
  · obtain ⟨c, hc, hserves⟩ := h.node share.1 node hnode
    obtain ⟨c', hc', hid, hoffers⟩ := hshare
    have hsame : c' = c := hdistinct c' hc' c hc (hid.trans hserves.nodeId.symm)
    subst hsame
    refine ⟨h.node_store hnode ⟨c', hc', hserves.assignTask ?_⟩, h.selection⟩
    rw [hheap, Heap.get_alloc_self, htt]
    exact hoffers

theorem assignShares (h : Informed connections s)
    (hdistinct : ∀ c ∈ connections, ∀ c' ∈ connections, c.nodeId = c'.nodeId → c = c')
    (hok : s.assignShares = .ok s') : Informed connections s' := by
  rcases State.assignShares_cases hok with ⟨-, rfl⟩ | ⟨selection, hselection, hloop⟩
  · exact h
  · let task : Task := { selection.task with groupId := s.nextGroupId }
    let I (l : List (NodeId × UInt32)) (t : State) : Prop := Informed connections t ∧
      ∀ share ∈ l, ∃ c ∈ connections, c.nodeId = share.1 ∧ c.gamelist.offers task
    have hI : I [] s' := by
      apply Except.foldlM_rest (I := I) _ _ hloop
      · intro share l t t' ht hstep
        have hshares := List.forall_mem_cons.mp ht.2
        exact ⟨ht.1.assignShare hdistinct hshares.1 hstep, hshares.2⟩
      · refine ⟨⟨h.node, fun _ hnone => by cases hnone⟩, fun share hshare => ?_⟩
        exact h.selection selection hselection share.1 (List.of_mem_zip hshare).1
    exact hI.1

theorem selectNodes {args : TaskArgs} (h : Informed connections s)
    (hok : s.selectNodes args = .ok s') : Informed connections s' := by
  rcases State.selectNodes_cases hok with rfl | ⟨nodeIds, hnodeIds, -, rfl⟩
  · exact h
  · refine ⟨h.node, fun selection hselection n hn => ?_⟩
    cases hselection
    obtain ⟨node, hnode, heligible⟩ := State.eligible_of_getEligibleNodesForTask hnodeIds hn
    obtain ⟨c, hc, hserves⟩ := h.node n node hnode
    exact ⟨c, hc, hserves.nodeId, hserves.offers heligible⟩

/-- The lists that come with a HELLO are those of the nodes. -/
theorem handleHelloMessage {n : NodeId} {msg : HelloMessage} (h : Informed connections s)
    (hmsg : ∀ c ∈ connections, c.nodeId = n → msg.gamelist = c.gamelist)
    (hok : s.handleHelloMessage n msg = .ok s') : Informed connections s' := by
  rcases State.handleHelloMessage_cases hok with ⟨-, rfl⟩ | ⟨node, hnode, rfl⟩
  · exact h
  · obtain ⟨c, hc, hserves⟩ := h.node n node hnode
    refine ⟨h.node_store hnode ⟨c, hc, ?_⟩, h.selection⟩
    refine ⟨hserves.nodeId, hserves.socket, fun _ => hmsg c hc hserves.nodeId, fun m hm => ?_⟩
    rw [Node.history_send, List.mem_append, List.mem_singleton] at hm
    cases hm with
    | inl hold => exact hserves.tasks m hold
    | inr hreply => cases hreply

/-- A new node is not registered, and nothing was sent to it. -/
theorem insertNode (h : Informed connections s) {nodeSocket : Int} {gamelist : GameList}
    (haccepting : s.accepting = some nodeSocket) :
    Informed (connections ++ [{ socket := nodeSocket, nodeId := s.nextNodeId, gamelist }])
      s.insertNode := by
  unfold State.insertNode
  rw [haccepting]
  constructor
  · intro n node hnode
    change (s.nodes.emplace s.nextNodeId _).at? n = some node at hnode
    rw [KeyedMap.at?_emplace] at hnode
    split at hnode
    next hnew =>
      cases hnode
      refine ⟨_, List.mem_append_right _ (List.mem_singleton_self _), hnew.1.symm, rfl, ?_, ?_⟩
      · exact fun hregistered => by cases hregistered
      · exact fun m hm => absurd hm List.not_mem_nil
    next =>
      obtain ⟨c, hc, hserves⟩ := h.node n node hnode
      exact ⟨c, List.mem_append_left _ hc, hserves⟩
  · intro selection hselection n hn
    obtain ⟨c, hc, hoffers⟩ := h.selection selection hselection n hn
    exact ⟨c, List.mem_append_left _ hc, hoffers⟩

/-- Nothing that the other sections post is a task. -/
theorem not_posts_task {n : NodeId} {a : Act} {m : TaskMessage} (hassign : op ≠ .assign)
    (hbalance : op ≠ .balance) (hhello : ∀ n msg, op ≠ .hello n msg) (ha : s.mayDo op a) :
    ¬ a.Posts n (.task m) := by
  intro hposted
  cases a with
  | note n' message =>
    rw [hposted.2] at ha
    cases op with
    | maintain clock => cases ha
    | hello n'' msg => exact hhello n'' msg rfl
    | _ => exact ha
  | hand n' r =>
    cases op with
    | balance => exact hbalance rfl
    | _ => exact ha
  | create n' task =>
    cases op with
    | assign => exact hassign rfl
    | _ => exact ha
  | release n' =>
    obtain ⟨-, t, hcancelled⟩ := hposted
    cases hcancelled
  | withdraw t => cases hposted
  | _ => exact hposted

theorem step_quiet (h : Informed connections s) (hs : s.WellFormed) (hok : s.step op = .ok s')
    (hhandshake : ¬ op.isHandshake) (hselect : ∀ args, op ≠ .select args) (hassign : op ≠ .assign)
    (hbalance : op ≠ .balance) : Informed connections s' := by
  have hinsert : op ≠ .insert := fun heq => hhandshake (by rw [heq]; rfl)
  have hhello (m : NodeId) (msg : HelloMessage) : op ≠ .hello m msg :=
    fun heq => hhandshake (by rw [heq]; rfl)
  constructor
  -- a node that is there was there before, and is what it was but for its queue
  · intro n node' hnode'
    cases hnode : s.node? n with
    | none => cases (State.absent_step hs hok hinsert hnode).symm.trans hnode'
    | some node =>
      have herase : op ≠ .erase n := by
        intro heq
        subst heq
        cases (State.node?_eraseNode hok).symm.trans hnode'
      obtain ⟨c, hc, hserves⟩ := h.node n node hnode
      obtain ⟨node'', more, hnode'', hmore, hposts⟩ := State.history_step hs hok hnode herase
      cases hnode''.symm.trans hnode'
      have htasks (m : TaskMessage) (hm : .task m ∈ node'.history) : c.gamelist.offers m.task := by
        rw [hmore, List.mem_append] at hm
        cases hm with
        | inl hold => exact hserves.tasks m hold
        | inr hnew =>
          obtain ⟨a, ha, hposted⟩ := hposts _ hnew
          exact absurd hposted (not_posts_task hassign hbalance hhello ha)
      have hprofile' : s'.outline.profile n = some node'.profile := State.profile_of_at? hnode'
      refine ⟨c, hc, ?_⟩
      by_cases hmaintain : ∃ clock, op = .maintain clock
      · -- a tick changes nothing but whether the connection is taken for broken
        obtain ⟨clock, rfl⟩ := hmaintain
        obtain ⟨profile, houtline, -, hsome⟩ := State.outline_maintain hok
        obtain ⟨broken, -, hprofile⟩ := hsome n node hnode
        rw [houtline] at hprofile'
        have hsame := Option.some.inj (hprofile.symm.trans hprofile')
        exact hserves.of_profile (by rw [← hsame]) (by rw [← hsame]) (by rw [← hsame]; rfl) htasks
      · have hprofile := State.profile_step hok hnode herase (hhello n)
          fun clock heq => hmaintain ⟨clock, heq⟩
        have hsame := Option.some.inj (hprofile'.symm.trans hprofile)
        exact hserves.of_profile (by rw [hsame]) (by rw [hsame]) (by rw [hsame]) htasks
  · rw [selection_step hok hselect hassign]
    exact h.selection

/-- The sections that have no part in a handshake. -/
theorem step (h : Informed connections s) (hs : s.WellFormed)
    (hdistinct : ∀ c ∈ connections, ∀ c' ∈ connections, c.nodeId = c'.nodeId → c = c')
    (hhandshake : ¬ op.isHandshake) (hok : s.step op = .ok s') : Informed connections s' := by
  have hquiet := h.step_quiet hs hok hhandshake
  cases op with
  | select args => exact h.selectNodes hok
  | assign => exact h.assignShares hdistinct hok
  | balance => exact h.balanceTasks hok
  | accept nodeSocket => exact absurd rfl hhandshake
  | insert => exact absurd rfl hhandshake
  | hello n msg => exact absurd rfl hhandshake
  | _ => exact hquiet (fun _ heq => by cases heq) (fun heq => by cases heq) (fun heq => by cases heq)

end Informed

/-! ## Connections are told apart -/

/-- A socket has one connection, so there are no more of them than there are sockets, and the ids are
those from `1` on. -/
structure ToldApart (connections : List Connection) : Prop where
  sockets : (connections.map Connection.socket).Nodup
  range : ∀ c ∈ connections, 0 ≤ c.socket ∧ c.socket < 2 ^ 31
  ids : connections.map Connection.nodeId =
    (List.range connections.length).map fun k => UInt32.ofNat (k + 1)

namespace ToldApart

variable {connections : List Connection}

theorem length_le (h : ToldApart connections) : connections.length ≤ 2 ^ 31 := by
  rw [← List.length_map Connection.socket]
  apply length_le_of_sockets h.sockets
  intro nodeSocket hsocket
  obtain ⟨c, hc, rfl⟩ := List.mem_map.mp hsocket
  exact h.range c hc

theorem eq_of_socket (h : ToldApart connections) {c c' : Connection} (hc : c ∈ connections)
    (hc' : c' ∈ connections) (hsocket : c.socket = c'.socket) : c = c' :=
  List.inj_on_of_nodup_map h.sockets hc hc' hsocket

/-- No id is given twice. -/
theorem eq_of_nodeId (h : ToldApart connections) {c c' : Connection} (hc : c ∈ connections)
    (hc' : c' ∈ connections) (hid : c.nodeId = c'.nodeId) : c = c' := by
  have hlength := h.length_le
  -- the ids go up to `2 ^ 31` at most, so none of them has wrapped
  have hnodup : (connections.map Connection.nodeId).Nodup := by
    rw [h.ids]
    apply List.Nodup.map_on _ List.nodup_range
    intro k hk k' hk' heq
    rw [List.mem_range] at hk hk'
    have hvalue := congrArg UInt32.toNat heq
    rw [UInt32.toNat_ofNat_of_lt' (by show k + 1 < 2 ^ 32; omega),
      UInt32.toNat_ofNat_of_lt' (by show k' + 1 < 2 ^ 32; omega)] at hvalue
    omega
  exact List.inj_on_of_nodup_map hnodup hc hc' hid

theorem concat (h : ToldApart connections) {c : Connection} (hrange : 0 ≤ c.socket ∧ c.socket < 2 ^ 31)
    (hnew : ∀ c' ∈ connections, c'.socket ≠ c.socket)
    (hid : c.nodeId = UInt32.ofNat (connections.length + 1)) : ToldApart (connections ++ [c]) where
  sockets := by
    rw [List.map_append, List.map_singleton, List.nodup_append]
    refine ⟨h.sockets, List.nodup_singleton _, ?_⟩
    intro nodeSocket hmem nodeSocket' hmem'
    obtain ⟨c', hc', rfl⟩ := List.mem_map.mp hmem
    rw [List.mem_singleton.mp hmem']
    exact hnew c' hc'
  range := List.forall_mem_append.mpr ⟨h.range, List.forall_mem_singleton.mpr hrange⟩
  ids := by
    rw [List.map_append, h.ids, List.length_append, List.length_singleton, List.range_succ,
      List.map_append, List.map_singleton, List.map_singleton, hid]

end ToldApart

namespace Fleet

/-- What holds in all states of a run. -/
structure Sound (F : Fleet) : Prop where
  wellFormed : F.coordinator.WellFormed
  toldApart : ToldApart F.connections
  nextNodeId : F.coordinator.nextNodeId = UInt32.ofNat (F.connections.length + 1)
  accepting : ∀ nodeSocket ∈ F.coordinator.accepting, (0 ≤ nodeSocket ∧ nodeSocket < 2 ^ 31) ∧
    ∀ c ∈ F.connections, c.socket ≠ nodeSocket
  keyed : ∀ c ∈ F.connections, c.gamelist.KeyedById
  informed : Informed F.connections F.coordinator

theorem sound_initial (config : CoordinatorConfig) : Sound { coordinator := initial config } where
  wellFormed := wellFormed_initial config
  toldApart := ⟨List.nodup_nil, fun _ hc => absurd hc List.not_mem_nil, rfl⟩
  nextNodeId := rfl
  accepting _ h := by cases h
  keyed _ hc := absurd hc List.not_mem_nil
  informed := ⟨fun _ _ hnode => (by cases hnode), fun _ hselection => (by cases hselection)⟩

variable {lib : BsonLibrary} {F F' : Fleet}

theorem step_eq_ok {op : FleetOp} (h : F.step op = .ok F') :
    ∃ s, F.coordinator.step op.op = .ok s ∧
      F' = { coordinator := s, connections := F.connections ++ F.joined op } := by
  obtain ⟨s, hs, h⟩ := Except.bind_eq_ok.mp h
  exact ⟨s, hs, (Except.ok.inj h).symm⟩

/-- Where no node is entered, and none is about to be. -/
theorem Sound.of_informed (h : F.Sound) {s : State} {op : Op}
    (hok : F.coordinator.step op = .ok s) (haccept : ∀ nodeSocket, op ≠ .accept nodeSocket)
    (hinsert : op ≠ .insert) (hinformed : Informed F.connections s) :
    Sound { F with coordinator := s } := by
  obtain ⟨haccepting, hid⟩ := State.accepting_step hok haccept hinsert
  exact {
    wellFormed := (State.follows_step h.wellFormed hok).wellFormed
    toldApart := h.toldApart
    nextNodeId := hid.trans h.nextNodeId
    accepting := fun nodeSocket hsocket => h.accepting nodeSocket (haccepting ▸ hsocket)
    keyed := h.keyed
    informed := hinformed }

theorem Sound.acceptConnection (h : F.Sound) {nodeSocket : Int}
    (hfresh : F.coordinator.FreshSocket nodeSocket) (hnew : ∀ c ∈ F.connections, c.socket ≠ nodeSocket) :
    Sound { F with coordinator := F.coordinator.acceptConnection nodeSocket } := by
  have hstep : F.coordinator.step (.accept nodeSocket) =
      .ok (F.coordinator.acceptConnection nodeSocket) := rfl
  have hwellFormed := (State.follows_step h.wellFormed hstep).wellFormed
  unfold State.acceptConnection at hwellFormed ⊢
  split at hwellFormed
  next hexists =>
    rw [if_pos hexists]
    exact h
  next hexists =>
    rw [if_neg hexists]
    refine ⟨hwellFormed, h.toldApart, h.nextNodeId, fun nodeSocket' hsocket => ?_, h.keyed,
      h.informed.node, h.informed.selection⟩
    cases hsocket
    exact ⟨⟨hfresh.1, hfresh.2.1⟩, hnew⟩

theorem Sound.insertNode (h : F.Sound) {nodeSocket : Int} {gamelist : GameList}
    (haccepting : F.coordinator.accepting = some nodeSocket) (hkeyed : gamelist.KeyedById) :
    Sound {
      coordinator := F.coordinator.insertNode
      connections := F.connections ++
        [{ socket := nodeSocket, nodeId := F.coordinator.nextNodeId, gamelist }] } := by
  have hstep : F.coordinator.step .insert = .ok F.coordinator.insertNode := rfl
  have hwellFormed := (State.follows_step h.wellFormed hstep).wellFormed
  have hsocket := h.accepting nodeSocket haccepting
  have hstate : F.coordinator.insertNode.accepting = none ∧
      F.coordinator.insertNode.nextNodeId = F.coordinator.nextNodeId + 1 := by
    unfold State.insertNode
    rw [haccepting]
    exact ⟨rfl, rfl⟩
  refine ⟨hwellFormed, ?_, ?_, ?_, ?_, h.informed.insertNode haccepting⟩
  · exact h.toldApart.concat hsocket.1 hsocket.2 h.nextNodeId
  · rw [hstate.2, h.nextNodeId, List.length_append, List.length_singleton]
    exact (UInt32.ofNat_add (F.connections.length + 1) 1).symm
  · intro nodeSocket' hpending
    rw [hstate.1] at hpending
    cases hpending
  · exact List.forall_mem_append.mpr ⟨h.keyed, List.forall_mem_singleton.mpr hkeyed⟩

theorem Sound.handleHelloMessage (hlib : lib.Faithful) (h : F.Sound) {c : Connection}
    {msg : HelloMessage} {s : State} (hc : c ∈ F.connections) (hannounces : c.Announces lib msg)
    (hok : F.coordinator.handleHelloMessage c.nodeId msg = .ok s) :
    Sound { F with coordinator := s } := by
  obtain ⟨written, received, hwritten, hcarries, hmsg⟩ := hannounces
  obtain ⟨msg', hmsg', hgamelist⟩ := hcarries.hello hlib hmsg
  -- the trip through the document gives the list of the node back
  have hsame : msg.gamelist = c.gamelist := by
    rw [hgamelist, hwritten msg' hmsg']
    exact (GameList.rekeyed_eq_self_iff c.gamelist).mpr (h.keyed c hc)
  have hinformed : Informed F.connections s := by
    apply h.informed.handleHelloMessage _ hok
    intro c' hc' hid
    rw [h.toldApart.eq_of_nodeId hc' hc hid]
    exact hsame
  have hstep : F.coordinator.step (.hello c.nodeId msg) = .ok s := hok
  exact h.of_informed hstep (fun _ heq => by cases heq) (fun heq => by cases heq) hinformed

theorem Sound.step (hlib : lib.Faithful) (h : F.Sound) {op : FleetOp}
    (henabled : (fleet lib).enabled F op) (hok : (fleet lib).step F op = .ok F') : F'.Sound := by
  obtain ⟨s, hs, rfl⟩ := step_eq_ok hok
  -- only a node that joins adds a connection
  have hkept (hjoined : F.joined op = []) (hsound : Sound { F with coordinator := s }) :
      Sound { coordinator := s, connections := F.connections ++ F.joined op } := by
    rw [hjoined, List.append_nil]
    exact hsound
  cases op with
  | step op =>
    have hhandshake : ¬ op.isHandshake := henabled.2
    have hinformed : Informed F.connections s := h.informed.step h.wellFormed
      (fun c hc c' hc' => h.toldApart.eq_of_nodeId hc hc') hhandshake hs
    have haccept (nodeSocket : Int) : op ≠ .accept nodeSocket :=
      fun heq => hhandshake (by rw [heq]; rfl)
    have hinsert : op ≠ .insert := fun heq => hhandshake (by rw [heq]; rfl)
    exact hkept rfl (h.of_informed hs haccept hinsert hinformed)
  | accept nodeSocket =>
    cases hs
    exact hkept rfl (h.acceptConnection henabled.1.2 henabled.2)
  | join gamelist =>
    obtain ⟨nodeSocket, haccepting⟩ := Option.isSome_iff_exists.mp henabled.1
    obtain ⟨document, hdocument⟩ := henabled.2
    have hjoined : F.joined (.join gamelist) =
        [{ socket := nodeSocket, nodeId := F.coordinator.nextNodeId, gamelist }] := by
      show F.coordinator.accepting.toList.map _ = _
      rw [haccepting]
      rfl
    rw [hjoined]
    cases hs
    exact h.insertNode haccepting (GameList.keyedById_of_fromJson hdocument)
  | greet c msg => exact hkept rfl (h.handleHelloMessage hlib henabled.2.1 henabled.2.2 hs)

end Fleet

/-- The other sections leave the connections alone. -/
theorem run_quiet {lib : BsonLibrary} {s s' : State} {ops : List Op}
    (h : coordinator.FreeRun s ops s') (hquiet : ∀ op ∈ ops, ¬ op.isHandshake)
    (connections : List Connection) :
    (fleet lib).FreeRun ⟨s, connections⟩ (ops.map .step) ⟨s', connections⟩ := by
  induction h with
  | nil s => exact .nil _
  | @cons s s₁ s₂ op ops henabled _ hok _ ih =>
    rw [List.forall_mem_cons] at hquiet
    refine .cons ⟨henabled, hquiet.1⟩ trivial ?_ (ih hquiet.2)
    have hsame : (⟨s₁, connections ++ []⟩ : Fleet) = ⟨s₁, connections⟩ := by rw [List.append_nil]
    exact Except.bind_eq_ok.mpr ⟨s₁, hok, congrArg Except.ok hsame⟩

/-- In every run of the coordinator with nodes that announce the games of their own configurations, each
task that reaches a node can be looked up there. -/
theorem tasks_found {lib : BsonLibrary} (hlib : lib.Faithful) {config : CoordinatorConfig}
    {ops : List FleetOp} {F : Fleet}
    (hrun : (fleet lib).FreeRun { coordinator := initial config } ops F) : F.TasksFound lib := by
  have hsound : F.Sound := hrun.invariant (fun _ _ _ h henabled _ hok => h.step hlib henabled hok)
    (Fleet.sound_initial config)
  intro n node c received m hnode hc hsocket hcarries hm gamesDir gameLauncher
  obtain ⟨c', hc', hserves⟩ := hsound.informed.node n node hnode
  -- the connection that the node was entered for is the one with its socket
  have hsame : c = c' := hsound.toldApart.eq_of_socket hc hc' (hsocket.trans hserves.socket)
  subst hsame
  obtain ⟨m', hm', htask⟩ := hcarries.task hlib hm
  have hoffers := hserves.tasks m' (List.mem_append_left _ hm')
  apply exists_gameCommand_of_offers
  rw [htask]
  exact hoffers

/-! ## A node that plays one task -/

section Solo

open ByteBuffer

def soloConnection : Connection where
  socket := 5
  nodeId := 1
  gamelist := soloGames

def soloHello : HelloMessage := { protoVer := 1, gamelist := soloGames }

/-- The task is selected and assigned, and the writer takes the reply and the task to the socket. -/
def soloSections : List Op := tasking 1 ++ [.write 1, .write 1]

def soloOps : List FleetOp :=
  [.accept 5, .join soloGames, .greet soloConnection soloHello] ++ soloSections.map .step

def soloFleet : Fleet where
  coordinator := after soloConfig (joining 1 5 ++ soloSections)
  connections := [soloConnection]

/-- The sub-task as the node gets it. -/
def receivedTask : Task where
  id := 1
  gameId := 1
  agent1 := 1
  agent2 := 1
  boardSize := 8
  moveLimitMs := 20000
  games := 1

theorem serialize_soloHello : (Message.hello soloHello).serialize soloLibrary =
    .ok (reading [] (frameBytes .hello (1 :: 0 :: soloBson))) :=
  Message.serialize_hello (m := soloHello) rfl (by decide +kernel)

theorem soloConnection_announces : soloConnection.Announces soloLibrary soloHello := by
  have hsend : sendAll soloLibrary [.hello soloHello] = .ok [(.hello soloHello, _)] :=
    sendAll_cons_eq_ok.mpr ⟨_, _, serialize_soloHello, rfl, rfl⟩
  have hcarries := carries_of_sendAll soloLibrary_faithful (by decide) hsend (by decide +kernel)
  refine ⟨_, _, fun m hm => ?_, hcarries, ?_⟩
  · cases List.mem_singleton.mp hm
    rfl
  · exact List.mem_singleton_self _

/-- What the coordinator has written to the node, and what the node has received. -/
theorem carries_solo : Carries soloLibrary
    [acceptReply soloConfig, .task { task := { receivedTask with groupId := 1, status := .tsRunning } }]
    [acceptReply soloConfig, .task { task := receivedTask }] := by
  have hreply : (acceptReply soloConfig).serialize soloLibrary =
      .ok (reading [] (frameBytes .hello (1 :: HelloMessage.flagAccept :: emptyBson))) :=
    Message.serialize_hello (m := { protoVer := 1, flag := HelloMessage.flagAccept }) rfl (by decide)
  have hsend : sendAll soloLibrary [acceptReply soloConfig,
      .task { task := { receivedTask with groupId := 1, status := .tsRunning } }] =
        .ok [(acceptReply soloConfig, _), (.task _, _)] :=
    sendAll_cons_eq_ok.mpr ⟨_, _, hreply,
      sendAll_cons_eq_ok.mpr ⟨_, _, Message.serialize_task _, rfl, rfl⟩, rfl⟩
  exact carries_of_sendAll soloLibrary_faithful (by decide) hsend (by decide +kernel)

theorem run_solo :
    (fleet soloLibrary).FreeRun { coordinator := initial soloConfig } soloOps soloFleet := by
  have hsections : coordinator.FreeRun (after soloConfig (joining 1 5)) soloSections
      (after soloConfig (joining 1 5 ++ soloSections)) :=
    run_from (by decide +kernel) (by decide +kernel)
  have hrest := @run_quiet soloLibrary _ _ _ hsections (by decide) [soloConnection]
  have haccept : (initial soloConfig).enabled (.accept 5) := by decide
  have hjoin : (after soloConfig [.accept 5]).enabled .insert := by decide +kernel
  have hdocument : GameList.fromJson {} soloGames.toJson = .ok soloGames := by
    rw [GameList.fromJson_toJson]
    rfl
  exact .cons ⟨haccept, fun _ hc => absurd hc List.not_mem_nil⟩ trivial rfl
    (.cons ⟨hjoin, soloGames.toJson, hdocument⟩ trivial rfl
      (.cons ⟨trivial, List.mem_singleton_self _, soloConnection_announces⟩ trivial rfl hrest))

theorem tasks_found_solo :
    (fleet soloLibrary).FreeRun { coordinator := initial soloConfig } soloOps soloFleet ∧
      ∃ node received, soloFleet.coordinator.node? 1 = some node ∧
        Carries soloLibrary node.written received ∧ .task { task := receivedTask } ∈ received ∧
        ∀ gamesDir gameLauncher, ∃ command,
          gameCommand ⟨gamesDir, gameLauncher, soloGames⟩ receivedTask = .ok command := by
  have hnode : (soloFleet.coordinator.node? 1).map Node.written = some [acceptReply soloConfig,
      .task { task := { receivedTask with groupId := 1, status := .tsRunning } }] := by rfl
  obtain ⟨node, hnode, hwritten⟩ := Option.map_eq_some_iff.mp hnode
  have hcarries := carries_solo
  rw [← hwritten] at hcarries
  have hsocket : soloConnection.socket = node.socket := by
    have hsockets : (soloFleet.coordinator.node? 1).map Node.socket = some 5 := by rfl
    rw [hnode] at hsockets
    exact (Option.some.inj hsockets).symm
  have htask : Message.task { task := receivedTask } ∈
      [acceptReply soloConfig, .task { task := receivedTask }] :=
    List.mem_cons_of_mem _ (List.mem_singleton_self _)
  have hfound := tasks_found soloLibrary_faithful run_solo 1 node soloConnection _ _ hnode
    List.mem_cons_self hsocket hcarries htask
  exact ⟨run_solo, node, _, hnode, hcarries, htask, hfound⟩

end Solo

end Bem
