import Bem.Coordinator.Fleet
import Bem.Lib.Channel
import Bem.Node.Sessions

/-!
# The coordinator and the programs of its nodes

One machine for all of them.  Each connection has a channel in either direction, and the messages that
the readers of the coordinator have taken off wait in one queue for the handler.  A message stands in a
channel as it is decoded at the other end.

Here each `write` takes all of its message.  What is lost where one does not, and what becomes of a message
that cannot be serialized, is in `Bem.Network.Wired`.
-/

namespace Bem

/-- A connection: the program at its other end, the messages to it and the messages from it.  `dead`
is set when a fault has ended the program. -/
structure Link where
  session : NodeProgram.Session
  dead : Bool := false
  down : Channel Message := .empty
  up : Channel Message := .empty

/-- `inbox` is `recvMessageQueue` with all that was ever taken from it, and `links` has every connection
that there has been, by the id of its node. -/
structure Network where
  coordinator : State
  connections : List Connection := []
  links : NodeId → Option Link := fun _ => none
  inbox : Channel (NodeId × Message) := .empty

/-- `own` is a section of the coordinator that has to do neither with a message nor with a connection,
and `act` a step of a node's program that has to do with neither. -/
inductive NetworkOp
  | own (op : Op)
  | accept (nodeSocket : Int)
  | join (protocolVersion : UInt8) (config : NodeConfig)
  | write (nodeId : NodeId)
  | deliver (nodeId : NodeId)
  | act (nodeId : NodeId) (op : NodeProgram.Op)
  | send (nodeId : NodeId)
  | read (nodeId : NodeId)
  | handle (now : TimePoint)

def Op.isOwn : Op → Bool
  | .select _ | .assign | .cancel _ | .erase _ | .balance | .maintain _ | .rehash _ _ _ => true
  | _ => false

/-- The section neither takes up a connection nor writes to one. -/
def Op.keepsConnections : Op → Bool
  | .accept _ | .insert | .write _ => false
  | _ => true

theorem Op.keepsConnections_of_isOwn {op : Op} (h : op.isOwn) : op.keepsConnections := by
  cases op <;> first | rfl | cases h

namespace Link

/-- The program takes a step, or ends with a fault. -/
def run (op : NodeProgram.Op) (l : Link) : Link :=
  match l.session.step op with
  | .ok session => { l with session }
  | .error _ => { l with dead := true }

/-- `read_from_server_in_loop` has the next message. -/
def deliver (l : Link) : Link :=
  match l.down.inFlight with
  | [] => l
  | msg :: _ => { l.run (.deliver msg) with down := l.down.next }

/-- `write_to_server_in_loop` writes the next message, and the socket takes all of it. -/
def send (l : Link) : Link :=
  match l.session.node.sendMessageQueue with
  | [] => l
  | msg :: _ => { l.run .write with up := l.up.put msg.delivered }

end Link

namespace Network

def link? (N : Network) (nodeId : NodeId) : Option Link := N.links nodeId

def setLink (N : Network) (nodeId : NodeId) (l : Link) : Network :=
  { N with links := Function.update N.links nodeId (some l) }

def onLink (N : Network) (nodeId : NodeId) (f : Link → Link) : Network :=
  match N.link? nodeId with
  | none => N
  | some l => N.setLink nodeId (f l)

/-- A connection is entered.  At its other end a node has been started. -/
def join (N : Network) (protocolVersion : UInt8) (config : NodeConfig) : Network :=
  match N.coordinator.accepting with
  | none => N
  | some socket =>
    let nodeId := N.coordinator.nextNodeId
    { N.setLink nodeId { session := NodeProgram.start protocolVersion config } with
      coordinator := N.coordinator.insertNode
      connections := N.connections ++ [{ socket, nodeId, gamelist := config.gamelist }] }

/-- `writeNode` writes the next message of the node's queue. -/
def write (N : Network) (nodeId : NodeId) : Network :=
  match N.coordinator.node? nodeId with
  | none => N
  | some node =>
    match node.messageQueue with
    | [] => N
    | msg :: _ =>
      { N.onLink nodeId fun l => { l with down := l.down.put msg.delivered } with
        coordinator := N.coordinator.takeMessage nodeId }

/-- `readNode` puts the next message in the queue of the handler. -/
def read (N : Network) (nodeId : NodeId) : Network :=
  match N.link? nodeId with
  | none => N
  | some l =>
    match l.up.inFlight with
    | [] => N
    | msg :: _ =>
      { N.setLink nodeId { l with up := l.up.next } with inbox := N.inbox.put (nodeId, msg) }

/-- The section of the handler for a message, where it has one.  An `InvalidMessage` has another, which
balances. -/
def handlerSection (now : TimePoint) : NodeId × Message → Option Op
  | (_, .result msg) => some (.result msg)
  | (nodeId, .hello msg) => some (.hello nodeId msg)
  | (nodeId, .taskNotify msg) => some (.notify nodeId msg now)
  | (nodeId, .invalid) => some (.erase nodeId)
  | (_, .task _) => none

def own (N : Network) (op : Op) : Except Fault Network :=
  (N.coordinator.step op).map fun coordinator => { N with coordinator }

def handle (N : Network) (now : TimePoint) : Except Fault Network :=
  match N.inbox.inFlight with
  | [] => .ok N
  | e :: _ =>
    match handlerSection now e with
    | none => .error .assertFailed
    | some op => { N with inbox := N.inbox.next }.own op

/-- `accept` returns no socket that is open, and those of the nodes are never closed. -/
def enabled (N : Network) : NetworkOp → Prop
  | .own op => op.isOwn ∧ N.coordinator.enabled op
  | .accept nodeSocket =>
    N.coordinator.enabled (.accept nodeSocket) ∧ ∀ c ∈ N.connections, c.socket ≠ nodeSocket
  | .join _ _ => N.coordinator.enabled .insert
  | .write nodeId => ∃ node ∈ N.coordinator.node? nodeId, node.messageQueue ≠ []
  | .deliver nodeId => ∃ l ∈ N.link? nodeId, ¬ l.dead ∧ l.down.inFlight ≠ []
  | .act nodeId op => op.isOwn ∧ ∃ l ∈ N.link? nodeId, ¬ l.dead ∧ l.session.enabled op
  | .send nodeId => ∃ l ∈ N.link? nodeId, ¬ l.dead ∧ l.session.node.sendMessageQueue ≠ []
  | .read nodeId => ∃ l ∈ N.link? nodeId, l.up.inFlight ≠ []
  | .handle _ => N.inbox.inFlight ≠ []

def step (N : Network) : NetworkOp → Except Fault Network
  | .own op => N.own op
  | .accept nodeSocket => N.own (.accept nodeSocket)
  | .join protocolVersion config => .ok (N.join protocolVersion config)
  | .write nodeId => .ok (N.write nodeId)
  | .deliver nodeId => .ok (N.onLink nodeId Link.deliver)
  | .act nodeId op => .ok (N.onLink nodeId (Link.run op))
  | .send nodeId => .ok (N.onLink nodeId Link.send)
  | .read nodeId => .ok (N.read nodeId)
  | .handle now => N.handle now

end Network

def network : Machine Network NetworkOp Fault where
  enabled := Network.enabled
  step := Network.step

namespace Network

/-! ## What a step has done -/

/-- All that a step that does not fault can do. -/
inductive Stepped (N : Network) : NetworkOp → Network → Prop
  | own {op : Op} {s : State} (hown : op.isOwn) (henabled : N.coordinator.enabled op)
    (hok : N.coordinator.step op = .ok s) : Stepped N (.own op) { N with coordinator := s }
  | accept {nodeSocket : Int} (henabled : N.coordinator.enabled (.accept nodeSocket))
    (hnew : ∀ c ∈ N.connections, c.socket ≠ nodeSocket) : Stepped N (.accept nodeSocket)
      { N with coordinator := N.coordinator.acceptConnection nodeSocket }
  | join {protocolVersion : UInt8} {config : NodeConfig} {socket : Int}
    (haccepting : N.coordinator.accepting = some socket) : Stepped N (.join protocolVersion config)
      { N.setLink N.coordinator.nextNodeId
          { session := NodeProgram.start protocolVersion config } with
        coordinator := N.coordinator.insertNode
        connections := N.connections ++
          [{ socket, nodeId := N.coordinator.nextNodeId, gamelist := config.gamelist }] }
  | write {n : NodeId} {node : Node} {msg : Message} {messageQueue : List Message}
    (hnode : N.coordinator.node? n = some node) (hqueue : node.messageQueue = msg :: messageQueue) :
    Stepped N (.write n) { N.onLink n fun l => { l with down := l.down.put msg.delivered } with
      coordinator := N.coordinator.takeMessage n }
  | deliver {n : NodeId} {l : Link} {msg : Message} {rest : List Message}
    (hlink : N.link? n = some l) (halive : l.dead = false) (hnext : l.down.inFlight = msg :: rest) :
    Stepped N (.deliver n)
      (N.setLink n { l with session := l.session.receive msg, down := l.down.next })
  | act {n : NodeId} {op : NodeProgram.Op} {l : Link} {session : NodeProgram.Session}
    (hlink : N.link? n = some l) (halive : l.dead = false) (hown : op.isOwn)
    (henabled : l.session.enabled op) (hok : l.session.step op = .ok session) :
    Stepped N (.act n op) (N.setLink n { l with session })
  | crash {n : NodeId} {op : NodeProgram.Op} {l : Link} {e : Fault}
    (hlink : N.link? n = some l) (halive : l.dead = false) (hown : op.isOwn)
    (henabled : l.session.enabled op) (hfault : l.session.step op = .error e) :
    Stepped N (.act n op) (N.setLink n { l with dead := true })
  | send {n : NodeId} {l : Link} {msg : Message} {rest : List Message}
    (hlink : N.link? n = some l) (halive : l.dead = false)
    (hqueue : l.session.node.sendMessageQueue = msg :: rest) : Stepped N (.send n)
      (N.setLink n { l with session := l.session.takeMessage, up := l.up.put msg.delivered })
  | read {n : NodeId} {l : Link} {msg : Message} {rest : List Message}
    (hlink : N.link? n = some l) (hnext : l.up.inFlight = msg :: rest) : Stepped N (.read n)
      { N.setLink n { l with up := l.up.next } with inbox := N.inbox.put (n, msg) }
  | handle {now : TimePoint} {e : NodeId × Message} {rest : List (NodeId × Message)} {op : Op}
    {s : State} (hnext : N.inbox.inFlight = e :: rest) (hsection : handlerSection now e = some op)
    (hok : N.coordinator.step op = .ok s) : Stepped N (.handle now)
      { N with coordinator := s, inbox := N.inbox.next }

variable {N N' : Network}

theorem own_eq_ok {op : Op} (h : N.own op = .ok N') :
    ∃ s, N.coordinator.step op = .ok s ∧ N' = { N with coordinator := s } := by
  unfold own at h
  cases hs : N.coordinator.step op with
  | error e =>
    rw [hs] at h
    cases h
  | ok s =>
    rw [hs] at h
    exact ⟨s, rfl, (Except.ok.inj h).symm⟩

theorem onLink_of_link? {n : NodeId} {l : Link} (hlink : N.link? n = some l) (f : Link → Link) :
    N.onLink n f = N.setLink n (f l) := by
  unfold onLink
  rw [hlink]

theorem stepped {op : NetworkOp} (henabled : N.enabled op) (h : N.step op = .ok N') :
    Stepped N op N' := by
  cases op with
  | own op =>
    obtain ⟨s, hok, rfl⟩ := own_eq_ok h
    exact .own henabled.1 henabled.2 hok
  | accept nodeSocket =>
    cases h
    exact .accept henabled.1 henabled.2
  | join protocolVersion config =>
    cases h
    obtain ⟨socket, haccepting⟩ := Option.isSome_iff_exists.mp henabled
    unfold join
    rw [haccepting]
    exact .join haccepting
  | write n =>
    cases h
    obtain ⟨node, hnode, hqueue⟩ := henabled
    obtain ⟨msg, messageQueue, hqueue⟩ := List.exists_cons_of_ne_nil hqueue
    unfold write
    rw [show N.coordinator.node? n = some node from hnode]
    dsimp only
    rw [hqueue]
    exact .write hnode hqueue
  | deliver n =>
    cases h
    obtain ⟨l, hlink, halive, hnext⟩ := henabled
    obtain ⟨msg, rest, hnext⟩ := List.exists_cons_of_ne_nil hnext
    rw [onLink_of_link? hlink]
    unfold Link.deliver Link.run
    rw [hnext]
    exact .deliver hlink (by simpa using halive) hnext
  | act n op =>
    cases h
    obtain ⟨hown, l, hlink, halive, henabled⟩ := henabled
    rw [onLink_of_link? hlink]
    unfold Link.run
    cases hok : l.session.step op with
    | ok session => exact .act hlink (by simpa using halive) hown henabled hok
    | error e => exact .crash hlink (by simpa using halive) hown henabled hok
  | send n =>
    cases h
    obtain ⟨l, hlink, halive, hqueue⟩ := henabled
    obtain ⟨msg, rest, hqueue⟩ := List.exists_cons_of_ne_nil hqueue
    rw [onLink_of_link? hlink]
    unfold Link.send Link.run
    rw [hqueue]
    exact .send hlink (by simpa using halive) hqueue
  | read n =>
    cases h
    obtain ⟨l, hlink, hnext⟩ := henabled
    obtain ⟨msg, rest, hnext⟩ := List.exists_cons_of_ne_nil hnext
    unfold read
    rw [show N.link? n = some l from hlink]
    dsimp only
    rw [hnext]
    exact .read hlink hnext
  | handle now =>
    obtain ⟨e, rest, hnext⟩ := List.exists_cons_of_ne_nil henabled
    change N.handle now = .ok N' at h
    unfold handle at h
    rw [hnext] at h
    dsimp only at h
    cases hsection : handlerSection now e with
    | none =>
      rw [hsection] at h
      cases h
    | some op =>
      rw [hsection] at h
      obtain ⟨s, hok, rfl⟩ := own_eq_ok h
      exact .handle hnext hsection hok

/-! ## The sections of the coordinator -/

/-- The sections of the coordinator in a step. -/
def sections (N : Network) : NetworkOp → List Op
  | .own op => [op]
  | .accept nodeSocket => [.accept nodeSocket]
  | .join _ _ => [.insert]
  | .write n => [.write n]
  | .handle now => N.inbox.inFlight.head?.toList.flatMap fun e => (handlerSection now e).toList
  | _ => []

/-- The handler needs nothing of the state to start. -/
theorem enabled_handlerSection {s : State} {now : TimePoint} {e : NodeId × Message} {op : Op}
    (h : handlerSection now e = some op) : s.enabled op := by
  obtain ⟨n, msg⟩ := e
  cases msg with
  | task msg => cases h
  | _ =>
    cases h
    trivial

theorem keepsConnections_handlerSection {now : TimePoint} {e : NodeId × Message} {op : Op}
    (h : handlerSection now e = some op) : op.keepsConnections := by
  obtain ⟨n, msg⟩ := e
  cases msg with
  | task msg => cases h
  | _ =>
    cases h
    rfl

theorem sections_handle {now : TimePoint} {e : NodeId × Message} {rest : List (NodeId × Message)}
    {op : Op} (hnext : N.inbox.inFlight = e :: rest) (hsection : handlerSection now e = some op) :
    N.sections (.handle now) = [op] := by
  show N.inbox.inFlight.head?.toList.flatMap (fun e => (handlerSection now e).toList) = [op]
  simp [hnext, hsection]

theorem Stepped.sections {op : NetworkOp} (h : Stepped N op N') :
    Bem.coordinator.FreeRun N.coordinator (N.sections op) N'.coordinator := by
  cases h with
  | own hown henabled hok => exact run_step henabled hok
  | accept henabled hnew => exact run_step henabled rfl
  | join haccepting =>
    have henabled : Bem.coordinator.enabled N.coordinator .insert :=
      Option.isSome_iff_exists.mpr ⟨_, haccepting⟩
    exact run_step henabled rfl
  | @write n _ _ _ hnode hqueue =>
    exact run_step (show Bem.coordinator.enabled N.coordinator (.write n) from trivial) rfl
  | handle hnext hsection hok =>
    rw [sections_handle hnext hsection]
    exact run_step (enabled_handlerSection hsection) hok
  | deliver hlink => exact .nil _
  | act hlink => exact .nil _
  | crash hlink => exact .nil _
  | send hlink => exact .nil _
  | read hlink => exact .nil _

/-- What the coordinator does in a run of the network is a run of the coordinator. -/
theorem run_coordinator {P : Network → NetworkOp → Prop} {ops : List NetworkOp}
    (hrun : network.Run P N ops N') :
    Bem.coordinator.FreeRun N.coordinator (network.outputs sections N ops) N'.coordinator := by
  have h := hrun.outputs_invariant (I := fun M log => Bem.coordinator.FreeRun N.coordinator log M.coordinator)
    sections
    (fun M op M' log hM henabled _ hok => hM.append (stepped henabled hok).sections) (.nil _)
  exact h

/-! ## Runs that can be evaluated -/

instance decidableLinked (N : Network) (n : NodeId) (p : Link → Prop) [DecidablePred p] :
    Decidable (∃ l ∈ N.link? n, p l) :=
  match N.link? n with
  | none => .isFalse (by simp)
  | some l => decidable_of_iff (p l) (by simp)

instance decidableQueued (N : Network) (n : NodeId) :
    Decidable (∃ node ∈ N.coordinator.node? n, node.messageQueue ≠ []) :=
  match N.coordinator.node? n with
  | none => .isFalse (by simp)
  | some node => decidable_of_iff (node.messageQueue ≠ []) (by simp)

instance (N : Network) (op : NetworkOp) : Decidable (network.enabled N op) :=
  match op with
  | .own op => inferInstanceAs (Decidable (op.isOwn = true ∧ N.coordinator.enabled op))
  | .accept nodeSocket => inferInstanceAs (Decidable (N.coordinator.enabled (.accept nodeSocket) ∧
      ∀ c ∈ N.connections, c.socket ≠ nodeSocket))
  | .join _ _ => inferInstanceAs (Decidable (N.coordinator.enabled .insert))
  | .write n => decidableQueued N n
  | .deliver n => decidableLinked N n fun l => ¬ l.dead = true ∧ l.down.inFlight ≠ []
  | .act n op => inferInstanceAs (Decidable (op.isOwn = true ∧
      ∃ l ∈ N.link? n, ¬ l.dead = true ∧ l.session.enabled op = true))
  | .send n => decidableLinked N n fun l => ¬ l.dead = true ∧ l.session.node.sendMessageQueue ≠ []
  | .read n => decidableLinked N n fun l => l.up.inFlight ≠ []
  | .handle _ => inferInstanceAs (Decidable (N.inbox.inFlight ≠ []))

def after (config : CoordinatorConfig) (ops : List NetworkOp) : Network :=
  network.after { coordinator := initial config } ops

theorem run_after {P : Network → NetworkOp → Prop} [∀ N op, Decidable (P N op)]
    {config : CoordinatorConfig} {ops : List NetworkOp}
    (h : (network.exec P { coordinator := initial config } ops).isSome) :
    network.Run P { coordinator := initial config } ops (after config ops) := Machine.run_after h

/-- A node connects, says HELLO and is accepted. -/
def greeting : List NetworkOp :=
  [.accept 5, .join 1 NodeProgram.soloNode, .act 1 .instruct, .send 1, .read 1, .handle 1, .write 1,
    .deliver 1, .act 1 .instruct]

/-- `task 1 1 1 8 20000 1`, up to where the node has it. -/
def commanding : List NetworkOp := (tasking 1).map .own ++ [.write 1, .deliver 1]

/-- The node plays its game, and the coordinator gets the result. -/
def answering : List NetworkOp :=
  (([.instruct, .instruct, .instruct] : List NodeProgram.Op) ++ NodeProgram.starting ++
    NodeProgram.playing ++ NodeProgram.reporting).map (.act 1) ++ [.send 1, .read 1, .handle 2]

end Network

end Bem
