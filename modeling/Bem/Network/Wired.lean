import Bem.Common.Wires
import Bem.Lib.Simulation
import Bem.Network.Acquaintance
import Bem.Node.Communication

/-!
# The network on the wire

The same programs, with bytes on the connections: what one side writes are the serializations of its
messages, and what the other side reads are any pieces of them.  A node calls `write` once for a message,
and what the socket does not take then is lost; as long as it takes all, the messages go as they do in the
network of messages.
-/

namespace Bem

structure WiredLink where
  session : NodeProgram.Session
  dead : Bool := false
  down : Wire := {}
  up : Wire := {}

structure WiredNetwork where
  coordinator : State
  connections : List Connection := []
  links : NodeId → Option WiredLink := fun _ => none
  inbox : Channel (NodeId × Message) := .empty

/-- The steps of the network, with `write` and `send` for all bytes of a message and `deliver` and `read`
for a message that is ready; a `write` of a node that takes less than its message, or fails; and the
reading of bytes at either end. -/
inductive WiredOp
  | net (op : NetworkOp)
  | cut (nodeId : NodeId) (ret : Int)
  | fillNode (nodeId : NodeId) (len : Nat)
  | fillCoordinator (nodeId : NodeId) (len : Nat)

/-- The steps of the network that a step can stand for. -/
def WiredOp.shown : WiredOp → List NetworkOp
  | net op => [op]
  | _ => []

/-- Where a node calls `write`, all of its message is taken. -/
def WiredOp.writesWhole : WiredOp → Bool
  | cut _ _ => false
  | _ => true

namespace WiredLink

variable (lib : BsonLibrary)

def run (op : NodeProgram.Op) (l : WiredLink) : WiredLink :=
  match l.session.step op with
  | .ok session => { l with session }
  | .error _ => { l with dead := true }

def deliver (l : WiredLink) : WiredLink :=
  match l.down.ready with
  | [] => l
  | msg :: _ => { l.run (.deliver msg) with down := l.down.next }

/-- `write` takes all of the message.  An exception in any of its threads ends the program. -/
def send (l : WiredLink) : WiredLink :=
  match l.session.node.sendMessageQueue with
  | [] => l
  | msg :: _ =>
    match l.up.put lib msg with
    | .ok up => { l.run .write with up }
    | .error _ => { l with dead := true }

/-- The next message cannot be serialized. -/
def failsToSend (l : WiredLink) : Prop :=
  ∃ msg ∈ l.session.node.sendMessageQueue.head?, ∀ up, l.up.put lib msg ≠ .ok up

/-- What `write` can return besides the size of the message. -/
def canCut (ret : Int) (l : WiredLink) : Prop :=
  match l.session.node.sendMessageQueue with
  | [] => False
  | msg :: _ => -1 ≤ ret ∧ ret < (msg.serialized lib).length

instance (ret : Int) (l : WiredLink) : Decidable (l.canCut lib ret) := by
  unfold canCut
  split <;> infer_instance

theorem ne_nil_of_canCut {lib : BsonLibrary} {l : WiredLink} {ret : Int} (h : l.canCut lib ret) :
    l.session.node.sendMessageQueue ≠ [] := by
  intro hnone
  unfold canCut at h
  rw [hnone] at h
  exact h

/-- `write` takes `ret` bytes, and the others are lost; or it fails, and the thread ends the program. -/
def cut (ret : Int) (l : WiredLink) : WiredLink :=
  match l.session.node.sendMessageQueue with
  | [] => l
  | msg :: _ =>
    match msg.serialize lib with
    | .error _ => { l with dead := true }
    | .ok mbuf =>
      if ret ≤ 0 then (l.run .write).run .quit
      else
        match mbuf.writeOut ret with
        | .ok bytes _ => { l.run .write with up := { l.up with underWay := l.up.underWay ++ bytes } }
        | .error _ _ => { l with dead := true }

def fill (len : Nat) (l : WiredLink) : WiredLink :=
  match l.down.fill lib len with
  | .ok down => { l with down }
  | .error _ => { l with dead := true }

end WiredLink

namespace WiredNetwork

variable (lib : BsonLibrary)

def link? (W : WiredNetwork) (nodeId : NodeId) : Option WiredLink := W.links nodeId

def setLink (W : WiredNetwork) (nodeId : NodeId) (l : WiredLink) : WiredNetwork :=
  { W with links := Function.update W.links nodeId (some l) }

def onLink (W : WiredNetwork) (nodeId : NodeId) (f : WiredLink → WiredLink) : WiredNetwork :=
  match W.link? nodeId with
  | none => W
  | some l => W.setLink nodeId (f l)

def join (W : WiredNetwork) (protocolVersion : UInt8) (config : NodeConfig) : WiredNetwork :=
  match W.coordinator.accepting with
  | none => W
  | some socket =>
    let nodeId := W.coordinator.nextNodeId
    { W.setLink nodeId { session := NodeProgram.start protocolVersion config } with
      coordinator := W.coordinator.insertNode
      connections := W.connections ++ [{ socket, nodeId, gamelist := config.gamelist }] }

/-- `writeNode` calls `write` until all of the message is taken. -/
def write (W : WiredNetwork) (nodeId : NodeId) : Except Fault WiredNetwork :=
  match W.coordinator.node? nodeId, W.link? nodeId with
  | some node, some l =>
    match node.messageQueue with
    | [] => .ok W
    | msg :: _ => do
      let down ← l.down.put lib msg
      return { W.setLink nodeId { l with down } with
        coordinator := W.coordinator.takeMessage nodeId }
  | _, _ => .ok W

def read (W : WiredNetwork) (nodeId : NodeId) : WiredNetwork :=
  match W.link? nodeId with
  | none => W
  | some l =>
    match l.up.ready with
    | [] => W
    | msg :: _ => { W.setLink nodeId { l with up := l.up.next } with inbox := W.inbox.put (nodeId, msg) }

def own (W : WiredNetwork) (op : Op) : Except Fault WiredNetwork :=
  (W.coordinator.step op).map fun coordinator => { W with coordinator }

def handle (W : WiredNetwork) (now : TimePoint) : Except Fault WiredNetwork :=
  match W.inbox.inFlight with
  | [] => .ok W
  | e :: _ =>
    match Network.handlerSection now e with
    | none => .error .assertFailed
    | some op => { W with inbox := W.inbox.next }.own op

/-- An exception in a reader of the coordinator ends it. -/
def fillCoordinator (W : WiredNetwork) (nodeId : NodeId) (len : Nat) : Except Fault WiredNetwork :=
  match W.link? nodeId with
  | none => .ok W
  | some l => do
    let up ← l.up.fill lib len
    return W.setLink nodeId { l with up }

def enabled (W : WiredNetwork) : WiredOp → Prop
  | .net (.own op) => op.isOwn ∧ W.coordinator.enabled op
  | .net (.accept nodeSocket) =>
    W.coordinator.enabled (.accept nodeSocket) ∧ ∀ c ∈ W.connections, c.socket ≠ nodeSocket
  | .net (.join _ _) => W.coordinator.enabled .insert
  | .net (.write nodeId) => ∃ node ∈ W.coordinator.node? nodeId, node.messageQueue ≠ []
  | .net (.deliver nodeId) => ∃ l ∈ W.link? nodeId, ¬ l.dead ∧ l.down.ready ≠ []
  | .net (.act nodeId op) => op.isOwn ∧ ∃ l ∈ W.link? nodeId, ¬ l.dead ∧ l.session.enabled op
  | .net (.send nodeId) => ∃ l ∈ W.link? nodeId, ¬ l.dead ∧ l.session.node.sendMessageQueue ≠ []
  | .net (.read nodeId) => ∃ l ∈ W.link? nodeId, l.up.ready ≠ []
  | .net (.handle _) => W.inbox.inFlight ≠ []
  | .cut nodeId ret => ∃ l ∈ W.link? nodeId, ¬ l.dead ∧ l.canCut lib ret
  | .fillNode nodeId len => ∃ l ∈ W.link? nodeId, ¬ l.dead ∧ l.down.canFill len
  | .fillCoordinator nodeId len => ∃ l ∈ W.link? nodeId, l.up.canFill len

def step (W : WiredNetwork) : WiredOp → Except Fault WiredNetwork
  | .net (.own op) => W.own op
  | .net (.accept nodeSocket) => W.own (.accept nodeSocket)
  | .net (.join protocolVersion config) => .ok (W.join protocolVersion config)
  | .net (.write nodeId) => W.write lib nodeId
  | .net (.deliver nodeId) => .ok (W.onLink nodeId WiredLink.deliver)
  | .net (.act nodeId op) => .ok (W.onLink nodeId (WiredLink.run op))
  | .net (.send nodeId) => .ok (W.onLink nodeId (WiredLink.send lib))
  | .net (.read nodeId) => .ok (W.read nodeId)
  | .net (.handle now) => W.handle now
  | .cut nodeId ret => .ok (W.onLink nodeId (WiredLink.cut lib ret))
  | .fillNode nodeId len => .ok (W.onLink nodeId (WiredLink.fill lib len))
  | .fillCoordinator nodeId len => W.fillCoordinator lib nodeId len

end WiredNetwork

/-- The network of messages, but for what is under way on its connections. -/
def WiredNetwork.view (W : WiredNetwork) : Network where
  coordinator := W.coordinator
  connections := W.connections
  links n := (W.link? n).map fun l => { session := l.session, dead := l.dead }
  inbox := W.inbox

/-- A `write` of a node takes all of its message, and the step that can be seen meets the condition. -/
def WiredNetwork.meets (Q : Network → NetworkOp → Prop) (W : WiredNetwork) (op : WiredOp) : Prop :=
  op.writesWhole ∧ ∀ op' ∈ op.shown, Q W.view op'

instance (Q : Network → NetworkOp → Prop) [∀ N op, Decidable (Q N op)] (W : WiredNetwork) (op : WiredOp) :
    Decidable (W.meets Q op) :=
  inferInstanceAs (Decidable (op.writesWhole = true ∧ ∀ op' ∈ op.shown, Q W.view op'))

theorem WiredNetwork.meets.imp {P Q : Network → NetworkOp → Prop} {W : WiredNetwork} {op : WiredOp}
    (h : W.meets P op) (himp : ∀ op', P W.view op' → Q W.view op') : W.meets Q op :=
  ⟨h.1, fun op' hop' => himp op' (h.2 op' hop')⟩

/-- Any step that can be seen will do. -/
theorem WiredNetwork.meets_of_writesWhole {W : WiredNetwork} {op : WiredOp} (h : op.writesWhole) :
    W.meets (fun _ _ => True) op := ⟨h, fun _ _ => trivial⟩

def wired (lib : BsonLibrary) : Machine WiredNetwork WiredOp Fault where
  enabled := WiredNetwork.enabled lib
  step := WiredNetwork.step lib

/-! ## The writer thread of a program -/

namespace WiredLink

open NodeProgram

/-- The thread, asleep while the program does not quit. -/
def writer (l : WiredLink) : ServerWriter where
  sendMessageQueue := l.session.node.sendMessageQueue
  place := .waiting
  wire := l.up.underWay

variable {lib : BsonLibrary} {l : WiredLink} {msg : Message} {rest : List Message} {mbuf : ByteBuffer}
  {ret : Int}

theorem sendMessageQueue_run_write (l : WiredLink) :
    (l.run .write).session.node.sendMessageQueue = l.session.node.sendMessageQueue.tail := by
  show l.session.node.takeMessage.sendMessageQueue = _
  unfold NodeProgram.State.takeMessage
  cases hqueue : l.session.node.sendMessageQueue with
  | nil => exact hqueue
  | cons msg rest => rfl

/-- The thread takes the message and calls `write`. -/
theorem run_writer (hqueue : l.session.node.sendMessageQueue = msg :: rest)
    (hmbuf : msg.serialize lib = .ok mbuf) (hleast : -1 ≤ ret) (hmost : ret ≤ mbuf.internal.length)
    {w : ServerWriter} (hwrite : ServerWriter.advance lib ret
      { sendMessageQueue := rest, place := .writing mbuf, wire := l.up.underWay } = .ok w) :
    (writeToServerInLoop lib).FreeRun l.writer [.advance 0, .advance ret] w := by
  have hawake : l.writer.enabled (.advance 0) := by
    right
    show l.session.node.sendMessageQueue ≠ []
    rw [hqueue]
    exact List.cons_ne_nil msg rest
  have htakes : l.writer.advance lib 0 =
      .ok { sendMessageQueue := rest, place := .writing mbuf, wire := l.up.underWay } := by
    unfold ServerWriter.advance writer
    dsimp only
    rw [hqueue, if_neg Bool.false_ne_true]
    exact Except.bind_eq_ok.mpr ⟨mbuf, hmbuf, rfl⟩
  -- all of the message is offered
  have hlength : (msg.serialized lib).length ≤ 2 ^ 31 := msg.length_serialized_le
  have hoffers := ByteBuffer.remainingBytes_fresh hlength
  rw [← Message.serialize_eq_reading hmbuf, Message.serialized_of_serialize hmbuf] at hoffers
  have hcalls : ServerWriter.enabled
      { sendMessageQueue := rest, place := .writing mbuf, wire := l.up.underWay } (.advance ret) := by
    show -1 ≤ ret ∧ ret ≤ mbuf.remainingBytes
    rw [hoffers]
    exact ⟨hleast, hmost⟩
  exact .cons hawake trivial htakes (.cons hcalls trivial hwrite (.nil w))

/-- `write` takes some of the message, and the thread goes on to the next. -/
theorem advance_writing (hmbuf : msg.serialize lib = .ok mbuf) (hpos : 1 ≤ ret) (wire : List UInt8) :
    ServerWriter.advance lib ret { sendMessageQueue := rest, place := .writing mbuf, wire } =
      .ok { sendMessageQueue := rest, place := .looping, wire := wire ++ mbuf.internal.take ret.toNat } := by
  obtain ⟨b, hwrites⟩ := ByteBuffer.writeOut_fresh mbuf.internal ret
  rw [← Message.serialized_of_serialize hmbuf, ← Message.serialize_eq_reading hmbuf] at hwrites
  unfold ServerWriter.advance
  dsimp only
  rw [if_neg (by omega), if_neg (by omega), hwrites, Message.serialized_of_serialize hmbuf]

/-- `send` is what the thread does with a message that `write` takes in full. -/
theorem run_writer_send (hqueue : l.session.node.sendMessageQueue = msg :: rest)
    (hmbuf : msg.serialize lib = .ok mbuf) (hbytes : mbuf.internal ≠ []) :
    (writeToServerInLoop lib).FreeRun l.writer [.advance 0, .advance mbuf.internal.length]
      { (l.send lib).writer with place := .looping } := by
  have hpos : 0 < mbuf.internal.length := List.length_pos_iff.mpr hbytes
  refine run_writer hqueue hmbuf (by omega) le_rfl ?_
  rw [advance_writing hmbuf (by omega), Int.toNat_natCast, List.take_length]
  have hput : l.up.put lib msg = .ok { l.up with
      underWay := l.up.underWay ++ mbuf.internal, written := l.up.written ++ [msg] } :=
    Except.bind_eq_ok.mpr ⟨mbuf, hmbuf, rfl⟩
  unfold writer send
  rw [hqueue]
  dsimp only
  rw [hput]
  simp only [sendMessageQueue_run_write, hqueue, List.tail_cons]

/-- `cut` is what it does where `write` takes less, or fails. -/
theorem run_writer_cut (hqueue : l.session.node.sendMessageQueue = msg :: rest)
    (hmbuf : msg.serialize lib = .ok mbuf) (hcan : l.canCut lib ret) :
    (writeToServerInLoop lib).FreeRun l.writer [.advance 0, .advance ret]
      { (l.cut lib ret).writer with place := if ret ≤ 0 then .terminating else .looping } := by
  unfold canCut at hcan
  rw [hqueue] at hcan
  obtain ⟨hleast, hless⟩ := hcan
  rw [Message.serialized_of_serialize hmbuf] at hless
  refine run_writer hqueue hmbuf hleast hless.le ?_
  unfold writer cut
  rw [hqueue]
  dsimp only
  rw [hmbuf]
  dsimp only
  by_cases hfails : ret ≤ 0
  · rw [if_pos hfails, if_pos hfails]
    have hqueue' : ((l.run .write).run .quit).session.node.sendMessageQueue = rest := by
      show (l.run .write).session.node.sendMessageQueue = rest
      rw [sendMessageQueue_run_write, hqueue, List.tail_cons]
    unfold ServerWriter.advance
    dsimp only
    -- the socket fails, or is closed
    by_cases hfailed : ret = -1
    · rw [if_pos hfailed, hqueue']
      rfl
    · rw [if_neg hfailed, if_pos (by omega), hqueue']
      rfl
  · obtain ⟨b, hwrites⟩ := ByteBuffer.writeOut_fresh mbuf.internal ret
    rw [← Message.serialized_of_serialize hmbuf, ← Message.serialize_eq_reading hmbuf] at hwrites
    rw [if_neg hfails, if_neg hfails, hwrites, advance_writing hmbuf (by omega)]
    simp only [sendMessageQueue_run_write, hqueue, List.tail_cons, Message.serialized_of_serialize hmbuf]

end WiredLink

/-! ## What the messages do -/

/-- The program is the same, and the messages go as their bytes do.  A fault of a reader or a writer ends
the program on the wire only. -/
structure WiredLink.Follows (lib : BsonLibrary) (w : WiredLink) (l : Link) : Prop where
  session : w.session = l.session
  dead : l.dead = true → w.dead = true
  down : Wire.Conveys lib w.down l.down
  up : Wire.Conveys lib w.up l.up
  terse : ∀ m ∈ w.down.written, m.IsFixed ∨ ∃ config msg, m = State.helloReply config msg
  said : w.up.written = l.session.node.written

structure WiredNetwork.Follows (lib : BsonLibrary) (W : WiredNetwork) (N : Network) : Prop where
  coordinator : W.coordinator = N.coordinator
  connections : W.connections = N.connections
  inbox : W.inbox = N.inbox
  links : ∀ n, Option.Rel (WiredLink.Follows lib) (W.link? n) (N.link? n)

variable {lib : BsonLibrary}

namespace WiredLink

variable {w : WiredLink} {l : Link}

theorem Follows.alive (h : Follows lib w l) (halive : ¬ w.dead = true) : ¬ l.dead = true :=
  fun hdead => halive (h.dead hdead)

theorem Follows.run (h : Follows lib w l) (op : NodeProgram.Op)
    (hkeeps : ∀ session, l.session.step op = .ok session → session.node.written = l.session.node.written) :
    Follows lib (w.run op) (l.run op) := by
  unfold WiredLink.run Link.run
  rw [h.session]
  cases hstep : l.session.step op with
  | ok session => exact ⟨rfl, h.dead, h.down, h.up, h.terse, h.said.trans (hkeeps session hstep).symm⟩
  | error e => exact ⟨rfl, fun _ => rfl, h.down, h.up, h.terse, h.said⟩

theorem Follows.deliver (h : Follows lib w l) (hlib : lib.Faithful) (hready : w.down.ready ≠ []) :
    l.down.inFlight ≠ [] ∧ Follows lib w.deliver l.deliver := by
  obtain ⟨msg, rest, hready⟩ := List.exists_cons_of_ne_nil hready
  obtain ⟨⟨more, hmore⟩, hnext⟩ := h.down.next hlib hready
  have hrun := h.run (.deliver msg) fun session hok => by
    cases hok
    rfl
  unfold WiredLink.deliver Link.deliver
  rw [hready, hmore]
  exact ⟨by simp, hrun.session, hrun.dead, hnext, hrun.up, h.terse, hrun.said⟩

/-- An exception of its reader or its writer ends the program on the wire only. -/
theorem Follows.ended (h : Follows lib w l) : Follows lib { w with dead := true } l :=
  ⟨h.session, fun _ => rfl, h.down, h.up, h.terse, h.said⟩

theorem Follows.put (h : Follows lib w l) {msg : Message} {rest : List Message} {up : Wire}
    (hqueue : l.session.node.sendMessageQueue = msg :: rest) (hmsg : msg ≠ .invalid)
    (hput : w.up.put lib msg = .ok up) : Follows lib { w.run .write with up } l.send := by
  have htaken : l.session.node.takeMessage.written = l.session.node.written ++ [msg] := by
    unfold NodeProgram.State.takeMessage
    rw [hqueue]
  unfold Link.send
  rw [hqueue]
  refine ⟨?_, h.dead, h.down, h.up.put hmsg hput, h.terse, ?_⟩
  · show (WiredLink.run .write w).session = l.session.takeMessage
    unfold WiredLink.run
    rw [h.session]
    rfl
  · show up.written = l.session.node.takeMessage.written
    rw [htaken, Wire.written_put hput, h.said]

theorem Follows.send (h : Follows lib w l) (hvalid : ∀ m ∈ l.session.node.sendMessageQueue, m ≠ .invalid)
    (hqueue : w.session.node.sendMessageQueue ≠ []) :
    Follows lib (w.send lib) l.send ∨ (Follows lib (w.send lib) l ∧ w.failsToSend lib) := by
  obtain ⟨msg, rest, hqueue⟩ := List.exists_cons_of_ne_nil hqueue
  have hqueue' : l.session.node.sendMessageQueue = msg :: rest := h.session ▸ hqueue
  unfold WiredLink.send failsToSend
  rw [hqueue]
  dsimp only
  cases hput : w.up.put lib msg with
  | error e => exact .inr ⟨h.ended, msg, rfl, fun up hok => by cases hok.symm.trans hput⟩
  | ok up => exact .inl (h.put hqueue' (hvalid msg (by rw [hqueue']; exact List.mem_cons_self)) hput)

theorem Follows.filled (h : Follows lib w l) {len : Nat} {down : Wire} (hcan : w.down.canFill len)
    (hfill : w.down.fill lib len = .ok down) : Follows lib { w with down } l := by
  have hterse := h.terse
  rw [← Wire.written_fill hfill] at hterse
  exact ⟨h.session, h.dead, h.down.fill hcan hfill, h.up, hterse, h.said⟩

theorem Follows.fill (h : Follows lib w l) {len : Nat} (hcan : w.down.canFill len) :
    Follows lib (w.fill lib len) l := by
  unfold WiredLink.fill
  cases hfill : w.down.fill lib len with
  | ok down => exact h.filled hcan hfill
  | error e => exact h.ended

theorem Follows.filledUp (h : Follows lib w l) {len : Nat} {up : Wire} (hcan : w.up.canFill len)
    (hfill : w.up.fill lib len = .ok up) : Follows lib { w with up } l :=
  ⟨h.session, h.dead, h.down, h.up.fill hcan hfill, h.terse, (Wire.written_fill hfill).trans h.said⟩

end WiredLink

theorem Network.setLink_of_link? {N : Network} {n : NodeId} {l : Link} (hlink : N.link? n = some l) :
    N.setLink n l = N := by
  unfold setLink
  rw [show some l = N.links n from hlink.symm, Function.update_eq_self]

namespace WiredNetwork

variable {W W' : WiredNetwork} {N : Network} {n : NodeId}

theorem Follows.exists_link (h : Follows lib W N) {w : WiredLink} (hlink : W.link? n = some w) :
    ∃ l, N.link? n = some l ∧ WiredLink.Follows lib w l := by
  have hrel := h.links n
  rw [hlink] at hrel
  generalize N.link? n = link at hrel
  cases hrel with
  | some hfollows => exact ⟨_, rfl, hfollows⟩

theorem Follows.exists_wire (h : Follows lib W N) {l : Link} (hlink : N.link? n = some l) :
    ∃ w, W.link? n = some w ∧ WiredLink.Follows lib w l := by
  have hrel := h.links n
  rw [hlink] at hrel
  generalize W.link? n = link at hrel
  cases hrel with
  | some hfollows => exact ⟨_, rfl, hfollows⟩

theorem Follows.setLink (h : Follows lib W N) {w : WiredLink} {l : Link}
    (hfollows : WiredLink.Follows lib w l) : Follows lib (W.setLink n w) (N.setLink n l) where
  coordinator := h.coordinator
  connections := h.connections
  inbox := h.inbox
  links m := by
    show Option.Rel _ (Function.update W.links n (some w) m) (Function.update N.links n (some l) m)
    by_cases hm : m = n
    · subst hm
      rw [Function.update_self, Function.update_self]
      exact .some hfollows
    · rw [Function.update_of_ne hm, Function.update_of_ne hm]
      exact h.links m

/-- The message network does not see the step. -/
theorem Follows.setLink_of_link? (h : Follows lib W N) {w : WiredLink} {l : Link}
    (hlink : N.link? n = some l) (hfollows : WiredLink.Follows lib w l) : Follows lib (W.setLink n w) N := by
  have hset := h.setLink (n := n) hfollows
  rwa [Network.setLink_of_link? hlink] at hset

theorem Follows.own (h : Follows lib W N) {op : Op} (hok : W.own op = .ok W') :
    ∃ N', N.own op = .ok N' ∧ Follows lib W' N' := by
  unfold WiredNetwork.own at hok
  unfold Network.own
  rw [h.coordinator] at hok
  cases hstep : N.coordinator.step op with
  | error e =>
    rw [hstep] at hok
    cases hok
  | ok s =>
    rw [hstep] at hok
    cases hok
    exact ⟨_, rfl, rfl, h.connections, h.inbox, h.links⟩

/-- Something happens at one node, on the wire and in the message network. -/
theorem Follows.onLink (h : Follows lib W N) {w : WiredLink} {l : Link} {f : WiredLink → WiredLink}
    {g : Link → Link} (hw : W.link? n = some w) (hl : N.link? n = some l)
    (hfollows : WiredLink.Follows lib (f w) (g l)) : Follows lib (W.onLink n f) (N.onLink n g) := by
  unfold WiredNetwork.onLink
  rw [hw, Network.onLink_of_link? hl]
  exact h.setLink hfollows

/-- Something happens on the wire only. -/
theorem Follows.onLink_of_link? (h : Follows lib W N) {w : WiredLink} {l : Link} {f : WiredLink → WiredLink}
    (hw : W.link? n = some w) (hl : N.link? n = some l) (hfollows : WiredLink.Follows lib (f w) l) :
    Follows lib (W.onLink n f) N := by
  unfold WiredNetwork.onLink
  rw [hw]
  exact h.setLink_of_link? hl hfollows

theorem Follows.join (h : Follows lib W N) (protocolVersion : UInt8) (config : NodeConfig) :
    Follows lib (W.join protocolVersion config) (N.join protocolVersion config) := by
  unfold WiredNetwork.join Network.join
  rw [h.coordinator]
  cases haccepting : N.coordinator.accepting with
  | none => exact h
  | some socket =>
    have hlink : WiredLink.Follows lib { session := NodeProgram.start protocolVersion config }
        { session := NodeProgram.start protocolVersion config } :=
      ⟨rfl, id, Wire.conveys_empty lib, Wire.conveys_empty lib, List.forall_mem_nil _, rfl⟩
    have hset := h.setLink (n := N.coordinator.nextNodeId) hlink
    refine ⟨rfl, ?_, hset.inbox, hset.links⟩
    show W.connections ++ _ = N.connections ++ _
    rw [h.connections]

/-- The writer of a node gets the message on the wire, if it can serialize it. -/
theorem Follows.write (h : Follows lib W N) (hsound : N.Sound)
    (hvalid : ∀ node, N.coordinator.node? n = some node → ∀ m ∈ node.messageQueue,
      m ≠ .invalid ∧ (m.IsFixed ∨ ∃ config msg, m = State.helloReply config msg))
    (hok : W.write lib n = .ok W') : Follows lib W' (N.write n) := by
  unfold WiredNetwork.write at hok
  unfold Network.write
  rw [h.coordinator] at hok
  cases hnode : N.coordinator.node? n with
  | none =>
    rw [hnode] at hok
    cases hok
    exact h
  | some node =>
    rw [hnode] at hok
    obtain ⟨l, hl⟩ := Option.isSome_iff_exists.mp (hsound.nodes n (by rw [hnode]; rfl))
    obtain ⟨w, hw, hfollows⟩ := h.exists_wire hl
    rw [hw] at hok
    dsimp only at hok ⊢
    cases hqueue : node.messageQueue with
    | nil =>
      rw [hqueue] at hok
      cases hok
      exact h
    | cons msg rest =>
      rw [hqueue] at hok
      obtain ⟨down, hdown, hok⟩ := Except.bind_eq_ok.mp hok
      cases hok
      obtain ⟨hmsg, hterse⟩ := hvalid node hnode msg (by rw [hqueue]; exact List.mem_cons_self)
      dsimp only
      rw [Network.onLink_of_link? hl]
      have hset := h.setLink (n := n) (w := { w with down })
        (l := { l with down := l.down.put msg.delivered })
        ⟨hfollows.session, hfollows.dead, hfollows.down.put hmsg hdown, hfollows.up, by
          rw [Wire.written_put hdown]
          exact List.forall_mem_append.mpr ⟨hfollows.terse, List.forall_mem_singleton.mpr hterse⟩,
          hfollows.said⟩
      exact ⟨rfl, hset.connections, hset.inbox, hset.links⟩

theorem Follows.read (h : Follows lib W N) (hlib : lib.Faithful) {w : WiredLink} {l : Link}
    (hw : W.link? n = some w) (hl : N.link? n = some l) (hfollows : WiredLink.Follows lib w l)
    (hready : w.up.ready ≠ []) : l.up.inFlight ≠ [] ∧ Follows lib (W.read n) (N.read n) := by
  obtain ⟨msg, rest, hready⟩ := List.exists_cons_of_ne_nil hready
  obtain ⟨⟨more, hmore⟩, hnext⟩ := hfollows.up.next hlib hready
  have hset := h.setLink (n := n) (w := { w with up := w.up.next }) (l := { l with up := l.up.next })
    ⟨hfollows.session, hfollows.dead, hfollows.down, hnext, hfollows.terse, hfollows.said⟩
  unfold WiredNetwork.read Network.read
  rw [hw, hl]
  dsimp only
  rw [hready, hmore]
  refine ⟨by simp, hset.coordinator, hset.connections, ?_, hset.links⟩
  show W.inbox.put (n, msg) = N.inbox.put (n, msg)
  rw [h.inbox]

theorem Follows.handle (h : Follows lib W N) {now : TimePoint} (hok : W.handle now = .ok W') :
    ∃ N', N.handle now = .ok N' ∧ Follows lib W' N' := by
  unfold WiredNetwork.handle at hok
  unfold Network.handle
  rw [h.inbox] at hok
  cases hnext : N.inbox.inFlight with
  | nil =>
    rw [hnext] at hok
    cases hok
    exact ⟨N, rfl, h⟩
  | cons e rest =>
    rw [hnext] at hok
    dsimp only at hok ⊢
    cases hsection : Network.handlerSection now e with
    | none =>
      rw [hsection] at hok
      cases hok
    | some op =>
      rw [hsection] at hok
      have hpopped : Follows lib { W with inbox := N.inbox.next } { N with inbox := N.inbox.next } :=
        ⟨h.coordinator, h.connections, rfl, h.links⟩
      exact hpopped.own hok

end WiredNetwork

namespace Network

variable {N : Network} {n : NodeId}

/-- Neither side writes an `InvalidMessage`. -/
theorem Mannered.valid_queue (h : N.Mannered) {node : Node} (hnode : N.coordinator.node? n = some node) :
    ∀ m ∈ node.messageQueue, m ≠ .invalid := by
  intro m hm heq
  subst heq
  have hin : Message.invalid ∈ node.history := List.mem_append_right _ hm
  by_cases hregistered : node.isRegistered
  · obtain ⟨pings, reply, instructions, hhistory, hpings, hreply, hrest⟩ :=
      h.courteous.registered n node hnode hregistered
    rw [hhistory, List.mem_append, List.mem_cons] at hin
    cases hin with
    | inl hping => exact absurd (hpings _ hping) (by simp [Node.ping])
    | inr hin =>
      cases hin with
      | inl heq =>
        rw [← heq] at hreply
        cases hreply
      | inr hin => cases hrest _ hin
  · exact absurd ((h.courteous.unregistered n node hnode hregistered).2 _ hin) (by simp [Node.ping])

theorem Mannered.valid_sendQueue (h : N.Mannered) {l : Link} (hlink : N.link? n = some l) :
    ∀ m ∈ l.session.node.sendMessageQueue, m ≠ .invalid := by
  intro m hm heq
  subst heq
  have htook := (h.heard.traced.sound.custody n l hlink).took
  cases htook.report_or_hello (List.mem_append_right _ hm) with
  | inl hreport => cases hreport
  | inr hhello => exact absurd hhello (by simp [NodeProgram.Session.hello])

end Network

namespace WiredNetwork

variable {W W' : WiredNetwork} {N : Network}

/-- The message network follows each step on the wire in which no write is cut short.  It stays where it is if
the step is one of a reader, or ends a program that cannot serialize its message. -/
theorem Follows.step (hlib : lib.Faithful) (h : Follows lib W N) (hacquainted : N.Acquainted) {op : WiredOp}
    (henabled : W.enabled lib op) (hwhole : op.writesWhole) (hok : W.step lib op = .ok W') :
    (Follows lib W' N ∧ (op.shown = [] ∨
      ∃ n w, op = .net (.send n) ∧ W.link? n = some w ∧ w.failsToSend lib)) ∨
    ∃ op' N', op = .net op' ∧ network.enabled N op' ∧ network.step N op' = .ok N' ∧ Follows lib W' N' := by
  have hmannered := hacquainted.mannered
  cases op with
  | cut n ret => cases hwhole
  | net op =>
    cases op with
    | own op =>
      obtain ⟨N', hstep, hfollows⟩ := h.own hok
      exact .inr ⟨_, N', rfl, ⟨henabled.1, h.coordinator ▸ henabled.2⟩, hstep, hfollows⟩
    | accept nodeSocket =>
      obtain ⟨N', hstep, hfollows⟩ := h.own hok
      refine .inr ⟨_, N', rfl, ⟨h.coordinator ▸ henabled.1, ?_⟩, hstep, hfollows⟩
      rw [← h.connections]
      exact henabled.2
    | join protocolVersion config =>
      cases hok
      have haccepting : N.coordinator.enabled .insert := h.coordinator ▸ henabled
      exact .inr ⟨_, _, rfl, haccepting, rfl, h.join protocolVersion config⟩
    | write n =>
      have hnode : ∃ node ∈ N.coordinator.node? n, node.messageQueue ≠ [] := h.coordinator ▸ henabled
      refine .inr ⟨_, _, rfl, hnode, rfl, h.write hmannered.heard.traced.sound (fun node hnode => ?_) hok⟩
      exact fun m hm => ⟨hmannered.valid_queue hnode m hm,
        hacquainted.terse n node hnode m (List.mem_append_right _ hm)⟩
    | deliver n =>
      cases hok
      obtain ⟨w, hw, halive, hready⟩ := henabled
      obtain ⟨l, hl, hfollows⟩ := h.exists_link hw
      obtain ⟨hnext, hdelivered⟩ := hfollows.deliver hlib hready
      exact .inr ⟨_, _, rfl, ⟨l, hl, hfollows.alive halive, hnext⟩, rfl, h.onLink hw hl hdelivered⟩
    | act n op =>
      cases hok
      obtain ⟨hown, w, hw, halive, hacts⟩ := henabled
      obtain ⟨l, hl, hfollows⟩ := h.exists_link hw
      exact .inr ⟨_, _, rfl, ⟨hown, l, hl, hfollows.alive halive, hfollows.session ▸ hacts⟩, rfl,
        h.onLink hw hl (hfollows.run op fun session hok =>
          (NodeProgram.Session.stepped (hfollows.session ▸ hacts) hok hown).written hown)⟩
    | send n =>
      cases hok
      obtain ⟨w, hw, halive, hqueue⟩ := henabled
      obtain ⟨l, hl, hfollows⟩ := h.exists_link hw
      cases hfollows.send (hmannered.valid_sendQueue hl) hqueue with
      | inl hsent =>
        exact .inr ⟨_, _, rfl, ⟨l, hl, hfollows.alive halive, hfollows.session ▸ hqueue⟩, rfl,
          h.onLink hw hl hsent⟩
      | inr hfailed => exact .inl ⟨h.onLink_of_link? hw hl hfailed.1, .inr ⟨n, w, rfl, hw, hfailed.2⟩⟩
    | read n =>
      cases hok
      obtain ⟨w, hw, hready⟩ := henabled
      obtain ⟨l, hl, hfollows⟩ := h.exists_link hw
      obtain ⟨hnext, hread⟩ := h.read hlib hw hl hfollows hready
      exact .inr ⟨_, _, rfl, ⟨l, hl, hnext⟩, rfl, hread⟩
    | handle now =>
      obtain ⟨N', hstep, hfollows⟩ := h.handle hok
      have hnext : N.inbox.inFlight ≠ [] := h.inbox ▸ henabled
      exact .inr ⟨_, N', rfl, hnext, hstep, hfollows⟩
  | fillNode n len =>
    cases hok
    obtain ⟨w, hw, halive, hcan⟩ := henabled
    obtain ⟨l, hl, hfollows⟩ := h.exists_link hw
    exact .inl ⟨h.onLink_of_link? hw hl (hfollows.fill hcan), .inl rfl⟩
  | fillCoordinator n len =>
    obtain ⟨w, hw, hcan⟩ := henabled
    obtain ⟨l, hl, hfollows⟩ := h.exists_link hw
    change W.fillCoordinator lib n len = .ok W' at hok
    unfold WiredNetwork.fillCoordinator at hok
    rw [show W.link? n = some w from hw] at hok
    obtain ⟨up, hup, hok⟩ := Except.bind_eq_ok.mp hok
    cases hok
    exact .inl ⟨h.setLink_of_link? hl (hfollows.filledUp hcan hup), .inl rfl⟩

/-- A run on the wire is one of the network, with the steps that it stands for.  The condition on the steps
looks at the coordinator and its queue only. -/
theorem run_followed (hlib : lib.Faithful) {Q : Network → NetworkOp → Prop}
    (hQ : ∀ V N op, V.coordinator = N.coordinator → V.inbox = N.inbox → Q V op → Q N op) {config : CoordinatorConfig}
    {ops : List WiredOp} (hrun : (wired lib).Run (meets Q) { coordinator := initial config } ops W) :
    ∃ ops' N, ops'.Sublist (ops.flatMap WiredOp.shown) ∧
      network.Run Q { coordinator := initial config } ops' N ∧ Follows lib W N ∧ N.Acquainted := by
  have hstart : Follows lib { coordinator := initial config } { coordinator := initial config } :=
    ⟨rfl, rfl, rfl, fun _ => .none⟩
  refine hrun.simulated (R := fun W N => Follows lib W N ∧ N.Acquainted) (Q := Q) WiredOp.shown
    (fun W op W' N h henabled hop hok => ?_) ⟨hstart, Network.acquainted_initial config⟩
  cases h.1.step hlib h.2 henabled hop.1 hok with
  | inl hsame => exact ⟨[], N, List.nil_sublist _, .nil N, hsame.1, h.2⟩
  | inr hstep =>
    obtain ⟨op', N', rfl, henabled', hok', hfollows⟩ := hstep
    have hop' : Q N op' := hQ W.view N op' h.1.coordinator h.1.inbox (hop.2 op' (List.mem_singleton_self op'))
    refine ⟨[op'], N', List.Sublist.refl _, .cons henabled' hop' hok' (.nil N'), hfollows, ?_⟩
    exact h.2.step (Network.stepped henabled' hok')

/-! ## Runs that can be evaluated -/

instance decidableLinked (W : WiredNetwork) (n : NodeId) (p : WiredLink → Prop) [DecidablePred p] :
    Decidable (∃ l ∈ W.link? n, p l) :=
  match W.link? n with
  | none => .isFalse (by simp)
  | some l => decidable_of_iff (p l) (by simp)

instance (lib : BsonLibrary) (W : WiredNetwork) (op : WiredOp) : Decidable ((wired lib).enabled W op) :=
  match op with
  | .net (.own op) => inferInstanceAs (Decidable (op.isOwn = true ∧ W.coordinator.enabled op))
  | .net (.accept nodeSocket) => inferInstanceAs (Decidable (W.coordinator.enabled (.accept nodeSocket) ∧
      ∀ c ∈ W.connections, c.socket ≠ nodeSocket))
  | .net (.join _ _) => inferInstanceAs (Decidable (W.coordinator.enabled .insert))
  | .net (.write n) => Network.decidableQueued { coordinator := W.coordinator } n
  | .net (.deliver n) => decidableLinked W n fun l => ¬ l.dead = true ∧ l.down.ready ≠ []
  | .net (.act n op) => inferInstanceAs (Decidable (op.isOwn = true ∧
      ∃ l ∈ W.link? n, ¬ l.dead = true ∧ l.session.enabled op = true))
  | .net (.send n) => decidableLinked W n fun l => ¬ l.dead = true ∧ l.session.node.sendMessageQueue ≠ []
  | .net (.read n) => decidableLinked W n fun l => l.up.ready ≠ []
  | .net (.handle _) => inferInstanceAs (Decidable (W.inbox.inFlight ≠ []))
  | .cut n ret => decidableLinked W n fun l => ¬ l.dead = true ∧ l.canCut lib ret
  | .fillNode n len => decidableLinked W n fun l => ¬ l.dead = true ∧ l.down.canFill len
  | .fillCoordinator n len => decidableLinked W n fun l => l.up.canFill len

end WiredNetwork

end Bem
