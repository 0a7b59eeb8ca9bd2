import Bem.Common.Writing
import Bem.Common.Delivery
import Bem.Coordinator.System
import Bem.Coordinator.Survival

/-!
# The writer of a node

`writeNode` runs in a thread of its own for every connection.  It shares the node with the maps, and
keeps it when they have lost it.  The bytes go out in as many pieces as the socket makes of them.
-/

namespace Bem

open ByteBuffer

/-- A place of `writeNode`. -/
inductive WriteLoop
  | looping
  | waiting
  | emptying (mbuf : ByteBuffer)
  | terminating
  | returned
  | finished

/-- The thread, the node it writes to and the state of the program.  `wire` are the bytes that `write`
has taken. -/
structure NodeWriter where
  state : State
  node : Node
  shouldQuit : Bool := false
  place : WriteLoop := .looping
  wire : List UInt8 := []

/-- `advance ret` is the next step of the thread, with what `write` returns where it is called.
Whatever the other threads do to the program is `others`, and to the queue of the node `send`. -/
inductive WriterOp
  | send (message : Message)
  | others (state : State)
  | quit
  | advance (ret : Int)

namespace NodeWriter

variable (lib : BsonLibrary)

def advance (ret : Int) (w : NodeWriter) : Except Fault NodeWriter :=
  match w.place with
  | .looping =>
    if w.shouldQuit then .ok { w with place := .finished } else .ok { w with place := .waiting }
  | .waiting =>
    match w.node.messageQueue with
    | [] => .ok w
    | msg :: _ => do
      let mbuf ← msg.serialize lib
      return { w with node := w.node.takeMessage, place := .emptying mbuf }
  | .emptying mbuf =>
    if mbuf.remainingBytes > 0 then
      if ret ≤ 0 then .ok { w with place := .terminating }
      else
        match mbuf.writeOut ret with
        | .ok bytes mbuf => .ok { w with place := .emptying mbuf, wire := w.wire ++ bytes }
        | .error e _ => .error e
    else .ok { w with place := .looping }
  | .terminating => do
    let state ← w.state.terminateNode w.node.id
    return { w with state, place := .returned }
  | .returned | .finished => .ok w

/-- The thread sleeps while the queue is empty, and `write` takes no more than it is offered. -/
def enabled (w : NodeWriter) : WriterOp → Prop
  | .advance ret =>
    match w.place with
    | .waiting => w.node.messageQueue ≠ []
    | .emptying mbuf => ret ≤ mbuf.remainingBytes
    | .returned | .finished => False
    | _ => True
  | _ => True

instance (w : NodeWriter) (op : WriterOp) : Decidable (w.enabled op) :=
  match op with
  | .advance ret =>
    match w with
    | { place := .waiting, node, .. } => inferInstanceAs (Decidable (node.messageQueue ≠ []))
    | { place := .emptying mbuf, .. } => inferInstanceAs (Decidable (ret ≤ mbuf.remainingBytes))
    | { place := .returned, .. } | { place := .finished, .. } => .isFalse id
    | { place := .looping, .. } | { place := .terminating, .. } => .isTrue trivial
  | .send _ | .others _ | .quit => .isTrue trivial

def step (w : NodeWriter) : WriterOp → Except Fault NodeWriter
  | .send message => .ok { w with node := w.node.send message }
  | .others state => .ok { w with state }
  | .quit => .ok { w with shouldQuit := true }
  | .advance ret => w.advance lib ret

end NodeWriter

def writeNode (lib : BsonLibrary) : Machine NodeWriter WriterOp Fault where
  enabled := NodeWriter.enabled
  step := NodeWriter.step lib

instance (lib : BsonLibrary) (w : NodeWriter) (op : WriterOp) :
    Decidable ((writeNode lib).enabled w op) := inferInstanceAs (Decidable (w.enabled op))

/-! ## What is on the wire -/

/-- The messages that a step puts in the queue. -/
def WriterOp.sent : WriterOp → List Message
  | send message => [message]
  | _ => []

namespace WriteLoop

/-- What is left of the message in hand. -/
def left : WriteLoop → List UInt8
  | emptying mbuf => mbuf.internal.drop mbuf.offset
  | _ => []

/-- A write has failed. -/
def Failed (place : WriteLoop) : Prop := place = terminating ∨ place = returned

/-- The cursor of the buffer stands in it. -/
def InBounds (place : WriteLoop) : Prop :=
  ∀ mbuf, place = emptying mbuf → ∃ pre rest, mbuf = reading pre rest ∧ pre.length + rest.length < 2 ^ 31

theorem left_reading {pre rest : List UInt8} (h : pre.length < 2 ^ 31) :
    (emptying (reading pre rest)).left = rest := by
  show (reading pre rest).internal.drop (reading pre rest).offset = rest
  rw [offset_reading pre rest h, internal_reading, List.drop_left]

theorem left_eq_nil {place : WriteLoop} (h : ∀ mbuf, place ≠ emptying mbuf) : place.left = [] := by
  cases place with
  | emptying mbuf => exact absurd rfl (h mbuf)
  | looping | waiting | terminating | returned | finished => rfl

end WriteLoop

namespace NodeWriter

variable {lib : BsonLibrary} {w w' : NodeWriter} {ret : Int} {ops : List WriterOp}

def flow (w : NodeWriter) : Outflow Message UInt8 where
  wire := w.wire
  rest := w.place.left
  queue := w.node.messageQueue

/-- The cursor stands in its buffer, and will for the messages to come. -/
structure Bounded (lib : BsonLibrary) (w : NodeWriter) : Prop where
  place : w.place.InBounds
  queue : ∀ m ∈ w.node.messageQueue, (m.serialized lib).length < 2 ^ 31

/-- The steps of the thread. -/
inductive Advances (lib : BsonLibrary) (w : NodeWriter) (ret : Int) : NodeWriter → Prop
  | move (place : WriteLoop) (hfrom : ∀ mbuf, w.place ≠ .emptying mbuf)
    (hto : ∀ mbuf, place ≠ .emptying mbuf) (hfailed : ¬w.place.Failed) (hkeeps : ¬place.Failed) :
    Advances lib w ret { w with place }
  | leave (pre : List UInt8) (hplace : w.place = .emptying (reading pre []))
    (hsmall : pre.length < 2 ^ 31) : Advances lib w ret { w with place := .looping }
  | take (msg : Message) (messageQueue : List Message) (hplace : w.place = .waiting)
    (hqueue : w.node.messageQueue = msg :: messageQueue) : Advances lib w ret
      { w with node := w.node.takeMessage, place := .emptying (reading [] (msg.serialized lib)) }
  | write (pre rest : List UInt8) (hplace : w.place = .emptying (reading pre rest))
    (hpos : 0 < ret) (hle : ret ≤ rest.length) (hsmall : pre.length + rest.length < 2 ^ 31) :
    Advances lib w ret
      { w with
        place := .emptying (reading (pre ++ rest.take ret.toNat) (rest.drop ret.toNat))
        wire := w.wire ++ rest.take ret.toNat }
  | fail (mbuf : ByteBuffer) (hplace : w.place = .emptying mbuf) (hneg : ret ≤ 0)
    (hleft : 0 < mbuf.remainingBytes) : Advances lib w ret { w with place := .terminating }
  | terminate (state : State) (hplace : w.place = .terminating)
    (hstate : w.state.terminateNode w.node.id = .ok state) :
    Advances lib w ret { w with state, place := .returned }

theorem advances (hw : w.place.InBounds) (henabled : w.enabled (.advance ret))
    (h : w.advance lib ret = .ok w') : Advances lib w ret w' := by
  unfold advance at h
  unfold enabled at henabled
  cases hplace : w.place with
  | looping =>
    rw [hplace] at h
    have hfrom : ∀ mbuf, w.place ≠ .emptying mbuf := by simp [hplace]
    have hfailed : ¬w.place.Failed := by simp [hplace, WriteLoop.Failed]
    dsimp only at h
    split at h
    · cases h
      exact .move _ hfrom (by simp) hfailed (by simp [WriteLoop.Failed])
    · cases h
      exact .move _ hfrom (by simp) hfailed (by simp [WriteLoop.Failed])
  | waiting =>
    rw [hplace] at h henabled
    dsimp only at h henabled
    cases hqueue : w.node.messageQueue with
    | nil => exact absurd hqueue henabled
    | cons msg messageQueue =>
      rw [hqueue] at h
      obtain ⟨mbuf, hmbuf, h⟩ := Except.bind_eq_ok.mp h
      cases h
      rw [Message.serialize_eq_reading hmbuf]
      exact .take msg messageQueue hplace hqueue
  | emptying mbuf =>
    obtain ⟨pre, rest, rfl, hsmall⟩ := hw mbuf hplace
    -- the cursor is within the buffer, so that the unsigned difference is what is left
    have hremaining := @remainingBytes_reading pre rest hsmall
    rw [hplace] at h henabled
    dsimp only at h henabled
    rw [hremaining] at h henabled
    split at h
    next hleft =>
      split at h
      next hneg =>
        cases h
        exact .fail _ hplace hneg (by omega)
      next hpos =>
        rw [writeOut_reading (by omega) henabled hsmall] at h
        cases h
        exact .write pre rest hplace (by omega) henabled hsmall
    next hempty =>
      cases h
      have hnil : rest = [] := List.eq_nil_of_length_eq_zero (by omega)
      exact .leave pre (by rw [hplace, hnil]) (by omega)
  | terminating =>
    rw [hplace] at h
    obtain ⟨state, hstate, h⟩ := Except.bind_eq_ok.mp h
    cases h
    exact .terminate state hplace hstate
  | returned =>
    rw [hplace] at henabled
    exact henabled.elim
  | finished =>
    rw [hplace] at henabled
    exact henabled.elim

/-! ### Steps on the flow -/

/-- A move between places where no message is in hand. -/
theorem flow_move {place : WriteLoop} (hfrom : ∀ mbuf, w.place ≠ .emptying mbuf)
    (hto : ∀ mbuf, place ≠ .emptying mbuf) : flow { w with place } = w.flow := by
  unfold flow
  dsimp only
  rw [WriteLoop.left_eq_nil hto, WriteLoop.left_eq_nil hfrom]

/-- The inner loop is left with an empty buffer. -/
theorem flow_leave {pre : List UInt8} (hplace : w.place = .emptying (reading pre []))
    (hsmall : pre.length < 2 ^ 31) : flow { w with place := .looping } = w.flow := by
  unfold flow
  dsimp only
  rw [hplace, WriteLoop.left_reading hsmall, WriteLoop.left_eq_nil (by simp)]

theorem flow_take {msg : Message} {messageQueue : List Message}
    (hqueue : w.node.messageQueue = msg :: messageQueue) :
    flow { w with
      node := w.node.takeMessage, place := .emptying (reading [] (msg.serialized lib)) } =
        w.flow.take (Message.serialized lib) := by
  have hleft := @WriteLoop.left_reading [] (msg.serialized lib) (by simp)
  unfold flow Outflow.take Node.takeMessage
  dsimp only
  rw [hqueue, hleft]

theorem flow_write {pre rest : List UInt8} (hplace : w.place = .emptying (reading pre rest))
    (hsmall : pre.length + rest.length < 2 ^ 31) (n : Nat) :
    flow { w with
      place := .emptying (reading (pre ++ rest.take n) (rest.drop n))
      wire := w.wire ++ rest.take n } = w.flow.put n := by
  have hbefore := @WriteLoop.left_reading pre rest (by omega)
  have hafter := @WriteLoop.left_reading (pre ++ rest.take n) (rest.drop n) (by
    rw [List.length_append, List.length_take]
    omega)
  unfold flow Outflow.put
  rw [hplace, hbefore, hafter]

/-- Nothing of `messages` is missing while no write has failed.  After that the wire keeps what it has. -/
structure Faithful (lib : BsonLibrary) (w : NodeWriter) (messages : List Message) : Prop where
  whole : ¬w.place.Failed → w.flow.Whole (Message.serialized lib) messages
  wire : w.wire <+: messages.flatMap (Message.serialized lib)

theorem Faithful.of_whole {messages : List Message}
    (h : w.flow.Whole (Message.serialized lib) messages) : w.Faithful lib messages :=
  ⟨fun _ => h, h.wire_prefix⟩

theorem Bounded.step {op : WriterOp} (hw : w.Bounded lib)
    (hsmall : ∀ m ∈ op.sent, (m.serialized lib).length < 2 ^ 31) (henabled : w.enabled op)
    (h : w.step lib op = .ok w') : w'.Bounded lib := by
  cases op with
  | send message =>
    cases h
    refine ⟨hw.place, fun m hm => ?_⟩
    have hor : m ∈ w.node.messageQueue ∨ m ∈ [message] := List.mem_append.mp hm
    exact hor.elim (hw.queue m) (hsmall m)
  | others state =>
    cases h
    exact ⟨hw.place, hw.queue⟩
  | quit =>
    cases h
    exact ⟨hw.place, hw.queue⟩
  | advance ret =>
    cases advances hw.place henabled h with
    | move place hfrom hto => exact ⟨fun mbuf hmbuf => absurd hmbuf (hto mbuf), hw.queue⟩
    | leave pre => exact ⟨fun mbuf hmbuf => WriteLoop.noConfusion hmbuf, hw.queue⟩
    | take msg messageQueue _ hqueue =>
      have hnode : w.node.takeMessage.messageQueue = messageQueue := by
        unfold Node.takeMessage
        rw [hqueue]
      refine ⟨fun mbuf hmbuf => ?_, fun m hm => ?_⟩
      -- a buffer that has just been taken is short because its message is
      · cases hmbuf
        refine ⟨[], msg.serialized lib, rfl, ?_⟩
        have hmsg := hw.queue msg (by rw [hqueue]; exact List.mem_cons_self)
        simpa using hmsg
      · change m ∈ w.node.takeMessage.messageQueue at hm
        rw [hnode] at hm
        exact hw.queue m (by rw [hqueue]; exact List.mem_cons_of_mem _ hm)
    | write pre rest hplace hpos hle hsmall =>
      refine ⟨fun mbuf hmbuf => ?_, hw.queue⟩
      cases hmbuf
      refine ⟨_, _, rfl, ?_⟩
      rw [List.length_append, List.length_take, List.length_drop]
      omega
    | fail mbuf => exact ⟨fun mbuf hmbuf => WriteLoop.noConfusion hmbuf, hw.queue⟩
    | terminate state => exact ⟨fun mbuf hmbuf => WriteLoop.noConfusion hmbuf, hw.queue⟩

theorem Faithful.step {op : WriterOp} {messages : List Message} (hw : w.Bounded lib)
    (hfaithful : w.Faithful lib messages) (henabled : w.enabled op) (h : w.step lib op = .ok w') :
    w'.Faithful lib (messages ++ op.sent) := by
  cases op with
  | send message =>
    cases h
    refine ⟨fun hfailed => (hfaithful.whole hfailed).enter, hfaithful.wire.trans ?_⟩
    rw [List.flatMap_append]
    exact List.prefix_append _ _
  | others state =>
    cases h
    show Faithful lib _ (messages ++ [])
    rw [List.append_nil]
    exact ⟨hfaithful.whole, hfaithful.wire⟩
  | quit =>
    cases h
    show Faithful lib _ (messages ++ [])
    rw [List.append_nil]
    exact ⟨hfaithful.whole, hfaithful.wire⟩
  | advance ret =>
    show Faithful lib _ (messages ++ [])
    rw [List.append_nil]
    cases advances hw.place henabled h with
    | move place hfrom hto hfailed =>
      refine ⟨fun _ => ?_, hfaithful.wire⟩
      rw [flow_move hfrom hto]
      exact hfaithful.whole hfailed
    | leave pre hplace hsmall =>
      refine ⟨fun _ => ?_, hfaithful.wire⟩
      rw [flow_leave hplace hsmall]
      exact hfaithful.whole (by simp [hplace, WriteLoop.Failed])
    | take msg messageQueue hplace hqueue =>
      have hwhole := hfaithful.whole (by simp [hplace, WriteLoop.Failed])
      have hrest : w.flow.rest = [] := by
        show w.place.left = []
        rw [hplace]
        rfl
      apply Faithful.of_whole
      show Outflow.present _ _ = _
      rw [flow_take hqueue, Outflow.present_take hrest]
      exact hwhole
    | write pre rest hplace hpos hle hsmall =>
      have hwhole := hfaithful.whole (by simp [hplace, WriteLoop.Failed])
      apply Faithful.of_whole
      show Outflow.present _ _ = _
      rw [flow_write hplace hsmall, Outflow.present_put]
      exact hwhole
    -- from here on only the wire counts
    | fail mbuf => exact ⟨fun hfailed => absurd (Or.inl rfl) hfailed, hfaithful.wire⟩
    | terminate state => exact ⟨fun hfailed => absurd (Or.inr rfl) hfailed, hfaithful.wire⟩

/-! ## Runs -/

/-- Nothing is written any more. -/
def Silent (lib : BsonLibrary) (w : NodeWriter) : Prop :=
  ∀ ops w', (writeNode lib).FreeRun w ops w' → w'.wire = w.wire ∧ w'.place.Failed

theorem silent (h : w.place.Failed) : w.Silent lib := by
  intro ops w' hrun
  refine hrun.invariant (I := fun w' => w'.wire = w.wire ∧ w'.place.Failed) ?_ ⟨rfl, h⟩
  intro w₁ op w₂ hI henabled _ hok
  cases op with
  | send message =>
    cases hok
    exact hI
  | others state =>
    cases hok
    exact hI
  | quit =>
    cases hok
    exact hI
  | advance ret =>
    have hbounds : w₁.place.InBounds := by
      intro mbuf hmbuf
      have hfailed := hI.2
      simp [hmbuf, WriteLoop.Failed] at hfailed
    cases advances hbounds henabled hok with
    | move place hfrom hto hfailed => exact absurd hI.2 hfailed
    | leave pre hplace => exact absurd hI.2 (by simp [hplace, WriteLoop.Failed])
    | take msg messageQueue hplace => exact absurd hI.2 (by simp [hplace, WriteLoop.Failed])
    | write pre rest hplace => exact absurd hI.2 (by simp [hplace, WriteLoop.Failed])
    | fail mbuf hplace => exact absurd hI.2 (by simp [hplace, WriteLoop.Failed])
    | terminate state => exact ⟨hI.1, Or.inr rfl⟩

end NodeWriter

end Bem
