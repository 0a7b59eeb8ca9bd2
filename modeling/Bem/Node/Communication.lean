import Bem.Common.Arrivals
import Bem.Common.Writing

/-!
# The writer thread of the node program

`write_to_server_in_loop` calls `write` once for a message.  What the socket does not take of it at
once is lost.
-/

namespace Bem

open ByteBuffer

namespace NodeProgram

/-- A place of `write_to_server_in_loop`. -/
inductive WriteToServer
  | looping
  | waiting
  | writing (mbuf : ByteBuffer)
  | terminating
  | finished

/-- The thread, and what it shares with the others.  `wire` are the bytes that `write` has taken. -/
structure ServerWriter where
  sendMessageQueue : List Message := []
  shouldQuit : Bool := false
  place : WriteToServer := .looping
  wire : List UInt8 := []

/-- `advance ret` is the next step of the thread, with what `write` returns where it is called. -/
inductive ServerOp
  | send (message : Message)
  | quit
  | advance (ret : Int)

namespace ServerWriter

variable (lib : BsonLibrary)

def sendMessage (message : Message) (w : ServerWriter) : ServerWriter :=
  { w with sendMessageQueue := w.sendMessageQueue ++ [message] }

def advance (ret : Int) (w : ServerWriter) : Except Fault ServerWriter :=
  match w.place with
  | .looping =>
    if w.shouldQuit then .ok { w with place := .terminating } else .ok { w with place := .waiting }
  | .waiting =>
    if w.shouldQuit then .ok { w with place := .terminating }
    else
      match w.sendMessageQueue with
      | [] => .ok w
      | msg :: sendMessageQueue => do
        let mbuf ← msg.serialize lib
        return { w with sendMessageQueue, place := .writing mbuf }
  | .writing mbuf =>
    if ret = -1 then .ok { w with place := .terminating }
    else if ret = 0 then .ok { w with place := .terminating }
    else
      -- the buffer goes out of scope with its cursor
      match mbuf.writeOut ret with
      | .ok bytes _ => .ok { w with place := .looping, wire := w.wire ++ bytes }
      | .error e _ => .error e
  | .terminating => .ok { w with shouldQuit := true, place := .finished }
  | .finished => .ok w

/-- The thread sleeps while there is nothing to do, and `write` takes no more than it is offered. -/
def enabled (w : ServerWriter) : ServerOp → Prop
  | .advance ret =>
    match w.place with
    | .waiting => w.shouldQuit ∨ w.sendMessageQueue ≠ []
    | .writing mbuf => -1 ≤ ret ∧ ret ≤ mbuf.remainingBytes
    | .finished => False
    | _ => True
  | _ => True

instance (w : ServerWriter) (op : ServerOp) : Decidable (w.enabled op) :=
  match op with
  | .advance ret =>
    match w with
    | { place := .waiting, shouldQuit, sendMessageQueue, .. } =>
      inferInstanceAs (Decidable (shouldQuit ∨ sendMessageQueue ≠ []))
    | { place := .writing mbuf, .. } => inferInstanceAs (Decidable (-1 ≤ ret ∧ ret ≤ mbuf.remainingBytes))
    | { place := .finished, .. } => .isFalse id
    | { place := .looping, .. } | { place := .terminating, .. } => .isTrue trivial
  | .send _ | .quit => .isTrue trivial

def step (w : ServerWriter) : ServerOp → Except Fault ServerWriter
  | .send message => .ok (w.sendMessage message)
  | .quit => .ok { w with shouldQuit := true }
  | .advance ret => w.advance lib ret

end ServerWriter

def writeToServerInLoop (lib : BsonLibrary) : Machine ServerWriter ServerOp Fault where
  enabled := ServerWriter.enabled
  step := ServerWriter.step lib

instance (lib : BsonLibrary) (w : ServerWriter) (op : ServerOp) :
    Decidable ((writeToServerInLoop lib).enabled w op) := inferInstanceAs (Decidable (w.enabled op))

/-! ## What is on the wire -/

/-- The messages that a step passes to `send_message`. -/
def ServerOp.sent : ServerOp → List Message
  | send message => [message]
  | _ => []

/-- What is left of the message in hand. -/
def WriteToServer.left : WriteToServer → List UInt8
  | writing mbuf => mbuf.internal
  | _ => []

namespace ServerWriter

def flow (w : ServerWriter) : Outflow Message UInt8 where
  wire := w.wire
  rest := w.place.left
  queue := w.sendMessageQueue

/-- `write` takes something where it is called. -/
def Succeeds (w : ServerWriter) (op : ServerOp) : Prop :=
  ∀ mbuf ret, w.place = .writing mbuf → op = .advance ret → 1 ≤ ret

instance (w : ServerWriter) (op : ServerOp) : Decidable (w.Succeeds op) :=
  match w, op with
  | { place := .writing _, .. }, .advance ret =>
    decidable_of_iff (1 ≤ ret)
      ⟨fun h _ _ _ hop => ServerOp.advance.inj hop ▸ h, fun h => h _ ret rfl rfl⟩
  | { place := .looping, .. }, .advance _ | { place := .waiting, .. }, .advance _
  | { place := .terminating, .. }, .advance _ | { place := .finished, .. }, .advance _ =>
    .isTrue fun _ _ hplace => WriteToServer.noConfusion hplace
  | _, .send _ | _, .quit => .isTrue fun _ _ _ hop => ServerOp.noConfusion hop

/-- `write` takes all it is offered. -/
def Completes (w : ServerWriter) (op : ServerOp) : Prop :=
  ∀ mbuf ret, w.place = .writing mbuf → op = .advance ret → ret = mbuf.remainingBytes

/-- The thread holds the buffer of a message, with the cursor at the start. -/
def Fresh (w : ServerWriter) : Prop :=
  ∀ mbuf, w.place = .writing mbuf → mbuf = reading [] mbuf.internal ∧ mbuf.internal.length ≤ 2 ^ 31

end ServerWriter

end NodeProgram

/-- A buffer that is only written to stays below the range of the cursor. -/
theorem Message.length_serialized_le {lib : BsonLibrary} (m : Message) :
    (m.serialized lib).length ≤ 2 ^ 31 := by
  unfold serialized
  cases h : m.serialize lib with
  | error e => simp
  | ok b =>
    by_cases hfixed : m.IsFixed
    · exact (hfixed.length_serialize h).le
    -- `HELLO` grows with its game list, and an `InvalidMessage` has no bytes
    cases m with
    | hello m => exact (HelloMessage.serialize_declares h).2.1
    | invalid =>
      cases h
      simp
    | task m | result m | taskNotify m => exact absurd trivial hfixed

namespace ByteBuffer

variable {bytes : List UInt8}

theorem remainingBytes_fresh (h : bytes.length ≤ 2 ^ 31) :
    (reading [] bytes).remainingBytes = bytes.length := by
  have hoffset : (reading [] bytes).offset = 0 := offset_reading [] bytes (by decide)
  have hlength : (reading [] bytes).length = bytes.length := by rw [length_reading]; simp
  unfold remainingBytes
  rw [hoffset, hlength]
  omega

/-- From the start the cursor gets wherever an `int` can stand. -/
theorem writeOut_fresh (bytes : List UInt8) (ret : Int) :
    ∃ b, writeOut ret (reading [] bytes) = .ok (bytes.take ret.toNat) b := by
  have hlt := (Int32.ofInt ret).toInt_lt
  have hle := (Int32.ofInt ret).le_toInt
  have hadvance : ∃ b, advance (Int32.ofInt ret) (reading [] bytes) = .ok () b := by
    unfold advance
    dsimp only
    rw [show (reading [] bytes).position.toInt = 0 from rfl, if_pos (by omega)]
    exact ⟨_, rfl⟩
  obtain ⟨b, hadvance⟩ := hadvance
  exact ⟨b, writeOut_of_advance (by simp) hadvance⟩

end ByteBuffer

namespace NodeProgram

namespace ServerWriter

variable {lib : BsonLibrary} {w w' : ServerWriter} {op : ServerOp} {ret : Int} {ops : List ServerOp}

/-- The steps of the thread, as long as no write fails. -/
inductive Advances (lib : BsonLibrary) (w : ServerWriter) (ret : Int) : ServerWriter → Prop
  | move (place : WriteToServer) (shouldQuit : Bool) (hfrom : ∀ mbuf, w.place ≠ .writing mbuf)
    (hto : ∀ mbuf, place ≠ .writing mbuf) : Advances lib w ret { w with place, shouldQuit }
  | take (msg : Message) (sendMessageQueue : List Message) (hplace : w.place = .waiting)
    (hqueue : w.sendMessageQueue = msg :: sendMessageQueue) : Advances lib w ret
      { w with sendMessageQueue, place := .writing (reading [] (msg.serialized lib)) }
  | write (bytes : List UInt8) (hplace : w.place = .writing (reading [] bytes))
    (hsmall : bytes.length ≤ 2 ^ 31) (hpos : 1 ≤ ret) (hle : ret ≤ bytes.length) :
    Advances lib w ret { w with place := .looping, wire := w.wire ++ bytes.take ret.toNat }

theorem advances (hw : w.Fresh) (hsucceeds : w.Succeeds (.advance ret))
    (henabled : w.enabled (.advance ret)) (h : w.advance lib ret = .ok w') : Advances lib w ret w' := by
  unfold advance at h
  unfold enabled at henabled
  cases hplace : w.place with
  | looping =>
    rw [hplace] at h
    dsimp only at h
    split at h
    · cases h
      exact .move _ _ (by simp [hplace]) (by simp)
    · cases h
      exact .move _ _ (by simp [hplace]) (by simp)
  | waiting =>
    rw [hplace] at h henabled
    dsimp only at h henabled
    split at h
    next =>
      cases h
      exact .move _ _ (by simp [hplace]) (by simp)
    next hquit =>
      cases hqueue : w.sendMessageQueue with
      -- the thread has only been woken for a message
      | nil => exact absurd hqueue (henabled.resolve_left hquit)
      | cons msg sendMessageQueue =>
        rw [hqueue] at h
        obtain ⟨mbuf, hmbuf, h⟩ := Except.bind_eq_ok.mp h
        cases h
        rw [Message.serialize_eq_reading hmbuf]
        exact .take msg sendMessageQueue hplace hqueue
  | writing mbuf =>
    have hpos := hsucceeds mbuf ret hplace rfl
    obtain ⟨heq, hsmall⟩ := hw mbuf hplace
    obtain ⟨b, hwrites⟩ := writeOut_fresh mbuf.internal ret
    rw [← heq] at hwrites
    rw [hplace] at h henabled
    dsimp only at h henabled
    -- neither test for a failed write of the socket comes out true
    rw [if_neg (by omega), if_neg (by omega), hwrites] at h
    rw [heq, remainingBytes_fresh hsmall] at henabled
    cases h
    rw [heq] at hplace
    exact .write _ hplace hsmall hpos henabled.2
  | terminating =>
    rw [hplace] at h
    cases h
    exact .move _ _ (by simp [hplace]) (by simp)
  | finished =>
    rw [hplace] at henabled
    exact henabled.elim

theorem Fresh.step (hw : w.Fresh) (hsucceeds : w.Succeeds op) (henabled : w.enabled op)
    (h : w.step lib op = .ok w') : w'.Fresh := by
  cases op with
  | send message =>
    cases h
    exact hw
  | quit =>
    cases h
    exact hw
  | advance ret =>
    cases advances hw hsucceeds henabled h with
    | move place shouldQuit hfrom hto => exact fun mbuf hmbuf => absurd hmbuf (hto mbuf)
    | take msg sendMessageQueue =>
      intro mbuf hmbuf
      cases hmbuf
      exact ⟨rfl, msg.length_serialized_le⟩
    | write bytes => exact fun mbuf hmbuf => WriteToServer.noConfusion hmbuf

theorem left_eq_nil {place : WriteToServer} (h : ∀ mbuf, place ≠ .writing mbuf) : place.left = [] := by
  cases place with
  | writing mbuf => exact absurd rfl (h mbuf)
  | looping | waiting | terminating | finished => rfl

/-! ### Steps on the flow -/

/-- A move between places where no message is in hand. -/
theorem flow_move {place : WriteToServer} (hfrom : ∀ mbuf, w.place ≠ .writing mbuf)
    (hto : ∀ mbuf, place ≠ .writing mbuf) (shouldQuit : Bool) :
    flow { w with place, shouldQuit } = w.flow := by
  unfold flow
  dsimp only
  rw [left_eq_nil hto, left_eq_nil hfrom]

theorem flow_take {msg : Message} {sendMessageQueue : List Message}
    (hqueue : w.sendMessageQueue = msg :: sendMessageQueue) :
    flow { w with sendMessageQueue, place := .writing (reading [] (msg.serialized lib)) } =
      w.flow.take (Message.serialized lib) := by
  unfold flow Outflow.take
  dsimp only
  rw [hqueue]
  rfl

/-- The rest of a message is given up behind its first write. -/
theorem flow_write {bytes : List UInt8} (hplace : w.place = .writing (reading [] bytes)) (n : Nat) :
    flow { w with place := .looping, wire := w.wire ++ bytes.take n } = (w.flow.put n).discard := by
  unfold flow Outflow.put Outflow.discard
  dsimp only
  rw [hplace]
  rfl

/-- Where no write is called none is cut short. -/
theorem completes_of_ne (h : ∀ mbuf, w.place ≠ .writing mbuf) : w.Completes op :=
  fun mbuf _ hplace => absurd hplace (h mbuf)

theorem completes_write_iff {bytes : List UInt8} (hplace : w.place = .writing (reading [] bytes))
    (hsmall : bytes.length ≤ 2 ^ 31) : w.Completes (.advance ret) ↔ ret = bytes.length := by
  have hremaining := remainingBytes_fresh hsmall
  constructor
  · intro h
    have hret := h _ ret hplace rfl
    rw [hremaining] at hret
    exact hret
  · intro hret mbuf ret' hplace' hop
    rw [hplace] at hplace'
    cases hplace'
    cases hop
    rw [hremaining]
    exact hret

/-- But for a write that is cut short nothing is lost. -/
theorem present_step (hw : w.Fresh) (hsucceeds : w.Succeeds op) (henabled : w.enabled op)
    (h : w.step lib op = .ok w') :
    (w.Completes op → w'.flow.present (Message.serialized lib) =
      w.flow.present (Message.serialized lib) ++ op.sent.flatMap (Message.serialized lib)) ∧
    (¬w.Completes op → (w'.flow.present (Message.serialized lib)).length <
      (w.flow.present (Message.serialized lib)).length +
        (op.sent.flatMap (Message.serialized lib)).length) := by
  cases op with
  | send message =>
    cases h
    refine ⟨fun _ => ?_, fun hnot => absurd ?_ hnot⟩
    · show (w.flow.enter message).present _ = _ ++ [message].flatMap _
      rw [Outflow.present_enter, List.flatMap_singleton]
    · exact fun mbuf ret hplace hop => ServerOp.noConfusion hop
  | quit =>
    cases h
    refine ⟨fun _ => (List.append_nil _).symm, fun hnot => absurd ?_ hnot⟩
    exact fun mbuf ret hplace hop => ServerOp.noConfusion hop
  | advance ret =>
    -- the thread itself sends nothing
    show (_ → _ = _ ++ []) ∧ (_ → _ < _ + 0)
    rw [List.append_nil, Nat.add_zero]
    cases advances hw hsucceeds henabled h with
    | move place shouldQuit hfrom hto =>
      rw [flow_move hfrom hto]
      exact ⟨fun _ => rfl, fun hnot => absurd (completes_of_ne hfrom) hnot⟩
    | take msg sendMessageQueue hplace hqueue =>
      have hrest : w.flow.rest = [] := left_eq_nil (by simp [hplace])
      rw [flow_take hqueue, Outflow.present_take hrest]
      exact ⟨fun _ => rfl, fun hnot => absurd (completes_of_ne (by simp [hplace])) hnot⟩
    | write bytes hplace hsmall hpos hle =>
      have hleft : (w.flow.put ret.toNat).rest = bytes.drop ret.toNat := by
        show w.place.left.drop ret.toNat = _
        rw [hplace]
        rfl
      -- what the write has not taken is what is missing
      have hlost := @Outflow.length_present_discard _ _ (Message.serialized lib) (w.flow.put ret.toNat)
      rw [hleft, Outflow.present_put, List.length_drop] at hlost
      rw [flow_write hplace, completes_write_iff hplace hsmall]
      constructor
      · intro hall
        have hnone : (w.flow.put ret.toNat).rest = [] := by
          rw [hleft]
          exact List.drop_eq_nil_of_le (by omega)
        have hsame : (w.flow.put ret.toNat).discard = w.flow.put ret.toNat := by
          unfold Outflow.discard
          rw [← hnone]
        rw [hsame, Outflow.present_put]
      · intro hshort
        omega

end ServerWriter

open ServerWriter

theorem server_written_whole_iff (lib : BsonLibrary) (ops : List ServerOp) (w : ServerWriter)
    (hrun : (writeToServerInLoop lib).Run Succeeds {} ops w) :
    w.flow.Whole (Message.serialized lib) (ops.flatMap ServerOp.sent) ↔
      (writeToServerInLoop lib).Run Completes {} ops w := by
  have hstart : Fresh {} := fun mbuf hmbuf => WriteToServer.noConfusion hmbuf
  have hfresh := (hrun.along (K := Fresh)
    (fun w op w' hw henabled hsucceeds hok => hw.step hsucceeds henabled hok) hstart).1
  have hiff := @Outflow.present_run_iff _ _ (Message.serialized lib) _ _ _ (writeToServerInLoop lib) _
    Completes flow ServerOp.sent _ _ _
    (fun w op w' hP hcompletes henabled hok => (present_step hP.1 hP.2 henabled hok).1 hcompletes)
    (fun w op w' hP hnot henabled hok => (present_step hP.1 hP.2 henabled hok).2 hnot) hfresh
  exact hiff

/-- The node says that it runs no task, and the socket takes the first byte. -/
def cutShort : List ServerOp :=
  [.send (.taskNotify { taskId := 0, taskStatus := .tsNone }), .advance 0, .advance 0, .advance 1]

theorem server_written_whole_cutShort :
    ((writeToServerInLoop emptyLibrary).after {} cutShort).flow.Whole
        (Message.serialized emptyLibrary) (cutShort.flatMap ServerOp.sent) ↔
      (writeToServerInLoop emptyLibrary).Run Completes {} cutShort
        ((writeToServerInLoop emptyLibrary).after {} cutShort) :=
  server_written_whole_iff emptyLibrary cutShort _ (Machine.run_after (by decide +kernel))

/-- The other bytes are lost. -/
theorem short_write_loses_bytes :
    (writeToServerInLoop emptyLibrary).Run Succeeds {} cutShort
        ((writeToServerInLoop emptyLibrary).after {} cutShort) ∧
      ¬((writeToServerInLoop emptyLibrary).after {} cutShort).flow.Whole
        (Message.serialized emptyLibrary) (cutShort.flatMap ServerOp.sent) := by
  refine ⟨Machine.run_after (by decide +kernel), ?_⟩
  unfold Outflow.Whole
  decide +kernel

end NodeProgram

end Bem
