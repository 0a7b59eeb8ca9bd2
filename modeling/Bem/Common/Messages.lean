import Bem.Common.Task

/-!
# Messages and their frames

A frame is a type byte, the length of the whole frame as a 64-bit number, and a body.  The BSON
functions of the vendored JSON library are a parameter, `BsonLibrary`.
-/

namespace Bem

open ByteBuffer

/-- `json::to_bson` and `json::from_bson`; `none` is an exception. -/
structure BsonLibrary where
  to_bson : Json → Option (List UInt8)
  from_bson : List UInt8 → Option Json

inductive MessageType
  | none
  | error
  | hello
  | task
  | taskNotify
  | result
  deriving DecidableEq, Repr

namespace MessageType

def code : MessageType → UInt8
  | none => 0
  | error => 1
  | hello => 2
  | task => 3
  | taskNotify => 4
  | result => 5

end MessageType

/-- `HEADER_SIZE`: the type byte and a `size_t`. -/
def headerSize : Nat := 9

def typeOffset : Nat := 0

def sizeOffset : Nat := 1

structure TaskMessage where
  task : Task := {}
  deriving DecidableEq

structure ResultMessage where
  taskId : TaskId := taskIdNone
  result : Result := {}
  deriving DecidableEq

structure TaskNotifyMessage where
  taskId : TaskId
  taskStatus : TaskStatus
  deriving DecidableEq

structure HelloMessage where
  protoVer : UInt8 := 0
  flag : UInt8 := 0
  gamelist : GameList := {}
  deriving DecidableEq

namespace HelloMessage

def flagReject : UInt8 := 0

def flagAccept : UInt8 := 1

end HelloMessage

/-- A `BaseMessage` of any of the derived classes. -/
inductive Message
  | task (m : TaskMessage)
  | result (m : ResultMessage)
  | taskNotify (m : TaskNotifyMessage)
  | hello (m : HelloMessage)
  | invalid
  deriving DecidableEq

namespace Message

def getType : Message → MessageType
  | task _ => .task
  | result _ => .result
  | taskNotify _ => .taskNotify
  | hello _ => .hello
  | invalid => .none

def isHello : Message → Bool
  | hello _ => true
  | _ => false

def isNotify : Message → Bool
  | taskNotify _ => true
  | _ => false

def isQuestion : Message → Bool
  | taskNotify msg => msg.taskStatus == .tsQuestion
  | _ => false

def isCancel : Message → Bool
  | taskNotify msg => msg.taskStatus == .tsCancelled
  | _ => false

/-- A result, or an answer to a question. -/
def isReport : Message → Bool
  | result _ | taskNotify _ => true
  | _ => false

end Message

/-- The tasks among some messages. -/
def tasksIn (messages : List Message) : List Task :=
  messages.filterMap fun
    | .task msg => some msg.task
    | _ => none

/-- The results among some messages. -/
def resultsIn (messages : List Message) : List ResultMessage :=
  messages.filterMap fun
    | .result msg => some msg
    | _ => none

@[simp] theorem tasksIn_append (l l' : List Message) : tasksIn (l ++ l') = tasksIn l ++ tasksIn l' :=
  List.filterMap_append

@[simp] theorem resultsIn_append (l l' : List Message) :
    resultsIn (l ++ l') = resultsIn l ++ resultsIn l' := List.filterMap_append

theorem resultsIn_of_isPrefix {l l' : List Message} (h : l <+: l') : resultsIn l <+: resultsIn l' :=
  h.filterMap _

/-! ## Serialization -/

def putHeader (type : MessageType) : BufferM Unit := do
  seek 0
  put [type.code]
  -- the length of what the buffer has by now, with the header or a part of it
  let b ← getThe ByteBuffer
  putUInt64 (UInt64.ofNat b.length)

def reserveHeader (type : MessageType) : BufferM Unit := putHeader type

/-- What every `Serialize` does around the body it writes. -/
def frame (type : MessageType) (body : BufferM Unit) : BufferM Unit := do
  reserveHeader type
  body
  putHeader type
  seek 0

def TaskMessage.serialize (m : TaskMessage) : BufferM Unit := frame .task m.task.serialize

def ResultMessage.serialize (m : ResultMessage) : BufferM Unit := frame .result do
  putUInt32 m.taskId
  m.result.serialize

def TaskNotifyMessage.serialize (m : TaskNotifyMessage) : BufferM Unit := frame .taskNotify do
  putUInt32 m.taskId
  put [m.taskStatus.code]

/-- The document of a game list. -/
def HelloMessage.document (m : HelloMessage) : Json := .object [("gamelist", m.gamelist.toJson)]

def HelloMessage.serialize (lib : BsonLibrary) (m : HelloMessage) : BufferM Unit :=
  frame .hello do
    put [m.protoVer]
    put [m.flag]
    -- the two bytes are there already when the library throws
    match lib.to_bson m.document with
    | none => throw .jsonException
    | some serializedGames => putEach serializedGames

def Message.write (lib : BsonLibrary) : Message → BufferM Unit
  | task m => m.serialize
  | result m => m.serialize
  | taskNotify m => m.serialize
  | hello m => m.serialize lib
  | invalid => pure ()

/-- `Serialize`, which writes to an empty buffer of its own. -/
def Message.serialize (lib : BsonLibrary) (m : Message) : Except Fault ByteBuffer :=
  match m.write lib {} with
  | .ok () buffer => .ok buffer
  | .error e _ => .error e

theorem Message.write_of_serialize {lib : BsonLibrary} {m : Message} {b : ByteBuffer}
    (h : m.serialize lib = .ok b) : m.write lib {} = .ok () b := by
  unfold serialize at h
  split at h
  next b' hb' =>
    cases h
    exact hb'
  next => cases h

/-! ## Deserialization -/

def TaskMessage.deserialize (m : TaskMessage) : BufferM TaskMessage := do
  let task ← m.task.deserialize
  return { task }

def ResultMessage.deserialize : BufferM ResultMessage := do
  let taskId ← getUInt32
  let result ← Result.deserialize
  return { taskId, result }

def TaskNotifyMessage.deserialize : BufferM TaskNotifyMessage := do
  let taskId ← getUInt32
  let code ← getByte
  return { taskId, taskStatus := .ofCode code }

/-- The bytes of the document are all the bytes the buffer still has. -/
def HelloMessage.deserialize (lib : BsonLibrary) (m : HelloMessage) : BufferM HelloMessage := do
  let protoVer ← getByte
  let flag ← getByte
  let bytes ← drain (fun bytes byte => .ok (bytes ++ [byte])) []
  match lib.from_bson bytes with
  | none => throw .jsonException
  | some j =>
    match j.atKey "gamelist" >>= m.gamelist.fromJson with
    | .error e => throw e
    | .ok gamelist => return { protoVer, flag, gamelist }

/-- `Interpret`'s choice of a message class by the type byte, and its `Deserialize`.  `MessageType`
is an enumeration over `char`, which has a sign. -/
def Message.decode (lib : BsonLibrary) (type : UInt8) : BufferM Message :=
  if type.toInt8 ≤ 0 ∨ 6 ≤ type.toInt8 then return .invalid
  else if type = MessageType.task.code then return .task (← TaskMessage.deserialize {})
  else if type = MessageType.result.code then return .result (← ResultMessage.deserialize)
  else if type = MessageType.hello.code then return .hello (← HelloMessage.deserialize lib {})
  else if type = MessageType.taskNotify.code then
    return .taskNotify (← TaskNotifyMessage.deserialize)
  -- a type within the range of the enumeration that no class is for
  else throw .assertFailed

/-! ## Decoding moves the cursor forward -/

theorem Result.advances_deserialize : Advances Result.deserialize :=
  .bind .uint32 fun _ => .bind .uint32 fun _ => .bind .uint32 fun _ => .bind .uint32 fun _ =>
    .bind .uint32 fun _ => .bind .uint32 fun _ => .pure _

theorem Task.advances_deserialize (t : Task) : Advances t.deserialize :=
  .bind .uint32 fun _ => .bind .uint64 fun _ => .bind .uint64 fun _ => .bind .uint64 fun _ =>
    .bind .uint32 fun _ => .bind .uint32 fun _ => .bind .uint32 fun _ => .pure _

theorem HelloMessage.advances_deserialize (lib : BsonLibrary) (m : HelloMessage) :
    Advances (m.deserialize lib) := by
  refine .bind .byte fun _ => .bind .byte fun _ => .bind (.drain _ _) fun bytes => ?_
  cases lib.from_bson bytes with
  | none => exact .throw _
  | some j =>
    change Advances (match j.atKey "gamelist" >>= m.gamelist.fromJson with
      | .error e => throw e
      | .ok gamelist => pure _)
    cases j.atKey "gamelist" >>= m.gamelist.fromJson with
    | error e => exact .throw _
    | ok gamelist => exact .pure _

theorem Message.advances_decode (lib : BsonLibrary) (type : UInt8) :
    Advances (Message.decode lib type) := by
  unfold Message.decode
  split
  · exact .pure _
  split
  · exact .bind (.bind (Task.advances_deserialize _) fun _ => .pure _) fun _ => .pure _
  split
  · exact .bind (.bind .uint32 fun _ => .bind Result.advances_deserialize fun _ => .pure _)
      fun _ => .pure _
  split
  · exact .bind (HelloMessage.advances_deserialize lib _) fun _ => .pure _
  split
  · exact .bind (.bind .uint32 fun _ => .bind .byte fun _ => .pure _) fun _ => .pure _
  · exact .throw _

/-! ## Frames -/

/-- A frame around the bytes `data`. -/
def frameBytes (type : MessageType) (data : List UInt8) : List UInt8 :=
  type.code :: (leBytes 8 (headerSize + data.length) ++ data)

@[simp] theorem length_frameBytes (type : MessageType) (data : List UInt8) :
    (frameBytes type data).length = headerSize + data.length := by
  simp only [frameBytes, List.length_cons, List.length_append, length_leBytes, headerSize]
  omega

/-- `PutHeader` rewrites the first nine bytes, whether they are there already or not. -/
theorem putHeader_ok (type : MessageType) {b : ByteBuffer} (h : b.length < 2 ^ 64) :
    putHeader type b =
      .ok () (reading (type.code :: leBytes 8 (max 1 b.length)) (b.internal.drop headerSize)) := by
  have hseek := seek_reading [] b.internal b rfl
  have hcode : put [type.code] (reading [] b.internal) =
      .ok () (reading [type.code] (b.internal.drop 1)) := put_reading (by simp)
  -- an empty buffer has one byte when its length is looked at
  have hlen : (reading [type.code] (b.internal.drop 1)).length = max 1 b.length := by
    rw [length_reading, List.length_drop, List.length_singleton]
    change 1 + (b.length - 1) = max 1 b.length
    omega
  have hsize : (UInt64.ofNat (max 1 b.length)).toNat = max 1 b.length :=
    UInt64.toNat_ofNat_of_lt (by rw [UInt64.size]; omega)
  have hput : putUInt64 (UInt64.ofNat (max 1 b.length)) (reading [type.code] (b.internal.drop 1)) =
      .ok () (reading (type.code :: leBytes 8 (max 1 b.length)) (b.internal.drop headerSize)) := by
    unfold putUInt64
    rw [hsize, put_reading (by simp), length_leBytes, List.drop_drop]
    rfl
  refine (EStateM.bind_of_ok hseek).trans ?_
  refine (EStateM.bind_of_ok hcode).trans ?_
  change putUInt64 (UInt64.ofNat (reading [type.code] (b.internal.drop 1)).length) _ = _
  rw [hlen, hput]

theorem grows_putHeader (type : MessageType) : Grows (putHeader type) :=
  .bind (.seek 0) fun _ => .bind (.put _) fun _ b _ b' h => Grows.put _ b _ b' h

theorem frame_ok (type : MessageType) {body : BufferM Unit} {data : List UInt8}
    (hbody : Appends body data) (h : headerSize + data.length < 2 ^ 31) :
    frame type body {} = .ok () (reading [] (frameBytes type data)) := by
  unfold headerSize at h
  let reserved := type.code :: leBytes 8 1
  have hlen : reserved.length = 9 := by simp [reserved]
  have hreserve : reserveHeader type {} = .ok () (reading reserved []) :=
    putHeader_ok type (by decide)
  -- the body is put behind the reserved header, which then gets the length
  have hwritten := hbody reserved (by omega)
  have hheader : putHeader type (reading (reserved ++ data) []) =
      .ok () (reading (type.code :: leBytes 8 (headerSize + data.length)) data) := by
    have hdrop : (reserved ++ data).drop headerSize = data := List.drop_left' hlen
    have hmax : max 1 (reserved ++ data).length = headerSize + data.length := by
      rw [List.length_append, headerSize]
      omega
    rw [putHeader_ok type (by simp only [length_reading, List.length_append, List.length_nil]; omega),
      length_reading, List.length_nil, Nat.add_zero, hmax, internal_reading, List.append_nil,
      hdrop]
  have hseek := seek_reading [] (frameBytes type data)
    (reading (type.code :: leBytes 8 (headerSize + data.length)) data) rfl
  refine (EStateM.bind_of_ok hreserve).trans ?_
  refine (EStateM.bind_of_ok hwritten).trans ?_
  refine (EStateM.bind_of_ok hheader).trans ?_
  exact hseek

/-- What a `Serialize` has written is a frame around what its body has put behind the header. -/
theorem frame_eq_ok {type : MessageType} {body : BufferM Unit} {b : ByteBuffer}
    (h : frame type body {} = .ok () b) :
    ∃ b₁, body (reading (type.code :: leBytes 8 1) []) = .ok () b₁ ∧
      ∀ data, b₁.internal = type.code :: leBytes 8 1 ++ data → headerSize + data.length < 2 ^ 64 →
        b = reading [] (frameBytes type data) := by
  have hreserve : reserveHeader type {} = .ok () (reading (type.code :: leBytes 8 1) []) :=
    putHeader_ok type (by decide)
  rcases EStateM.bind_eq_ok h with ⟨_, b₀, h₀, h⟩
  rw [hreserve] at h₀
  cases h₀
  rcases EStateM.bind_eq_ok h with ⟨_, b₁, hbody, h⟩
  rcases EStateM.bind_eq_ok h with ⟨_, b₂, hheader, hseek⟩
  refine ⟨b₁, hbody, fun data hdata hsize => ?_⟩
  -- the second header covers exactly the first one
  have hreserved : (type.code :: leBytes 8 1).length = headerSize := by simp [headerSize]
  have hlen : b₁.length = headerSize + data.length := by
    rw [length, hdata, List.length_append, hreserved]
  have hdrop : b₁.internal.drop headerSize = data := by
    rw [hdata]
    exact List.drop_left' hreserved
  have hmax : max 1 (headerSize + data.length) = headerSize + data.length := by
    unfold headerSize
    omega
  rw [putHeader_ok type (by omega), hlen, hmax, hdrop] at hheader
  cases hheader
  cases hseek
  rfl

end Bem
