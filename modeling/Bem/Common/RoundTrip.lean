import Bem.Common.Stream

/-!
# What a stream of messages delivers

Each message is put in a `Frame`, and the runs of `Framing` become runs of the factory.
-/

namespace Bem

open ByteBuffer MessageFactory

namespace Message

/-! ## Frames of fixed length -/

section Frames

variable (lib : BsonLibrary)

theorem decode_task :
    decode lib MessageType.task.code = TaskMessage.deserialize {} >>= fun m => pure (.task m) := rfl

theorem decode_result :
    decode lib MessageType.result.code =
      ResultMessage.deserialize >>= fun m => pure (.result m) := rfl

theorem decode_hello :
    decode lib MessageType.hello.code =
      HelloMessage.deserialize lib {} >>= fun m => pure (.hello m) := rfl

theorem decode_taskNotify :
    decode lib MessageType.taskNotify.code =
      TaskNotifyMessage.deserialize >>= fun m => pure (.taskNotify m) := rfl

private theorem parses_map {α β : Type} {m : BufferM α} {data : List UInt8} {a : α}
    (h : Parses m data a) (g : α → β) : Parses (m >>= fun x => pure (g x)) data (g a) := by
  have hbind : Parses (m >>= fun x => pure (g x)) (data ++ []) (g a) := h.bind (.pure (g a))
  rwa [List.append_nil] at hbind

/-- A frame whose decoder stops at its end. -/
def exactFrame (type : MessageType) (data : List UInt8) (message : Message)
    (h : Parses (decode lib type.code) data message) : Frame lib where
  type := type
  data := data
  message := message
  greedy := false
  decodes := fun pre rest hlen _ => h pre rest (by omega)
  rejects := by
    intro hgreedy
    cases hgreedy

def taskFrame (m : TaskMessage) : Frame lib :=
  exactFrame lib .task m.task.bytes (.task { task := m.task.received })
    (parses_map (parses_map m.task.parses_deserialize TaskMessage.mk) task)

def resultFrame (m : ResultMessage) : Frame lib :=
  exactFrame lib .result (leBytes 4 m.taskId.toNat ++ m.result.bytes) (.result m)
    (parses_map (.bind (.uint32 m.taskId) (parses_map m.result.parses_deserialize _)) result)

def taskNotifyFrame (m : TaskNotifyMessage) : Frame lib :=
  exactFrame lib .taskNotify (leBytes 4 m.taskId.toNat ++ [m.taskStatus.code]) (.taskNotify m) <| by
    have hstatus : Parses (getByte >>= fun code =>
        pure { taskId := m.taskId, taskStatus := TaskStatus.ofCode code : TaskNotifyMessage })
        [m.taskStatus.code] m := by
      have h := parses_map (.byte m.taskStatus.code)
        fun code => { taskId := m.taskId, taskStatus := TaskStatus.ofCode code : TaskNotifyMessage }
      rwa [TaskStatus.ofCode_code] at h
    exact parses_map (.bind (.uint32 m.taskId) hstatus) taskNotify

/-! ## The frame of a game list -/

private theorem foldlM_push (acc bytes : List UInt8) :
    bytes.foldlM (fun bytes byte => Except.ok (ε := Fault) (bytes ++ [byte])) acc =
      .ok (acc ++ bytes) := by
  induction bytes generalizing acc with
  | nil =>
    rw [List.append_nil]
    rfl
  | cons byte bytes ih =>
    have hrest := ih (acc ++ [byte])
    rw [List.append_assoc, List.singleton_append] at hrest
    exact hrest

/-- Version and flag are read off, and then everything that is left. -/
theorem deserialize_hello (m : HelloMessage) {pre all : List UInt8} {protoVer flag : UInt8}
    (h : pre.length + (all.length + 2) < 2 ^ 31) :
    m.deserialize lib (reading pre (protoVer :: flag :: all)) =
      (match lib.from_bson all with
        | none => throw .jsonException
        | some j =>
          match j.atKey "gamelist" >>= m.gamelist.fromJson with
          | .error e => throw e
          | .ok gamelist => pure { protoVer, flag, gamelist } : BufferM HelloMessage)
        (reading (pre ++ protoVer :: flag :: all) []) := by
  have hprotoVer : getByte (reading pre (protoVer :: flag :: all)) =
      .ok protoVer (reading (pre ++ [protoVer]) (flag :: all)) := getByte_reading (by omega)
  have hflag : getByte (reading (pre ++ [protoVer]) (flag :: all)) =
      .ok flag (reading (pre ++ [protoVer] ++ [flag]) all) :=
    getByte_reading (by rw [List.length_append, List.length_singleton]; omega)
  have hbound : (pre ++ [protoVer] ++ [flag]).length + all.length < 2 ^ 31 := by
    simp only [List.length_append, List.length_singleton]
    omega
  have hdrain := drain_reading hbound (foldlM_push [] all)
  have hall : pre ++ [protoVer] ++ [flag] ++ all = pre ++ protoVer :: flag :: all := by simp
  rw [List.nil_append, hall] at hdrain
  refine (EStateM.bind_of_ok hprotoVer).trans ?_
  refine (EStateM.bind_of_ok hflag).trans ?_
  exact EStateM.bind_of_ok hdrain

/-- The game list in a document that is read comes from the one it was written for. -/
theorem deserialize_document {m : HelloMessage} {pre bytes : List UInt8}
    (hinverse : lib.from_bson bytes = some m.document) (h : pre.length + (bytes.length + 2) < 2 ^ 31) :
    HelloMessage.deserialize lib {} (reading pre (m.protoVer :: m.flag :: bytes)) =
      .ok { m with gamelist := m.gamelist.rekeyed }
        (reading (pre ++ m.protoVer :: m.flag :: bytes) []) := by
  rw [deserialize_hello lib {} h, hinverse]
  change (match (GameList.fromJson {} m.gamelist.toJson) with
    | .error e => throw e
    | .ok gamelist => pure _ : BufferM HelloMessage) _ = _
  rw [GameList.fromJson_toJson]
  rfl

/-- The document `bytes` of a game list is decoded alone, and not with more bytes behind it. -/
def helloFrame (m : HelloMessage) (bytes : List UInt8)
    (hinverse : lib.from_bson bytes = some m.document)
    (hstrict : ∀ rest, rest ≠ [] → lib.from_bson (bytes ++ rest) = none) : Frame lib where
  type := .hello
  data := m.protoVer :: m.flag :: bytes
  message := .hello { m with gamelist := m.gamelist.rekeyed }
  greedy := true
  decodes := by
    intro pre rest hlen hlast
    rw [hlast rfl, List.append_nil, decode_hello]
    have hbound : pre.length + (bytes.length + 2) < 2 ^ 31 :=
      Nat.lt_of_le_of_lt (Nat.le_add_right _ _) hlen
    exact EStateM.bind_of_ok (deserialize_document lib hinverse hbound)
  rejects := by
    intro _ pre rest hlen hrest
    refine ⟨.jsonException, reading (pre ++ m.protoVer :: m.flag :: (bytes ++ rest)) [], ?_⟩
    rw [decode_hello]
    refine EStateM.bind_of_error ?_
    change HelloMessage.deserialize lib {} (reading pre (m.protoVer :: m.flag :: (bytes ++ rest))) = _
    rw [deserialize_hello lib {} (by simp only [List.length_append, List.length_cons] at *; omega),
      hstrict rest hrest]
    rfl

end Frames

/-! ## Serialization gives these frames -/

variable {lib : BsonLibrary}

private theorem serialize_of_ok {m : Message} {b : ByteBuffer} (h : m.write lib {} = .ok () b) :
    m.serialize lib = .ok b := by
  unfold serialize
  rw [h]

theorem serialize_task (m : TaskMessage) :
    (task m).serialize lib = .ok (reading [] (taskFrame lib m).bytes) := by
  have hlen : headerSize + m.task.bytes.length < 2 ^ 31 := by
    rw [Task.length_bytes]
    decide
  exact serialize_of_ok (frame_ok .task m.task.appends_serialize hlen)

theorem serialize_result (m : ResultMessage) :
    (result m).serialize lib = .ok (reading [] (resultFrame lib m).bytes) := by
  have hbody : Appends (putUInt32 m.taskId >>= fun _ => m.result.serialize)
      (leBytes 4 m.taskId.toNat ++ m.result.bytes) := .bind (.put _) m.result.appends_serialize
  have hlen : headerSize + (leBytes 4 m.taskId.toNat ++ m.result.bytes).length < 2 ^ 31 := by
    rw [List.length_append, length_leBytes, Result.length_bytes]
    decide
  exact serialize_of_ok (frame_ok .result hbody hlen)

theorem serialize_taskNotify (m : TaskNotifyMessage) :
    (taskNotify m).serialize lib = .ok (reading [] (taskNotifyFrame lib m).bytes) := by
  have hbody : Appends (putUInt32 m.taskId >>= fun _ => put [m.taskStatus.code])
      (leBytes 4 m.taskId.toNat ++ [m.taskStatus.code]) := .bind (.put _) (.put _)
  have hlen : headerSize + (leBytes 4 m.taskId.toNat ++ [m.taskStatus.code]).length < 2 ^ 31 := by
    rw [List.length_append, length_leBytes, List.length_singleton]
    decide
  exact serialize_of_ok (frame_ok .taskNotify hbody hlen)

private theorem appends_hello (v fl : UInt8) (bytes : List UInt8) :
    Appends (do put [v]; put [fl]; putEach bytes) (v :: fl :: bytes) := by
  have hrest : Appends (put [fl] >>= fun _ => putEach bytes) ([fl] ++ bytes) :=
    .bind (.put _) (.putEach bytes)
  have hall : Appends (put [v] >>= fun _ => put [fl] >>= fun _ => putEach bytes)
      ([v] ++ ([fl] ++ bytes)) := .bind (.put _) hrest
  exact hall

theorem serialize_hello {m : HelloMessage} {bytes : List UInt8}
    (hbson : lib.to_bson m.document = some bytes)
    (hlen : headerSize + (m.protoVer :: m.flag :: bytes).length < 2 ^ 31) :
    (hello m).serialize lib =
      .ok (reading [] (frameBytes .hello (m.protoVer :: m.flag :: bytes))) := by
  refine serialize_of_ok ?_
  change HelloMessage.serialize lib m {} = _
  unfold HelloMessage.serialize
  rw [hbson]
  exact frame_ok .hello (appends_hello m.protoVer m.flag bytes) hlen

private theorem frame_hello_eq_ok {v fl : UInt8} {bytes : List UInt8} {b : ByteBuffer}
    (h : frame .hello (do put [v]; put [fl]; putEach bytes) {} = .ok () b) :
    min (headerSize + (v :: fl :: bytes).length) (2 ^ 31) ≤ b.length := by
  let reserved := MessageType.hello.code :: leBytes 8 1
  have hreserved : reserveHeader .hello {} = .ok () (reading reserved []) :=
    putHeader_ok .hello (by decide)
  have hversion : put [v] (reading reserved []) = .ok () (reading (reserved ++ [v]) []) :=
    put_reading (by simp [reserved])
  have hflag : put [fl] (reading (reserved ++ [v]) []) =
      .ok () (reading (reserved ++ [v] ++ [fl]) []) := put_reading (by simp [reserved])
  rcases EStateM.bind_eq_ok h with ⟨_, b₁, h₁, hbody⟩
  rw [hreserved] at h₁
  cases h₁
  rcases EStateM.bind_eq_ok hbody with ⟨_, b₂, h₂, hheader⟩
  rcases EStateM.bind_eq_ok h₂ with ⟨_, b₃, h₃, h₄⟩
  rw [hversion] at h₃
  cases h₃
  rcases EStateM.bind_eq_ok h₄ with ⟨_, b₄, h₅, hbytes⟩
  rw [hflag] at h₅
  cases h₅
  have hwritten := length_putEach (by simp [reserved]) hbytes
  have hafter : b₂.length ≤ b.length :=
    Grows.bind (grows_putHeader .hello) (fun _ => Grows.seek 0) b₂ () b hheader
  have hlen : (reserved ++ [v] ++ [fl]).length = headerSize + 2 := by simp [reserved, headerSize]
  rw [hlen] at hwritten
  simp only [List.length_cons]
  omega

/-- A game list that has been serialized to fewer than `2 ^ 31` bytes is a frame around its
document. -/
theorem serialize_hello_eq_ok {m : HelloMessage} {b : ByteBuffer}
    (h : (hello m).serialize lib = .ok b) (hlen : b.length < 2 ^ 31) :
    ∃ bytes, lib.to_bson m.document = some bytes ∧
      headerSize + (m.protoVer :: m.flag :: bytes).length < 2 ^ 31 ∧
      b.internal = frameBytes .hello (m.protoVer :: m.flag :: bytes) := by
  have hwrite : m.serialize lib {} = .ok () b := write_of_serialize h
  unfold HelloMessage.serialize at hwrite
  cases hbson : lib.to_bson m.document with
  | none =>
    rw [hbson] at hwrite
    rcases EStateM.bind_eq_ok hwrite with ⟨_, b₁, -, h₁⟩
    rcases EStateM.bind_eq_ok h₁ with ⟨_, b₂, h₂, -⟩
    rcases EStateM.bind_eq_ok h₂ with ⟨_, b₃, -, h₃⟩
    rcases EStateM.bind_eq_ok h₃ with ⟨_, b₄, -, hthrow⟩
    cases hthrow
  | some bytes =>
    rw [hbson] at hwrite
    have hle := frame_hello_eq_ok hwrite
    have hfits : headerSize + (m.protoVer :: m.flag :: bytes).length < 2 ^ 31 := by omega
    refine ⟨bytes, rfl, hfits, ?_⟩
    have hframe := serialize_hello hbson hfits
    rw [hframe] at h
    cases h
    rfl

end Message

end Bem
