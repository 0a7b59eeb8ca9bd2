import Bem.Common.RoundTrip

/-!
# Malformed streams

Which streams a reader gets through, and which end it.  A decoder reads as much as its class has, from
wherever the header ends, and throws when the buffer has less.
-/

namespace Bem

open ByteBuffer

/-! ## Decoders on any bytes -/

namespace ByteBuffer

/-- `m` takes `k` bytes, whatever they are, and throws if there are fewer. -/
def Takes {α : Type} (m : BufferM α) (k : Nat) : Prop :=
  ∀ pre rest : List UInt8, pre.length + rest.length < 2 ^ 31 →
    (k ≤ rest.length → ∃ a, m (reading pre rest) =
      .ok a (reading (pre ++ rest.take k) (rest.drop k))) ∧
    (rest.length < k → ∃ e b, m (reading pre rest) = .error e b)

theorem Takes.pure {α : Type} (a : α) : Takes (Pure.pure a) 0 := by
  intro pre rest _
  refine ⟨fun _ => ⟨a, ?_⟩, fun h => absurd h (Nat.not_lt_zero _)⟩
  rw [List.take_zero, List.append_nil, List.drop_zero]
  rfl

theorem Takes.bind {α β : Type} {m : BufferM α} {f : α → BufferM β} {k k' : Nat}
    (hm : Takes m k) (hf : ∀ a, Takes (f a) k') : Takes (m >>= f) (k + k') := by
  intro pre rest h
  by_cases hk : k ≤ rest.length
  · obtain ⟨a, ha⟩ := (hm pre rest h).1 hk
    have hlen : (pre ++ rest.take k).length + (rest.drop k).length < 2 ^ 31 := by
      rw [List.length_append, List.length_take, List.length_drop]
      omega
    have hnext := hf a (pre ++ rest.take k) (rest.drop k) hlen
    rw [EStateM.bind_of_ok ha]
    rw [List.length_drop] at hnext
    refine ⟨fun hle => ?_, fun hlt => hnext.2 (by omega)⟩
    obtain ⟨b, hb⟩ := hnext.1 (by omega)
    refine ⟨b, ?_⟩
    rw [hb, List.append_assoc, ← List.take_add, List.drop_drop]
  · obtain ⟨e, b, he⟩ := (hm pre rest h).2 (by omega)
    exact ⟨fun hle => absurd (Nat.le_of_add_right_le hle) hk,
      fun _ => ⟨e, b, EStateM.bind_of_error he⟩⟩

theorem Takes.get (n : Nat) : Takes (get n) n := by
  intro pre rest h
  refine ⟨fun hle => ⟨rest.take n, ?_⟩, fun hlt => ?_⟩
  · have htake : (rest.take n).length = n := List.length_take_of_le hle
    have hget := get_reading pre (rest.take n) (rest.drop n) (by omega)
    rwa [htake, List.take_append_drop] at hget
  · cases hget : ByteBuffer.get n (reading pre rest) with
    | error e b => exact ⟨e, b, rfl⟩
    | ok bytes b =>
      have hlen := (get_eq_ok hget).1
      rw [offset_reading pre rest (by omega), length_reading] at hlen
      omega

theorem Takes.byte : Takes getByte 1 := .bind (.get _) fun _ => .pure _

theorem Takes.uint32 : Takes getUInt32 4 := .bind (.get _) fun _ => .pure _

theorem Takes.uint64 : Takes getUInt64 8 := .bind (.get _) fun _ => .pure _

/-- Reading up to the end gets there. -/
theorem drain_eq_ok {β : Type} {f : β → UInt8 → Except Fault β} {acc acc' : β} {b b' : ByteBuffer}
    (h : drain f acc b = .ok acc' b') : b'.remainingBytes = 0 := by
  fun_induction drain f acc b with
  | case1 acc b hrem =>
    cases h
    exact hrem
  | case2 acc b hrem e b₁ hg => cases h
  | case3 acc b hrem byte b₁ hg e hfacc => cases h
  | case4 acc b hrem byte b₁ hg acc₁ hfacc ih => exact ih h

/-- The cursor never gets to the end of a vector of `2 ^ 31` bytes or more. -/
theorem length_of_drain {β : Type} {f : β → UInt8 → Except Fault β} {acc acc' : β}
    {b b' : ByteBuffer} (h : drain f acc b = .ok acc' b') (hlen : b.length < 2 ^ 63) :
    b.length < 2 ^ 31 := by
  have hrest := drain_eq_ok h
  have hsame : b'.length = b.length := congrArg List.length (Advances.drain f acc b acc' b' h).1
  have hlt := b'.offset_lt
  unfold remainingBytes at hrest
  -- a cursor that is a length is below `2 ^ 63`, and therefore below `2 ^ 31`
  have hend : b'.offset = b.length := by omega
  have hsmall := b'.offset_small (by omega)
  omega

/-! ## A cursor within the bytes -/

/-- The bytes fit a vector, and the cursor stands within them or behind every vector. -/
def Sound (b : ByteBuffer) : Prop :=
  b.length ≤ maxSize ∧ (b.offset ≤ b.length ∨ 2 ^ 63 ≤ b.offset)

instance (b : ByteBuffer) : Decidable b.Sound := inferInstanceAs (Decidable (_ ∧ _))

/-- A cursor that is cut down to 32 bits stands before `n`, or behind every vector. -/
theorem offset_ofNat (n : Nat) (internal : List UInt8) :
    offset ⟨internal, Int32.ofNat n⟩ ≤ n ∨ 2 ^ 63 ≤ offset ⟨internal, Int32.ofNat n⟩ := by
  have hposition : (Int32.ofNat n).toInt = (n : Int).bmod (2 ^ 32) := Int32.toInt_ofNat
  unfold offset
  rw [hposition, Int.bmod_def]
  split <;> omega

/-- `data` at the cursor. -/
def stored (b : ByteBuffer) (data : List UInt8) : ByteBuffer where
  internal := b.internal.take b.offset ++ data ++ b.internal.drop (b.offset + data.length)
  position := Int32.ofNat (b.offset + data.length)

theorem Sound.reading {rest : List UInt8} (h : rest.length < 2 ^ 31) : (reading rest []).Sound := by
  unfold Sound
  rw [offset_reading rest [] h, length_reading, List.length_nil, Nat.add_zero]
  exact ⟨by unfold maxSize; omega, Or.inl (le_refl _)⟩

theorem Sound.eq_reading {b : ByteBuffer} (hb : b.Sound) (h : b.offset < 2 ^ 63) :
    b = ByteBuffer.reading (b.internal.take b.offset) (b.internal.drop b.offset) := by
  have hlen : (b.internal.take b.offset).length = b.offset := by
    rw [List.length_take]
    exact Nat.min_eq_left (hb.2.resolve_right (by omega))
  have hsmall := b.offset_small h
  have hposition : b.position = Int32.ofNat b.offset := by
    apply Int32.toInt_inj.mp
    rw [Int32.toInt_ofNat_of_lt hsmall]
    have hlt := b.position.toInt_lt
    have hle := b.position.le_toInt
    unfold offset at h ⊢
    omega
  unfold ByteBuffer.reading
  rw [hlen, List.take_append_drop, ← hposition]

theorem put_of_sound {b : ByteBuffer} {data : List UInt8} (hb : b.Sound)
    (h : b.offset + data.length ≤ maxSize) : put data b = .ok () (b.stored data) := by
  have hend : b.offset < 2 ^ 63 := by
    unfold maxSize at h
    omega
  have hlen : (b.internal.take b.offset).length = b.offset := by
    rw [List.length_take]
    exact Nat.min_eq_left (hb.2.resolve_right (by omega))
  have hput := @put_reading_of_le _ (b.internal.drop b.offset) data
    (show (b.internal.take b.offset).length < 2 ^ 31 by
      rw [hlen]
      exact b.offset_small hend) (by omega)
  rw [← hb.eq_reading hend] at hput
  rw [hput]
  unfold stored ByteBuffer.reading
  rw [List.length_append, hlen, List.drop_drop]

theorem Sound.stored {b : ByteBuffer} {data : List UInt8} (hb : b.Sound)
    (h : b.offset + data.length ≤ maxSize) : (b.stored data).Sound := by
  have hgrown := (put_eq_ok (put_of_sound hb h)).2.1
  refine ⟨?_, ?_⟩
  · rw [hgrown]
    exact Nat.max_le.mpr ⟨hb.1, h⟩
  · have hle : b.offset + data.length ≤ (b.stored data).length := by omega
    exact (offset_ofNat (b.offset + data.length) _).imp_left fun hoffset => le_trans hoffset hle

end ByteBuffer

theorem Task.takes_deserialize (t : Task) : Takes t.deserialize 40 :=
  .bind .uint32 fun _ => .bind .uint64 fun _ => .bind .uint64 fun _ => .bind .uint64 fun _ =>
    .bind .uint32 fun _ => .bind .uint32 fun _ => .bind .uint32 fun _ => .pure _

theorem Result.takes_deserialize : Takes Result.deserialize 24 :=
  .bind .uint32 fun _ => .bind .uint32 fun _ => .bind .uint32 fun _ => .bind .uint32 fun _ =>
    .bind .uint32 fun _ => .bind .uint32 fun _ => .pure _

theorem TaskMessage.takes_deserialize (m : TaskMessage) : Takes m.deserialize 40 :=
  .bind (Task.takes_deserialize _) fun _ => .pure _

theorem ResultMessage.takes_deserialize : Takes ResultMessage.deserialize 28 :=
  .bind .uint32 fun _ => .bind Result.takes_deserialize fun _ => .pure _

theorem TaskNotifyMessage.takes_deserialize : Takes TaskNotifyMessage.deserialize 5 :=
  .bind .uint32 fun _ => .bind .byte fun _ => .pure _

/-- Two bytes, and a document with a list of games that can be read. -/
def HelloMessage.Readable (lib : BsonLibrary) (body : List UInt8) : Prop :=
  2 ≤ body.length ∧ ∃ j ∈ lib.from_bson (body.drop 2),
    (j.atKey "gamelist" >>= ({} : HelloMessage).gamelist.fromJson).isOk

instance (lib : BsonLibrary) (body : List UInt8) : Decidable (HelloMessage.Readable lib body) :=
  inferInstanceAs (Decidable (_ ∧ ∃ j ∈ lib.from_bson (body.drop 2), _ = true))

theorem HelloMessage.deserialize_reading (lib : BsonLibrary) {pre rest : List UInt8}
    (h : pre.length + rest.length < 2 ^ 31) :
    (Readable lib rest → ∃ m : HelloMessage, HelloMessage.deserialize lib {} (reading pre rest) =
      .ok m (reading (pre ++ rest) [])) ∧
    (¬ Readable lib rest →
      ∃ e b, HelloMessage.deserialize lib {} (reading pre rest) = .error e b) := by
  -- the version and the flag are read one by one, and the document is what comes behind them
  match rest, h with
  | [], h =>
    refine ⟨fun hreadable => absurd hreadable.1 (by decide), fun _ => ?_⟩
    obtain ⟨e, b, hversion⟩ := (Takes.byte pre [] h).2 (by decide)
    exact ⟨e, b, EStateM.bind_of_error hversion⟩
  | [protoVer], h =>
    refine ⟨fun hreadable => absurd hreadable.1 (by simp), fun _ => ?_⟩
    have hversion : getByte (reading pre [protoVer]) = .ok protoVer (reading (pre ++ [protoVer]) []) :=
      getByte_reading h
    obtain ⟨e, b, hflag⟩ := (Takes.byte (pre ++ [protoVer]) [] (by
      rw [List.length_append, List.length_nil, Nat.add_zero]
      exact h)).2 (by decide)
    exact ⟨e, b, (EStateM.bind_of_ok hversion).trans (EStateM.bind_of_error hflag)⟩
  | protoVer :: flag :: all, h =>
    rw [Message.deserialize_hello lib {} h]
    cases hdoc : lib.from_bson all with
    | none =>
      refine ⟨fun hreadable => ?_, fun _ => ⟨.jsonException, _, rfl⟩⟩
      obtain ⟨-, j, hj, -⟩ := hreadable
      change lib.from_bson all = some j at hj
      rw [hdoc] at hj
      cases hj
    | some j =>
      cases hgames : j.atKey "gamelist" >>= ({} : HelloMessage).gamelist.fromJson with
      | error e =>
        refine ⟨fun hreadable => ?_, fun _ => ⟨e, reading (pre ++ protoVer :: flag :: all) [], ?_⟩⟩
        · obtain ⟨-, j', hj', hok⟩ := hreadable
          change lib.from_bson all = some j' at hj'
          rw [hdoc] at hj'
          cases hj'
          rw [hgames] at hok
          cases hok
        · simp only [hgames]
          rfl
      | ok gamelist =>
        refine ⟨fun _ => ⟨{ protoVer, flag, gamelist }, ?_⟩, fun hnot => absurd ?_ hnot⟩
        · simp only [hgames]
          rfl
        · refine ⟨by simp, j, hdoc, ?_⟩
          rw [hgames]
          rfl

/-! ## One frame -/

namespace Message

/-- The types that `Interpret` refuses. -/
def Unknown (type : UInt8) : Prop := type.toInt8 ≤ 0 ∨ 6 ≤ type.toInt8

instance (type : UInt8) : Decidable (Unknown type) :=
  inferInstanceAs (Decidable (type.toInt8 ≤ 0 ∨ 6 ≤ type.toInt8))

/-- A body that its class writes: of the one length the class has, or a list of games. -/
def Fits (lib : BsonLibrary) (type : UInt8) (body : List UInt8) : Prop :=
  type = MessageType.task.code ∧ body.length = 40 ∨
  type = MessageType.result.code ∧ body.length = 28 ∨
  type = MessageType.taskNotify.code ∧ body.length = 5 ∨
  type = MessageType.hello.code ∧ HelloMessage.Readable lib body

instance (lib : BsonLibrary) (type : UInt8) (body : List UInt8) : Decidable (Fits lib type body) :=
  inferInstanceAs (Decidable (_ ∨ _ ∨ _ ∨ _))

/-- How many of the bytes `rest` behind a header its class reads; `none` if it throws. -/
def taken (lib : BsonLibrary) (type : UInt8) (rest : List UInt8) : Option Nat :=
  if Unknown type then some 0
  else if type = MessageType.task.code then if 40 ≤ rest.length then some 40 else none
  else if type = MessageType.result.code then if 28 ≤ rest.length then some 28 else none
  else if type = MessageType.hello.code then
    if HelloMessage.Readable lib rest then some rest.length else none
  else if type = MessageType.taskNotify.code then if 5 ≤ rest.length then some 5 else none
  else none

/-- A class with `n` bytes, as one of the messages. -/
private theorem takes_class {α : Type} {m : BufferM α} {n : Nat} (hm : Takes m n) (g : α → Message)
    (hg : ∀ a, g a ≠ .invalid) {pre rest : List UInt8} (h : pre.length + rest.length < 2 ^ 31) :
    match if n ≤ rest.length then some n else none with
    | none => ∃ e b, (m >>= fun a => pure (g a)) (reading pre rest) = .error e b
    | some k => ∃ message, message ≠ .invalid ∧ (m >>= fun a => pure (g a)) (reading pre rest) =
        .ok message (reading (pre ++ rest.take k) (rest.drop k)) := by
  by_cases hn : n ≤ rest.length
  · obtain ⟨a, ha⟩ := (hm pre rest h).1 hn
    rw [if_pos hn]
    exact ⟨g a, hg a, EStateM.bind_of_ok ha⟩
  · obtain ⟨e, b, he⟩ := (hm pre rest h).2 (by omega)
    rw [if_neg hn]
    exact ⟨e, b, EStateM.bind_of_error he⟩

theorem decode_reading (lib : BsonLibrary) (type : UInt8) {pre rest : List UInt8}
    (h : pre.length + rest.length < 2 ^ 31) :
    match taken lib type rest with
    | none => ∃ e b, decode lib type (reading pre rest) = .error e b
    | some k => ∃ message, (message = .invalid ↔ Unknown type) ∧
        decode lib type (reading pre rest) =
          .ok message (reading (pre ++ rest.take k) (rest.drop k)) := by
  by_cases hunknown : Unknown type
  · have hnone : taken lib type rest = some 0 := if_pos hunknown
    have hdecode : decode lib type = pure .invalid := if_pos hunknown
    rw [hnone, hdecode]
    refine ⟨.invalid, ⟨fun _ => hunknown, fun _ => rfl⟩, ?_⟩
    rw [List.take_zero, List.append_nil, List.drop_zero]
    rfl
  have hiff (message : Message) : (message = .invalid ↔ Unknown type) ↔ message ≠ .invalid :=
    iff_false_right hunknown
  simp only [hiff]
  by_cases htask : type = MessageType.task.code
  · subst htask
    rw [decode_task]
    exact takes_class (TaskMessage.takes_deserialize {}) task (fun _ => by simp) h
  by_cases hresult : type = MessageType.result.code
  · subst hresult
    rw [decode_result]
    exact takes_class ResultMessage.takes_deserialize result (fun _ => by simp) h
  by_cases hhello : type = MessageType.hello.code
  · subst hhello
    have hread := HelloMessage.deserialize_reading lib h
    change match if HelloMessage.Readable lib rest then some rest.length else none with
      | none => ∃ e b, decode lib MessageType.hello.code (reading pre rest) = .error e b
      | some k => ∃ message, message ≠ .invalid ∧
          decode lib MessageType.hello.code (reading pre rest) =
            .ok message (reading (pre ++ rest.take k) (rest.drop k))
    rw [decode_hello]
    by_cases hreadable : HelloMessage.Readable lib rest
    · obtain ⟨m, hm⟩ := hread.1 hreadable
      rw [if_pos hreadable]
      refine ⟨hello m, by simp, ?_⟩
      rw [List.take_length, List.drop_length]
      exact EStateM.bind_of_ok hm
    · obtain ⟨e, b, he⟩ := hread.2 hreadable
      rw [if_neg hreadable]
      exact ⟨e, b, EStateM.bind_of_error he⟩
  by_cases hnotify : type = MessageType.taskNotify.code
  · subst hnotify
    rw [decode_taskNotify]
    exact takes_class TaskNotifyMessage.takes_deserialize taskNotify (fun _ => by simp) h
  -- the type of an error, which no class takes
  have hnone : taken lib type rest = none :=
    (if_neg hunknown).trans <| (if_neg htask).trans <| (if_neg hresult).trans <|
      (if_neg hhello).trans (if_neg hnotify)
  have hdecode : decode lib type = throw .assertFailed :=
    (if_neg hunknown).trans <| (if_neg htask).trans <| (if_neg hresult).trans <|
      (if_neg hhello).trans (if_neg hnotify)
  rw [hnone, hdecode]
  exact ⟨.assertFailed, _, rfl⟩

end Message

namespace ByteBuffer

/-- The type byte of the frame in front. -/
def frontType (b : ByteBuffer) : UInt8 := b.internal.headD 0

/-- The length that the frame in front declares. -/
def declaredSize (b : ByteBuffer) : Nat := leValue ((b.internal.drop sizeOffset).take 8)

/-- All that the buffer holds behind the header in front. -/
def behindHeader (b : ByteBuffer) : List UInt8 := b.internal.drop headerSize

end ByteBuffer

namespace MessageFactory

variable {lib : BsonLibrary}

theorem getAt_type {b : ByteBuffer} (h : 1 ≤ b.length) :
    ∃ bytes, getAt typeOffset 1 b = .ok bytes b ∧ bytes.headD 0 = b.frontType := by
  refine ⟨(b.internal.drop typeOffset).take 1, ?_, ?_⟩
  · unfold getAt typeOffset
    rw [if_pos (show (0 + 1) % 2 ^ 64 ≤ b.length by omega),
      if_pos (show 0 + 1 ≤ min b.length maxSize by unfold maxSize; omega)]
  · unfold ByteBuffer.frontType
    cases b.internal with
    | nil => rfl
    | cons type rest => rfl

theorem getAt_declared {b : ByteBuffer} (h : headerSize ≤ b.length) :
    getAt sizeOffset 8 b = .ok ((b.internal.drop sizeOffset).take 8) b := by
  unfold headerSize at h
  unfold getAt sizeOffset
  rw [if_pos (show (1 + 8) % 2 ^ 64 ≤ b.length by omega),
    if_pos (show 1 + 8 ≤ min b.length maxSize by unfold maxSize; omega)]

/-- The cursor of a factory that has looked at the type byte stands behind the header. -/
theorem interpret_seeks {f : MessageFactory} (h : headerSize ≤ f.buf.length) :
    interpret lib f = (onBuf (Message.decode lib f.buf.frontType) >>= fun message => do
        modify fun f => { f with readyMessages := f.readyMessages ++ [message], messageSize := 0 }
        let newBuf ← onBuf copyRemaining
        modify fun f => { f with buf := newBuf })
        { f with buf := reading (f.buf.internal.take headerSize) f.buf.behindHeader } := by
  have hheader : (f.buf.internal.take headerSize).length = headerSize := List.length_take_of_le h
  obtain ⟨bytes, htype, hfront⟩ := getAt_type (b := f.buf) (by unfold headerSize at h; omega)
  have hseek := seek_reading (f.buf.internal.take headerSize) f.buf.behindHeader f.buf
    (List.take_append_drop headerSize f.buf.internal).symm
  rw [hheader] at hseek
  refine (EStateM.bind_of_ok (onBuf_of_ok htype)).trans ?_
  rw [hfront]
  exact EStateM.bind_of_ok (onBuf_of_ok hseek)

/-- A message has been decoded, and `k` bytes behind the header are taken. -/
theorem interpret_of_decode {f : MessageFactory} {k : Nat} {message : Message}
    (h : headerSize ≤ f.buf.length) (hsmall : f.buf.length < 2 ^ 31)
    (hdecode : Message.decode lib f.buf.frontType
        (reading (f.buf.internal.take headerSize) f.buf.behindHeader) =
      .ok message (reading (f.buf.internal.take headerSize ++ f.buf.behindHeader.take k)
        (f.buf.behindHeader.drop k))) :
    interpret lib f =
      .ok () ⟨reading (f.buf.behindHeader.drop k) [], 0, f.readyMessages ++ [message]⟩ := by
  let header := f.buf.internal.take headerSize
  have hsplit : header ++ f.buf.behindHeader = f.buf.internal := List.take_append_drop _ _
  rw [interpret_seeks h]
  refine (EStateM.bind_of_ok (onBuf_of_ok hdecode)).trans ?_
  have hcopy := copyRemaining_reading (header ++ f.buf.behindHeader.take k)
    (f.buf.behindHeader.drop k) (by
      rw [← List.length_append, List.append_assoc, List.take_append_drop, hsplit]
      exact hsmall)
  let stepped : MessageFactory := ⟨reading (header ++ f.buf.behindHeader.take k)
    (f.buf.behindHeader.drop k), 0, f.readyMessages ++ [message]⟩
  change (onBuf copyRemaining >>= fun newBuf => modify fun f => { f with buf := newBuf })
    stepped = _
  rw [EStateM.bind_of_ok (onBuf_of_ok hcopy)]
  rfl

/-- The cursor stands between the header and what is behind it. -/
theorem decode_front (lib : BsonLibrary) {f : MessageFactory} (hsmall : f.buf.length < 2 ^ 31) :
    match Message.taken lib f.buf.frontType f.buf.behindHeader with
    | none => ∃ e b, Message.decode lib f.buf.frontType
        (reading (f.buf.internal.take headerSize) f.buf.behindHeader) = .error e b
    | some k => ∃ message, (message = .invalid ↔ Message.Unknown f.buf.frontType) ∧
        Message.decode lib f.buf.frontType
          (reading (f.buf.internal.take headerSize) f.buf.behindHeader) =
          .ok message (reading (f.buf.internal.take headerSize ++ f.buf.behindHeader.take k)
            (f.buf.behindHeader.drop k)) := by
  have hsplit : f.buf.internal.take headerSize ++ f.buf.behindHeader = f.buf.internal :=
    List.take_append_drop _ _
  apply Message.decode_reading
  rw [← List.length_append, hsplit]
  exact hsmall

/-- A frame that cannot be read leaves the messages before it. -/
theorem interpret_throws {f : MessageFactory} (h : headerSize ≤ f.buf.length)
    (hsmall : f.buf.length < 2 ^ 31)
    (htaken : Message.taken lib f.buf.frontType f.buf.behindHeader = none) :
    ∃ e buf, interpret lib f = .error e { f with buf } := by
  have hdecode := decode_front lib hsmall
  rw [htaken] at hdecode
  rcases hdecode with ⟨e, b, he⟩
  rw [interpret_seeks h]
  exact ⟨e, b, EStateM.bind_of_error (onBuf_of_error he)⟩

theorem interpret_taken {f : MessageFactory} (h : headerSize ≤ f.buf.length)
    (hsmall : f.buf.length < 2 ^ 31) :
    match Message.taken lib f.buf.frontType f.buf.behindHeader with
    | none => ∃ e g, interpret lib f = .error e g
    | some k => ∃ message, (message = .invalid ↔ Message.Unknown f.buf.frontType) ∧
        interpret lib f =
          .ok () ⟨reading (f.buf.behindHeader.drop k) [], 0, f.readyMessages ++ [message]⟩ := by
  have hdecode := decode_front lib hsmall
  cases htaken : Message.taken lib f.buf.frontType f.buf.behindHeader with
  | none =>
    obtain ⟨e, buf, he⟩ := interpret_throws h hsmall htaken
    exact ⟨e, _, he⟩
  | some k =>
    rw [htaken] at hdecode
    obtain ⟨message, hinvalid, hmessage⟩ := hdecode
    exact ⟨message, hinvalid, interpret_of_decode h hsmall hmessage⟩

theorem interpret_of_taken {f : MessageFactory} {k : Nat} (h : headerSize ≤ f.buf.length)
    (hsmall : f.buf.length < 2 ^ 31)
    (htaken : Message.taken lib f.buf.frontType f.buf.behindHeader = some k) :
    ∃ message, (message = .invalid ↔ Message.Unknown f.buf.frontType) ∧ interpret lib f =
      .ok () ⟨reading (f.buf.behindHeader.drop k) [], 0, f.readyMessages ++ [message]⟩ := by
  have htake := @interpret_taken lib f h hsmall
  rw [htaken] at htake
  exact htake

/-- No frame is taken off a buffer of `2 ^ 31` bytes or more. -/
theorem length_of_interpret {f f' : MessageFactory} (h : interpret lib f = .ok () f')
    (hmax : f.buf.length ≤ maxSize) : f.buf.length < 2 ^ 31 := by
  obtain ⟨type, b₁, htype, h₁⟩ := bind_onBuf_eq_ok h
  obtain ⟨rfl, -, -, -⟩ := getAt_eq_ok htype
  obtain ⟨_, b₂, hseek, h₂⟩ := bind_onBuf_eq_ok h₁
  cases hseek
  obtain ⟨message, b₃, hdecode, h₃⟩ := bind_onBuf_eq_ok h₂
  obtain ⟨hsame, -⟩ := Message.advances_decode lib _ _ _ _ hdecode
  obtain ⟨_, f₄, hmodify, h₄⟩ := EStateM.bind_eq_ok h₃
  cases hmodify
  obtain ⟨newBuf, b₅, hcopy, -⟩ := bind_onBuf_eq_ok h₄
  have hlen : b₃.length = f.buf.length := congrArg List.length hsame
  have hcopied := length_of_drain hcopy (by
    change b₃.length < 2 ^ 63
    unfold maxSize at hmax
    omega)
  change b₃.length < 2 ^ 31 at hcopied
  omega

/-! ## The frames of one chunk -/

/-- A whole frame stands in front, as far as the declared length tells. -/
def Ready (f : MessageFactory) : Prop :=
  headerSize ≤ f.buf.length ∧ f.messageSize ≠ 0 ∧ f.messageSize ≤ f.buf.length

/-- The body of the frame in front, by the declared length. -/
def body (f : MessageFactory) : List UInt8 := f.buf.behindHeader.take (f.messageSize - headerSize)

/-- The loop of `Fill` on `f` comes by `g`. -/
inductive Reaches (lib : BsonLibrary) : MessageFactory → MessageFactory → Prop
  | here (f : MessageFactory) : Reaches lib f f
  | declared {f g : MessageFactory} (hlen : headerSize ≤ f.buf.length) (hsize : f.messageSize = 0)
      (hdeclared : headerSize ≤ f.buf.declaredSize)
      (later : Reaches lib { f with messageSize := f.buf.declaredSize } g) : Reaches lib f g
  | interpreted {f f' g : MessageFactory} (hready : f.Ready) (h : interpret lib f = .ok () f')
      (later : Reaches lib f' g) : Reaches lib f g

/-- Of a malformed frame that the loop takes off, it makes an `InvalidMessage`. -/
def Routes (lib : BsonLibrary) (f : MessageFactory) : Prop :=
  ∀ g, Reaches lib f g → g.Ready → ¬ Message.Fits lib g.buf.frontType g.body →
    ∀ g', interpret lib g = .ok () g' → g'.readyMessages = g.readyMessages ++ [.invalid]

/-- A reader that fills the factory with the chunks gets every call back, and every malformed frame
as an `InvalidMessage`. -/
def Survives (lib : BsonLibrary) : List (List UInt8) → MessageFactory → Prop
  | [], _ => True
  | chunk :: chunks, f => ∃ stored filled, onBuf (put chunk) f = .ok () stored ∧
      Routes lib stored ∧ fill lib chunk f = .ok () filled ∧
      Survives lib chunks filled.finishExtraction

theorem Routes.of_stopped {f : MessageFactory} (h : f.buf.length < headerSize ∨
    (f.messageSize = 0 ∧ f.buf.declaredSize < headerSize) ∨ f.buf.length < f.messageSize) :
    Routes lib f := by
  intro g hreaches hready
  have hnot : ¬ f.Ready := by
    rintro ⟨hlen, hpos, hsize⟩
    omega
  cases hreaches with
  | here => exact absurd hready hnot
  | declared hlen hsize hdeclared later =>
    unfold headerSize at *
    omega
  | interpreted hready' h' later => exact absurd hready' hnot

theorem routes_declared {f : MessageFactory} (hlen : headerSize ≤ f.buf.length)
    (hsize : f.messageSize = 0) (hdeclared : headerSize ≤ f.buf.declaredSize) :
    Routes lib f ↔ Routes lib { f with messageSize := f.buf.declaredSize } := by
  refine ⟨fun h g hreaches => h g (.declared hlen hsize hdeclared hreaches), fun h g hreaches => ?_⟩
  cases hreaches with
  | here => exact fun hready => absurd hsize hready.2.1
  | declared hlen' hsize' hdeclared' later => exact h g later
  | interpreted hready _ later => exact absurd hsize hready.2.1

theorem routes_interpreted {f f' : MessageFactory} (hready : f.Ready)
    (h : interpret lib f = .ok () f') :
    Routes lib f ↔ (¬ Message.Fits lib f.buf.frontType f.body →
      f'.readyMessages = f.readyMessages ++ [.invalid]) ∧ Routes lib f' := by
  constructor
  · intro hroutes
    exact ⟨fun hfits => hroutes f (.here f) hready hfits f' h,
      fun g hreaches => hroutes g (.interpreted hready h hreaches)⟩
  · rintro ⟨hfront, hrest⟩ g hreaches
    cases hreaches with
    | here =>
      intro _ hfits g' hg'
      rw [h] at hg'
      cases hg'
      exact hfront hfits
    | declared hlen hsize hdeclared later => exact absurd hsize hready.2.1
    | interpreted _ h' later =>
      rw [h] at h'
      cases h'
      exact hrest g later

/-- What a chunk comes to in a buffer that a reader gets through: the frames in front are of types
that `Interpret` refuses, or such as their classes write, with all that is buffered behind a list
of games a part of it.  `size` is the declared length, `0` when it has not been read. -/
inductive Settles (lib : BsonLibrary) : ByteBuffer → Nat → ByteBuffer → Nat → Prop
  | short {buf : ByteBuffer} {size : Nat} (h : buf.length < headerSize) :
      Settles lib buf size buf size
  | undersized {buf : ByteBuffer} (hlen : headerSize ≤ buf.length)
      (h : buf.declaredSize < headerSize) : Settles lib buf 0 buf buf.declaredSize
  | declared {buf buf' : ByteBuffer} {size' : Nat} (hlen : headerSize ≤ buf.length)
      (h : headerSize ≤ buf.declaredSize) (rest : Settles lib buf buf.declaredSize buf' size') :
      Settles lib buf 0 buf' size'
  | waits {buf : ByteBuffer} {size : Nat} (hlen : headerSize ≤ buf.length)
      (h : buf.length < size) : Settles lib buf size buf size
  | takes {buf buf' : ByteBuffer} {size size' k : Nat} (hlen : headerSize ≤ buf.length)
      (hpos : size ≠ 0) (hsize : size ≤ buf.length) (hsmall : buf.length < 2 ^ 31)
      (htaken : Message.taken lib buf.frontType buf.behindHeader = some k)
      (hframe : Message.Unknown buf.frontType ∨
        Message.Fits lib buf.frontType (buf.behindHeader.take (size - headerSize)))
      (rest : Settles lib (reading (buf.behindHeader.drop k) []) 0 buf' size') :
      Settles lib buf size buf' size'

private theorem onBuf_declared {f f' : MessageFactory} {bytes : List UInt8}
    (hlen : headerSize ≤ f.buf.length) (h : onBuf (getAt sizeOffset 8) f = .ok bytes f') :
    f' = f ∧ leValue bytes = f.buf.declaredSize := by
  have hat : onBuf (getAt sizeOffset 8) f = .ok ((f.buf.internal.drop sizeOffset).take 8) f :=
    onBuf_of_ok (getAt_declared hlen)
  rw [hat] at h
  cases h
  exact ⟨rfl, rfl⟩

/-- The loop gets to its end, and misroutes nothing. -/
theorem Settles.fillLoop {buf buf' : ByteBuffer} {size size' : Nat}
    (h : Settles lib buf size buf' size') (ready : List Message) :
    Routes lib ⟨buf, size, ready⟩ ∧
      ∃ ready', fillLoop lib ⟨buf, size, ready⟩ = .ok () ⟨buf', size', ready'⟩ := by
  induction h generalizing ready with
  | short h => exact ⟨.of_stopped (Or.inl h), ready, fillLoop_short h⟩
  | undersized hlen h =>
    exact ⟨.of_stopped (Or.inr (Or.inl ⟨rfl, h⟩)), _,
      fillLoop_undersized hlen (getAt_declared hlen) h⟩
  | declared hlen h rest ih =>
    obtain ⟨hroutes, ready', hloop⟩ := ih ready
    refine ⟨(routes_declared hlen rfl h).mpr hroutes, ready', ?_⟩
    rw [fillLoop_header hlen (getAt_declared hlen) h]
    exact hloop
  | waits hlen h => exact ⟨.of_stopped (Or.inr (Or.inr h)), ready, fillLoop_waits hlen h⟩
  | @takes buf buf' size size' k hlen hpos hsize hsmall htaken hframe rest ih =>
    obtain ⟨message, hinvalid, hinterpret⟩ :=
      interpret_of_taken (f := ⟨buf, size, ready⟩) hlen hsmall htaken
    obtain ⟨hroutes, ready', hloop⟩ := ih (ready ++ [message])
    refine ⟨(routes_interpreted ⟨hlen, hpos, hsize⟩ hinterpret).mpr ⟨fun hfits => ?_, hroutes⟩,
      ready', ?_⟩
    · have hunknown : Message.Unknown buf.frontType := hframe.resolve_right hfits
      rw [hinvalid.mpr hunknown]
    · rw [fillLoop_interpret hlen hpos hsize hinterpret]
      exact hloop

/-- Nothing else gets to the end. -/
theorem Settles.of_fillLoop {f f' : MessageFactory} (h : MessageFactory.fillLoop lib f = .ok () f')
    (hmax : f.buf.length ≤ maxSize) (hroutes : Routes lib f) :
    Settles lib f.buf f.messageSize f'.buf f'.messageSize := by
  fun_induction MessageFactory.fillLoop lib f with
  | case1 f hshort =>
    -- less than a header is left
    cases h
    exact .short hshort
  | case2 f hlen hsize e f₁ hat => cases h
  | case3 f hlen hsize bytes f₁ hat hundersized =>
    -- the early return, with the length still in `messageSize`
    cases h
    obtain ⟨rfl, hsame⟩ := onBuf_declared (Nat.le_of_not_lt hlen) hat
    rw [hsize, hsame]
    rw [hsame] at hundersized
    exact .undersized (Nat.le_of_not_lt hlen) hundersized
  | case4 f hlen hsize bytes f₁ hat hdeclared ih =>
    -- the length becomes known, and the loop goes round
    obtain ⟨rfl, hsame⟩ := onBuf_declared (Nat.le_of_not_lt hlen) hat
    rw [hsame] at hdeclared h ih
    have hbytes := Nat.le_of_not_lt hdeclared
    rw [hsize]
    exact .declared (Nat.le_of_not_lt hlen) hbytes
      (ih h hmax ((routes_declared (Nat.le_of_not_lt hlen) hsize hbytes).mp hroutes))
  | case5 f hlen hsize hwhole e f₁ hinterpret => cases h
  | case6 f hlen hsize hwhole f₁ hinterpret ih =>
    -- a frame is taken off
    have hready : f.Ready := ⟨Nat.le_of_not_lt hlen, hsize, hwhole⟩
    have hsmall := length_of_interpret hinterpret hmax
    cases htaken : Message.taken lib f.buf.frontType f.buf.behindHeader with
    | none =>
      have htake := @interpret_taken lib f hready.1 hsmall
      rw [htaken] at htake
      obtain ⟨e, g, herror⟩ := htake
      rw [hinterpret] at herror
      cases herror
    | some k =>
      obtain ⟨message, hinvalid, hmessage⟩ := interpret_of_taken hready.1 hsmall htaken
      rw [hinterpret] at hmessage
      cases hmessage
      obtain ⟨hfront, hlater⟩ := (routes_interpreted hready hinterpret).mp hroutes
      have hframe : Message.Unknown f.buf.frontType ∨
          Message.Fits lib f.buf.frontType f.body := by
        by_cases hfits : Message.Fits lib f.buf.frontType f.body
        · exact Or.inr hfits
        · -- the message is the invalid one, which only an unknown type gives
          have happended := List.append_cancel_left (hfront hfits)
          exact Or.inl (hinvalid.mp (List.singleton_inj.mp happended))
      have hshorter := interpret_length hinterpret
      exact .takes hready.1 hsize hwhole hsmall htaken hframe (ih h (by omega) hlater)
  | case7 f hlen hsize hwaits =>
    -- the rest of the frame has not arrived
    cases h
    exact .waits (Nat.le_of_not_lt hlen) (Nat.lt_of_not_le hwaits)

/-! ## Chunk by chunk -/

theorem Settles.sound {buf buf' : ByteBuffer} {size size' : Nat}
    (h : Settles lib buf size buf' size') (hbuf : buf.Sound) : buf'.Sound := by
  induction h with
  | short _ => exact hbuf
  | undersized _ _ => exact hbuf
  | declared _ _ _ ih => exact ih hbuf
  | waits _ _ => exact hbuf
  | @takes buf _ _ _ k _ _ _ hsmall _ _ _ ih =>
    refine ih (.reading ?_)
    have hlen : buf.behindHeader.length = buf.length - headerSize := List.length_drop
    rw [List.length_drop]
    omega

/-- Every chunk finds a cursor it can be stored at, and settles. -/
inductive Harmless (lib : BsonLibrary) : List (List UInt8) → ByteBuffer → Nat → Prop
  | nil (buf : ByteBuffer) (size : Nat) : Harmless lib [] buf size
  | cons {chunk : List UInt8} {chunks : List (List UInt8)} {buf buf' : ByteBuffer}
      {size size' : Nat} (hroom : buf.offset + chunk.length ≤ maxSize)
      (hsettles : Settles lib (buf.stored chunk) size buf' size')
      (later : Harmless lib chunks buf' size') : Harmless lib (chunk :: chunks) buf size

theorem survives_of_harmless {chunks : List (List UInt8)} {buf : ByteBuffer} {size : Nat}
    (h : Harmless lib chunks buf size) (hbuf : buf.Sound) (ready : List Message) :
    Survives lib chunks ⟨buf, size, ready⟩ := by
  induction h generalizing ready with
  | nil buf size => trivial
  | cons hroom hsettles later ih =>
    have hput := put_of_sound hbuf hroom
    obtain ⟨hroutes, ready', hloop⟩ := hsettles.fillLoop ready
    exact ⟨_, _, onBuf_of_ok hput, hroutes, (EStateM.bind_of_ok (onBuf_of_ok hput)).trans hloop,
      ih (hsettles.sound (hbuf.stored hroom)) []⟩

theorem harmless_of_survives {chunks : List (List UInt8)} {f : MessageFactory}
    (h : Survives lib chunks f) (hbuf : f.buf.Sound) :
    Harmless lib chunks f.buf f.messageSize := by
  induction chunks generalizing f with
  | nil => exact .nil _ _
  | cons chunk chunks ih =>
    obtain ⟨stored, filled, hstored, hroutes, hfill, hlater⟩ := h
    obtain ⟨buf, hput, rfl⟩ := onBuf_eq_ok hstored
    have hroom := (put_eq_ok hput).1
    rw [put_of_sound hbuf hroom] at hput
    cases hput
    have hloop : MessageFactory.fillLoop lib { f with buf := f.buf.stored chunk } = .ok () filled :=
      (EStateM.bind_of_ok hstored).symm.trans hfill
    have hsound := hbuf.stored hroom
    have hsettles := Settles.of_fillLoop hloop hsound.1 hroutes
    exact .cons hroom hsettles (ih (f := filled.finishExtraction) hlater (hsettles.sound hsound))

theorem sound_empty : ByteBuffer.Sound {} := by decide

/-- A stream on a fresh factory, whatever the chunks it comes in. -/
theorem survives_stream_iff (lib : BsonLibrary) (chunks : List (List UInt8)) :
    Survives lib chunks {} ↔ Harmless lib chunks {} 0 :=
  ⟨fun h => harmless_of_survives h sound_empty, fun h => survives_of_harmless h sound_empty []⟩

/-- The header of a task, which declares nothing behind it: the decoder throws. -/
theorem bodiless_task_throws :
    ¬ ∀ (lib : BsonLibrary) (chunks : List (List UInt8)), Survives lib chunks {} := by
  intro h
  let lib : BsonLibrary := ⟨fun _ => none, fun _ => none⟩
  let header : List UInt8 := MessageType.task.code :: leBytes 8 headerSize
  obtain ⟨stored, filled, -, -, hfill, -⟩ := h lib [header]
  have hput : onBuf (put header) {} = .ok () { buf := reading header [] } :=
    onBuf_of_ok rfl
  have hloop := (EStateM.bind_of_ok hput).symm.trans hfill
  have hknown : fillLoop lib ⟨reading header [], 0, []⟩ = fillLoop lib ⟨reading header [], 9, []⟩ :=
    fillLoop_header (by decide) (getAt_declared (by decide)) (by decide)
  obtain ⟨e, g, herror⟩ : ∃ e g, interpret lib ⟨reading header [], 9, []⟩ = .error e g :=
    interpret_taken (f := ⟨reading header [], 9, []⟩) (by decide) (by decide)
  have hthrows := fillLoop_throws (by decide) (by decide) (by decide) herror
  change fillLoop lib ⟨reading header [], 0, []⟩ = .ok () filled at hloop
  rw [hknown, hthrows] at hloop
  cases hloop

/-- A notification in two chunks, the first of which ends within the header. -/
example (lib : BsonLibrary) : Survives lib [[4, 14, 0, 0], [0, 0, 0, 0, 0, 7, 0, 0, 0, 2]] {} := by
  refine survives_of_harmless ?_ sound_empty []
  refine .cons (by decide) (.short (by decide)) ?_
  have hnotify : Settles lib (({} : ByteBuffer).stored [4, 14, 0, 0] |>.stored
      [0, 0, 0, 0, 0, 7, 0, 0, 0, 2]) 14 (reading [] []) 0 :=
    .takes (k := 5) (by decide) (by decide) (by decide) (by decide) rfl
      (Or.inr (Or.inr (Or.inr (Or.inl (by decide))))) (.short (by decide))
  exact .cons (by decide) (.declared (by decide) (by decide) hnotify) (.nil _ _)

end MessageFactory

end Bem
