import Bem.Common.Arrivals
import Bem.Lib.Tape

/-!
# Writes to a byte buffer

While a buffer stays below `2 ^ 31` bytes, `Put`, `PutN` and `Seek` are the operations of a tape.  A
message is put on it behind the space for its header, which is written twice.
-/

namespace Bem

open ByteBuffer

/-- A call of `Put`, `PutN` or `Seek`. -/
inductive Write
  | put (data : List UInt8)
  | putN (data : List UInt8)
  | seek (dest : Int32)

namespace Write

def run : Write → BufferM Unit
  | put data => ByteBuffer.put data
  | putN data => ByteBuffer.put data
  | seek dest => ByteBuffer.seek dest

/-- What the call does to a tape.  It must not seek a place that is not on the tape. -/
def onTape (t : Tape UInt8) : Write → Option (Tape UInt8)
  | put data => some (t.write data)
  | putN data => some (t.write data)
  | seek dest => if 0 ≤ dest.toInt then t.seek dest.toInt.toNat else none

end Write

namespace ByteBuffer

/-- The buffer has the bytes and the cursor of the tape. -/
structure Holds (b : ByteBuffer) (t : Tape UInt8) : Prop where
  contents : b.internal = t.contents
  cursor : b.position.toInt = t.cursor

/-- From `b` to `b'` the bytes behind the cursor `p` have been replaced by `data` and nothing else has
changed. -/
structure Overwrites (p : Nat) (data : List UInt8) (b b' : ByteBuffer) : Prop where
  length : b'.length = max b.length (p + data.length)
  replaced : ∀ i < data.length, b'.internal[p + i]? = data[i]?
  kept : ∀ i, i < p ∨ p + data.length ≤ i → b'.internal[i]? = b.internal[i]?
  cursor : b'.position.toInt = (p + data.length : Nat)
  le : p + data.length ≤ b'.length

/-- A buffer with the header and the body of a message, to be read from its start. -/
structure IsFrame (type : MessageType) (body : List UInt8) (b : ByteBuffer) : Prop where
  bytes : b.internal = type.code :: leBytes 8 b.length ++ body
  header : headerSize ≤ b.length
  cursor : b.position = 0

end ByteBuffer

/-- The bytes between the header and the end. -/
def Message.body (lib : BsonLibrary) : Message → Option (List UInt8)
  | task m => some m.task.bytes
  | result m => some (leBytes 4 m.taskId.toNat ++ m.result.bytes)
  | taskNotify m => some (leBytes 4 m.taskId.toNat ++ [m.taskStatus.code])
  | hello m => (lib.to_bson m.document).map fun bytes => m.protoVer :: m.flag :: bytes
  | invalid => none

/-! ## The calls -/

namespace ByteBuffer

variable {b : ByteBuffer} {t t' : Tape UInt8}

theorem holds_empty : Holds {} Tape.empty := ⟨rfl, rfl⟩

theorem Holds.eq_reading (h : b.Holds t) :
    b = reading (t.contents.take t.cursor) (t.contents.drop t.cursor) := by
  have hlt := b.position.toInt_lt
  have hcursor := h.cursor
  have hposition : b.position = Int32.ofNat t.cursor := by
    apply Int32.toInt_inj.mp
    rw [hcursor, Int32.toInt_ofNat_of_lt (by omega)]
  unfold reading
  rw [List.take_append_drop, List.length_take_of_le t.le, ← hposition, ← h.contents]

/-- A write that stays in the range of the cursor is that of the tape. -/
theorem Holds.put {data : List UInt8} (h : b.Holds t) (hroom : t.cursor + data.length < 2 ^ 31) :
    ∃ b', put data b = .ok () b' ∧ b'.Holds (t.write data) := by
  have hfront : (t.contents.take t.cursor).length = t.cursor := List.length_take_of_le t.le
  -- the buffer is split where the cursor stands, as the write of the tape is
  refine ⟨_, by rw [h.eq_reading, put_reading (by rw [hfront]; exact hroom)], ?_, ?_⟩
  · rw [internal_reading, List.drop_drop, Tape.contents_write]
  · unfold reading
    dsimp only
    rw [List.length_append, hfront, Int32.toInt_ofNat_of_lt hroom]
    rfl

theorem Holds.seek {dest : Int32} (h : b.Holds t) (hpos : 0 ≤ dest.toInt)
    (hseek : t.seek dest.toInt.toNat = some t') :
    ∃ b', ByteBuffer.seek dest b = .ok () b' ∧ b'.Holds t' := by
  have hseeked := Tape.seek_eq_some hseek
  refine ⟨_, rfl, ?_, ?_⟩
  · rw [hseeked.1]
    exact h.contents
  · rw [hseeked.2]
    exact (Int.toNat_of_nonneg hpos).symm

theorem Holds.overwrites {data : List UInt8} {b' : ByteBuffer} (h : b.Holds t)
    (h' : b'.Holds (t.write data)) : Overwrites t.cursor data b b' := by
  have hlength : b'.length = max b.length (t.cursor + data.length) := by
    have hwritten := t.length_write data
    unfold Tape.length at hwritten
    rw [length, length, h'.contents, h.contents, hwritten]
  constructor
  · exact hlength
  · intro i hi
    rw [h'.contents, t.write_inside data hi]
  · intro i hi
    rw [h'.contents, h.contents, t.write_outside data hi]
  · exact h'.cursor
  · omega

end ByteBuffer

namespace Write

variable {b : ByteBuffer} {t t' : Tape UInt8}

theorem onTape_seek_eq_some {dest : Int32} (h : (seek dest).onTape t = some t') :
    0 ≤ dest.toInt ∧ t.seek dest.toInt.toNat = some t' := by
  change (if 0 ≤ dest.toInt then t.seek dest.toInt.toNat else none) = some t' at h
  split at h
  next hpos => exact ⟨hpos, h⟩
  next => cases h

theorem length_onTape {w : Write} (h : w.onTape t = some t') : t.length ≤ t'.length := by
  cases w with
  | put data | putN data =>
    cases h
    rw [Tape.length_write]
    exact Nat.le_max_left _ _
  | seek dest =>
    have hseeked := Tape.seek_eq_some (onTape_seek_eq_some h).2
    unfold Tape.length
    rw [hseeked.1]

theorem run_onTape {w : Write} (h : b.Holds t) (hw : w.onTape t = some t')
    (hroom : t'.length < 2 ^ 31) : ∃ b', w.run b = .ok () b' ∧ b'.Holds t' := by
  cases w with
  | put data | putN data =>
    cases hw
    rw [Tape.length_write] at hroom
    exact h.put (by omega)
  | seek dest =>
    have hseek := onTape_seek_eq_some hw
    exact h.seek hseek.1 hseek.2

theorem length_foldlM {ws : List Write} (h : ws.foldlM onTape t = some t') :
    t.length ≤ t'.length := by
  induction ws generalizing t with
  | nil =>
    cases h
    exact le_refl _
  | cons w ws ih =>
    rw [List.foldlM_cons, Option.bind_eq_bind, Option.bind_eq_some_iff] at h
    obtain ⟨t₁, hfirst, hrest⟩ := h
    exact (length_onTape hfirst).trans (ih hrest)

/-- All the calls together are those of the tape, by what each of them is. -/
theorem forM_onTape {ws : List Write} (h : b.Holds t) (hws : ws.foldlM onTape t = some t')
    (hroom : t'.length < 2 ^ 31) :
    ∃ b', (ws.forM run : BufferM Unit) b = .ok () b' ∧ b'.Holds t' := by
  induction ws generalizing b t with
  | nil =>
    cases hws
    exact ⟨b, rfl, h⟩
  | cons w ws ih =>
    rw [List.foldlM_cons, Option.bind_eq_bind, Option.bind_eq_some_iff] at hws
    obtain ⟨t₁, hfirst, hrest⟩ := hws
    -- what follows does not shorten the tape, so there is room for this call, too
    have hlength := length_foldlM hrest
    obtain ⟨b₁, hrun, h₁⟩ := run_onTape h hfirst (by omega)
    obtain ⟨b', hruns, h'⟩ := ih h₁ hrest
    exact ⟨b', (EStateM.bind_of_ok hrun).trans hruns, h'⟩

end Write

/-! ## Messages -/

namespace Message

variable {lib : BsonLibrary}

theorem isFrame_frameBytes {type : MessageType} {data : List UInt8} :
    IsFrame type data (reading [] (frameBytes type data)) := by
  have hlength : (reading [] (frameBytes type data)).length = headerSize + data.length := by
    rw [length_reading, length_frameBytes, List.length_nil, Nat.zero_add]
  constructor
  · rw [hlength]
    rfl
  · omega
  · rfl

theorem body_hello (m : HelloMessage) : body lib (hello m) =
    (lib.to_bson m.document).map fun bytes => m.protoVer :: m.flag :: bytes := rfl

theorem serialize_eq_frame {m : Message} (hm : m ≠ .invalid) {b : ByteBuffer}
    (h : m.serialize lib = .ok b) :
    ∃ data, m.body lib = some data ∧ b = reading [] (frameBytes m.getType data) := by
  cases m with
  | task m =>
    rw [serialize_task] at h
    cases h
    exact ⟨_, rfl, rfl⟩
  | result m =>
    rw [serialize_result] at h
    cases h
    exact ⟨_, rfl, rfl⟩
  | taskNotify m =>
    rw [serialize_taskNotify] at h
    cases h
    exact ⟨_, rfl, rfl⟩
  | hello m =>
    -- the one body that may be too long
    obtain ⟨bytes, hbson, -, hb⟩ := HelloMessage.serialize_eq_ok h
    refine ⟨m.protoVer :: m.flag :: bytes, ?_, hb⟩
    rw [body_hello, hbson]
    rfl
  | invalid => exact absurd rfl hm

/-- A message whose bytes fit is written. -/
theorem serialize_of_body {m : Message} {data : List UInt8} (hbody : m.body lib = some data)
    (hsmall : headerSize + data.length < 2 ^ 31) :
    m.serialize lib = .ok (reading [] (frameBytes m.getType data)) := by
  cases m with
  | task m =>
    cases hbody
    exact serialize_task m
  | result m =>
    cases hbody
    exact serialize_result m
  | taskNotify m =>
    cases hbody
    exact serialize_taskNotify m
  | hello m =>
    rw [body_hello] at hbody
    obtain ⟨bytes, hbson, hdata⟩ := Option.map_eq_some_iff.mp hbody
    rw [← hdata] at hsmall ⊢
    exact serialize_hello hbson hsmall
  | invalid => cases hbody

end Message

/-- The writes of a buffer are those of a tape, and every message is a header and its body on it. -/
theorem writes_refine_tape (lib : BsonLibrary) :
    (∀ (ws : List Write) t, ws.foldlM Write.onTape Tape.empty = some t → t.length < 2 ^ 31 →
      ∃ b, (ws.forM Write.run : BufferM Unit) {} = .ok () b ∧ b.Holds t ∧
        ∀ data, t.cursor + data.length < 2 ^ 31 →
          ∃ b', put data b = .ok () b' ∧ Overwrites t.cursor data b b') ∧
      ∀ m : Message, m ≠ .invalid →
        (∀ data, m.body lib = some data → headerSize + data.length < 2 ^ 31 →
          ∃ b, m.serialize lib = .ok b) ∧
        ∀ b, m.serialize lib = .ok b →
          ∃ data, m.body lib = some data ∧ IsFrame m.getType data b := by
  constructor
  · intro ws t hws hsmall
    obtain ⟨b, hrun, hholds⟩ := Write.forM_onTape holds_empty hws hsmall
    refine ⟨b, hrun, hholds, fun data hroom => ?_⟩
    obtain ⟨b', hput, hholds'⟩ := hholds.put hroom
    exact ⟨b', hput, hholds.overwrites hholds'⟩
  · intro m hm
    constructor
    · intro data hbody hsmall
      exact ⟨_, Message.serialize_of_body hbody hsmall⟩
    · intro b hb
      obtain ⟨data, hbody, rfl⟩ := Message.serialize_eq_frame hm hb
      exact ⟨data, hbody, Message.isFrame_frameBytes⟩

/-- Three bytes, the second of which is written again. -/
def rewriting : List Write := [.put [1, 2, 3], .seek 1, .putN [9]]

theorem writes_refine_tape_rewriting :
    (∃ b, (rewriting.forM Write.run : BufferM Unit) {} = .ok () b ∧
      b.Holds ⟨[1, 9, 3], 2, by decide⟩) ∧
    ∃ b, (Message.hello {}).serialize emptyLibrary = .ok b ∧
      ∃ data, (Message.hello {}).body emptyLibrary = some data ∧ IsFrame .hello data b := by
  have hall := writes_refine_tape emptyLibrary
  have htape : rewriting.foldlM Write.onTape Tape.empty = some ⟨[1, 9, 3], 2, by decide⟩ := rfl
  obtain ⟨b, hrun, hholds, -⟩ := hall.1 _ _ htape (by decide)
  have hhello := hall.2 (.hello {}) (by decide)
  obtain ⟨b', hb'⟩ := hhello.1 (0 :: 0 :: emptyBson) rfl (by decide)
  exact ⟨⟨b, hrun, hholds⟩, b', hb', hhello.2 b' hb'⟩

end Bem
