import Bem.Common.Messages
import Bem.Lib.Outflow

/-!
# Writing messages to a socket

`write` need not take all the bytes it is offered.  The writers of both programs serialize a message,
offer what is left of it and advance the cursor of the buffer by as much as was taken.
-/

namespace Bem

open ByteBuffer

/-- The bytes of `Serialize`; none when it throws. -/
def Message.serialized (lib : BsonLibrary) (m : Message) : List UInt8 :=
  match m.serialize lib with
  | .ok b => b.internal
  | .error _ => []

theorem Message.serialized_of_serialize {lib : BsonLibrary} {m : Message} {b : ByteBuffer}
    (h : m.serialize lib = .ok b) : m.serialized lib = b.internal := by
  unfold serialized
  rw [h]

/-- `write` of the `RemainingBytes()` bytes at `Next()`, of which it takes `count`, and `Advance`. -/
def ByteBuffer.writeOut (count : Int) : BufferM (List UInt8) := do
  let bytes ← next
  advance (Int32.ofInt count)
  return bytes.take count.toNat

/-- Every `Serialize` goes back to the start of its buffer. -/
theorem position_frame {type : MessageType} {body : BufferM Unit} {b b' : ByteBuffer}
    (h : frame type body b = .ok () b') : b'.position = 0 := by
  obtain ⟨_, b₁, -, h⟩ := EStateM.bind_eq_ok h
  obtain ⟨_, b₂, -, h⟩ := EStateM.bind_eq_ok h
  obtain ⟨_, b₃, -, h⟩ := EStateM.bind_eq_ok h
  cases h
  rfl

theorem Message.position_write {lib : BsonLibrary} {m : Message} {b : ByteBuffer}
    (h : m.write lib {} = .ok () b) : b.position = 0 := by
  cases m with
  | task m => exact position_frame h
  | result m => exact position_frame h
  | taskNotify m => exact position_frame h
  | hello m => exact position_frame h
  | invalid =>
    cases h
    rfl

theorem Message.serialize_eq_reading {lib : BsonLibrary} {m : Message} {b : ByteBuffer}
    (h : m.serialize lib = .ok b) : b = reading [] (m.serialized lib) := by
  -- the cursor stands at the start, so that all bytes are behind it
  have hposition := position_write (write_of_serialize h)
  rw [serialized_of_serialize h]
  show b = ⟨b.internal, 0⟩
  rw [← hposition]

/-- What is written is taken from behind the cursor, wherever the cursor goes then. -/
theorem ByteBuffer.writeOut_of_advance {pre rest : List UInt8} {count : Int} {b : ByteBuffer}
    (hpre : pre.length < 2 ^ 31)
    (hadvance : advance (Int32.ofInt count) (reading pre rest) = .ok () b) :
    writeOut count (reading pre rest) = .ok (rest.take count.toNat) b := by
  show (next >>= fun bytes => advance (Int32.ofInt count) >>= fun _ =>
    pure (bytes.take count.toNat)) (reading pre rest) = _
  rw [EStateM.bind_of_ok (next_reading hpre), EStateM.bind_of_ok hadvance]
  rfl

theorem ByteBuffer.writeOut_reading {pre rest : List UInt8} {count : Int} (hcount : 0 ≤ count)
    (hle : count ≤ rest.length) (h : pre.length + rest.length < 2 ^ 31) :
    writeOut count (reading pre rest) = .ok (rest.take count.toNat)
      (reading (pre ++ rest.take count.toNat) (rest.drop count.toNat)) := by
  have hadvance := @advance_reading pre rest count.toNat (by omega) h
  rw [Int.toNat_of_nonneg hcount] at hadvance
  exact writeOut_of_advance (by omega) hadvance

end Bem
