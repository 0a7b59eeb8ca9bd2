import Bem.Common.ByteBuffer
import Mathlib.Algebra.Order.Ring.Int

/-!
# Reads of a byte buffer

`GetAt` and `Get` read into a value, a reference or an array.  The check of an array read is a byte
too generous, fails for an empty read at the front, and all checks are made modulo `2 ^ 64`.
-/

namespace Bem

namespace ByteBuffer

/-- `index + n - 1`, as a `size_t`. -/
def lastIndex (index n : Nat) : Nat := (index + n + (2 ^ 64 - 1)) % 2 ^ 64

/-- `GetAt` into an array, of `n` bytes whatever the elements are. -/
def getAtArray (index n : Nat) : BufferM (List UInt8) := fun b =>
  if lastIndex index n ≤ b.length then
    if index + n ≤ min b.length maxSize then .ok ((b.internal.drop index).take n) b
    else .error .outOfBounds b
  else .error .invalidArgument b

/-- `Get` into an array. -/
def getArray (n : Nat) : BufferM (List UInt8) := do
  let b ← getThe ByteBuffer
  let bytes ← getAtArray b.offset n
  advance (Int32.ofNat n)
  return bytes

theorem getArray_apply (n : Nat) (b : ByteBuffer) :
    getArray n b = (getAtArray b.offset n >>= fun bytes => do
      advance (Int32.ofNat n)
      return bytes) b := by
  have hself : (getThe ByteBuffer : BufferM ByteBuffer) b = .ok b b := rfl
  unfold getArray
  rw [EStateM.bind_of_ok hself]

/-- A buffer whose cursor stands in its bytes or at their end. -/
structure Positioned (b : ByteBuffer) : Prop where
  nonneg : 0 ≤ b.position.toInt
  le : b.position.toInt ≤ b.length
  fits : b.length ≤ maxSize

end ByteBuffer

/-- `sizeof(T)`: no type is empty, and no object is larger than a vector of bytes can be. -/
structure ElementSize where
  size : Nat
  pos : 0 < size
  le : size ≤ maxSize

/-- An `int` that is not negative. -/
structure Count where
  val : Nat
  lt : val < 2 ^ 31

/-- What a read stores into. -/
inductive Target
  | value (t : ElementSize)
  | reference (t : ElementSize)
  | array (n : Count)

/-- The number of bytes that are copied. -/
def Target.count : Target → Nat
  | .value t => t.size
  | .reference t => t.size
  | .array n => n.val

inductive Read
  | getAt (dest : Target) (index : UInt64)
  | get (dest : Target)

namespace Read

open ByteBuffer

def run : Read → BufferM (List UInt8)
  | .getAt (.value t) index => ByteBuffer.getAt index.toNat t.size
  | .getAt (.reference t) index => ByteBuffer.getAt index.toNat t.size
  | .getAt (.array n) index => getAtArray index.toNat n.val
  | .get (.value t) => ByteBuffer.get t.size
  | .get (.reference t) => ByteBuffer.get t.size
  | .get (.array n) => getArray n.val

def count : Read → Nat
  | .getAt dest _ => dest.count
  | .get dest => dest.count

/-- Where the bytes begin that are copied. -/
def start (b : ByteBuffer) : Read → Nat
  | .getAt _ index => index.toNat
  | .get _ => b.offset

/-- How far the cursor is moved. -/
def step : Read → Nat
  | .getAt _ _ => 0
  | .get dest => dest.count

/-- Every byte that is copied is one of the buffer. -/
def Inside (b : ByteBuffer) (r : Read) : Prop := ∀ i < r.count, r.start b + i < b.length

/-- The read returns exactly if it stays inside, with the bytes and behind them, and throws otherwise
without an effect on the buffer. -/
structure Clean (b : ByteBuffer) (r : Read) : Prop where
  reads : r.Inside b → ∃ b', r.run b = .ok ((b.internal.drop (r.start b)).take r.count) b' ∧
    b'.internal = b.internal ∧ b'.position.toInt = b.position.toInt + r.step ∧
      b'.position.toInt ≤ b.length
  throws : ¬ r.Inside b → r.run b = .error .invalidArgument b

/-- The end of the read, as the source adds it up, does not come round to the front of the buffer. -/
def Straight (b : ByteBuffer) (last : Nat) : Prop := ¬ (2 ^ 64 ≤ last ∧ last - 2 ^ 64 ≤ b.length)

/-- The check of an array read is right. -/
def ArrayChecked (b : ByteBuffer) (index n : Nat) : Prop :=
  if n = 0 then 0 < index ∧ index ≤ b.length
  else index + n ≠ b.length + 1 ∧ Straight b (index + n - 1)

/-- An `int` can stand behind the bytes, if they are there. -/
def Reachable (b : ByteBuffer) (last : Nat) : Prop := last < 2 ^ 31 ∨ b.length < last

def Handled (b : ByteBuffer) : Read → Prop
  | .getAt (.value t) index => Straight b (index.toNat + t.size)
  | .getAt (.reference t) index => Straight b (index.toNat + t.size)
  | .getAt (.array n) index => ArrayChecked b index.toNat n.val
  | .get (.value t) => Reachable b (b.offset + t.size)
  | .get (.reference t) => Reachable b (b.offset + t.size)
  | .get (.array n) => ArrayChecked b b.offset n.val ∧ Reachable b (b.offset + n.val)

/-! ## The outcome of a checked read -/

/-- A read of `n` bytes behind a check that admits it if `last` lies in the buffer. -/
def checked (last index n : Nat) : BufferM (List UInt8) := fun b =>
  if last ≤ b.length then
    if index + n ≤ min b.length maxSize then .ok ((b.internal.drop index).take n) b
    else .error .outOfBounds b
  else .error .invalidArgument b

section

variable {b : ByteBuffer} {last index n : Nat}

theorem checked_of_le (hmax : b.length ≤ maxSize) (hlast : last ≤ b.length)
    (hinside : index + n ≤ b.length) :
    checked last index n b = .ok ((b.internal.drop index).take n) b := by
  unfold checked
  rw [if_pos hlast, if_pos (by omega)]

theorem checked_of_outside (hlast : last ≤ b.length) (houtside : b.length < index + n) :
    checked last index n b = .error .outOfBounds b := by
  unfold checked
  rw [if_pos hlast, if_neg (by omega)]

theorem checked_of_lt (hlast : b.length < last) :
    checked last index n b = .error .invalidArgument b := by
  unfold checked
  rw [if_neg (by omega)]

theorem inside_of_le {r : Read} (h : r.start b + r.count ≤ b.length) : r.Inside b := by
  intro i hi
  omega

theorem inside_iff {r : Read} (h : 0 < r.count) :
    r.Inside b ↔ r.start b + r.count ≤ b.length := by
  constructor
  · intro hinside
    have hlast := hinside (r.count - 1) (by omega)
    omega
  · exact inside_of_le

theorem inside_of_count {r : Read} (h : r.count = 0) : r.Inside b := by
  intro i hi
  omega

end

/-- A read that moves the cursor by `move` is clean if and only if its check admits what stays inside,
the cursor then gets where it should, and the check admits nothing else. -/
theorem clean_iff {b : ByteBuffer} {r : Read} {last : Nat} {move : BufferM Unit} {P : Prop}
    (hb : b.Positioned)
    (hrun : r.run b = (checked last (r.start b) r.count >>= fun bytes => do move; return bytes) b)
    (hmove : (∃ b', move b = .ok () b' ∧ b'.internal = b.internal ∧
      b'.position.toInt = b.position.toInt + r.step) ↔ P)
    (hstep : r.step = 0 ∨ b.position.toInt = r.start b ∧ r.step = r.count) :
    r.Clean b ↔ (r.Inside b → last ≤ b.length ∧ r.start b + r.count ≤ b.length ∧ P) ∧
      (¬ r.Inside b → b.length < last) := by
  have hle := hb.le
  constructor
  · intro h
    constructor
    · intro hinside
      obtain ⟨b', hread, hint, hposition, -⟩ := h.reads hinside
      rw [hrun] at hread
      obtain ⟨bytes, b₁, hchecked, hmoved⟩ := EStateM.bind_eq_ok hread
      -- the check has let the read through, and it has found its bytes
      have hlast : last ≤ b.length := by
        by_contra hlast
        rw [checked_of_lt (by omega)] at hchecked
        cases hchecked
      have hends : r.start b + r.count ≤ b.length := by
        by_contra hends
        rw [checked_of_outside hlast (by omega)] at hchecked
        cases hchecked
      rw [checked_of_le hb.fits hlast hends] at hchecked
      cases hchecked
      obtain ⟨_, b₂, hto, hreturn⟩ := EStateM.bind_eq_ok hmoved
      cases hreturn
      exact ⟨hlast, hends, hmove.mp ⟨b', hto, hint, hposition⟩⟩
    · intro houtside
      by_contra hlast
      -- otherwise `std::copy` would run over the end after the check
      have hends : ¬ r.start b + r.count ≤ b.length := fun hends => houtside (inside_of_le hends)
      have hfault := h.throws houtside
      rw [hrun, EStateM.bind_of_error (checked_of_outside (by omega) (by omega))] at hfault
      cases hfault
  · intro h
    constructor
    · intro hinside
      obtain ⟨hlast, hends, hP⟩ := h.1 hinside
      obtain ⟨b', hto, hint, hposition⟩ := hmove.mpr hP
      refine ⟨b', ?_, hint, hposition, by omega⟩
      rw [hrun, EStateM.bind_of_ok (checked_of_le hb.fits hlast hends)]
      exact EStateM.bind_of_ok hto
    · intro houtside
      rw [hrun]
      exact EStateM.bind_of_error (checked_of_lt (h.2 houtside))

/-! ## The checks -/

theorem offset_eq {b : ByteBuffer} (hb : b.Positioned) : (b.offset : Int) = b.position.toInt := by
  have hnonneg := hb.nonneg
  have hlt := b.position.toInt_lt
  unfold offset
  omega

section Checks

variable {b : ByteBuffer} {r : Read} (hb : b.Positioned) (hindex : r.start b < 2 ^ 64)

include hb hindex

/-- The check of a value: its end must not wrap. -/
theorem value_iff {P : Prop} (ht : 0 < r.count ∧ r.count ≤ maxSize) :
    ((r.Inside b → (r.start b + r.count) % 2 ^ 64 ≤ b.length ∧ r.start b + r.count ≤ b.length ∧ P) ∧
      (¬ r.Inside b → b.length < (r.start b + r.count) % 2 ^ 64)) ↔
    Straight b (r.start b + r.count) ∧ (r.start b + r.count ≤ b.length → P) := by
  have hfits := hb.fits
  rw [inside_iff ht.1]
  unfold Straight
  unfold maxSize at *
  constructor
  · rintro ⟨hinside, houtside⟩
    exact ⟨by omega, fun hends => (hinside hends).2.2⟩
  · rintro ⟨hstraight, hP⟩
    exact ⟨fun hends => ⟨by omega, hends, hP hends⟩, by omega⟩

/-- The check of an array takes one off the end, which is too much for an array without elements and
a byte too little for the others. -/
theorem array_iff {P : Prop} (hn : r.count < 2 ^ 31) :
    ((r.Inside b → lastIndex (r.start b) r.count ≤ b.length ∧ r.start b + r.count ≤ b.length ∧ P) ∧
      (¬ r.Inside b → b.length < lastIndex (r.start b) r.count)) ↔
    ArrayChecked b (r.start b) r.count ∧ (r.start b + r.count ≤ b.length → P) := by
  have hfits := hb.fits
  unfold ArrayChecked Straight lastIndex
  unfold maxSize at *
  by_cases hzero : r.count = 0
  -- one off an empty read at the front comes round to the largest index
  · have hinside := inside_of_count (b := b) hzero
    rw [if_pos hzero, hzero]
    constructor
    · rintro ⟨hreads, -⟩
      have hall := hreads hinside
      exact ⟨⟨by omega, by omega⟩, fun _ => hall.2.2⟩
    · rintro ⟨hchecked, hP⟩
      exact ⟨fun _ => ⟨by omega, by omega, hP (by omega)⟩, fun houtside => absurd hinside houtside⟩
  -- the check compares the last index, so that one byte behind the end passes
  · rw [if_neg hzero, inside_iff (by omega)]
    constructor
    · rintro ⟨hinside, houtside⟩
      exact ⟨⟨by omega, by omega⟩, fun hends => (hinside hends).2.2⟩
    · rintro ⟨hchecked, hP⟩
      exact ⟨fun hends => ⟨by omega, hends, hP hends⟩, by omega⟩

end Checks

/-! ## The moves -/

section Moves

variable {b : ByteBuffer} {n : Nat} (hb : b.Positioned)

include hb

theorem set_position_iff : (∃ b', (set { b with position := Int32.ofInt (b.offset + n) } :
      BufferM Unit) b = .ok () b' ∧ b'.internal = b.internal ∧
        b'.position.toInt = b.position.toInt + n) ↔ b.offset + n < 2 ^ 31 := by
  have hoffset := offset_eq hb
  constructor
  · rintro ⟨b', hset, -, hposition⟩
    -- the cursor is an `int`
    have hlt := b'.position.toInt_lt
    omega
  · intro hlt
    refine ⟨_, rfl, rfl, ?_⟩
    rw [Int32.toInt_ofInt_of_le (by omega) (by omega), hoffset]

theorem advance_iff (hn : n < 2 ^ 31) : (∃ b', advance (Int32.ofNat n) b = .ok () b' ∧
      b'.internal = b.internal ∧ b'.position.toInt = b.position.toInt + n) ↔
        b.offset + n < 2 ^ 31 := by
  have hoffset := offset_eq hb
  have hcount : (Int32.ofNat n).toInt = n := Int32.toInt_ofNat_of_lt hn
  unfold advance
  dsimp only
  rw [hcount]
  constructor
  · rintro ⟨b', -, -, hposition⟩
    have hlt := b'.position.toInt_lt
    omega
  · intro hlt
    rw [if_pos (by omega)]
    refine ⟨_, rfl, rfl, ?_⟩
    exact Int32.toInt_ofInt_of_le (by omega) (by omega)

end Moves

/-! ## The six reads -/

section Reads

variable {b : ByteBuffer} (hb : b.Positioned)

theorem reachable_iff (last : Nat) : Reachable b last ↔ (last ≤ b.length → last < 2 ^ 31) := by
  unfold Reachable
  omega

theorem run_getAt {last index n : Nat} : checked last index n b =
    (checked last index n >>= fun bytes => do (pure () : BufferM Unit); return bytes) b := by
  cases h : checked last index n b with
  | ok bytes b' => exact (EStateM.bind_of_ok h).symm
  | error e b' => exact (EStateM.bind_of_error h).symm

theorem stay_iff : (∃ b', (pure () : BufferM Unit) b = .ok () b' ∧ b'.internal = b.internal ∧
    b'.position.toInt = b.position.toInt + (0 : Nat)) ↔ True := by
  refine iff_true_intro ⟨b, rfl, rfl, ?_⟩
  omega

include hb

theorem offset_lt_of_positioned : b.offset < 2 ^ 31 := by
  have hoffset := offset_eq hb
  have hlt := b.position.toInt_lt
  omega

theorem clean_getAt_value_iff (index : UInt64) (t : ElementSize) :
    (getAt (.value t) index).Clean b ↔ Straight b (index.toNat + t.size) := by
  let r : Read := .getAt (.value t) index
  let last : Nat := (index.toNat + t.size) % 2 ^ 64
  have hrun : r.run b = checked last (r.start b) r.count b := rfl
  -- a read at an index does not move the cursor
  have hclean := clean_iff hb (hrun.trans run_getAt) stay_iff (.inl rfl)
  have hcheck := @value_iff b r hb index.toNat_lt True ⟨t.pos, t.le⟩
  rw [hclean.trans hcheck, imp_true_iff, and_true]
  rfl

theorem clean_getAt_array_iff (index : UInt64) (n : Count) :
    (getAt (.array n) index).Clean b ↔ ArrayChecked b index.toNat n.val := by
  let r : Read := .getAt (.array n) index
  let last : Nat := lastIndex index.toNat n.val
  have hrun : r.run b = checked last (r.start b) r.count b := rfl
  have hclean := @clean_iff b r last (pure ()) True hb (hrun.trans run_getAt) stay_iff (.inl rfl)
  have hcheck := @array_iff b r hb index.toNat_lt True n.lt
  rw [hclean.trans hcheck, imp_true_iff, and_true]
  rfl

theorem clean_get_value_iff (t : ElementSize) :
    (get (.value t)).Clean b ↔ Reachable b (b.offset + t.size) := by
  let r : Read := .get (.value t)
  let last : Nat := (b.offset + t.size) % 2 ^ 64
  have hlt := offset_lt_of_positioned hb
  have hsize := t.le
  -- neither the cursor nor the size is large enough for a wrap
  have hstraight : Straight b (r.start b + r.count) := by
    change ¬ (2 ^ 64 ≤ b.offset + t.size ∧ b.offset + t.size - 2 ^ 64 ≤ b.length)
    unfold maxSize at hsize
    omega
  have hclean := @clean_iff b r last _ _ hb rfl (set_position_iff hb)
    (.inr ⟨(offset_eq hb).symm, rfl⟩)
  have hcheck := @value_iff b r hb (by change b.offset < 2 ^ 64; omega)
    (b.offset + t.size < 2 ^ 31) ⟨t.pos, t.le⟩
  rw [hclean.trans hcheck, reachable_iff, and_iff_right hstraight]
  rfl

theorem clean_get_array_iff (n : Count) : (get (.array n)).Clean b ↔
    ArrayChecked b b.offset n.val ∧ Reachable b (b.offset + n.val) := by
  let r : Read := .get (.array n)
  have hlt := offset_lt_of_positioned hb
  let last : Nat := lastIndex b.offset n.val
  have hrun : r.run b = (checked last (r.start b) r.count >>= fun bytes => do
      advance (Int32.ofNat n.val)
      return bytes) b := getArray_apply n.val b
  have hclean := @clean_iff b r last _ _ hb hrun (advance_iff hb n.lt)
    (.inr ⟨(offset_eq hb).symm, rfl⟩)
  have hcheck := @array_iff b r hb (by change b.offset < 2 ^ 64; omega)
    (b.offset + n.val < 2 ^ 31) n.lt
  rw [hclean.trans hcheck, reachable_iff]
  rfl

omit hb in
/-- A read into a reference is that of a value. -/
theorem clean_reference_iff {dest : Target → Read}
    (hdest : dest = get ∨ ∃ index, dest = (getAt · index)) (t : ElementSize) :
    (dest (.reference t)).Clean b ↔ (dest (.value t)).Clean b := by
  rcases hdest with rfl | ⟨index, rfl⟩
  · exact ⟨fun h => ⟨h.reads, h.throws⟩, fun h => ⟨h.reads, h.throws⟩⟩
  · exact ⟨fun h => ⟨h.reads, h.throws⟩, fun h => ⟨h.reads, h.throws⟩⟩

/-- Each of the six reads stays inside its buffer and fails without an effect, except where its check
or its cursor wraps, at the byte behind the buffer and for an empty array at its front. -/
theorem clean_iff_handled (r : Read) : r.Clean b ↔ r.Handled b := by
  cases r with
  | getAt dest index =>
    cases dest with
    | value t => exact clean_getAt_value_iff hb index t
    | reference t =>
      exact (clean_reference_iff (.inr ⟨index, rfl⟩) t).trans (clean_getAt_value_iff hb index t)
    | array n => exact clean_getAt_array_iff hb index n
  | get dest =>
    cases dest with
    | value t => exact clean_get_value_iff hb t
    | reference t => exact (clean_reference_iff (.inl rfl) t).trans (clean_get_value_iff hb t)
    | array n => exact clean_get_array_iff hb n

end Reads

/-- Four bytes, the first of which has been read. -/
def fourBytes : ByteBuffer := ⟨[1, 2, 3, 4], 1⟩

theorem positioned_fourBytes : fourBytes.Positioned := ⟨by decide, by decide, by decide⟩

theorem clean_fourBytes : (get (.array ⟨3, by decide⟩)).Clean fourBytes :=
  (clean_iff_handled positioned_fourBytes _).mpr (by
    refine ⟨?_, .inl (by decide)⟩
    show ArrayChecked fourBytes 1 3
    unfold ArrayChecked Straight
    decide)

/-- Five bytes are read into an array from the front of four. -/
theorem array_reads_beyond : ¬ ∀ (b : ByteBuffer) (r : Read), b.Positioned → r.Clean b := by
  intro h
  have hthrows := (h fourBytes (.getAt (.array ⟨5, by decide⟩) 0) positioned_fourBytes).throws (by
    intro hinside
    exact absurd (hinside 4 (by decide)) (by decide))
  have hfault : (getAt (.array ⟨5, by decide⟩) 0).run fourBytes = .error .outOfBounds fourBytes :=
    @checked_of_outside fourBytes 4 0 5 (by decide) (by decide)
  rw [hfault] at hthrows
  cases hthrows

end Read

end Bem
