import Mathlib.Data.List.Basic
import Bem.Lib.Faulting
import Bem.Lib.LittleEndian

/-!
# The byte buffer of the message layer

`ByteBuffer` is a growable byte vector with a cursor.  The cursor is a 32-bit `int`, sizes are
64-bit, and the source mixes the two: a cursor converts to `size_t` by sign extension and an
advance is cut down to 32 bits.  A read or write that the source lets through although it lies
outside the vector is undefined behaviour there and the fault `outOfBounds` here.
-/

namespace Bem

/-- What ends a computation of the program: an exception, an assertion or undefined behaviour. -/
inductive Fault
  | invalidArgument
  | outOfRange
  | lengthError
  | jsonException
  | outOfBounds
  | nullPointer
  | assertFailed
  deriving DecidableEq, Repr

/-- `max_size()` of a vector of bytes. -/
def maxSize : Nat := 2 ^ 63 - 1

structure ByteBuffer where
  internal : List UInt8 := []
  position : Int32 := 0
  deriving DecidableEq

/-- A computation on a buffer.  What it did to the buffer stays when it throws. -/
abbrev BufferM := EStateM Fault ByteBuffer

namespace ByteBuffer

/-- The cursor as a `size_t`. -/
def offset (b : ByteBuffer) : Nat := (b.position.toInt % 2 ^ 64).toNat

def length (b : ByteBuffer) : Nat := b.internal.length

/-- `Length() - position`, an unsigned difference. -/
def remainingBytes (b : ByteBuffer) : Nat := (b.length + 2 ^ 64 - b.offset) % 2 ^ 64

def seek (dest : Int32) : BufferM Unit := fun b => .ok () { b with position := dest }

/-- `position += by`, where `int` must not overflow. -/
def advance (count : Int32) : BufferM Unit := fun b =>
  let position := b.position.toInt + count.toInt
  if -2 ^ 31 ≤ position ∧ position < 2 ^ 31 then .ok () { b with position := Int32.ofInt position }
  else .error .outOfBounds b

/-- The `RemainingBytes()` bytes at `Next()`. -/
def next : BufferM (List UInt8) := fun b =>
  if b.offset ≤ b.length then .ok (b.internal.drop b.offset) b else .error .outOfBounds b

/-- `if (size > internal.size()) internal.resize(size)`, which fills up with zero bytes. -/
def grow (size : Nat) : BufferM Unit := fun b =>
  if size > b.length then
    if size ≤ maxSize then
      .ok () { b with internal := b.internal ++ List.replicate (size - b.length) 0 }
    else .error .lengthError b
  else .ok () b

/-- `memcpy` of `data` to the cursor, and the advance of the cursor. -/
def write (data : List UInt8) : BufferM Unit := fun b =>
  if b.offset + data.length ≤ min b.length maxSize then
    .ok () {
      internal := b.internal.take b.offset ++ data ++ b.internal.drop (b.offset + data.length)
      position := Int32.ofInt (b.offset + data.length) }
  else .error .outOfBounds b

/-- `Put` and `PutN`, on the bytes of what they store. -/
def put (data : List UInt8) : BufferM Unit := do
  let b ← getThe ByteBuffer
  grow ((b.offset + data.length) % 2 ^ 64)
  write data

/-- `for (uint8_t byte : bytes) buf.Put<uint8_t>(byte)`. -/
def putEach (bytes : List UInt8) : BufferM Unit := bytes.forM fun byte => put [byte]

/-- `GetAt` of a value of `n` bytes. -/
def getAt (index n : Nat) : BufferM (List UInt8) := fun b =>
  if (index + n) % 2 ^ 64 ≤ b.length then
    if index + n ≤ min b.length maxSize then .ok ((b.internal.drop index).take n) b
    else .error .outOfBounds b
  else .error .invalidArgument b

/-- `Get` of a value of `n` bytes. -/
def get (n : Nat) : BufferM (List UInt8) := do
  let b ← getThe ByteBuffer
  let bytes ← getAt b.offset n
  set { b with position := Int32.ofInt (b.offset + n) }
  return bytes

/-- `Get<char>` and `Get<uint8_t>`. -/
def getByte : BufferM UInt8 := do
  let bytes ← get 1
  return bytes.headD 0

def putUInt32 (v : UInt32) : BufferM Unit := put (leBytes 4 v.toNat)

def putUInt64 (v : UInt64) : BufferM Unit := put (leBytes 8 v.toNat)

def getUInt32 : BufferM UInt32 := do
  let bytes ← get 4
  return UInt32.ofNat (leValue bytes)

def getUInt64 : BufferM UInt64 := do
  let bytes ← get 8
  return UInt64.ofNat (leValue bytes)

/-- A write ends behind the bytes it stored, and grows the buffer only to hold them. -/
theorem put_eq_ok {data : List UInt8} {b b' : ByteBuffer} (h : put data b = .ok () b') :
    b.offset + data.length ≤ maxSize ∧ b'.length = max b.length (b.offset + data.length) ∧
      b'.position = Int32.ofInt (b.offset + data.length) := by
  have happly : (grow ((b.offset + data.length) % 2 ^ 64) >>= fun _ => write data) b =
      .ok () b' := h
  rcases EStateM.bind_eq_ok happly with ⟨_, b₁, hgrow, hwrite⟩
  -- the vector has grown to the end of the write, which is taken modulo `2 ^ 64`
  have hb₁ : b₁.position = b.position ∧
      b₁.length = max b.length ((b.offset + data.length) % 2 ^ 64) := by
    unfold grow at hgrow
    split at hgrow
    · split at hgrow
      · cases hgrow
        refine ⟨rfl, ?_⟩
        simp only [length, List.length_append, List.length_replicate] at *
        omega
      · cases hgrow
    · cases hgrow
      exact ⟨rfl, by omega⟩
  -- a write that did not fit would have thrown, so the end has not wrapped
  have hoff : b₁.offset = b.offset := by rw [offset, hb₁.1, offset]
  unfold write at hwrite
  rw [hoff] at hwrite
  split at hwrite
  next hle =>
    cases hwrite
    have hlen := hb₁.2
    have hmod : (b.offset + data.length) % 2 ^ 64 ≤ b.offset + data.length := Nat.mod_le _ _
    refine ⟨le_trans hle (Nat.min_le_right _ _), ?_, rfl⟩
    simp only [length, List.length_append, List.length_take, List.length_drop] at *
    omega
  next => cases hwrite

/-- A buffer never gets shorter. -/
def Grows {α : Type} (m : BufferM α) : Prop := ∀ b a b', m b = .ok a b' → b.length ≤ b'.length

theorem Grows.put (data : List UInt8) : Grows (put data) := by
  intro b a b' h
  rcases put_eq_ok h with ⟨-, hlen, -⟩
  omega

theorem Grows.seek (dest : Int32) : Grows (seek dest) := by
  intro b a b' h
  cases h
  exact le_refl _

theorem Grows.bind {α β : Type} {m : BufferM α} {f : α → BufferM β} (hm : Grows m)
    (hf : ∀ a, Grows (f a)) : Grows (m >>= f) := by
  intro b r b' h
  rcases EStateM.bind_eq_ok h with ⟨a, b₁, hma, hfa⟩
  exact le_trans (hm b a b₁ hma) (hf a b₁ r b' hfa)

/-! ## Reads move the cursor forward -/

theorem offset_lt (b : ByteBuffer) : b.offset < 2 ^ 64 := by
  unfold offset
  omega

/-- A cursor is small, or so large that it lies behind every vector. -/
theorem offset_ofInt (p q : Nat) (internal : List UInt8) (hp : p < 2 ^ 31) (hq : q < 2 ^ 31) :
    offset ⟨internal, Int32.ofInt (p + q)⟩ = p + q ∨
      2 ^ 63 ≤ offset ⟨internal, Int32.ofInt (p + q)⟩ := by
  unfold offset
  simp only [Int32.toInt_ofInt, Int32.size]
  by_cases h : p + q < 2 ^ 31
  · left
    rw [Int.bmod_eq_of_le (by omega) (by omega)]
    omega
  -- a negative `int` becomes a `size_t` of the upper half
  · right
    rw [Int.bmod_eq_emod, if_pos (by omega)]
    omega

theorem offset_small (b : ByteBuffer) (h : b.offset < 2 ^ 63) : b.offset < 2 ^ 31 := by
  have hlt := b.position.toInt_lt
  have hle := b.position.le_toInt
  unfold offset at h ⊢
  omega

theorem getAt_eq_ok {b b' : ByteBuffer} {index n : Nat} {bytes : List UInt8}
    (h : getAt index n b = .ok bytes b') :
    b' = b ∧ index + n ≤ b.length ∧ index + n ≤ maxSize ∧
      bytes = (b.internal.drop index).take n := by
  unfold getAt at h
  split at h
  · split at h
    next hle =>
      cases h
      exact ⟨rfl, le_trans hle (Nat.min_le_left _ _), le_trans hle (Nat.min_le_right _ _), rfl⟩
    next => cases h
  · cases h

theorem get_apply (n : Nat) (b : ByteBuffer) :
    get n b = (getAt b.offset n >>= fun bytes => do
      set { b with position := Int32.ofInt (b.offset + n) }
      return bytes) b := rfl

theorem get_eq_ok {b b' : ByteBuffer} {n : Nat} {bytes : List UInt8}
    (h : get n b = .ok bytes b') :
    b.offset + n ≤ b.length ∧ b.offset + n ≤ maxSize ∧
      bytes = (b.internal.drop b.offset).take n ∧
      b' = { b with position := Int32.ofInt (b.offset + n) } := by
  rw [get_apply] at h
  rcases EStateM.bind_eq_ok h with ⟨bytes', b₁, hat, hset⟩
  cases hset
  rcases getAt_eq_ok hat with ⟨-, hlen, hmax, hbytes⟩
  exact ⟨hlen, hmax, hbytes, rfl⟩

/-- A read leaves the bytes alone and moves the cursor by its width, or, past `INT_MAX`, behind
the end of every vector. -/
theorem get_offset {b b' : ByteBuffer} {n : Nat} {bytes : List UInt8} (hn : n < 2 ^ 31)
    (h : get n b = .ok bytes b') :
    b'.internal = b.internal ∧ b.offset + n ≤ b.length ∧ b.offset < 2 ^ 31 ∧
      (b'.offset = b.offset + n ∨ 2 ^ 63 ≤ b'.offset) := by
  rcases get_eq_ok h with ⟨hlen, hmax, -, rfl⟩
  have hsmall : b.offset < 2 ^ 31 := by
    apply b.offset_small
    unfold maxSize at hmax
    omega
  refine ⟨rfl, hlen, hsmall, ?_⟩
  have ho := offset_ofInt b.offset n b.internal hsmall hn
  exact_mod_cast ho

theorem getByte_eq_ok {b b' : ByteBuffer} {byte : UInt8} (h : getByte b = .ok byte b') :
    b'.internal = b.internal ∧ b.offset + 1 ≤ b.length ∧ b.offset < 2 ^ 31 ∧
      (b'.offset = b.offset + 1 ∨ 2 ^ 63 ≤ b'.offset) := by
  rcases EStateM.bind_eq_ok h with ⟨bytes, b₁, hg, hpure⟩
  cases hpure
  exact get_offset (by norm_num) hg

/-! ## Reading up to the end -/

/-- `while (RemainingBytes()) f(Get<char>())`, with the loop's own state threaded through `f`. -/
def drain {β : Type} (f : β → UInt8 → Except Fault β) (acc : β) (b : ByteBuffer) :
    EStateM.Result Fault ByteBuffer β :=
  if b.remainingBytes = 0 then .ok acc b
  else
    match _h : getByte b with
    | .error e b' => .error e b'
    | .ok byte b' =>
      match f acc byte with
      | .error e => .error e b'
      | .ok acc' => drain f acc' b'
termination_by b.length - b.offset
decreasing_by
  rcases getByte_eq_ok _h with ⟨hint, hlen, hsmall, ho⟩
  have hb' : b'.length = b.length := by rw [length, hint, length]
  -- either there is a byte fewer left, or the cursor lies behind the vector and the next read throws
  rcases ho with ho | ho <;> omega

/-- `m` leaves the bytes alone and does not move the cursor back, unless behind every vector. -/
def Advances {α : Type} (m : BufferM α) : Prop :=
  ∀ b a b', m b = .ok a b' → b'.internal = b.internal ∧ min b.offset (2 ^ 63) ≤ b'.offset

theorem Advances.pure {α : Type} (a : α) : Advances (Pure.pure a) := by
  intro b a' b' h
  cases h
  exact ⟨rfl, Nat.min_le_left _ _⟩

theorem Advances.throw {α : Type} (e : Fault) : Advances (throw e : BufferM α) := by
  intro b a b' h
  cases h

theorem Advances.bind {α β : Type} {m : BufferM α} {f : α → BufferM β} (hm : Advances m)
    (hf : ∀ a, Advances (f a)) : Advances (m >>= f) := by
  intro b r b' h
  rcases EStateM.bind_eq_ok h with ⟨a, b₁, hma, hfa⟩
  rcases hm b a b₁ hma with ⟨hint, hoff⟩
  rcases hf a b₁ r b' hfa with ⟨hint', hoff'⟩
  exact ⟨hint'.trans hint, by omega⟩

theorem Advances.get {n : Nat} (hn : n < 2 ^ 31) : Advances (get n) := by
  intro b bytes b' h
  rcases get_offset hn h with ⟨hint, -, -, ho⟩
  exact ⟨hint, by omega⟩

theorem Advances.byte : Advances getByte :=
  .bind (.get (by decide)) fun _ => .pure _

theorem Advances.uint32 : Advances getUInt32 :=
  .bind (.get (by decide)) fun _ => .pure _

theorem Advances.uint64 : Advances getUInt64 :=
  .bind (.get (by decide)) fun _ => .pure _

theorem Advances.drain {β : Type} (f : β → UInt8 → Except Fault β) (acc : β) :
    Advances (drain f acc) := by
  intro b acc' b' h
  fun_induction ByteBuffer.drain f acc b with
  | case1 acc b hrem =>
    cases h
    exact ⟨rfl, Nat.min_le_left _ _⟩
  | case2 acc b hrem e b₁ hg => cases h
  | case3 acc b hrem byte b₁ hg e hfacc => cases h
  | case4 acc b hrem byte b₁ hg acc₁ hfacc ih =>
    -- one byte, and then the rest of the loop
    rcases Advances.byte b byte b₁ hg with ⟨hint, hoff⟩
    rcases ih h with ⟨hint', hoff'⟩
    exact ⟨hint'.trans hint, by omega⟩

/-- What each byte adds to a measure of the loop's state, the loop adds at most once for each byte
behind the cursor. -/
theorem drain_measure {β : Type} {f : β → UInt8 → Except Fault β} {I : β → Prop} {μ : β → Nat}
    (hf : ∀ acc byte acc', I acc → f acc byte = .ok acc' → I acc' ∧ μ acc' ≤ μ acc + 1)
    {acc acc' : β} {b b' : ByteBuffer} (hacc : I acc) (h : drain f acc b = .ok acc' b') :
    μ acc' ≤ μ acc + (b.length - b.offset) := by
  fun_induction drain f acc b with
  | case1 acc b hrem =>
    cases h
    omega
  | case2 acc b hrem e b₁ hg => cases h
  | case3 acc b hrem byte b₁ hg e hfacc => cases h
  | case4 acc b hrem byte b₁ hg acc₁ hfacc ih =>
    rcases hf acc byte acc₁ hacc hfacc with ⟨hacc₁, hμ⟩
    have hrest := ih hacc₁ h
    rcases getByte_eq_ok hg with ⟨hint, hlen, hsmall, ho⟩
    have hb₁ : b₁.length = b.length := by rw [length, hint, length]
    rcases ho with ho | ho <;> omega

/-! ## Writes and reads within `INT_MAX`

`reading pre rest` is a buffer whose cursor stands between `pre` and `rest`.  While the bytes stay
below `2 ^ 31` no conversion loses anything, and the operations are those of a list with a gap. -/

def reading (pre rest : List UInt8) : ByteBuffer := ⟨pre ++ rest, Int32.ofNat pre.length⟩

@[simp] theorem internal_reading (pre rest : List UInt8) :
    (reading pre rest).internal = pre ++ rest := rfl

@[simp] theorem length_reading (pre rest : List UInt8) :
    (reading pre rest).length = pre.length + rest.length := List.length_append

theorem offset_reading (pre rest : List UInt8) (h : pre.length < 2 ^ 31) :
    (reading pre rest).offset = pre.length := by
  unfold offset reading
  rw [Int32.toInt_ofNat_of_lt h]
  omega

theorem remainingBytes_reading {pre rest : List UInt8} (h : pre.length + rest.length < 2 ^ 31) :
    (reading pre rest).remainingBytes = rest.length := by
  unfold remainingBytes
  rw [offset_reading pre rest (by omega), length_reading]
  omega

theorem seek_reading (pre rest : List UInt8) (b : ByteBuffer) (hb : b.internal = pre ++ rest) :
    seek (Int32.ofNat pre.length) b = .ok () (reading pre rest) := by
  unfold seek reading
  rw [hb]

private theorem ofInt_length (p n : Nat) : Int32.ofInt (p + n) = Int32.ofNat (p + n) := by
  rw [← Int32.ofInt_eq_ofNat, Nat.cast_add]

private theorem put_apply (data : List UInt8) (b : ByteBuffer) :
    put data b = (grow ((b.offset + data.length) % 2 ^ 64) >>= fun _ => write data) b := rfl

theorem next_reading {pre rest : List UInt8} (h : pre.length < 2 ^ 31) :
    next (reading pre rest) = .ok rest (reading pre rest) := by
  unfold next
  rw [offset_reading pre rest h, length_reading, if_pos (by omega), internal_reading,
    List.drop_left]

theorem advance_reading {pre rest : List UInt8} {count : Nat} (hcount : count ≤ rest.length)
    (h : pre.length + rest.length < 2 ^ 31) : advance (Int32.ofInt count) (reading pre rest) =
      .ok () (reading (pre ++ rest.take count) (rest.drop count)) := by
  have hposition : (Int32.ofNat pre.length).toInt = pre.length := Int32.toInt_ofNat_of_lt (by omega)
  have hstep : (Int32.ofInt count).toInt = count :=
    Int32.toInt_ofInt_of_le (by omega) (by omega)
  unfold advance reading
  dsimp only
  rw [hposition, hstep, if_pos (by omega), List.append_assoc, List.take_append_drop,
    List.length_append, List.length_take_of_le hcount]
  rfl

private theorem write_reading (pre rest : List UInt8) {old data : List UInt8}
    (hlen : old.length = data.length) (hpre : pre.length < 2 ^ 31)
    (h : pre.length + data.length ≤ maxSize) :
    write data (reading pre (old ++ rest)) = .ok () (reading (pre ++ data) rest) := by
  have ho := offset_reading pre (old ++ rest) hpre
  unfold write
  rw [ho, if_pos (by simp only [length_reading, List.length_append]; omega), internal_reading]
  rw [List.take_left, ← List.drop_drop, List.drop_left, ← hlen, List.drop_left, ofInt_length, hlen]
  unfold reading
  rw [List.length_append, List.append_assoc]

/-- A write replaces the bytes behind the cursor, as far as there are any. -/
theorem put_reading_of_le {pre rest data : List UInt8} (hpre : pre.length < 2 ^ 31)
    (h : pre.length + data.length ≤ maxSize) : put data (reading pre rest) =
      .ok () (reading (pre ++ data) (rest.drop data.length)) := by
  let full := rest ++ List.replicate (data.length - rest.length) 0
  have hgrow : grow (pre.length + data.length) (reading pre rest) = .ok () (reading pre full) := by
    unfold grow
    rw [length_reading]
    -- the vector grows only if the data goes beyond its end
    by_cases hd : data.length ≤ rest.length
    · have hfull : full = rest := by
        change rest ++ List.replicate (data.length - rest.length) 0 = rest
        rw [Nat.sub_eq_zero_of_le hd, List.replicate_zero, List.append_nil]
      rw [if_neg (by omega), hfull]
    · have hdiff : pre.length + data.length - (pre.length + rest.length) =
          data.length - rest.length := by omega
      rw [if_pos (by omega), if_pos h, hdiff, internal_reading,
        List.append_assoc]
      rfl
  have htake : (full.take data.length).length = data.length := by
    simp only [full, List.length_take, List.length_append, List.length_replicate]
    omega
  have hdrop : full.drop data.length = rest.drop data.length := by
    change (rest ++ List.replicate (data.length - rest.length) 0).drop data.length = _
    rw [List.drop_append, List.drop_replicate, Nat.sub_self, List.replicate_zero, List.append_nil]
  have hsmall : pre.length + data.length < 2 ^ 64 := by
    unfold maxSize at h
    omega
  rw [put_apply, offset_reading pre _ hpre, Nat.mod_eq_of_lt hsmall,
    EStateM.bind_of_ok hgrow, ← List.take_append_drop data.length full, ← hdrop]
  exact write_reading pre _ htake hpre h

theorem put_reading {pre rest data : List UInt8} (h : pre.length + data.length < 2 ^ 31) :
    put data (reading pre rest) =
      .ok () (reading (pre ++ data) (rest.drop data.length)) :=
  put_reading_of_le (by omega) (by unfold maxSize; omega)

theorem getAt_ok (pre bytes rest : List UInt8) {b : ByteBuffer}
    (hb : b.internal = pre ++ (bytes ++ rest)) (h : pre.length + bytes.length < 2 ^ 31) :
    getAt pre.length bytes.length b = .ok bytes b := by
  have hlen : b.length = pre.length + bytes.length + rest.length := by
    rw [length, hb, List.length_append, List.length_append, Nat.add_assoc]
  unfold getAt
  rw [Nat.mod_eq_of_lt (by omega), if_pos (by omega), if_pos (by unfold maxSize; omega), hb,
    List.drop_left, List.take_left]

theorem get_reading (pre bytes rest : List UInt8) (h : pre.length + bytes.length < 2 ^ 31) :
    get bytes.length (reading pre (bytes ++ rest)) =
      .ok bytes (reading (pre ++ bytes) rest) := by
  have hat : getAt pre.length bytes.length (reading pre (bytes ++ rest)) =
      .ok bytes (reading pre (bytes ++ rest)) :=
    getAt_ok pre bytes rest rfl h
  rw [get_apply, offset_reading pre (bytes ++ rest) (by omega), EStateM.bind_of_ok hat, ofInt_length]
  unfold reading
  rw [List.length_append, List.append_assoc]
  rfl

theorem getByte_reading {pre rest : List UInt8} {byte : UInt8} (h : pre.length + 1 < 2 ^ 31) :
    getByte (reading pre (byte :: rest)) = .ok byte (reading (pre ++ [byte]) rest) := by
  have hg : get 1 (reading pre (byte :: rest)) = .ok [byte] (reading (pre ++ [byte]) rest) :=
    get_reading pre [byte] rest h
  exact EStateM.bind_of_ok hg

theorem getUInt32_reading {pre rest : List UInt8} {v : UInt32} (h : pre.length + 4 < 2 ^ 31) :
    getUInt32 (reading pre (leBytes 4 v.toNat ++ rest)) =
      .ok v (reading (pre ++ leBytes 4 v.toNat) rest) := by
  have hg := get_reading pre (leBytes 4 v.toNat) rest
    (by rw [length_leBytes]; exact h)
  rw [length_leBytes] at hg
  refine (EStateM.bind_of_ok hg).trans ?_
  rw [leValue_leBytes v.toNat_lt, UInt32.ofNat_toNat]
  rfl

theorem getUInt64_reading {pre rest : List UInt8} {v : UInt64} (h : pre.length + 8 < 2 ^ 31) :
    getUInt64 (reading pre (leBytes 8 v.toNat ++ rest)) =
      .ok v (reading (pre ++ leBytes 8 v.toNat) rest) := by
  have hg := get_reading pre (leBytes 8 v.toNat) rest
    (by rw [length_leBytes]; exact h)
  rw [length_leBytes] at hg
  refine (EStateM.bind_of_ok hg).trans ?_
  rw [leValue_leBytes v.toNat_lt, UInt64.ofNat_toNat]
  rfl

/-! ## Codecs by parts

`Appends m data` says that `m` writes exactly `data` at the end of a buffer, `Parses m data a` that
`m` consumes exactly `data` and returns `a`.  Both compose along `>>=`. -/

def Appends (m : BufferM Unit) (data : List UInt8) : Prop :=
  ∀ pre : List UInt8, pre.length + data.length < 2 ^ 31 →
    m (reading pre []) = .ok () (reading (pre ++ data) [])

def Parses {α : Type} (m : BufferM α) (data : List UInt8) (a : α) : Prop :=
  ∀ pre rest : List UInt8, pre.length + data.length < 2 ^ 31 →
    m (reading pre (data ++ rest)) = .ok a (reading (pre ++ data) rest)

theorem Appends.put (data : List UInt8) : Appends (put data) data := by
  intro pre h
  rw [put_reading h, List.drop_nil]

theorem Appends.bind {m : BufferM Unit} {f : Unit → BufferM Unit} {data data' : List UInt8}
    (hm : Appends m data) (hf : Appends (f ()) data') : Appends (m >>= f) (data ++ data') := by
  intro pre h
  rw [List.length_append] at h
  rw [EStateM.bind_of_ok (hm pre (by omega)), hf (pre ++ data) (by rw [List.length_append]; omega),
    List.append_assoc]

theorem Appends.pure : Appends (Pure.pure ()) [] := by
  intro pre _
  rw [List.append_nil]
  rfl

theorem Parses.pure {α : Type} (a : α) : Parses (Pure.pure a) [] a := by
  intro pre rest _
  rw [List.append_nil]
  rfl

theorem Parses.bind {α β : Type} {m : BufferM α} {f : α → BufferM β} {data data' : List UInt8}
    {a : α} {b : β} (hm : Parses m data a) (hf : Parses (f a) data' b) :
    Parses (m >>= f) (data ++ data') b := by
  intro pre rest h
  rw [List.length_append] at h
  rw [List.append_assoc, EStateM.bind_of_ok (hm pre (data' ++ rest) (by omega)),
    hf (pre ++ data) rest (by rw [List.length_append]; omega), List.append_assoc]

theorem Appends.putEach (bytes : List UInt8) : Appends (putEach bytes) bytes := by
  induction bytes with
  | nil => exact .pure
  | cons byte bytes ih => exact .bind (.put [byte]) ih

theorem Grows.putEach (bytes : List UInt8) : Grows (putEach bytes) := by
  induction bytes with
  | nil =>
    intro b a b' h
    cases h
    exact le_refl _
  | cons byte bytes ih => exact .bind (.put [byte]) fun _ => ih

/-- Writing byte by byte gets through only if the bytes fit, up to the last value of the cursor. -/
theorem length_putEach {pre bytes : List UInt8} {b : ByteBuffer} (hpre : pre.length < 2 ^ 31)
    (h : ByteBuffer.putEach bytes (reading pre []) = .ok () b) :
    min (pre.length + bytes.length) (2 ^ 31) ≤ b.length := by
  induction bytes generalizing pre with
  | nil =>
    cases h
    simp
  | cons byte bytes ih =>
    rcases EStateM.bind_eq_ok h with ⟨_, b₁, hput, hrest⟩
    change ByteBuffer.put [byte] (reading pre []) = _ at hput
    rw [List.length_cons]
    by_cases hlast : pre.length + 1 < 2 ^ 31
    · have hnext : ByteBuffer.put [byte] (reading pre []) = .ok () (reading (pre ++ [byte]) []) :=
        put_reading hlast
      rw [hput] at hnext
      cases hnext
      have hle := ih (by rw [List.length_append, List.length_singleton]; omega) hrest
      rw [List.length_append, List.length_singleton] at hle
      omega
    · have hgrown := (put_eq_ok hput).2.1
      have hle := Grows.putEach bytes _ _ _ hrest
      rw [offset_reading pre [] hpre, List.length_singleton] at hgrown
      omega

theorem Parses.uint32 (v : UInt32) : Parses getUInt32 (leBytes 4 v.toNat) v :=
  fun _ _ h => getUInt32_reading (by rwa [length_leBytes] at h)

theorem Parses.uint64 (v : UInt64) : Parses getUInt64 (leBytes 8 v.toNat) v :=
  fun _ _ h => getUInt64_reading (by rwa [length_leBytes] at h)

theorem Parses.byte (v : UInt8) : Parses getByte [v] v :=
  fun _ _ h => getByte_reading h

/-- Reading up to the end is a loop over the bytes behind the cursor. -/
theorem drain_reading {β : Type} {f : β → UInt8 → Except Fault β} {acc acc' : β}
    {pre rest : List UInt8} (h : pre.length + rest.length < 2 ^ 31)
    (hf : rest.foldlM f acc = .ok acc') :
    drain f acc (reading pre rest) = .ok acc' (reading (pre ++ rest) []) := by
  induction rest generalizing pre acc with
  | nil =>
    cases hf
    rw [drain, remainingBytes_reading h, if_pos List.length_nil, List.append_nil]
  | cons byte rest ih =>
    have hlen : pre.length + (rest.length + 1) < 2 ^ 31 := h
    rw [Except.foldlM_cons_eq_ok] at hf
    rcases hf with ⟨acc₁, hacc₁, hrest⟩
    have hbound : (pre ++ [byte]).length + rest.length < 2 ^ 31 := by
      simp only [List.length_append, List.length_singleton]
      omega
    have hih := ih hbound hrest
    rw [drain, remainingBytes_reading h, if_neg (by simp), getByte_reading (by omega)]
    simp only [hacc₁]
    rw [List.append_assoc, List.singleton_append] at hih
    exact hih

end ByteBuffer

end Bem
