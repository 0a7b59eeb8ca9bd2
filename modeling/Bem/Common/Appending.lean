import Bem.Common.Delivery
import Bem.Common.Robust
import Bem.Lib.Machine

/-!
# Appending to a factory

`Fill` puts its bytes at the cursor of a buffer whose sizes have 64 bits and whose cursor has 32.  A
peer that declares a frame long enough can push the cursor over the edge, since nothing is taken off
before the frame is whole.
-/

namespace Bem

open ByteBuffer

inductive FactoryOp
  | fill (data : List UInt8)
  | finishExtraction

namespace MessageFactory

/-- A call that returns. -/
def perform (lib : BsonLibrary) (f : MessageFactory) : FactoryOp → Except Fault MessageFactory
  | .fill data =>
    match fill lib data f with
    | .ok () f' => .ok f'
    | .error e _ => .error e
  | .finishExtraction => .ok f.finishExtraction

def calls (lib : BsonLibrary) : Machine MessageFactory FactoryOp Fault where
  enabled _ _ := True
  step := perform lib

/-- The next bytes go behind all that is buffered. -/
structure AtEnd (f : MessageFactory) : Prop where
  position : f.buf.position.toInt = f.buf.length
  put : ∀ data, f.buf.length + data.length ≤ maxSize →
    ∃ buf, put data f.buf = .ok () buf ∧ buf.internal = f.buf.internal ++ data

/-- With the bytes of the call the buffer stays in the range of its cursor. -/
def fits (f : MessageFactory) : FactoryOp → Prop
  | .fill data => f.buf.length + data.length < 2 ^ 31
  | .finishExtraction => True

/-! ## A cursor at the end -/

variable {lib : BsonLibrary}

theorem eq_reading_of_position {b : ByteBuffer} (h : b.position.toInt = b.length) :
    b = reading b.internal [] := by
  have hlt := b.position.toInt_lt
  have hposition : b.position = Int32.ofNat b.internal.length := by
    apply Int32.toInt_inj.mp
    rw [h, Int32.toInt_ofNat_of_lt (by change b.length < 2 ^ 31; omega)]
    rfl
  unfold reading
  rw [List.append_nil, ← hposition]

theorem put_of_position {b : ByteBuffer} {data : List UInt8} (h : b.position.toInt = b.length)
    (hroom : b.length + data.length ≤ maxSize) :
    put data b = .ok () (reading (b.internal ++ data) []) := by
  have hlt := b.position.toInt_lt
  have hput := @put_reading_of_le b.internal [] data (by change b.length < 2 ^ 31; omega) hroom
  rw [List.drop_nil, ← eq_reading_of_position h] at hput
  exact hput

theorem atEnd_iff_position {f : MessageFactory} :
    f.AtEnd ↔ f.buf.position.toInt = f.buf.length := by
  refine ⟨AtEnd.position, fun h => ⟨h, fun data hroom => ?_⟩⟩
  exact ⟨_, put_of_position h hroom, List.append_nil _⟩

theorem atEnd_reading {rest : List UInt8} {size : Nat} {ready : List Message}
    (h : rest.length < 2 ^ 31) : (MessageFactory.mk (reading rest []) size ready).AtEnd := by
  rw [atEnd_iff_position]
  change (Int32.ofNat rest.length).toInt = ((rest ++ []).length : Nat)
  rw [Int32.toInt_ofNat_of_lt h, List.append_nil]

theorem AtEnd.small {f : MessageFactory} (h : f.AtEnd) : f.buf.length < 2 ^ 31 := by
  have hposition := h.position
  have hlt := f.buf.position.toInt_lt
  omega

/-! ## The loop of `Fill` -/

/-- The look at the declared length has no effect. -/
theorem buf_of_getAt {f f' : MessageFactory} {bytes : List UInt8}
    (h : onBuf (getAt sizeOffset 8) f = .ok bytes f') : f'.buf = f.buf := by
  obtain ⟨buf, hat, rfl⟩ := onBuf_eq_ok h
  exact (getAt_eq_ok hat).1

/-- A message that is taken off leaves a new buffer with its cursor at the end. -/
theorem atEnd_interpret {f f' : MessageFactory} (h : interpret lib f = .ok () f')
    (hlen : headerSize ≤ f.buf.length) (hsmall : f.buf.length < 2 ^ 31) : f'.AtEnd := by
  have htaken := @interpret_taken lib f hlen hsmall
  cases hk : Message.taken lib f.buf.frontType f.buf.behindHeader with
  | none =>
    rw [hk] at htaken
    obtain ⟨e, g, herror⟩ := htaken
    rw [h] at herror
    cases herror
  | some k =>
    rw [hk] at htaken
    obtain ⟨message, -, hok⟩ := htaken
    rw [h] at hok
    cases hok
    have hbehind : f.buf.behindHeader.length = f.buf.length - headerSize := List.length_drop
    exact atEnd_reading (by rw [List.length_drop]; omega)

theorem AtEnd.fillLoop {f f' : MessageFactory} (hf : f.AtEnd)
    (h : fillLoop lib f = .ok () f') : f'.AtEnd := by
  fun_induction MessageFactory.fillLoop lib f with
  | case1 f hshort =>
    cases h
    exact hf
  -- what throws does not return
  | case2 f hlen hsize e f₁ hat => cases h
  | case3 f hlen hsize bytes f₁ hat hundersized =>
    -- the early return
    cases h
    rw [atEnd_iff_position] at hf ⊢
    dsimp only
    rw [buf_of_getAt hat]
    exact hf
  | case4 f hlen hsize bytes f₁ hat hdeclared ih =>
    refine ih ?_ h
    rw [atEnd_iff_position] at hf ⊢
    dsimp only
    rw [buf_of_getAt hat]
    exact hf
  | case5 f hlen hsize hwhole e f₁ hinterpret => cases h
  | case6 f hlen hsize hwhole f₁ hinterpret ih =>
    -- the bytes behind the message have been copied into a new buffer
    exact ih (atEnd_interpret hinterpret (Nat.le_of_not_lt hlen) hf.small) h
  | case7 f hlen hsize hwaits =>
    cases h
    exact hf

/-- From the edge on no message is taken off, so that a loop that ends has not touched the buffer. -/
theorem buf_of_fillLoop {f f' : MessageFactory} (hlarge : 2 ^ 31 ≤ f.buf.length)
    (hmax : f.buf.length ≤ maxSize) (h : fillLoop lib f = .ok () f') : f'.buf = f.buf := by
  fun_induction MessageFactory.fillLoop lib f with
  | case1 f hshort =>
    cases h
    rfl
  | case2 f hlen hsize e f₁ hat => cases h
  | case3 f hlen hsize bytes f₁ hat hundersized =>
    cases h
    change f₁.buf = f.buf
    exact buf_of_getAt hat
  | case4 f hlen hsize bytes f₁ hat hdeclared ih =>
    have hbuf := buf_of_getAt hat
    rw [ih (by rw [hbuf]; exact hlarge) (by rw [hbuf]; exact hmax) h]
    exact hbuf
  | case5 f hlen hsize hwhole e f₁ hinterpret => cases h
  | case6 f hlen hsize hwhole f₁ hinterpret ih =>
    -- a message would have been taken off
    have hsmall := length_of_interpret hinterpret hmax
    omega
  | case7 f hlen hsize hwaits =>
    cases h
    rfl

/-! ## The calls -/

theorem perform_fill_eq_ok {f f' : MessageFactory} {data : List UInt8}
    (h : perform lib f (.fill data) = .ok f') : fill lib data f = .ok () f' := by
  unfold perform at h
  split at h
  next data' heq =>
    cases heq
    split at h
    next f₁ hfill =>
      cases h
      exact hfill
    next => cases h
  next heq => cases heq

/-- A call keeps the cursor at the end exactly if the buffer stays in its range. -/
theorem atEnd_perform_iff {f f' : MessageFactory} {op : FactoryOp} (hf : f.AtEnd)
    (h : perform lib f op = .ok f') : f'.AtEnd ↔ f.fits op := by
  cases op with
  | finishExtraction =>
    cases h
    refine iff_of_true ?_ trivial
    rw [atEnd_iff_position] at hf ⊢
    exact hf
  | fill data =>
    change f'.AtEnd ↔ f.buf.length + data.length < 2 ^ 31
    obtain ⟨_, buf, hput, hloop⟩ := bind_onBuf_eq_ok (perform_fill_eq_ok h)
    obtain ⟨hmax, hlength, -⟩ := put_eq_ok hput
    -- the chunk is stored behind the bytes that are there
    have hoffset : f.buf.offset = f.buf.length := by
      have hposition := hf.position
      have hsmall := hf.small
      unfold offset
      omega
    rw [hoffset] at hmax hlength
    have hstored : buf = reading (f.buf.internal ++ data) [] := by
      have hwritten := put_of_position hf.position hmax
      rw [hput] at hwritten
      cases hwritten
      rfl
    constructor
    · intro hf'
      by_contra hlarge
      -- the cursor has wrapped, and no message is taken off any more
      have hsame := buf_of_fillLoop (by change 2 ^ 31 ≤ buf.length; omega)
        (by change buf.length ≤ maxSize; omega) hloop
      have hsmall := hf'.small
      rw [hsame] at hsmall
      change buf.length < 2 ^ 31 at hsmall
      omega
    · intro hfits
      refine AtEnd.fillLoop ?_ hloop
      rw [hstored]
      exact atEnd_reading (by rw [List.length_append]; exact hfits)

theorem atEnd_empty : AtEnd {} := atEnd_iff_position.mpr rfl

/-- A factory appends what it receives in all its states exactly if no call makes its buffer reach
`2 ^ 31` bytes. -/
theorem atEnd_throughout_iff {ops : List FactoryOp} {f : MessageFactory}
    (hrun : (calls lib).FreeRun {} ops f) :
    (calls lib).Throughout AtEnd {} ops f ↔ (calls lib).Run fits {} ops f := by
  refine Machine.throughout_iff (J := fun _ => True) (K := fun _ => True) ?_ ?_ hrun trivial trivial
    atEnd_empty
  · intro f op f' _ _ hf _ hok _
    exact atEnd_perform_iff hf hok
  · intro f op f' _ _ _ _ _ _
    trivial

/-- The chunk is stored behind the bytes that are there, and the loop goes over them. -/
theorem perform_loop (tail : List UInt8) {data : List UInt8} {size : Nat} {ready : List Message} {f : MessageFactory}
    (h : tail.length + data.length < 2 ^ 31)
    (hloop : fillLoop lib ⟨reading (tail ++ data) [], size, ready⟩ = .ok () f) :
    perform lib ⟨reading tail [], size, ready⟩ (.fill data) = .ok f := by
  have hput : put data (reading tail []) = .ok () (reading (tail ++ data) []) := by
    rw [put_reading h, List.drop_nil]
  have hfill : fill lib data ⟨reading tail [], size, ready⟩ = .ok () f :=
    (EStateM.bind_of_ok (onBuf_of_ok hput)).trans hloop
  unfold perform
  dsimp only
  rw [hfill]

/-- A TASK_NOTIFY in two chunks, the second of which begins a frame that declares a length of three. -/
def piecemeal : List FactoryOp :=
  [.fill [4, 14, 0, 0, 0, 0, 0, 0, 0], .fill [7, 0, 0, 0, 2, 4], .finishExtraction,
    .fill [3, 0, 0, 0, 0, 0, 0, 0]]

theorem atEnd_throughout_piecemeal : (calls emptyLibrary).Throughout AtEnd {} piecemeal
    ⟨reading [4, 3, 0, 0, 0, 0, 0, 0, 0] [], 3, [.invalid]⟩ := by
  let f₁ : MessageFactory := ⟨reading [4, 14, 0, 0, 0, 0, 0, 0, 0] [], 14, []⟩
  let f₂ : MessageFactory := ⟨reading [4] [], 0, [.taskNotify { taskId := 7, taskStatus := .tsRunning }]⟩
  let f₃ : MessageFactory := ⟨reading [4] [], 0, []⟩
  have hheader : (calls emptyLibrary).step {} (.fill [4, 14, 0, 0, 0, 0, 0, 0, 0]) = .ok f₁ := by
    refine perform_loop [] (by decide) ?_
    have hat : getAt sizeOffset 8 (reading [4, 14, 0, 0, 0, 0, 0, 0, 0] []) =
      .ok [14, 0, 0, 0, 0, 0, 0, 0] _ := rfl
    exact (fillLoop_header (by decide) hat (by decide)).trans (fillLoop_waits (by decide) (by decide))
  have hmessage : (calls emptyLibrary).step f₁ (.fill [7, 0, 0, 0, 2, 4]) = .ok f₂ := by
    refine perform_loop _ (by decide) ?_
    have htaken : interpret emptyLibrary
        ⟨reading [4, 14, 0, 0, 0, 0, 0, 0, 0, 7, 0, 0, 0, 2, 4] [], 14, []⟩ = .ok () f₂ :=
      interpret_of_decode (k := 5) (by decide) (by decide) rfl
    exact (fillLoop_interpret (by decide) (by decide) (by decide) htaken).trans (fillLoop_short (by decide))
  have hextracted : (calls emptyLibrary).step f₂ .finishExtraction = .ok f₃ := rfl
  have hundersized : (calls emptyLibrary).step f₃ (.fill [3, 0, 0, 0, 0, 0, 0, 0]) =
      .ok ⟨reading [4, 3, 0, 0, 0, 0, 0, 0, 0] [], 3, [.invalid]⟩ := by
    refine perform_loop _ (by decide) ?_
    have hat : getAt sizeOffset 8 (reading [4, 3, 0, 0, 0, 0, 0, 0, 0] []) =
      .ok [3, 0, 0, 0, 0, 0, 0, 0] _ := rfl
    exact fillLoop_undersized (by decide) hat (by decide)
  have hrun : (calls emptyLibrary).Run fits {} piecemeal
      ⟨reading [4, 3, 0, 0, 0, 0, 0, 0, 0] [], 3, [.invalid]⟩ :=
    .cons trivial (show 0 + 9 < 2 ^ 31 by decide) hheader
      (.cons trivial (show 9 + 6 < 2 ^ 31 by decide) hmessage (.cons trivial trivial hextracted
        (.cons trivial (show 1 + 8 < 2 ^ 31 by decide) hundersized (.nil _))))
  exact (atEnd_throughout_iff hrun.free).mpr hrun

/-- The header of a task of `size` bytes, and `n` bytes behind it. -/
def announcing (size n : Nat) : List UInt8 :=
  MessageType.task.code :: leBytes 8 size ++ List.replicate n 0

theorem length_announcing (size n : Nat) : (announcing size n).length = headerSize + n := by
  unfold announcing
  rw [List.length_append, List.length_cons, length_leBytes, List.length_replicate]
  rfl

/-- The bytes of a frame that is not whole are kept. -/
theorem perform_announcing {size n : Nat} (hsize : headerSize + n < size) (hmax : size < 2 ^ 63) :
    perform lib {} (.fill (announcing size n)) = .ok ⟨reading (announcing size n) [], size, []⟩ := by
  have hheader : headerSize = 9 := rfl
  have hlength := length_announcing size n
  have hput : put (announcing size n) {} = .ok () (reading (announcing size n) []) :=
    put_of_position rfl (by
      change 0 + (announcing size n).length ≤ maxSize
      unfold maxSize
      omega)
  have hbuf : (reading (announcing size n) []).length = headerSize + n := by
    rw [length_reading, hlength]
    rfl
  have hat := @getAt_declared (reading (announcing size n) []) (by omega)
  have hdeclared : leValue (((reading (announcing size n) []).internal.drop sizeOffset).take 8) =
      size := by
    rw [internal_reading, List.append_nil]
    change leValue ((leBytes 8 size ++ List.replicate n 0).take 8) = size
    rw [List.take_left' (length_leBytes 8 size)]
    exact leValue_leBytes (by omega)
  have hknown := @fillLoop_header lib _ [] _ (by omega) hat (by rw [hdeclared]; omega)
  rw [hdeclared] at hknown
  have hwaits : fillLoop lib ⟨reading (announcing size n) [], size, []⟩ =
      .ok () ⟨reading (announcing size n) [], size, []⟩ := fillLoop_waits (by omega) (by omega)
  have hfill : fill lib (announcing size n) {} = .ok () ⟨reading (announcing size n) [], size, []⟩ :=
    (EStateM.bind_of_ok (onBuf_of_ok hput)).trans (hknown.trans hwaits)
  unfold perform
  dsimp only
  rw [hfill]

/-- A peer announces a frame of `2 ^ 32` bytes and has sent half of it. -/
theorem announced_wraps : ¬ ∀ (ops : List FactoryOp) (f : MessageFactory),
    (calls emptyLibrary).FreeRun {} ops f → (calls emptyLibrary).Throughout AtEnd {} ops f := by
  intro h
  -- the numbers are kept as variables, so that no list of that length is ever looked at
  obtain ⟨n, hn⟩ : ∃ n, headerSize + n = 2 ^ 31 := ⟨2 ^ 31 - 9, by decide⟩
  obtain ⟨size, hsize⟩ : ∃ size, size = 2 ^ 32 := ⟨_, rfl⟩
  have hstep : (calls emptyLibrary).step {} (.fill (announcing size n)) =
      .ok ⟨reading (announcing size n) [], size, []⟩ := perform_announcing (by omega) (by omega)
  have hsmall := (h _ _ (.cons trivial trivial hstep (.nil _))).2.small
  dsimp only at hsmall
  rw [length_reading, length_announcing, hn] at hsmall
  exact absurd hsmall (by decide)

end MessageFactory

end Bem
