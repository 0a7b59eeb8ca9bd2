import Bem.Common.Messages

/-!
# The message factory

`fill` appends a chunk of the stream to the buffer and takes messages off its front while whole
frames are there.  `messageSize` remembers the declared length of the frame in front, `0` when it
has not been read.
-/

namespace Bem

open ByteBuffer

structure MessageFactory where
  buf : ByteBuffer := {}
  messageSize : Nat := 0
  readyMessages : List Message := []
  deriving DecidableEq

/-- A computation on a factory.  What it did to the factory stays when it throws. -/
abbrev FactoryM := EStateM Fault MessageFactory

namespace MessageFactory

def onBuf {α : Type} (m : BufferM α) : FactoryM α := fun f =>
  match m f.buf with
  | .ok a buf => .ok a { f with buf }
  | .error e buf => .error e { f with buf }

/-- `while (buf->RemainingBytes()) newBuf->Put(buf->Get<char>())`. -/
def copyRemaining : BufferM ByteBuffer :=
  drain (fun newBuf byte =>
    match put [byte] newBuf with
    | .ok () newBuf => .ok newBuf
    | .error e _ => .error e) {}

def interpret (lib : BsonLibrary) : FactoryM Unit := do
  let type ← onBuf (getAt typeOffset 1)
  onBuf (seek (Int32.ofNat headerSize))
  let message ← onBuf (Message.decode lib (type.headD 0))
  modify fun f => { f with readyMessages := f.readyMessages ++ [message], messageSize := 0 }
  -- the message is ready by now, also if the copy throws
  let newBuf ← onBuf copyRemaining
  modify fun f => { f with buf := newBuf }

/-! ## A message takes at least its header off the buffer -/

theorem onBuf_of_ok {α : Type} {m : BufferM α} {f : MessageFactory} {a : α} {buf : ByteBuffer}
    (h : m f.buf = .ok a buf) : onBuf m f = .ok a { f with buf } := by
  unfold onBuf
  rw [h]

theorem onBuf_of_error {α : Type} {m : BufferM α} {f : MessageFactory} {e : Fault}
    {buf : ByteBuffer} (h : m f.buf = .error e buf) : onBuf m f = .error e { f with buf } := by
  unfold onBuf
  rw [h]

theorem onBuf_eq_ok {α : Type} {m : BufferM α} {f f' : MessageFactory} {a : α}
    (h : onBuf m f = .ok a f') : ∃ buf, m f.buf = .ok a buf ∧ f' = { f with buf } := by
  cases hm : m f.buf with
  | ok a' buf =>
    rw [onBuf_of_ok hm] at h
    cases h
    exact ⟨buf, rfl, rfl⟩
  | error e buf =>
    rw [onBuf_of_error hm] at h
    cases h

theorem bind_onBuf_eq_ok {α β : Type} {m : BufferM α} {k : α → FactoryM β}
    {f f' : MessageFactory} {r : β} (h : (onBuf m >>= k) f = .ok r f') :
    ∃ a buf, m f.buf = .ok a buf ∧ k a { f with buf } = .ok r f' := by
  rcases EStateM.bind_eq_ok h with ⟨a, f₁, hm, hk⟩
  rcases onBuf_eq_ok hm with ⟨buf, hbuf, rfl⟩
  exact ⟨a, buf, hbuf, hk⟩

/-- The copy never holds more than the bytes behind the cursor. -/
private theorem length_copyRemaining {b newBuf b' : ByteBuffer}
    (h : copyRemaining b = .ok newBuf b') : newBuf.length ≤ b.length - b.offset := by
  let I (c : ByteBuffer) : Prop := c.offset = c.length ∨ 2 ^ 63 ≤ c.offset
  have hstep : ∀ c byte c', I c →
      (match put [byte] c with
        | .ok () newBuf => Except.ok newBuf
        | .error e _ => .error e) = .ok c' → I c' ∧ c'.length ≤ c.length + 1 := by
    intro c byte c' hc hput
    split at hput
    next c₁ hok =>
      cases hput
      rcases put_eq_ok hok with ⟨hmax, hlen, hpos⟩
      rw [List.length_singleton] at hmax hlen hpos
      have hsmall : c.offset < 2 ^ 31 := c.offset_small (by unfold maxSize at hmax; omega)
      have hoff := offset_ofInt c.offset 1 c'.internal hsmall (by decide)
      have hc' : c'.offset = offset ⟨c'.internal, Int32.ofInt (c.offset + 1)⟩ := by
        rw [offset, hpos]
        rfl
      -- a cursor at the end stays there until it wraps
      rcases hc with hc | hc
      · refine ⟨?_, by omega⟩
        change c'.offset = c'.length ∨ 2 ^ 63 ≤ c'.offset
        push_cast at hoff
        omega
      · omega
    next => cases hput
  have hmeasure := drain_measure (I := I) hstep (Or.inl rfl) h
  change newBuf.length ≤ 0 + (b.length - b.offset) at hmeasure
  rwa [Nat.zero_add] at hmeasure

theorem interpret_length {lib : BsonLibrary} {f f' : MessageFactory}
    (h : interpret lib f = .ok () f') :
    f'.buf.length ≤ f.buf.length - headerSize ∧ 1 ≤ f.buf.length := by
  rcases bind_onBuf_eq_ok h with ⟨type, b₁, hat, h₁⟩
  rcases getAt_eq_ok hat with ⟨rfl, hlen, -, -⟩
  rcases bind_onBuf_eq_ok h₁ with ⟨_, b₂, hseek, h₂⟩
  cases hseek
  rcases bind_onBuf_eq_ok h₂ with ⟨message, b₃, hdecode, h₃⟩
  rcases Message.advances_decode lib _ _ _ _ hdecode with ⟨hint, hoff⟩
  rcases EStateM.bind_eq_ok h₃ with ⟨_, f₄, hmodify, h₄⟩
  cases hmodify
  rcases bind_onBuf_eq_ok h₄ with ⟨newBuf, b₅, hcopy, h₅⟩
  cases h₅
  have hcopied := length_copyRemaining hcopy
  have hb₃ : b₃.length = f.buf.length := by rw [length, hint, length]
  have hheader : min 9 (2 ^ 63) ≤ b₃.offset := hoff
  refine ⟨?_, by unfold typeOffset at hlen; omega⟩
  change newBuf.length ≤ _
  unfold headerSize
  change newBuf.length ≤ b₃.length - b₃.offset at hcopied
  omega

/-! ## Filling -/

/-- The loop of `Fill`. -/
def fillLoop (lib : BsonLibrary) (f : MessageFactory) : EStateM.Result Fault MessageFactory Unit :=
  if f.buf.length < headerSize then .ok () f
  else if f.messageSize = 0 then
    match _h : onBuf (getAt sizeOffset 8) f with
    | .error e f' => .error e f'
    | .ok bytes f' =>
      if leValue bytes < headerSize then
        .ok () { f' with
          messageSize := leValue bytes
          readyMessages := f'.readyMessages ++ [.invalid] }
      else fillLoop lib { f' with messageSize := leValue bytes }
  -- the length that was declared, and not what the decoder reads, says when a message is there
  else if f.messageSize ≤ f.buf.length then
    match _h : interpret lib f with
    | .error e f' => .error e f'
    | .ok () f' => fillLoop lib f'
  else .ok () f
termination_by (f.buf.length, if f.messageSize = 0 then 1 else 0)
decreasing_by
  · -- the length has become known, and the buffer is the same
    rcases onBuf_eq_ok _h with ⟨buf, hat, rfl⟩
    rcases getAt_eq_ok hat with ⟨rfl, -, -, -⟩
    unfold headerSize at *
    have hunknown : f.messageSize = 0 := ‹_›
    have hknown : ¬ leValue bytes = 0 := by omega
    rw [if_neg hknown, if_pos hunknown]
    exact Prod.Lex.right _ Nat.one_pos
  · -- a frame has been taken off the buffer
    rcases interpret_length _h with ⟨hlen, -⟩
    unfold headerSize at *
    exact Prod.Lex.left _ _ (by omega)

section

variable {lib : BsonLibrary} {buf : ByteBuffer} {size : Nat} {ready : List Message}

theorem fillLoop_short (h : buf.length < headerSize) :
    fillLoop lib ⟨buf, size, ready⟩ = .ok () ⟨buf, size, ready⟩ := by
  rw [fillLoop, if_pos h]

theorem fillLoop_header {bytes : List UInt8} (hlen : headerSize ≤ buf.length)
    (hat : getAt sizeOffset 8 buf = .ok bytes buf) (hbytes : headerSize ≤ leValue bytes) :
    fillLoop lib ⟨buf, 0, ready⟩ = fillLoop lib ⟨buf, leValue bytes, ready⟩ := by
  have hon : onBuf (getAt sizeOffset 8) ⟨buf, 0, ready⟩ = .ok bytes ⟨buf, 0, ready⟩ :=
    onBuf_of_ok hat
  rw [fillLoop, if_neg (Nat.not_lt.mpr hlen), if_pos rfl]
  split
  next e f h =>
    rw [hon] at h
    cases h
  next bytes₁ f h =>
    rw [hon] at h
    cases h
    rw [if_neg (Nat.not_lt.mpr hbytes)]

theorem fillLoop_undersized {bytes : List UInt8} (hlen : headerSize ≤ buf.length)
    (hat : getAt sizeOffset 8 buf = .ok bytes buf) (hbytes : leValue bytes < headerSize) :
    fillLoop lib ⟨buf, 0, ready⟩ = .ok () ⟨buf, leValue bytes, ready ++ [.invalid]⟩ := by
  have hon : onBuf (getAt sizeOffset 8) ⟨buf, 0, ready⟩ = .ok bytes ⟨buf, 0, ready⟩ :=
    onBuf_of_ok hat
  rw [fillLoop, if_neg (Nat.not_lt.mpr hlen), if_pos rfl]
  split
  next e f h =>
    rw [hon] at h
    cases h
  next bytes₁ f h =>
    rw [hon] at h
    cases h
    rw [if_pos hbytes]

theorem fillLoop_waits (hlen : headerSize ≤ buf.length) (hsize : buf.length < size) :
    fillLoop lib ⟨buf, size, ready⟩ = .ok () ⟨buf, size, ready⟩ := by
  rw [fillLoop, if_neg (Nat.not_lt.mpr hlen), if_neg (show ¬ size = 0 by omega),
    if_neg (Nat.not_le.mpr hsize)]

theorem fillLoop_interpret {f : MessageFactory} (hlen : headerSize ≤ buf.length) (hpos : size ≠ 0)
    (hsize : size ≤ buf.length) (h : interpret lib ⟨buf, size, ready⟩ = .ok () f) :
    fillLoop lib ⟨buf, size, ready⟩ = fillLoop lib f := by
  rw [fillLoop, if_neg (Nat.not_lt.mpr hlen), if_neg hpos, if_pos hsize]
  split
  next e f₁ h₁ =>
    rw [h] at h₁
    cases h₁
  next f₁ h₁ =>
    rw [h] at h₁
    cases h₁
    rfl

theorem fillLoop_throws {f : MessageFactory} {e : Fault} (hlen : headerSize ≤ buf.length)
    (hpos : size ≠ 0) (hsize : size ≤ buf.length)
    (h : interpret lib ⟨buf, size, ready⟩ = .error e f) :
    fillLoop lib ⟨buf, size, ready⟩ = .error e f := by
  rw [fillLoop, if_neg (Nat.not_lt.mpr hlen), if_neg hpos, if_pos hsize]
  split
  next e₁ f₁ h₁ =>
    rw [h] at h₁
    cases h₁
    rfl
  next f₁ h₁ =>
    rw [h] at h₁
    cases h₁

end

def fill (lib : BsonLibrary) (data : List UInt8) : FactoryM Unit := do
  onBuf (put data)
  fillLoop lib

def finishExtraction (f : MessageFactory) : MessageFactory := { f with readyMessages := [] }

/-- The loop of a reader: after each chunk it collects the messages that are ready. -/
def receive (lib : BsonLibrary) :
    List (List UInt8) → MessageFactory → Except Fault (List Message × MessageFactory)
  | [], f => .ok ([], f)
  | chunk :: chunks, f =>
    match fill lib chunk f with
    | .error e _ => .error e
    | .ok () f => do
      let (messages, f') ← receive lib chunks f.finishExtraction
      return (f.readyMessages ++ messages, f')

end MessageFactory

end Bem
