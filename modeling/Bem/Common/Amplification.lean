import Bem.Common.Appending
import Bem.Lib.Guarded
import Mathlib.Algebra.Order.Ring.Int

/-!
# What a factory makes of the bytes it is fed

The loops of `Fill` and `Interpret` are copied with guards: a bound on their rounds, and a check that
`RemainingBytes` does not subtract too much.  The guards never act, and the messages that come out are
few for the bytes that go in.
-/

namespace Bem

open ByteBuffer Guarded

/-! ## The guarded copies -/

/-- `drain` with at most `rounds` tests of `RemainingBytes`, each of which is guarded. -/
def ByteBuffer.drainGuarded {β : Type} (f : β → UInt8 → Except Fault β) :
    Nat → β → EStateM (Stop Fault) ByteBuffer β
  | 0, _ => fun b => .error .endless b
  | rounds + 1, acc => fun b =>
    if b.length < b.offset then .error .refused b
    else if b.remainingBytes = 0 then .ok acc b
    else
      match getByte b with
      | .error e b' => .error (.thrown e) b'
      | .ok byte b' =>
        match f acc byte with
        | .error e => .error (.thrown e) b'
        | .ok acc' => drainGuarded f rounds acc' b'

def HelloMessage.deserializeGuarded (copies : Nat) (lib : BsonLibrary) (m : HelloMessage) :
    EStateM (Stop Fault) ByteBuffer HelloMessage := do
  let protoVer ← lifted getByte
  let flag ← lifted getByte
  let bytes ← drainGuarded (fun bytes byte => .ok (bytes ++ [byte])) copies []
  match lib.from_bson bytes with
  | none => throw (.thrown .jsonException)
  | some j =>
    match j.atKey "gamelist" >>= m.gamelist.fromJson with
    | .error e => throw (.thrown e)
    | .ok gamelist => return { protoVer, flag, gamelist }

/-- Only a `HELLO` asks for the remaining bytes. -/
def Message.decodeGuarded (copies : Nat) (lib : BsonLibrary) (type : UInt8) :
    EStateM (Stop Fault) ByteBuffer Message :=
  if type = MessageType.hello.code then
    return .hello (← HelloMessage.deserializeGuarded copies lib {})
  else lifted (Message.decode lib type)

namespace MessageFactory

def onBufGuarded {α : Type} (m : EStateM (Stop Fault) ByteBuffer α) :
    EStateM (Stop Fault) MessageFactory α := fun f =>
  match m f.buf with
  | .ok a buf => .ok a { f with buf }
  | .error e buf => .error e { f with buf }

def copyRemainingGuarded (copies : Nat) : EStateM (Stop Fault) ByteBuffer ByteBuffer :=
  drainGuarded (fun newBuf byte =>
    match put [byte] newBuf with
    | .ok () newBuf => .ok newBuf
    | .error e _ => .error e) copies {}

def interpretGuarded (copies : Nat) (lib : BsonLibrary) :
    EStateM (Stop Fault) MessageFactory Unit := do
  let type ← onBufGuarded (lifted (getAt typeOffset 1))
  onBufGuarded (lifted (seek (Int32.ofNat headerSize)))
  let message ← onBufGuarded (Message.decodeGuarded copies lib (type.headD 0))
  modify fun f => { f with readyMessages := f.readyMessages ++ [message], messageSize := 0 }
  let newBuf ← onBufGuarded (copyRemainingGuarded copies)
  modify fun f => { f with buf := newBuf }

/-- The loop of `Fill` with at most `rounds` tests of its condition. -/
def fillLoopGuarded (copies : Nat) (lib : BsonLibrary) :
    Nat → EStateM (Stop Fault) MessageFactory Unit
  | 0 => fun f => .error .endless f
  | rounds + 1 => fun f =>
    if f.buf.length < headerSize then .ok () f
    else if f.messageSize = 0 then
      match onBuf (getAt sizeOffset 8) f with
      | .error e f' => .error (.thrown e) f'
      | .ok bytes f' =>
        if leValue bytes < headerSize then
          .ok () { f' with
            messageSize := leValue bytes
            readyMessages := f'.readyMessages ++ [.invalid] }
        else fillLoopGuarded copies lib rounds { f' with messageSize := leValue bytes }
    else if f.messageSize ≤ f.buf.length then
      match interpretGuarded copies lib f with
      | .error e f' => .error e f'
      | .ok () f' => fillLoopGuarded copies lib rounds f'
    else .ok () f

def fillGuarded (rounds copies : Nat) (lib : BsonLibrary) (data : List UInt8) :
    EStateM (Stop Fault) MessageFactory Unit := do
  onBufGuarded (lifted (put data))
  fillLoopGuarded copies lib rounds

end MessageFactory

/-- A factory with what it has been fed so far, by calls of `Fill` that have returned or thrown, and
the messages that have been extracted. -/
structure Intake where
  factory : MessageFactory := {}
  calls : Nat := 0
  received : Nat := 0
  extracted : List Message := []

namespace Intake

def step (lib : BsonLibrary) (s : Intake) : FactoryOp → Intake
  | .fill data => { s with
      factory := endState (MessageFactory.fill lib data s.factory)
      calls := s.calls + 1
      received := s.received + data.length }
  | .finishExtraction => { s with
      factory := s.factory.finishExtraction
      extracted := s.extracted ++ s.factory.readyMessages }

def after (lib : BsonLibrary) (ops : List FactoryOp) : Intake := ops.foldl (step lib) {}

def delivered (s : Intake) : List Message := s.extracted ++ s.factory.readyMessages

end Intake

/-! ## Decoders behind a header -/

namespace ByteBuffer

variable {data : List UInt8} {lo : Nat}

/-- The buffer has the bytes `data`, and its cursor stands among them, not before `lo`. -/
structure Inside (data : List UInt8) (lo : Nat) (b : ByteBuffer) : Prop where
  internal : b.internal = data
  lower : lo ≤ b.offset
  upper : b.offset ≤ data.length

theorem Inside.length {b : ByteBuffer} (h : b.Inside data lo) : b.length = data.length :=
  congrArg List.length h.internal

theorem Inside.eq_reading {b : ByteBuffer} (h : b.Inside data lo) (hsmall : data.length < 2 ^ 31) :
    b = reading (data.take b.offset) (data.drop b.offset) := by
  have hlength := h.length
  have hupper := h.upper
  -- a cursor inside the bytes is a sound one
  have hsound : b.Sound := ⟨by unfold maxSize; omega, Or.inl (by omega)⟩
  have heq := hsound.eq_reading (by omega)
  rwa [h.internal] at heq

/-- `m` stays inside the bytes, whether it returns or throws. -/
abbrev Stays {α : Type} (data : List UInt8) (lo : Nat)
    (guarded : EStateM (Stop Fault) ByteBuffer α) (m : BufferM α) : Prop :=
  Passes (Inside data lo) guarded m (fun _ => Inside data lo) (Inside data lo)

/-- A read that throws has no effect. -/
theorem get_eq_error {n : Nat} {b b' : ByteBuffer} {e : Fault} (h : get n b = .error e b') :
    b' = b := by
  rw [get_apply] at h
  cases hat : getAt b.offset n b with
  | ok bytes b₁ =>
    rw [EStateM.bind_of_ok hat] at h
    cases h
  | error e₁ b₁ =>
    rw [EStateM.bind_of_error hat] at h
    cases h
    unfold getAt at hat
    split at hat
    · split at hat
      · cases hat
      · cases hat
        rfl
    · cases hat
      rfl

theorem offset_ofInt_of_lt {p : Nat} (internal : List UInt8) (h : p < 2 ^ 31) :
    offset ⟨internal, Int32.ofInt p⟩ = p := by
  have hposition : (Int32.ofInt p).toInt = p := Int32.toInt_ofInt_of_le (by omega) (by omega)
  unfold offset
  dsimp only
  rw [hposition]
  omega

/-- A read stays inside and moves the cursor by its width. -/
theorem inside_get {b b' : ByteBuffer} {n : Nat} {bytes : List UInt8} (hb : b.Inside data lo)
    (hsmall : data.length < 2 ^ 31) (h : get n b = .ok bytes b') :
    b'.Inside data lo ∧ b'.offset = b.offset + n := by
  have hlength := hb.length
  have hlower := hb.lower
  -- the read has ended inside the bytes, where the cursor does not wrap
  obtain ⟨hlast, -, -, rfl⟩ := get_eq_ok h
  have hmoved := offset_ofInt_of_lt b.internal (show b.offset + n < 2 ^ 31 by omega)
  rw [Nat.cast_add] at hmoved
  exact ⟨⟨hb.internal, by omega, by omega⟩, hmoved⟩

/-- `m` has nothing to guard and stays inside. -/
def Keeps {α : Type} (data : List UInt8) (lo : Nat) (m : BufferM α) : Prop :=
  Stays data lo (lifted m) m

theorem Keeps.pure {α : Type} (a : α) : Keeps data lo (Pure.pure a) := .lifted fun _ hb => hb

theorem Keeps.throw {α : Type} (e : Fault) : Keeps data lo (throw e : BufferM α) :=
  .lifted fun _ hb => hb

theorem Keeps.bind {α β : Type} {m : BufferM α} {f : α → BufferM β} (hm : Keeps data lo m)
    (hf : ∀ a, Keeps data lo (f a)) : Keeps data lo (m >>= f) := by
  have hboth : Stays data lo (lifted m >>= fun a => lifted (f a)) (m >>= f) := Passes.bind hm hf
  exact .lifted fun b hb => (hboth b hb).2

theorem Keeps.get (hsmall : data.length < 2 ^ 31) (n : Nat) : Keeps data lo (get n) := by
  refine .lifted fun b hb => ?_
  cases h : ByteBuffer.get n b with
  | ok bytes b' => exact (inside_get hb hsmall h).1
  | error e b' =>
    change b'.Inside data lo
    rw [get_eq_error h]
    exact hb

theorem Keeps.byte (hsmall : data.length < 2 ^ 31) : Keeps data lo getByte :=
  .bind (.get hsmall 1) fun _ => .pure _

theorem Keeps.uint32 (hsmall : data.length < 2 ^ 31) : Keeps data lo getUInt32 :=
  .bind (.get hsmall 4) fun _ => .pure _

theorem Keeps.uint64 (hsmall : data.length < 2 ^ 31) : Keeps data lo getUInt64 :=
  .bind (.get hsmall 8) fun _ => .pure _

/-- A byte that is read has stood behind the cursor. -/
theorem inside_getByte {b b' : ByteBuffer} {byte : UInt8} (hb : b.Inside data lo)
    (hsmall : data.length < 2 ^ 31) (h : getByte b = .ok byte b') :
    b'.Inside data lo ∧ b'.offset = b.offset + 1 := by
  obtain ⟨bytes, b₁, hget, hreturn⟩ := EStateM.bind_eq_ok h
  cases hreturn
  exact inside_get hb hsmall hget

theorem drainGuarded_step {β : Type} {f : β → UInt8 → Except Fault β} {acc : β} {rounds : Nat}
    {b : ByteBuffer} (hguard : b.offset ≤ b.length) (hrest : b.remainingBytes ≠ 0) :
    drainGuarded f (rounds + 1) acc b = match getByte b with
      | .error e b' => .error (.thrown e) b'
      | .ok byte b' =>
        match f acc byte with
        | .error e => .error (.thrown e) b'
        | .ok acc' => drainGuarded f rounds acc' b' := by
  change (if b.length < b.offset then _ else if b.remainingBytes = 0 then _ else _) = _
  rw [if_neg (Nat.not_lt.mpr hguard), if_neg hrest]

/-- A loop over the remaining bytes tests as often as there are bytes left, and once more. -/
theorem drainGuarded_passes {β : Type} {f : β → UInt8 → Except Fault β} {acc : β} {rounds : Nat}
    {b : ByteBuffer} (hsmall : data.length < 2 ^ 31) (hb : b.Inside data lo)
    (hrounds : data.length - b.offset < rounds) :
    drainGuarded f rounds acc b = liftResult (drain f acc b) ∧
      Ends (fun _ => Inside data lo) (Inside data lo) (drain f acc b) := by
  induction rounds generalizing acc b with
  | zero => omega
  | succ rounds ih =>
    have hlength := hb.length
    have hupper := hb.upper
    -- the subtraction is exact
    have hguard : b.offset ≤ b.length := by omega
    by_cases hrest : b.remainingBytes = 0
    · have hcopy : drainGuarded f (rounds + 1) acc b = .ok acc b :=
        (if_neg (Nat.not_lt.mpr hguard)).trans (if_pos hrest)
      rw [hcopy, drain, if_pos hrest]
      exact ⟨rfl, hb⟩
    rw [drainGuarded_step hguard hrest]
    cases hg : getByte b with
    | error e b' =>
      -- there is a byte left, but `getByte` may throw as far as this lemma knows
      have hkept := ((Keeps.byte hsmall : Keeps data lo getByte) b hb).2
      rw [hg] at hkept
      rw [drain, if_neg hrest, hg]
      exact ⟨rfl, hkept⟩
    | ok byte b' =>
      obtain ⟨hb', hoffset⟩ := inside_getByte hb hsmall hg
      have hupper' := hb'.upper
      rw [drain, if_neg hrest, hg]
      dsimp only
      cases hacc : f acc byte with
      | error e => exact ⟨rfl, hb'⟩
      -- one byte fewer is left, and one round
      | ok acc' => exact ih hb' (by omega)

end ByteBuffer

section Decoders

variable {data : List UInt8} {lo copies : Nat} {lib : BsonLibrary} (hsmall : data.length < 2 ^ 31)

include hsmall

theorem Result.keeps_deserialize : Keeps data lo Result.deserialize :=
  .bind (.uint32 hsmall) fun _ => .bind (.uint32 hsmall) fun _ => .bind (.uint32 hsmall) fun _ =>
    .bind (.uint32 hsmall) fun _ => .bind (.uint32 hsmall) fun _ => .bind (.uint32 hsmall) fun _ =>
      .pure _

theorem Task.keeps_deserialize (t : Task) : Keeps data lo t.deserialize :=
  .bind (.uint32 hsmall) fun _ => .bind (.uint64 hsmall) fun _ => .bind (.uint64 hsmall) fun _ =>
    .bind (.uint64 hsmall) fun _ => .bind (.uint32 hsmall) fun _ => .bind (.uint32 hsmall) fun _ =>
      .bind (.uint32 hsmall) fun _ => .pure _

theorem HelloMessage.stays_deserialize (hcopies : data.length < copies) (m : HelloMessage) :
    Stays data lo (m.deserializeGuarded copies lib) (m.deserialize lib) := by
  refine .bind (Keeps.byte hsmall) fun _ => .bind (Keeps.byte hsmall) fun _ =>
    .bind (fun b hb => drainGuarded_passes hsmall hb (by omega)) fun bytes => ?_
  cases lib.from_bson bytes with
  | none => exact .throw _ fun _ hb => hb
  | some j =>
    dsimp only
    cases j.atKey "gamelist" >>= m.gamelist.fromJson with
    | error e => exact .throw _ fun _ hb => hb
    | ok gamelist => exact .pure _ fun _ hb => hb

theorem Message.keeps_decode {type : UInt8} (hhello : type ≠ MessageType.hello.code) :
    Keeps data lo (Message.decode lib type) := by
  unfold Message.decode
  split
  · exact .pure _
  split
  · exact .bind (.bind (Task.keeps_deserialize hsmall _) fun _ => .pure _) fun _ => .pure _
  split
  · exact .bind (.bind (.uint32 hsmall) fun _ => .bind (Result.keeps_deserialize hsmall) fun _ =>
      .pure _) fun _ => .pure _
  split
  · exact .bind (.bind (.uint32 hsmall) fun _ => .bind (.byte hsmall) fun _ => .pure _)
      fun _ => .pure _
  · exact .throw _

theorem Message.stays_decode (hcopies : data.length < copies) (type : UInt8) :
    Stays data lo (Message.decodeGuarded copies lib type) (Message.decode lib type) := by
  unfold Message.decodeGuarded
  split
  next hhello =>
    -- the loop over the document is the only one
    rw [hhello, decode_hello]
    exact .bind (HelloMessage.stays_deserialize hsmall hcopies {}) fun _ => .pure _ fun _ hb => hb
  next hhello => exact Message.keeps_decode hsmall hhello

end Decoders

namespace MessageFactory

variable {data : List UInt8} {copies : Nat} {lib : BsonLibrary}

/-! ## `Interpret` -/

/-- The factory apart from its buffer. -/
def Has (size : Nat) (ready : List Message) (f : MessageFactory) : Prop :=
  f.messageSize = size ∧ f.readyMessages = ready

/-- What a computation does to the buffer, it does to nothing else. -/
theorem passes_onBuf {α : Type} {P : ByteBuffer → Prop} {Q : α → ByteBuffer → Prop}
    {E : ByteBuffer → Prop} {guarded : EStateM (Stop Fault) ByteBuffer α} {m : BufferM α}
    (h : Passes P guarded m Q E) (size : Nat) (ready : List Message) :
    Passes (fun f => P f.buf ∧ f.Has size ready) (onBufGuarded guarded) (onBuf m)
      (fun a f => Q a f.buf ∧ f.Has size ready) (fun f => E f.buf ∧ f.Has size ready) := by
  intro f hf
  obtain ⟨hsame, hends⟩ := h f.buf hf.1
  cases hm : m f.buf with
  | ok a buf =>
    rw [hm] at hends
    have hguarded : guarded f.buf = .ok a buf := by rw [hsame, lifted, hm, liftResult]
    rw [lifted, onBuf_of_ok hm, onBufGuarded, hguarded]
    exact ⟨rfl, hends, hf.2⟩
  | error e buf =>
    rw [hm] at hends
    have hguarded : guarded f.buf = .error (.thrown e) buf := by rw [hsame, lifted, hm, liftResult]
    rw [lifted, onBuf_of_error hm, onBufGuarded, hguarded]
    exact ⟨rfl, hends, hf.2⟩

/-- All that is behind a header gets into the new buffer. -/
theorem passes_copyRemaining (hsmall : data.length < 2 ^ 31) (hcopies : data.length < copies) :
    Passes (Inside data headerSize) (copyRemainingGuarded copies) copyRemaining
      (fun newBuf _ => ∃ rest, newBuf = reading rest [] ∧ rest.length + headerSize ≤ data.length)
      (fun _ => False) := by
  intro b hb
  refine ⟨(drainGuarded_passes hsmall hb (by omega)).1, ?_⟩
  have hlower := hb.lower
  have hupper := hb.upper
  -- what is put into the new buffer is what the cursor has left
  have hcopied := copyRemaining_reading (data.take b.offset) (data.drop b.offset) (by
    rw [← List.length_append, List.take_append_drop]
    exact hsmall)
  rw [← hb.eq_reading hsmall] at hcopied
  rw [hcopied]
  exact ⟨_, rfl, by rw [List.length_drop]; omega⟩

theorem passes_type (hlen : headerSize ≤ data.length) :
    Passes (fun b => b.internal = data) (lifted (getAt typeOffset 1)) (getAt typeOffset 1)
      (fun _ b => b.internal = data) (Inside data 0) := by
  refine .lifted fun b hb => ?_
  have hlength : b.length = data.length := congrArg List.length hb
  have hheader : headerSize = 9 := rfl
  -- the header is there, and the cursor has no part in this
  obtain ⟨bytes, htype, -⟩ := @getAt_type b (by omega)
  rw [htype]
  exact hb

theorem passes_seek (hlen : headerSize ≤ data.length) :
    Passes (fun b => b.internal = data) (lifted (seek (Int32.ofNat headerSize)))
      (seek (Int32.ofNat headerSize)) (fun _ => Inside data headerSize) (Inside data 0) := by
  refine .lifted fun b hb => ?_
  have hoffset : offset ⟨b.internal, Int32.ofNat headerSize⟩ = headerSize := rfl
  exact ⟨hb, hoffset.ge, by rw [hoffset]; exact hlen⟩

/-- A message is taken off with its header at least, or it is all still there. -/
theorem passes_interpret (hlen : headerSize ≤ data.length) (hsmall : data.length < 2 ^ 31)
    (hcopies : data.length < copies) (size : Nat) (ready : List Message) :
    Passes (fun f => f.buf.internal = data ∧ f.Has size ready)
      (interpretGuarded copies lib) (interpret lib)
      (fun _ f => ∃ rest message, rest.length + headerSize ≤ data.length ∧
        f = ⟨reading rest [], 0, ready ++ [message]⟩)
      (fun f => f.buf.Inside data 0 ∧ f.readyMessages = ready) := by
  have hthrown (f : MessageFactory) (hf : f.buf.Inside data 0 ∧ f.Has size ready) :
      f.buf.Inside data 0 ∧ f.readyMessages = ready := ⟨hf.1, hf.2.2⟩
  have hdecode (type : UInt8) : Passes (Inside data headerSize) (Message.decodeGuarded copies lib type)
      (Message.decode lib type) (fun _ => Inside data headerSize) (Inside data 0) :=
    (Message.stays_decode hsmall hcopies type).imp (fun _ hb => hb) (fun _ _ hb => hb)
      fun b hb => ⟨hb.internal, Nat.zero_le _, hb.upper⟩
  unfold interpretGuarded interpret
  refine ((passes_onBuf (passes_type hlen) size ready).imp (fun _ hf => hf) (fun _ _ hf => hf)
    hthrown).bind fun type => ?_
  refine ((passes_onBuf (passes_seek hlen) size ready).imp (fun _ hf => hf) (fun _ _ hf => hf)
    hthrown).bind fun _ => ?_
  refine ((passes_onBuf (hdecode (type.headD 0)) size ready).imp (fun _ hf => hf) (fun _ _ hf => hf)
    hthrown).bind fun message => ?_
  -- the message is there before the rest is copied
  let R (f : MessageFactory) : Prop := f.buf.Inside data headerSize ∧ f.Has 0 (ready ++ [message])
  refine Passes.bind (Q := fun _ => R) (.modify _ ?_) fun _ => ?_
  · rintro f ⟨hbuf, -, hready⟩
    exact ⟨hbuf, rfl, congrArg (· ++ [message]) hready⟩
  have hcopy := passes_onBuf (passes_copyRemaining hsmall hcopies) 0 (ready ++ [message])
  refine (hcopy.imp (fun _ hf => hf) (fun _ _ hf => hf) fun _ hf => hf.1.elim).bind fun newBuf => ?_
  refine .modify _ ?_
  rintro f ⟨⟨rest, rfl, hrest⟩, hsize, hready⟩
  exact ⟨rest, message, hrest, by rw [hsize, hready]⟩

/-! ## The loop of `Fill` -/

/-- How often the loop can still test its condition: twice for every header, once to read the length
and once to take the message off, and once for the end. -/
def roundsNeeded (f : MessageFactory) : Nat :=
  2 * (f.buf.length / headerSize) +
    if f.messageSize = 0 ∨ f.buf.length < headerSize then 1 else 0

/-- Every message in `f'` that was not in `f` has taken a header off the buffer, except for one of a
bad length. -/
structure Spends (f f' : MessageFactory) : Prop where
  cursor : f'.buf.offset ≤ f'.buf.length
  paid : ∃ n bad, bad ≤ 1 ∧
    f'.readyMessages.length = f.readyMessages.length + n + bad ∧
      headerSize * n + f'.buf.length ≤ f.buf.length

/-- The messages have not changed, and the bytes are as many. -/
theorem Spends.of_same {f f' : MessageFactory} (hcursor : f'.buf.offset ≤ f'.buf.length)
    (hlength : f'.buf.length = f.buf.length) (hready : f'.readyMessages = f.readyMessages) :
    f.Spends f' := by
  refine ⟨hcursor, 0, 0, Nat.zero_le 1, ?_, ?_⟩
  · rw [hready]
    rfl
  · omega

/-- One more message, for nine bytes or more. -/
theorem Spends.after {f f₁ f' : MessageFactory} {message : Message} (h : f₁.Spends f')
    (hlength : f₁.buf.length + headerSize ≤ f.buf.length)
    (hready : f₁.readyMessages = f.readyMessages ++ [message]) : f.Spends f' := by
  obtain ⟨n, bad, hbad, hcount, hpaid⟩ := h.paid
  refine ⟨h.cursor, n + 1, bad, hbad, ?_, ?_⟩
  · rw [hcount, hready, List.length_append, List.length_singleton]
    omega
  · rw [Nat.mul_add, Nat.mul_one]
    omega

section Rounds

variable {rounds size : Nat} {buf : ByteBuffer} {ready : List Message}

theorem fillLoopGuarded_short (h : buf.length < headerSize) :
    fillLoopGuarded copies lib (rounds + 1) ⟨buf, size, ready⟩ = .ok () ⟨buf, size, ready⟩ :=
  if_pos h

theorem fillLoopGuarded_declared (hlen : headerSize ≤ buf.length) :
    fillLoopGuarded copies lib (rounds + 1) ⟨buf, 0, ready⟩ =
      if buf.declaredSize < headerSize then
        .ok () ⟨buf, buf.declaredSize, ready ++ [.invalid]⟩
      else fillLoopGuarded copies lib rounds ⟨buf, buf.declaredSize, ready⟩ := by
  have hat : onBuf (getAt sizeOffset 8) ⟨buf, 0, ready⟩ = _ := onBuf_of_ok (getAt_declared hlen)
  refine (if_neg (Nat.not_lt.mpr hlen)).trans ((if_pos rfl).trans ?_)
  rw [hat]
  rfl

theorem fillLoopGuarded_whole (hlen : headerSize ≤ buf.length) (hpos : size ≠ 0)
    (hwhole : size ≤ buf.length) : fillLoopGuarded copies lib (rounds + 1) ⟨buf, size, ready⟩ =
      match interpretGuarded copies lib ⟨buf, size, ready⟩ with
      | .error e f' => .error e f'
      | .ok () f' => fillLoopGuarded copies lib rounds f' :=
  (if_neg (Nat.not_lt.mpr hlen)).trans ((if_neg hpos).trans (if_pos hwhole))

theorem fillLoopGuarded_waits (hlen : headerSize ≤ buf.length) (hsize : buf.length < size) :
    fillLoopGuarded copies lib (rounds + 1) ⟨buf, size, ready⟩ = .ok () ⟨buf, size, ready⟩ :=
  (if_neg (Nat.not_lt.mpr hlen)).trans
    ((if_neg (show ¬ size = 0 by omega)).trans (if_neg (Nat.not_le.mpr hsize)))

theorem roundsNeeded_pos (f : MessageFactory) : 0 < f.roundsNeeded := by
  unfold roundsNeeded headerSize
  split <;> omega

/-- The length becomes known in one round. -/
theorem roundsNeeded_declared (hlen : headerSize ≤ buf.length) (hpos : size ≠ 0) :
    roundsNeeded ⟨buf, size, ready⟩ + 1 = roundsNeeded ⟨buf, 0, ready⟩ := by
  unfold roundsNeeded
  rw [if_neg (not_or.mpr ⟨hpos, Nat.not_lt.mpr hlen⟩), if_pos (Or.inl rfl)]

/-- A message costs another one. -/
theorem roundsNeeded_taken {f : MessageFactory} (hpos : size ≠ 0)
    (hlen : f.buf.length + headerSize ≤ buf.length) :
    f.roundsNeeded + 1 ≤ roundsNeeded ⟨buf, size, ready⟩ := by
  unfold roundsNeeded headerSize at *
  dsimp only
  rw [if_neg (not_or.mpr ⟨hpos, by omega⟩)]
  split <;> omega

end Rounds

/-- The guards of the loop never act. -/
theorem fillLoopGuarded_passes {rounds : Nat} {f : MessageFactory}
    (hcursor : f.buf.offset ≤ f.buf.length) (hsmall : f.buf.length < 2 ^ 31)
    (hcopies : f.buf.length < copies) (hrounds : f.roundsNeeded ≤ rounds) :
    fillLoopGuarded copies lib rounds f = liftResult (fillLoop lib f) ∧
      f.Spends (endState (fillLoop lib f)) := by
  induction rounds generalizing f with
  | zero =>
    have hpos := f.roundsNeeded_pos
    omega
  | succ rounds ih =>
    obtain ⟨buf, size, ready⟩ := f
    dsimp only at hcursor hsmall hcopies
    by_cases hshort : buf.length < headerSize
    · rw [fillLoopGuarded_short hshort, fillLoop_short hshort]
      exact ⟨rfl, .of_same hcursor rfl rfl⟩
    have hlen := Nat.le_of_not_lt hshort
    by_cases hsize : size = 0
    · -- the length becomes known
      subst hsize
      rw [fillLoopGuarded_declared hlen]
      by_cases hbad : buf.declaredSize < headerSize
      · rw [if_pos hbad, fillLoop_undersized hlen (getAt_declared hlen) hbad]
        refine ⟨rfl, hcursor, 0, 1, le_refl 1, ?_, ?_⟩
        · exact List.length_append
        · exact (Nat.zero_add _).le
      · have hdeclared := Nat.le_of_not_lt hbad
        have hpos : buf.declaredSize ≠ 0 := by
          unfold headerSize at hdeclared
          omega
        rw [← roundsNeeded_declared hlen hpos] at hrounds
        rw [if_neg hbad, fillLoop_header hlen (getAt_declared hlen) hdeclared]
        obtain ⟨hsame, hspends⟩ :=
          @ih ⟨buf, buf.declaredSize, ready⟩ hcursor hsmall hcopies (Nat.le_of_succ_le_succ hrounds)
        exact ⟨hsame, hspends.cursor, hspends.paid⟩
    by_cases hwhole : size ≤ buf.length
    · -- a message is taken off, unless its decoder throws
      have hpasses := @passes_interpret buf.internal copies lib hlen hsmall hcopies size ready
        ⟨buf, size, ready⟩ ⟨rfl, rfl, rfl⟩
      rw [fillLoopGuarded_whole hlen hsize hwhole, hpasses.1]
      cases hinterpret : interpret lib ⟨buf, size, ready⟩ with
      | error e f' =>
        rw [lifted, hinterpret, fillLoop_throws hlen hsize hwhole hinterpret]
        obtain ⟨hinside, hready⟩ : f'.buf.Inside buf.internal 0 ∧ f'.readyMessages = ready := by
          have hends := hpasses.2
          rwa [hinterpret] at hends
        refine ⟨rfl, .of_same ?_ hinside.length hready⟩
        exact hinside.upper.trans hinside.length.ge
      | ok _ f' =>
        rw [lifted, hinterpret, fillLoop_interpret hlen hsize hwhole hinterpret]
        obtain ⟨rest, message, hrest, rfl⟩ : ∃ rest message,
            rest.length + headerSize ≤ buf.internal.length ∧
              f' = ⟨reading rest [], 0, ready ++ [message]⟩ := by
          have hends := hpasses.2
          rwa [hinterpret] at hends
        have hlength : (reading rest []).length = rest.length := length_reading rest []
        have htaken : (reading rest []).length + headerSize ≤ buf.length := by
          rw [hlength]
          exact hrest
        have hoffset : (reading rest []).offset = rest.length := offset_reading rest [] (by omega)
        have hneeded := @roundsNeeded_taken size buf ready ⟨reading rest [], 0, ready ++ [message]⟩
          hsize htaken
        obtain ⟨hsame, hspends⟩ := @ih ⟨reading rest [], 0, ready ++ [message]⟩
          (by rw [hoffset, hlength]) (by dsimp only; omega) (by dsimp only; omega) (by omega)
        exact ⟨hsame, hspends.after htaken rfl⟩
    · have hwaits := Nat.lt_of_not_le hwhole
      rw [fillLoopGuarded_waits hlen hwaits, fillLoop_waits hlen hwaits]
      exact ⟨rfl, .of_same hcursor rfl rfl⟩

/-! ## `Fill` -/

/-- So many tests of its condition the loop of `Fill` gets by with, for `n` bytes in the buffer. -/
def fillRounds (n : Nat) : Nat := 2 * (n / headerSize) + 1

theorem roundsNeeded_le {f : MessageFactory} {n : Nat} (h : f.buf.length ≤ n) :
    f.roundsNeeded ≤ fillRounds n := by
  unfold roundsNeeded fillRounds headerSize
  split <;> omega

/-- A chunk is stored, whether at the end or over bytes that a decoder has read before it threw. -/
theorem put_inside {b : ByteBuffer} {data : List UInt8} (hcursor : b.offset ≤ b.length)
    (hroom : b.length + data.length < 2 ^ 31) : ∃ b', put data b = .ok () b' ∧
      b'.offset ≤ b'.length ∧ b'.length ≤ b.length + data.length := by
  have hsound : b.Sound := ⟨by unfold maxSize; omega, Or.inl hcursor⟩
  have hput := @put_of_sound b data hsound (by unfold maxSize; omega)
  obtain ⟨-, hlength, hposition⟩ := put_eq_ok hput
  have hoffset : (b.stored data).offset = b.offset + data.length := by
    have hmoved := offset_ofInt_of_lt (b.stored data).internal
      (show b.offset + data.length < 2 ^ 31 by omega)
    rw [Nat.cast_add, ← hposition] at hmoved
    exact hmoved
  exact ⟨_, hput, by omega, by omega⟩

/-- `Fill` ends within its rounds and never subtracts too much, and its messages are paid for. -/
theorem fillGuarded_passes {f : MessageFactory} (hcursor : f.buf.offset ≤ f.buf.length)
    (hroom : f.buf.length + data.length < 2 ^ 31) :
    fillGuarded (fillRounds (f.buf.length + data.length)) (f.buf.length + data.length + 1) lib data f =
        lifted (fill lib data) f ∧
      ∃ stored : MessageFactory, stored.readyMessages = f.readyMessages ∧
        stored.buf.length ≤ f.buf.length + data.length ∧
          stored.Spends (endState (fill lib data f)) := by
  -- from the stored chunk on both run the loop
  obtain ⟨buf, hput, hcursor', hlength⟩ := put_inside hcursor hroom
  let stored : MessageFactory := { f with buf }
  have hfill : fill lib data f = fillLoop lib stored := EStateM.bind_of_ok (onBuf_of_ok hput)
  have hguarded (rounds copies : Nat) :
      fillGuarded rounds copies lib data f = fillLoopGuarded copies lib rounds stored := by
    have hstored : onBufGuarded (lifted (put data)) f = .ok () stored := by
      unfold onBufGuarded lifted
      rw [hput]
      rfl
    exact EStateM.bind_of_ok hstored
  have hpasses := @fillLoopGuarded_passes (f.buf.length + data.length + 1) lib
    (fillRounds (f.buf.length + data.length)) stored hcursor' (by change buf.length < _; omega)
    (by change buf.length < _; omega) (roundsNeeded_le hlength)
  rw [hguarded, lifted, hfill]
  exact ⟨hpasses.1, stored, rfl, hlength, hpasses.2⟩

end MessageFactory

namespace Intake

open MessageFactory

variable {lib : BsonLibrary}

/-- The messages of every call but one for a bad length are paid for with the header of each. -/
structure Metered (s : Intake) : Prop where
  cursor : s.factory.buf.offset ≤ s.factory.buf.length
  paid : ∃ n bad, bad ≤ s.calls ∧ s.delivered.length = n + bad ∧
    headerSize * n + s.factory.buf.length ≤ s.received

theorem metered_empty : Metered {} := ⟨le_refl 0, 0, 0, le_refl 0, rfl, le_refl 0⟩

theorem received_le_step (s : Intake) (op : FactoryOp) : s.received ≤ (s.step lib op).received := by
  cases op with
  | fill data => exact Nat.le_add_right _ _
  | finishExtraction => exact le_refl _

theorem Metered.step {s : Intake} {op : FactoryOp} (h : s.Metered)
    (hroom : (s.step lib op).received < 2 ^ 31) : (s.step lib op).Metered := by
  obtain ⟨n, bad, hbad, hcount, hpaid⟩ := h.paid
  cases op with
  | finishExtraction =>
    refine ⟨h.cursor, n, bad, hbad, ?_, hpaid⟩
    rw [← hcount]
    exact congrArg List.length (List.append_nil _)
  | fill data =>
    change s.received + data.length < 2 ^ 31 at hroom
    -- what the call takes from the buffer is paid out of what has been received
    obtain ⟨-, stored, hready, hlength, hspends⟩ :=
      @fillGuarded_passes data lib s.factory h.cursor (by omega)
    obtain ⟨n', bad', hbad', hcount', hpaid'⟩ := hspends.paid
    refine ⟨hspends.cursor, n + n', bad + bad', Nat.add_le_add hbad hbad', ?_, ?_⟩
    · unfold delivered at hcount ⊢
      rw [List.length_append] at hcount ⊢
      change s.extracted.length +
        (endState (fill lib data s.factory)).readyMessages.length = _
      rw [hcount', hready]
      omega
    · change _ + (endState (fill lib data s.factory)).buf.length ≤ s.received + data.length
      rw [Nat.mul_add]
      omega

theorem metered_after {ops : List FactoryOp} (hroom : (after lib ops).received < 2 ^ 31) :
    (after lib ops).Metered := by
  induction ops using List.reverseRecOn with
  | nil => exact metered_empty
  | append_singleton ops op ih =>
    have hlast : after lib (ops ++ [op]) = (after lib ops).step lib op := List.foldl_append
    rw [hlast] at hroom ⊢
    have hmono := @received_le_step lib (after lib ops) op
    exact (ih (by omega)).step hroom

/-- Whatever a factory is fed, `Fill` ends, no difference underflows, and for the bytes received there
is at most a message for every header and one for every call. -/
theorem fill_ends_unamplified (lib : BsonLibrary) (ops : List FactoryOp)
    (hroom : (after lib ops).received < 2 ^ 31) :
    (after lib ops).delivered.length ≤
        (after lib ops).received / headerSize + (after lib ops).calls ∧
      ∀ data : List UInt8, (after lib ops).received + data.length < 2 ^ 31 →
        let f := (after lib ops).factory
        fillGuarded (fillRounds (f.buf.length + data.length)) (f.buf.length + data.length + 1)
          lib data f = lifted (fill lib data) f := by
  have hmetered := metered_after hroom
  obtain ⟨n, bad, hbad, hcount, hpaid⟩ := hmetered.paid
  constructor
  · have hn : n ≤ (after lib ops).received / headerSize := by
      rw [Nat.le_div_iff_mul_le (by decide), Nat.mul_comm]
      omega
    omega
  · intro data hdata
    exact (fillGuarded_passes hmetered.cursor (by omega)).1

/-- A task of a declared length of five bytes, and more bytes after the message has been extracted. -/
def undersized : List FactoryOp :=
  [.fill [3, 5, 0, 0, 0, 0, 0, 0, 0], .finishExtraction, .fill [1, 2, 3]]

theorem fill_ends_undersized : (after emptyLibrary undersized).delivered.length ≤ 3 ∧
    fillGuarded (fillRounds ((after emptyLibrary undersized).factory.buf.length + 2))
        ((after emptyLibrary undersized).factory.buf.length + 2 + 1) emptyLibrary [4, 5]
        (after emptyLibrary undersized).factory =
      lifted (fill emptyLibrary [4, 5]) (after emptyLibrary undersized).factory := by
  have hends := fill_ends_unamplified emptyLibrary undersized (by decide)
  exact ⟨hends.1, hends.2 [4, 5] (by decide)⟩

end Intake

end Bem
