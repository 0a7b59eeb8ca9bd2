import Bem.Common.Delivery
import Bem.Common.Robust

/-!
# Fragments of a stream

What a factory makes of one stream that is cut in several ways.  The frames are found by what is
buffered when their last byte arrives, and so the cuts can decide what a malformed frame comes to.
-/

namespace Bem

open ByteBuffer

/-! ## Decoders that look at their own bytes only -/

namespace ByteBuffer

/-- `m` takes `k` bytes, and what it returns depends on nothing else. -/
def Steady {α : Type} (m : BufferM α) (k : Nat) : Prop :=
  ∀ data : List UInt8, data.length = k → ∃ a, Parses m data a

theorem Steady.pure {α : Type} (a : α) : Steady (Pure.pure a) 0 := by
  intro data hdata
  rw [List.eq_nil_of_length_eq_zero hdata]
  exact ⟨a, .pure a⟩

theorem Steady.bind {α β : Type} {m : BufferM α} {f : α → BufferM β} {k k' : Nat}
    (hm : Steady m k) (hf : ∀ a, Steady (f a) k') : Steady (m >>= f) (k + k') := by
  intro data hdata
  obtain ⟨a, ha⟩ := hm (data.take k) (by rw [List.length_take]; omega)
  obtain ⟨b, hb⟩ := hf a (data.drop k) (by rw [List.length_drop]; omega)
  refine ⟨b, ?_⟩
  have hboth := ha.bind hb
  rwa [List.take_append_drop] at hboth

theorem Steady.get (n : Nat) : Steady (get n) n := by
  intro data hdata
  refine ⟨data, fun pre rest h => ?_⟩
  have hget := get_reading pre data rest (by omega)
  rwa [hdata] at hget

theorem Steady.byte : Steady getByte 1 := .bind (.get _) fun _ => .pure _

theorem Steady.uint32 : Steady getUInt32 4 := .bind (.get _) fun _ => .pure _

theorem Steady.uint64 : Steady getUInt64 8 := .bind (.get _) fun _ => .pure _

end ByteBuffer

theorem TaskMessage.steady_deserialize (m : TaskMessage) : Steady m.deserialize 40 :=
  .bind (.bind .uint32 fun _ => .bind .uint64 fun _ => .bind .uint64 fun _ => .bind .uint64 fun _ =>
    .bind .uint32 fun _ => .bind .uint32 fun _ => .bind .uint32 fun _ => .pure _) fun _ => .pure _

theorem ResultMessage.steady_deserialize : Steady ResultMessage.deserialize 28 :=
  .bind .uint32 fun _ => .bind (.bind .uint32 fun _ => .bind .uint32 fun _ => .bind .uint32 fun _ =>
    .bind .uint32 fun _ => .bind .uint32 fun _ => .bind .uint32 fun _ => .pure _) fun _ => .pure _

theorem TaskNotifyMessage.steady_deserialize : Steady TaskNotifyMessage.deserialize 5 :=
  .bind .uint32 fun _ => .bind .byte fun _ => .pure _

namespace Message

/-- How many bytes behind a header the class of a type reads, if it does not read up to the end. -/
def width (type : UInt8) : Option Nat :=
  if Unknown type then some 0
  else if type = MessageType.task.code then some 40
  else if type = MessageType.result.code then some 28
  else if type = MessageType.taskNotify.code then some 5
  else none

variable {lib : BsonLibrary} {type : UInt8} {rest : List UInt8} {k : Nat}

theorem taken_le (h : taken lib type rest = some k) : k ≤ rest.length := by
  unfold taken at h
  split_ifs at h <;> cases h <;> omega

/-- Only a HELLO takes as many bytes as there are. -/
theorem taken_eq_some_iff (htype : type ≠ MessageType.hello.code) :
    taken lib type rest = some k ↔ width type = some k ∧ k ≤ rest.length := by
  unfold taken width
  rw [if_neg htype]
  split_ifs <;> simp <;> omega

theorem taken_hello_eq_some_iff : taken lib MessageType.hello.code rest = some k ↔
    HelloMessage.Readable lib rest ∧ rest.length = k := by
  change (if HelloMessage.Readable lib rest then some rest.length else none) = some k ↔ _
  split
  next hread => simp [hread]
  next hread => simp [hread]

theorem width_le (h : width type = some k) : k ≤ 40 := by
  unfold width at h
  split_ifs at h <;> cases h <;> decide

theorem ne_hello_of_width (h : width type = some k) : type ≠ MessageType.hello.code := by
  rintro rfl
  cases h

theorem steady_decode (h : width type = some k) : Steady (decode lib type) k := by
  unfold width at h
  split_ifs at h with hunknown htask hresult hnotify <;> cases h
  · rw [show decode lib type = pure .invalid from if_pos hunknown]
    exact .pure _
  · subst htask
    rw [decode_task]
    exact .bind (TaskMessage.steady_deserialize {}) fun _ => .pure _
  · subst hresult
    rw [decode_result]
    exact .bind ResultMessage.steady_deserialize fun _ => .pure _
  · subst hnotify
    rw [decode_taskNotify]
    exact .bind TaskNotifyMessage.steady_deserialize fun _ => .pure _

/-- A class that reads up to the end, or none at all. -/
theorem decode_overlong (h : width type = none) {pre : List UInt8}
    (hlarge : 2 ^ 31 ≤ pre.length + rest.length) (hmax : pre.length + rest.length ≤ maxSize) :
    ∃ e b, decode lib type (reading pre rest) = .error e b := by
  unfold width at h
  split_ifs at h with hunknown htask hresult hnotify
  by_cases hhello : type = MessageType.hello.code
  · subst hhello
    rw [decode_hello]
    cases hbody : HelloMessage.deserialize lib {} (reading pre rest) with
    | error e b => exact ⟨e, b, EStateM.bind_of_error hbody⟩
    | ok m b =>
      -- the loop over the body does not come to an end
      rcases EStateM.bind_eq_ok hbody with ⟨protoVer, b₁, hversion, hbody⟩
      rcases EStateM.bind_eq_ok hbody with ⟨flag, b₂, hflag, hbody⟩
      rcases EStateM.bind_eq_ok hbody with ⟨all, b₃, hall, -⟩
      have hsame : b₂.internal = pre ++ rest :=
        (getByte_eq_ok hflag).1.trans (getByte_eq_ok hversion).1
      have hlen : b₂.length = pre.length + rest.length := by
        rw [ByteBuffer.length, hsame, List.length_append]
      unfold maxSize at hmax
      have hsmall := length_of_drain hall (by omega)
      omega
  · have hdecode : decode lib type = throw .assertFailed :=
      (if_neg hunknown).trans <| (if_neg htask).trans <| (if_neg hresult).trans <|
        (if_neg hhello).trans (if_neg hnotify)
    rw [hdecode]
    exact ⟨.assertFailed, _, rfl⟩

end Message

namespace MessageFactory

/-! ## Cuts -/

/-- The chunks are the bytes, cut somewhere. -/
structure Cuts (bytes : List UInt8) (chunks : List (List UInt8)) : Prop where
  flatten : chunks.flatten = bytes
  nonempty : ∀ chunk ∈ chunks, chunk ≠ []

theorem cuts_nil_iff {chunks : List (List UInt8)} : Cuts [] chunks ↔ chunks = [] := by
  constructor
  · intro h
    cases chunks with
    | nil => rfl
    | cons chunk chunks =>
      have hnil := (List.append_eq_nil_iff.mp h.flatten).1
      exact absurd hnil (h.nonempty chunk List.mem_cons_self)
  · rintro rfl
    exact ⟨rfl, List.forall_mem_nil _⟩

/-- All in one chunk. -/
theorem exists_cuts (bytes : List UInt8) : ∃ chunks, Cuts bytes chunks := by
  by_cases h : bytes = []
  · exact ⟨[], h ▸ cuts_nil_iff.mpr rfl⟩
  · exact ⟨[bytes], List.append_nil _, List.forall_mem_singleton.mpr h⟩

/-- The chunks behind the first one. -/
theorem Cuts.tail {bytes chunk : List UInt8} {chunks : List (List UInt8)} {n : Nat}
    (h : Cuts (bytes.drop n) (chunk :: chunks)) (hn : n ≤ bytes.length) :
    1 ≤ chunk.length ∧ n + chunk.length ≤ bytes.length ∧
      bytes.take n ++ chunk = bytes.take (n + chunk.length) ∧
      Cuts (bytes.drop (n + chunk.length)) chunks := by
  have hflatten : chunk ++ chunks.flatten = bytes.drop n := h.flatten
  have hlen := congrArg List.length hflatten
  rw [List.length_append, List.length_drop] at hlen
  have hpos := List.length_pos_iff.mpr (h.nonempty chunk List.mem_cons_self)
  refine ⟨hpos, by omega, ?_, ?_, fun c hc => h.nonempty c (List.mem_cons_of_mem chunk hc)⟩
  · rw [List.take_add, ← hflatten, List.take_left]
  · rw [← List.drop_drop, ← hflatten, List.drop_left]

/-! ## What is delivered -/

section

variable (lib : BsonLibrary)

/-- The messages that the calls of `Fill` make ready, and whether one of them throws in the end. -/
def decoded : List (List UInt8) → MessageFactory → List Message × Bool
  | [], _ => ([], false)
  | chunk :: chunks, f =>
    match fill lib chunk f with
    | .error _ f => (f.readyMessages, true)
    | .ok () f =>
      let later := decoded chunks f.finishExtraction
      (f.readyMessages ++ later.1, later.2)

/-- However the bytes are cut, the same is delivered. -/
def Regardless (bytes : List UInt8) : Prop :=
  ∀ chunks chunks', Cuts bytes chunks → Cuts bytes chunks' →
    decoded lib chunks {} = decoded lib chunks' {}

/-- The type byte of the frame in front. -/
def frontType (bytes : List UInt8) : UInt8 := bytes.headD 0

/-- The length that the frame in front declares. -/
def frontSize (bytes : List UInt8) : Nat := leValue ((bytes.drop sizeOffset).take 8)

/-- How many bytes behind the header the frame in front takes when `n` bytes are buffered. -/
def frontTaken (bytes : List UInt8) (n : Nat) : Option Nat :=
  Message.taken lib (frontType bytes) ((bytes.take n).drop headerSize)

/-- No message is made of the frame in front when `n` bytes are buffered.  From `2 ^ 31` bytes on a
class that reads up to the end does not get there. -/
def Refuses (bytes : List UInt8) (n : Nat) : Prop :=
  if n < 2 ^ 31 then frontTaken lib bytes n = none else Message.width (frontType bytes) = none

/-- No message is made of the frame in front, whatever is buffered.  Between `lo` and `hi` bytes are
buffered when it comes to the front. -/
structure Refused (bytes : List UInt8) (lo hi : Nat) : Prop where
  header : headerSize ≤ frontSize bytes
  whole : frontSize bytes ≤ bytes.length
  /-- With more than that to wait for, a cursor of 32 bits comes round to the start. -/
  word : frontSize bytes ≤ 2 ^ 32
  refuses : ∀ n, max lo (frontSize bytes) ≤ n → n ≤ bytes.length → n ≤ hi ∨ lo < frontSize bytes →
    Refuses lib bytes n

/-- What stands in the bytes does not depend on cuts.  At least `lo` bytes are buffered when the frame
in front comes to the front. -/
inductive Uniform : List UInt8 → Nat → Prop
  | short {bytes : List UInt8} {lo : Nat} (h : bytes.length < headerSize) : Uniform bytes lo
  /-- The declared length is below that of a header, and nothing follows in a later chunk. -/
  | undersized {bytes : List UInt8} {lo : Nat} (hsize : frontSize bytes < headerSize)
    (h : bytes.length ≤ max headerSize lo) : Uniform bytes lo
  | waits {bytes : List UInt8} {lo : Nat} (h : bytes.length < frontSize bytes)
    (hroom : bytes.length ≤ 2 ^ 31) : Uniform bytes lo
  | fails {bytes : List UInt8} {lo : Nat} (h : Refused lib bytes lo bytes.length) : Uniform bytes lo
  /-- The frame takes the same bytes, whatever is buffered. -/
  | takes {bytes : List UInt8} {lo k : Nat} (hsmall : bytes.length < 2 ^ 31)
    (hsize : headerSize ≤ frontSize bytes) (hwhole : frontSize bytes ≤ bytes.length)
    (h : ∀ n, max lo (frontSize bytes) ≤ n → n ≤ bytes.length → frontTaken lib bytes n = some k)
    (later : Uniform (bytes.drop (headerSize + k)) (max lo (frontSize bytes) - (headerSize + k))) :
    Uniform bytes lo
  /-- The frame is there when the buffer is too long to copy what is behind it, and no sooner. -/
  | filled {bytes : List UInt8} {lo k : Nat} (hmax : bytes.length ≤ maxSize)
    (hsize : frontSize bytes = 2 ^ 31) (hwhole : frontSize bytes ≤ bytes.length)
    (hwidth : Message.width (frontType bytes) = some k) : Uniform bytes lo
  /-- The same can happen to the frame, and if it does not, the next one comes to an error too. -/
  | last {bytes : List UInt8} {lo k : Nat} (hlarge : 2 ^ 31 ≤ bytes.length)
    (hmax : bytes.length ≤ maxSize) (hwidth : Message.width (frontType bytes) = some k)
    (hbody : headerSize + k ≤ frontSize bytes) (hsize : frontSize bytes < 2 ^ 31)
    (hlo : lo ≤ frontSize bytes)
    (later : Refused lib (bytes.drop (headerSize + k)) (frontSize bytes - (headerSize + k))
      (2 ^ 31 - 1 - (headerSize + k))) : Uniform bytes lo

end

/-! ## Messages that are ready already -/

/-- `messages` stand before those that are ready. -/
def prepend (messages : List Message) (f : MessageFactory) : MessageFactory :=
  { f with readyMessages := messages ++ f.readyMessages }

def prependResult {α : Type} (messages : List Message) :
    EStateM.Result Fault MessageFactory α → EStateM.Result Fault MessageFactory α
  | .ok a f => .ok a (prepend messages f)
  | .error e f => .error e (prepend messages f)

/-- `m` does nothing else for what is ready already. -/
def Blind {α : Type} (m : FactoryM α) : Prop :=
  ∀ messages f, m (prepend messages f) = prependResult messages (m f)

theorem Blind.onBuf {α : Type} (m : BufferM α) : Blind (onBuf m) := by
  intro messages f
  unfold MessageFactory.onBuf
  rw [show (prepend messages f).buf = f.buf from rfl]
  cases m f.buf with
  | ok a buf => rfl
  | error e buf => rfl

theorem Blind.modify {g : MessageFactory → MessageFactory}
    (h : ∀ messages f, g (prepend messages f) = prepend messages (g f)) :
    Blind (modify g : FactoryM Unit) := by
  intro messages f
  show EStateM.Result.ok () (g (prepend messages f)) = .ok () (prepend messages (g f))
  rw [h]

theorem Blind.bind {α β : Type} {m : FactoryM α} {k : α → FactoryM β} (hm : Blind m)
    (hk : ∀ a, Blind (k a)) : Blind (m >>= k) := by
  intro messages f
  show EStateM.bind m k (prepend messages f) = prependResult messages (EStateM.bind m k f)
  unfold EStateM.bind
  rw [hm messages f]
  cases m f with
  | ok a f' => exact hk a messages f'
  | error e f' => rfl

variable {lib : BsonLibrary}

theorem Blind.interpret : Blind (interpret lib) := by
  refine .bind (.onBuf _) fun _ => .bind (.onBuf _) fun _ => .bind (.onBuf _) fun message =>
    .bind (.modify fun messages f => ?_) fun _ => .bind (.onBuf _) fun _ => .modify fun _ _ => rfl
  show MessageFactory.mk f.buf 0 (messages ++ f.readyMessages ++ [message]) = _
  rw [List.append_assoc]
  rfl

theorem fillLoop_prepend (messages : List Message) (f : MessageFactory) :
    fillLoop lib (prepend messages f) = prependResult messages (fillLoop lib f) := by
  fun_induction fillLoop lib f with
  | case1 f hshort => exact fillLoop_short hshort
  | case2 f hlen hsize e f₁ hat =>
    rw [onBuf_of_ok (getAt_declared (Nat.le_of_not_lt hlen))] at hat
    cases hat
  | case3 f hlen hsize bytes f₁ hat hundersized =>
    rcases onBuf_eq_ok hat with ⟨buf, hget, rfl⟩
    rcases getAt_eq_ok hget with ⟨rfl, -, -, -⟩
    have hloop : fillLoop lib ⟨f.buf, 0, messages ++ f.readyMessages⟩ = _ :=
      fillLoop_undersized (Nat.le_of_not_lt hlen) hget hundersized
    rw [List.append_assoc, ← hsize] at hloop
    exact hloop
  | case4 f hlen hsize bytes f₁ hat hdeclared ih =>
    rcases onBuf_eq_ok hat with ⟨buf, hget, rfl⟩
    rcases getAt_eq_ok hget with ⟨rfl, -, -, -⟩
    have hloop : fillLoop lib ⟨f.buf, 0, messages ++ f.readyMessages⟩ = _ :=
      fillLoop_header (Nat.le_of_not_lt hlen) hget (Nat.le_of_not_lt hdeclared)
    rw [← hsize] at hloop
    exact hloop.trans ih
  -- `Interpret` does not look at the messages that are ready
  | case5 f hlen hsize hwhole e f₁ hinterpret =>
    have hblind := @Blind.interpret lib messages f
    rw [hinterpret] at hblind
    exact fillLoop_throws (Nat.le_of_not_lt hlen) hsize hwhole hblind
  | case6 f hlen hsize hwhole f₁ hinterpret ih =>
    have hblind := @Blind.interpret lib messages f
    rw [hinterpret] at hblind
    exact (fillLoop_interpret (Nat.le_of_not_lt hlen) hsize hwhole hblind).trans ih
  | case7 f hlen hsize hwaits =>
    exact fillLoop_waits (Nat.le_of_not_lt hlen) (Nat.lt_of_not_le hwaits)

/-! ## From within a call -/

/-- What is delivered from within a call of `Fill` on, with the chunks to come. -/
def resume (lib : BsonLibrary) (chunks : List (List UInt8)) :
    EStateM.Result Fault MessageFactory Unit → List Message × Bool
  | .error _ f => (f.readyMessages, true)
  | .ok () f =>
    let later := decoded lib chunks f.finishExtraction
    (f.readyMessages ++ later.1, later.2)

theorem resume_prepend (chunks : List (List UInt8)) (messages : List Message)
    (r : EStateM.Result Fault MessageFactory Unit) :
    resume lib chunks (prependResult messages r) =
      (messages ++ (resume lib chunks r).1, (resume lib chunks r).2) := by
  cases r with
  | error e f => rfl
  | ok _ f =>
    show (messages ++ f.readyMessages ++ _, _) = _
    rw [List.append_assoc]
    rfl

theorem decoded_cons (chunk : List UInt8) (chunks : List (List UInt8)) (f : MessageFactory) :
    decoded lib (chunk :: chunks) f = resume lib chunks (fill lib chunk f) := by
  rw [decoded]
  cases fill lib chunk f with
  | error e f' => rfl
  | ok _ f' => rfl

/-- A chunk that cannot be stored at the cursor ends the stream. -/
theorem decoded_no_room {chunk : List UInt8} {f : MessageFactory}
    (h : maxSize < f.buf.offset + chunk.length) (chunks : List (List UInt8)) :
    decoded lib (chunk :: chunks) f = (f.readyMessages, true) := by
  rw [decoded_cons]
  cases hput : put chunk f.buf with
  | ok _ buf =>
    have hle := (put_eq_ok hput).1
    omega
  | error e buf =>
    have hfill : fill lib chunk f = .error e { f with buf } := EStateM.bind_of_error (onBuf_of_error hput)
    rw [hfill]
    rfl

/-- `n` bytes of the stream are buffered, with the frame in front not taken off. -/
def front (bytes : List UInt8) (n size : Nat) : MessageFactory where
  buf := reading (bytes.take n) []
  messageSize := size

/-- What is delivered when `n` bytes are buffered, with the chunks to come. -/
def outcome (lib : BsonLibrary) (bytes : List UInt8) (n : Nat) (chunks : List (List UInt8)) :
    List Message × Bool :=
  resume lib chunks (fillLoop lib (front bytes n 0))

variable {bytes : List UInt8} {n size : Nat} {chunk : List UInt8} {chunks : List (List UInt8)}

theorem length_front (hn : n ≤ bytes.length) (size : Nat) : (front bytes n size).buf.length = n := by
  show (reading (bytes.take n) []).length = n
  rw [length_reading, List.length_take, List.length_nil]
  omega

theorem internal_front (size : Nat) : (front bytes n size).buf.internal = bytes.take n :=
  List.append_nil _

theorem frontType_front (hn : 1 ≤ n) (size : Nat) :
    (front bytes n size).buf.frontType = frontType bytes := by
  rw [ByteBuffer.frontType, internal_front, frontType]
  cases bytes with
  | nil => rw [List.take_nil]
  | cons type bytes =>
    obtain ⟨n, rfl⟩ := Nat.exists_eq_add_of_le' hn
    rfl

theorem declaredSize_front (hn : headerSize ≤ n) (size : Nat) :
    (front bytes n size).buf.declaredSize = frontSize bytes := by
  rw [declaredSize, internal_front, frontSize, List.drop_take, List.take_take]
  have hmin : min 8 (n - sizeOffset) = 8 := by
    unfold headerSize at hn
    unfold sizeOffset
    omega
  rw [hmin]

theorem behindHeader_front (size : Nat) :
    (front bytes n size).buf.behindHeader = (bytes.take n).drop headerSize := by
  rw [behindHeader, internal_front]

theorem offset_front (hn : n ≤ bytes.length) (hsmall : n < 2 ^ 31) (size : Nat) :
    (front bytes n size).buf.offset = n := by
  have hlen : (bytes.take n).length = n := List.length_take_of_le hn
  show (reading (bytes.take n) []).offset = n
  rw [offset_reading _ _ (by omega), hlen]

/-- The cursor is negative, which is behind every vector. -/
theorem offset_front_of_le (hn : n ≤ bytes.length) (hlarge : 2 ^ 31 ≤ n) (hword : n < 2 ^ 32)
    (size : Nat) : maxSize < (front bytes n size).buf.offset := by
  have hlen : (bytes.take n).length = n := List.length_take_of_le hn
  show maxSize < offset ⟨bytes.take n ++ [], Int32.ofNat (bytes.take n).length⟩
  have hposition : (Int32.ofNat n).toInt = (n : Int).bmod (2 ^ 32) := Int32.toInt_ofNat
  rw [hlen]
  unfold offset maxSize
  rw [hposition, Int.bmod_def]
  split <;> omega

/-- One more chunk comes in. -/
theorem fill_front (hsmall : n < 2 ^ 31) (hmax : n + chunk.length ≤ maxSize)
    (hcuts : Cuts (bytes.drop n) (chunk :: chunks)) (hn : n ≤ bytes.length) (size : Nat) :
    fill lib chunk (front bytes n size) = fillLoop lib (front bytes (n + chunk.length) size) := by
  obtain ⟨-, -, happend, -⟩ := hcuts.tail hn
  have hlen : (bytes.take n).length = n := List.length_take_of_le hn
  have hput : put chunk (reading (bytes.take n) []) =
      .ok () (reading (bytes.take (n + chunk.length)) []) := by
    rw [put_reading_of_le (by omega) (by omega), List.drop_nil, happend]
  exact EStateM.bind_of_ok (onBuf_of_ok hput)

/-! ## A frame that is not there in full -/

/-- The header is there, and the declared length is read. -/
theorem fillLoop_front (hn : headerSize ≤ n) (hlen : n ≤ bytes.length)
    (hsize : headerSize ≤ frontSize bytes) :
    fillLoop lib (front bytes n 0) = fillLoop lib (front bytes n (frontSize bytes)) := by
  have hbuf : headerSize ≤ (front bytes n 0).buf.length := by
    rw [length_front hlen]
    exact hn
  have hdeclared : (front bytes n 0).buf.declaredSize = frontSize bytes := declaredSize_front hn 0
  have hheader : fillLoop lib ⟨(front bytes n 0).buf, 0, []⟩ = _ :=
    fillLoop_header hbuf (getAt_declared hbuf) (by
      show headerSize ≤ (front bytes n 0).buf.declaredSize
      rw [hdeclared]
      exact hsize)
  rw [show leValue _ = frontSize bytes from hdeclared] at hheader
  exact hheader

/-- With fewer bytes there is nothing to do. -/
def awaited (bytes : List UInt8) : Nat := max headerSize (frontSize bytes)

theorem fillLoop_waiting (hlen : n ≤ bytes.length) (hwait : n < awaited bytes) :
    ∃ size, fillLoop lib (front bytes n 0) = .ok () (front bytes n size) ∧
      ∀ m, n ≤ m → m ≤ bytes.length →
        fillLoop lib (front bytes m size) = fillLoop lib (front bytes m 0) := by
  by_cases hheader : n < headerSize
  · refine ⟨0, fillLoop_short ?_, fun _ _ _ => rfl⟩
    show (front bytes n 0).buf.length < _
    rw [length_front hlen]
    exact hheader
  · have hwhole : headerSize ≤ frontSize bytes ∧ n < frontSize bytes := by
      unfold awaited at hwait
      omega
    refine ⟨frontSize bytes, ?_, fun m hm hle => ?_⟩
    · rw [fillLoop_front (by omega) hlen hwhole.1]
      have hbuf : (reading (bytes.take n) []).length = n := length_front hlen 0
      exact fillLoop_waits (by omega) (by omega)
    · exact (fillLoop_front (by omega) hle hwhole.1).symm

theorem outcome_waiting_nil (hlen : n ≤ bytes.length) (hwait : n < awaited bytes) :
    outcome lib bytes n [] = ([], false) := by
  obtain ⟨size, hstop, -⟩ := @fillLoop_waiting lib bytes n hlen hwait
  rw [outcome, hstop]
  rfl

theorem outcome_waiting (hlen : n ≤ bytes.length) (hwait : n < awaited bytes) (hsmall : n < 2 ^ 31)
    (hmax : n + chunk.length ≤ maxSize) (hcuts : Cuts (bytes.drop n) (chunk :: chunks)) :
    outcome lib bytes n (chunk :: chunks) = outcome lib bytes (n + chunk.length) chunks := by
  obtain ⟨-, hle, -, -⟩ := hcuts.tail hlen
  obtain ⟨size, hstop, hsame⟩ := @fillLoop_waiting lib bytes n hlen hwait
  have hdecoded : decoded lib (chunk :: chunks) (front bytes n size) =
      outcome lib bytes (n + chunk.length) chunks := by
    rw [decoded_cons, fill_front hsmall hmax hcuts hlen, hsame _ (Nat.le_add_right _ _) hle, outcome]
  rw [outcome, hstop, ← hdecoded]
  rfl

/-- The next chunk cannot be stored. -/
theorem outcome_no_room (hlen : n ≤ bytes.length) (hwait : n < awaited bytes)
    (hroom : maxSize < (front bytes n 0).buf.offset + chunk.length) :
    outcome lib bytes n (chunk :: chunks) = ([], true) := by
  obtain ⟨size, hstop, -⟩ := @fillLoop_waiting lib bytes n hlen hwait
  have hdecoded : decoded lib (chunk :: chunks) (front bytes n size) = ([], true) :=
    @decoded_no_room lib chunk (front bytes n size) hroom chunks
  rw [outcome, hstop]
  show ([] ++ (decoded lib (chunk :: chunks) (front bytes n size)).1,
    (decoded lib (chunk :: chunks) (front bytes n size)).2) = _
  rw [hdecoded]
  rfl

/-! ## A frame that is there -/

/-- The early return, which keeps the declared length. -/
theorem outcome_undersized (hn : headerSize ≤ n) (hlen : n ≤ bytes.length)
    (hsize : frontSize bytes < headerSize) :
    outcome lib bytes n chunks =
      (.invalid :: (decoded lib chunks (front bytes n (frontSize bytes))).1,
        (decoded lib chunks (front bytes n (frontSize bytes))).2) := by
  have hbuf : headerSize ≤ (front bytes n 0).buf.length := by
    rw [length_front hlen]
    exact hn
  have hdeclared : (front bytes n 0).buf.declaredSize = frontSize bytes := declaredSize_front hn 0
  have hloop : fillLoop lib ⟨(front bytes n 0).buf, 0, []⟩ = _ :=
    fillLoop_undersized hbuf (getAt_declared hbuf) (by
      show (front bytes n 0).buf.declaredSize < headerSize
      rw [hdeclared]
      exact hsize)
  rw [show leValue _ = frontSize bytes from hdeclared] at hloop
  have hresume : outcome lib bytes n chunks = resume lib chunks _ :=
    congrArg (resume lib chunks) hloop
  exact hresume

/-- The frame in front is decoded to `message` when `n` bytes are buffered, and takes `k` bytes. -/
def Decodes (lib : BsonLibrary) (bytes : List UInt8) (n k : Nat) (message : Message) : Prop :=
  let header := bytes.take headerSize
  let rest := (bytes.take n).drop headerSize
  Message.decode lib (frontType bytes) (reading header rest) =
    .ok message (reading (header ++ rest.take k) (rest.drop k))

theorem take_internal_front (hn : headerSize ≤ n) (size : Nat) :
    (front bytes n size).buf.internal.take headerSize = bytes.take headerSize := by
  rw [internal_front, List.take_take, Nat.min_eq_left hn]

theorem exists_decodes {k : Nat} (hsmall : n < 2 ^ 31) (hn : headerSize ≤ n) (hlen : n ≤ bytes.length)
    (h : frontTaken lib bytes n = some k) : ∃ message, Decodes lib bytes n k message := by
  have hdecode := decode_front lib (f := front bytes n 0) (by rw [length_front hlen]; exact hsmall)
  have htype : (front bytes n 0).buf.frontType = frontType bytes :=
    frontType_front (by unfold headerSize at hn; omega) 0
  rw [htype, behindHeader_front, take_internal_front hn, ← frontTaken, h] at hdecode
  obtain ⟨message, -, hmessage⟩ := hdecode
  exact ⟨message, hmessage⟩

/-- A class of fixed width takes its width as soon as that is buffered. -/
theorem frontTaken_eq_some_iff {k : Nat} (hwidth : Message.width (frontType bytes) = some k)
    (hlen : n ≤ bytes.length) : frontTaken lib bytes n = some k ↔ k ≤ n - headerSize := by
  unfold frontTaken
  rw [Message.taken_eq_some_iff (Message.ne_hello_of_width hwidth), List.length_drop,
    List.length_take_of_le hlen]
  exact and_iff_right hwidth

theorem frontTaken_eq_none {k : Nat} (hwidth : Message.width (frontType bytes) = some k)
    (hlen : n ≤ bytes.length) (hk : n - headerSize < k) : frontTaken lib bytes n = none := by
  cases htaken : frontTaken lib bytes n with
  | none => rfl
  | some k' =>
    have hsame := ((Message.taken_eq_some_iff (Message.ne_hello_of_width hwidth)).mp htaken).1
    rw [hwidth] at hsame
    cases hsame
    have hle := (frontTaken_eq_some_iff hwidth hlen).mp htaken
    omega

/-- What is read does not depend on what is buffered behind it. -/
theorem decodes_of_parses {k : Nat} {message : Message} (hn : headerSize + k ≤ n)
    (hlen : n ≤ bytes.length) (hk : headerSize + k < 2 ^ 31)
    (h : Parses (Message.decode lib (frontType bytes)) ((bytes.drop headerSize).take k) message) :
    Decodes lib bytes n k message := by
  have hbody : ((bytes.take n).drop headerSize).take k = (bytes.drop headerSize).take k := by
    rw [List.drop_take, List.take_take, Nat.min_eq_left (by omega)]
  have hheader : (bytes.take headerSize).length = headerSize := List.length_take_of_le (by omega)
  have hread := h (bytes.take headerSize) (((bytes.take n).drop headerSize).drop k) (by
    rw [hheader, List.length_take]
    omega)
  rw [← hbody, List.take_append_drop] at hread
  exact hread

variable {k : Nat} {message : Message}

theorem resume_takes (hsmall : n < 2 ^ 31) (hlen : n ≤ bytes.length) (hn : headerSize + k ≤ n)
    (hpos : size ≠ 0) (hsize : size ≤ n) (h : Decodes lib bytes n k message) :
    resume lib chunks (fillLoop lib (front bytes n size)) =
      (message :: (outcome lib (bytes.drop (headerSize + k)) (n - (headerSize + k)) chunks).1,
        (outcome lib (bytes.drop (headerSize + k)) (n - (headerSize + k)) chunks).2) := by
  have hbuf : (reading (bytes.take n) []).length = n := length_front hlen 0
  have hrest : ((bytes.take n).drop headerSize).drop k =
      (bytes.drop (headerSize + k)).take (n - (headerSize + k)) := by
    rw [List.drop_drop, List.drop_take]
  have hinterpret : interpret lib (front bytes n size) =
      .ok () ⟨reading (((bytes.take n).drop headerSize).drop k) [], 0, [message]⟩ := by
    have hstep := @interpret_of_decode lib (front bytes n size) k message
    rw [frontType_front (by unfold headerSize at hn; omega), behindHeader_front,
      take_internal_front (by omega), length_front hlen] at hstep
    exact hstep (by omega) hsmall h
  rw [hrest] at hinterpret
  have hloop : fillLoop lib (front bytes n size) = prependResult [message]
      (fillLoop lib (front (bytes.drop (headerSize + k)) (n - (headerSize + k)) 0)) := by
    rw [← fillLoop_prepend]
    exact fillLoop_interpret (by omega) hpos (by omega) hinterpret
  rw [hloop, resume_prepend]
  rfl

/-- The message is ready when the copying comes to its error. -/
theorem resume_overlong (hlarge : 2 ^ 31 ≤ n) (hmax : n ≤ maxSize) (hlen : n ≤ bytes.length)
    (hpos : size ≠ 0) (hsize : size ≤ n) (h : Decodes lib bytes n k message) :
    resume lib chunks (fillLoop lib (front bytes n size)) = ([message], true) := by
  have hheader : headerSize ≤ n := by
    unfold headerSize
    omega
  have hbuf : (reading (bytes.take n) []).length = n := length_front hlen 0
  have hseeks := @interpret_seeks lib (front bytes n size) (by rw [length_front hlen]; exact hheader)
  rw [frontType_front (by omega), behindHeader_front, take_internal_front hheader] at hseeks
  let opened : MessageFactory :=
    ⟨reading (bytes.take headerSize) ((bytes.take n).drop headerSize), size, []⟩
  have hdecode := onBuf_of_ok (f := opened) h
  replace hseeks := hseeks.trans (EStateM.bind_of_ok hdecode)
  let stepped : MessageFactory := ⟨reading (bytes.take headerSize ++
    ((bytes.take n).drop headerSize).take k) (((bytes.take n).drop headerSize).drop k), 0, [message]⟩
  have hstepped : stepped.buf.length = n := by
    show (bytes.take headerSize ++ _ ++ _).length = n
    rw [List.append_assoc, List.take_append_drop, List.length_append, List.length_take,
      List.length_drop, List.length_take]
    omega
  change interpret lib (front bytes n size) =
    (onBuf copyRemaining >>= fun newBuf => modify fun f => { f with buf := newBuf }) stepped at hseeks
  -- the message is ready, but what is left of the buffer cannot be copied
  cases hcopy : copyRemaining stepped.buf with
  | ok newBuf b =>
    unfold maxSize at hmax
    have hsmall := length_of_drain hcopy (by omega)
    omega
  | error e b =>
    rw [EStateM.bind_of_error (onBuf_of_error hcopy)] at hseeks
    rw [show fillLoop lib (front bytes n size) = _ from
      fillLoop_throws (by omega) hpos (by omega) hseeks]
    rfl

theorem resume_refuses (hmax : n ≤ maxSize) (hlen : n ≤ bytes.length) (hn : headerSize ≤ n)
    (hpos : size ≠ 0) (hsize : size ≤ n) (h : Refuses lib bytes n) :
    resume lib chunks (fillLoop lib (front bytes n size)) = ([], true) := by
  have hbuf : (reading (bytes.take n) []).length = n := length_front hlen 0
  have htype : (front bytes n size).buf.frontType = frontType bytes :=
    frontType_front (by unfold headerSize at hn; omega) size
  have hinterpret : ∃ e buf, interpret lib (front bytes n size) =
      .error e { front bytes n size with buf } := by
    unfold Refuses at h
    split at h
    next hsmall =>
      refine interpret_throws (by rw [length_front hlen]; exact hn)
        (by rw [length_front hlen]; exact hsmall) ?_
      rw [htype, behindHeader_front]
      exact h
    next hlarge =>
      have hrest : (bytes.take headerSize).length + ((bytes.take n).drop headerSize).length = n := by
        rw [List.length_take, List.length_drop, List.length_take]
        omega
      obtain ⟨e, b, he⟩ := @Message.decode_overlong lib (frontType bytes)
        ((bytes.take n).drop headerSize) h (bytes.take headerSize) (by omega) (by omega)
      have hseeks := @interpret_seeks lib (front bytes n size)
        (by rw [length_front hlen]; exact hn)
      rw [htype, behindHeader_front, take_internal_front hn] at hseeks
      exact ⟨e, b, hseeks.trans (EStateM.bind_of_error (onBuf_of_error he))⟩
  obtain ⟨e, buf, he⟩ := hinterpret
  rw [show fillLoop lib (front bytes n size) = _ from fillLoop_throws (by omega) hpos (by omega) he]
  rfl

/-! ## Uniform bytes come to the same -/

/-- Between `lo` and `hi` bytes are buffered, and `delivered` comes of it however the rest is cut. -/
def Delivers (lib : BsonLibrary) (bytes : List UInt8) (lo hi : Nat)
    (delivered : List Message × Bool) : Prop :=
  ∀ n chunks, lo ≤ n → n ≤ hi → n ≤ bytes.length → Cuts (bytes.drop n) chunks →
    outcome lib bytes n chunks = delivered

variable {lo hi : Nat} {delivered : List Message × Bool}

theorem cuts_end (hcuts : Cuts (bytes.drop n) []) (hlen : n ≤ bytes.length) : n = bytes.length := by
  have hall := congrArg List.length hcuts.flatten
  rw [List.length_drop, List.flatten_nil, List.length_nil] at hall
  omega

/-- The chunks that are still to come cut what is behind the first bytes as well. -/
theorem Cuts.behind {j : Nat} (h : Cuts (bytes.drop n) chunks) (hj : j ≤ n) :
    Cuts ((bytes.drop j).drop (n - j)) chunks := by
  rw [List.drop_drop, Nat.add_sub_cancel' hj]
  exact h

/-- With less than what is awaited in the whole stream nothing is done. -/
theorem delivers_never (hshort : bytes.length < awaited bytes) (hroom : bytes.length ≤ 2 ^ 31) :
    Delivers lib bytes lo hi ([], false) := by
  intro n chunks _ _ hlen hcuts
  clear * - hshort hroom hlen hcuts
  -- on the chunks, each of which leaves the frame incomplete
  induction chunks generalizing n with
  | nil => exact outcome_waiting_nil hlen (by omega)
  | cons chunk chunks ih =>
    obtain ⟨hpos, hle, -, htail⟩ := hcuts.tail hlen
    have hmax : n + chunk.length ≤ maxSize := by
      unfold maxSize
      omega
    rw [outcome_waiting hlen (by omega) (by omega) hmax hcuts]
    exact ih (n + chunk.length) hle htail

/-- Otherwise it is enough to look at what happens once it is there. -/
theorem delivers_of_awaited (hroom : bytes.length ≤ maxSize) (hwhole : awaited bytes ≤ bytes.length)
    (hsmall : awaited bytes ≤ 2 ^ 31)
    (hgo : ∀ n chunks, max lo (awaited bytes) ≤ n → n ≤ bytes.length → Cuts (bytes.drop n) chunks →
      outcome lib bytes n chunks = delivered) :
    Delivers lib bytes lo hi delivered := by
  intro n chunks hlo _ hlen hcuts
  clear * - hroom hwhole hsmall hgo hlo hlen hcuts
  induction chunks generalizing n with
  | nil =>
    have hall := cuts_end hcuts hlen
    exact hgo n [] (by omega) hlen hcuts
  | cons chunk chunks ih =>
    by_cases henough : awaited bytes ≤ n
    · exact hgo n (chunk :: chunks) (by omega) hlen hcuts
    · obtain ⟨-, hle, -, htail⟩ := hcuts.tail hlen
      rw [outcome_waiting hlen (by omega) (by omega) (by omega) hcuts]
      exact ih (n + chunk.length) (by omega) hle htail

/-- The whole frame is there. -/
theorem outcome_whole (hn : max headerSize (frontSize bytes) ≤ n) (hlen : n ≤ bytes.length)
    (hsize : headerSize ≤ frontSize bytes) :
    outcome lib bytes n chunks = resume lib chunks (fillLoop lib (front bytes n (frontSize bytes))) := by
  rw [outcome, fillLoop_front (by omega) hlen hsize]

theorem frontSize_ne_zero (hsize : headerSize ≤ frontSize bytes) : frontSize bytes ≠ 0 := by
  unfold headerSize at hsize
  omega

theorem Refused.outcome (h : Refused lib bytes lo hi) (hlo : lo ≤ n) (hhi : n ≤ hi)
    (hsmall : n < 2 ^ 31) (hlen : n ≤ bytes.length) (hcuts : Cuts (bytes.drop n) chunks) :
    outcome lib bytes n chunks = ([], true) := by
  have hawaited : awaited bytes = frontSize bytes := Nat.max_eq_right h.header
  have hrun : ∀ chunks n, lo ≤ n → n ≤ bytes.length → n ≤ maxSize → n ≤ hi ∨ lo < frontSize bytes →
      Cuts (bytes.drop n) chunks → MessageFactory.outcome lib bytes n chunks = ([], true) := by
    intro chunks
    -- on the chunks: the frame is refused, or the next one is too long, or it brings the frame closer
    induction chunks with
    | nil =>
      intro n hlo hlen hmax hreach hcuts
      have hall := cuts_end hcuts hlen
      have hwhole := h.whole
      have hheader := h.header
      rw [outcome_whole (by omega) hlen h.header]
      exact resume_refuses hmax hlen (by omega) (frontSize_ne_zero h.header) (by omega)
        (h.refuses n (by omega) hlen hreach)
    | cons chunk chunks ih =>
      intro n hlo hlen hmax hreach hcuts
      have hheader := h.header
      by_cases henough : frontSize bytes ≤ n
      · rw [outcome_whole (by omega) hlen h.header]
        exact resume_refuses hmax hlen (by omega) (frontSize_ne_zero h.header) henough
          (h.refuses n (by omega) hlen hreach)
      by_cases hroom : maxSize < (front bytes n 0).buf.offset + chunk.length
      · exact outcome_no_room hlen (by omega) hroom
      have hsmall : n < 2 ^ 31 := by
        by_contra hlarge
        have hword := h.word
        have hnegative := offset_front_of_le hlen (by omega) (by omega) 0
        omega
      rw [offset_front hlen hsmall] at hroom
      obtain ⟨-, hle, -, htail⟩ := hcuts.tail hlen
      rw [outcome_waiting hlen (by omega) hsmall (by omega) hcuts]
      exact ih (n + chunk.length) (by omega) hle (by omega) (by omega) htail
  exact hrun chunks n hlo hlen (by unfold maxSize; omega) (Or.inl hhi) hcuts

/-- The same message comes of the frame, whatever is buffered. -/
theorem decodes_uniform (hsmall : bytes.length < 2 ^ 31) (hsize : headerSize ≤ frontSize bytes)
    (hlo : max lo (frontSize bytes) ≤ bytes.length)
    (h : ∀ n, max lo (frontSize bytes) ≤ n → n ≤ bytes.length → frontTaken lib bytes n = some k) :
    ∃ message, ∀ n, max lo (frontSize bytes) ≤ n → n ≤ bytes.length →
      Decodes lib bytes n k message := by
  have hlast := h bytes.length hlo (le_refl _)
  have hle (n : Nat) (hn : max lo (frontSize bytes) ≤ n) (hlen : n ≤ bytes.length) :
      headerSize + k ≤ n := by
    have htaken := Message.taken_le (h n hn hlen)
    rw [List.length_drop, List.length_take] at htaken
    omega
  by_cases hhello : frontType bytes = MessageType.hello.code
  · -- a HELLO takes all that is buffered, which can only be one amount
    obtain ⟨message, hmessage⟩ := exists_decodes (by omega) (by omega) (le_refl _) hlast
    refine ⟨message, fun n hn hlen => ?_⟩
    have hall (m : Nat) (hm : max lo (frontSize bytes) ≤ m) (hmlen : m ≤ bytes.length) :
        m = headerSize + k := by
      have htaken := h m hm hmlen
      rw [frontTaken, hhello] at htaken
      have hcount := (Message.taken_hello_eq_some_iff.mp htaken).2
      rw [List.length_drop, List.length_take] at hcount
      omega
    rw [hall n hn hlen, ← hall bytes.length hlo (le_refl _)]
    exact hmessage
  · have hwidth := ((Message.taken_eq_some_iff hhello).mp hlast).1
    have hk := Message.width_le hwidth
    have hbound := hle bytes.length hlo (le_refl _)
    obtain ⟨message, hparses⟩ := @Message.steady_decode lib _ k hwidth
      ((bytes.drop headerSize).take k) (by rw [List.length_take, List.length_drop]; omega)
    exact ⟨message, fun n hn hlen => decodes_of_parses (hle n hn hlen) hlen (by omega) hparses⟩

/-- A frame of a class that does not read up to the end, when the buffer holds all of it. -/
theorem decodes_of_width (hwidth : Message.width (frontType bytes) = some k)
    (hk : headerSize + k ≤ bytes.length) :
    ∃ message, ∀ n, headerSize + k ≤ n → n ≤ bytes.length → Decodes lib bytes n k message := by
  have hle := Message.width_le hwidth
  obtain ⟨message, hparses⟩ := @Message.steady_decode lib _ k hwidth
    ((bytes.drop headerSize).take k) (by rw [List.length_take, List.length_drop]; omega)
  refine ⟨message, fun n hn hlen => decodes_of_parses hn hlen ?_ hparses⟩
  unfold headerSize
  omega

theorem Uniform.delivers (h : Uniform lib bytes lo) (hlo : lo ≤ bytes.length) (hsmall : lo < 2 ^ 31) :
    ∃ delivered, Delivers lib bytes lo (2 ^ 31 - 1) delivered := by
  induction h with
  | @short bytes lo h =>
    refine ⟨_, delivers_never ?_ ?_⟩
    · unfold awaited
      omega
    · unfold headerSize at h
      omega
  | @undersized bytes lo hsize h =>
    by_cases hshort : bytes.length < headerSize
    · refine ⟨_, delivers_never ?_ ?_⟩
      · unfold awaited
        omega
      · unfold headerSize at hshort
        omega
    · refine ⟨([.invalid], false), delivers_of_awaited ?_ ?_ ?_ ?_⟩
      · unfold maxSize headerSize at *
        omega
      · unfold awaited
        omega
      · unfold awaited headerSize at *
        omega
      · intro n chunks hn hlen hcuts
        -- no later chunk can ask for the length again
        have hall : n = bytes.length := by
          unfold awaited at hn
          omega
        rw [hall, List.drop_length, cuts_nil_iff] at hcuts
        rw [hcuts, outcome_undersized (by omega) hlen hsize]
        rfl
  | @waits bytes lo h hroom =>
    refine ⟨_, delivers_never ?_ hroom⟩
    unfold awaited
    omega
  | @fails bytes lo h =>
    exact ⟨([], true), fun n chunks hn hhi hlen hcuts => h.outcome hn hlen (by omega) hlen hcuts⟩
  | @takes bytes lo k hbytes hsize hwhole h later ih =>
    -- the frame gives the same message each time, and `later` is about what is behind it
    obtain ⟨message, hmessage⟩ := decodes_uniform hbytes hsize (by omega) h
    have hk : headerSize + k ≤ max lo (frontSize bytes) := by
      have htaken := Message.taken_le (h _ (le_refl _) (by omega))
      rw [List.length_drop, List.length_take] at htaken
      omega
    obtain ⟨delivered, hlater⟩ := ih (by rw [List.length_drop]; omega) (by omega)
    refine ⟨(message :: delivered.1, delivered.2), delivers_of_awaited ?_ ?_ ?_ ?_⟩
    · unfold maxSize
      omega
    · unfold awaited
      omega
    · unfold awaited
      omega
    · intro n chunks hn hlen hcuts
      unfold awaited at hn
      rw [outcome_whole (by omega) hlen hsize,
        resume_takes (by omega) hlen (by omega) (frontSize_ne_zero hsize) (by omega)
          (hmessage n (by omega) hlen)]
      rw [hlater (n - (headerSize + k)) chunks (by omega) (by omega)
        (by rw [List.length_drop]; omega) (hcuts.behind (by omega))]
  | @filled bytes lo k hmax hsize hwhole hwidth =>
    -- with `2 ^ 31` bytes buffered the message is ready, and the copying comes to an error
    have hk := Message.width_le hwidth
    obtain ⟨message, hmessage⟩ := @decodes_of_width lib bytes k hwidth (by unfold headerSize; omega)
    refine ⟨([message], true), delivers_of_awaited hmax ?_ ?_ ?_⟩
    · unfold awaited headerSize
      omega
    · unfold awaited headerSize
      omega
    · intro n chunks hn hlen hcuts
      unfold awaited at hn
      rw [outcome_whole (by omega) hlen (by unfold headerSize; omega)]
      exact resume_overlong (by omega) (by omega) hlen (by omega) (by omega)
        (hmessage n (by unfold headerSize; omega) hlen)
  | @last bytes lo k hlarge hmax hwidth hbody hsize hstart later =>
    have hheader : headerSize ≤ frontSize bytes := by omega
    obtain ⟨message, hmessage⟩ := @decodes_of_width lib bytes k hwidth (by omega)
    refine ⟨([message], true), delivers_of_awaited hmax ?_ ?_ ?_⟩
    · unfold awaited
      omega
    · unfold awaited
      omega
    · intro n chunks hn hlen hcuts
      unfold awaited at hn
      rw [outcome_whole (by omega) hlen hheader]
      -- either the next frame comes to an error or the copying does, after the same message
      by_cases hn31 : n < 2 ^ 31
      · rw [resume_takes hn31 hlen (by omega) (frontSize_ne_zero hheader) (by omega)
          (hmessage n (by omega) hlen)]
        have hrest : MessageFactory.outcome lib (bytes.drop (headerSize + k))
            (n - (headerSize + k)) chunks = ([], true) := later.outcome (by omega) (by omega)
          (by omega) (by rw [List.length_drop]; omega) (hcuts.behind (by omega))
        rw [hrest]
      · exact resume_overlong (by omega) (by omega) hlen (frontSize_ne_zero hheader) (by omega)
          (hmessage n (by omega) hlen)

/-! ## Bytes that come to the same are uniform -/

/-- A cut with one more piece in front. -/
theorem Cuts.cons {m : Nat} (hnm : n < m) (hlen : m ≤ bytes.length) (h : Cuts (bytes.drop m) chunks) :
    Cuts (bytes.drop n) ((bytes.drop n).take (m - n) :: chunks) := by
  have hdrop : bytes.drop m = (bytes.drop n).drop (m - n) := by
    rw [List.drop_drop, Nat.add_sub_cancel' (by omega)]
  refine ⟨?_, List.forall_mem_cons.mpr ⟨fun hnil => ?_, h.nonempty⟩⟩
  · rw [List.flatten_cons, h.flatten, hdrop, List.take_append_drop]
  · have hcount := congrArg List.length hnil
    rw [List.length_take, List.length_drop, List.length_nil] at hcount
    omega

/-- While there is nothing to do, the bytes up to any point can come in one chunk. -/
theorem outcome_reaches {m : Nat} (hnm : n < m) (hlen : m ≤ bytes.length) (hwait : n < awaited bytes)
    (hsmall : n < 2 ^ 31) (hmax : m ≤ maxSize) (hcuts : Cuts (bytes.drop m) chunks) :
    ∃ chunks', Cuts (bytes.drop n) chunks' ∧
      outcome lib bytes n chunks' = outcome lib bytes m chunks := by
  have hcount : ((bytes.drop n).take (m - n)).length = m - n := by
    rw [List.length_take, List.length_drop]
    omega
  have hsum : n + ((bytes.drop n).take (m - n)).length = m := by omega
  have hall := hcuts.cons hnm hlen
  refine ⟨_, hall, ?_⟩
  rw [outcome_waiting (by omega) hwait hsmall (by omega) hall, hsum]

theorem Delivers.reached {m : Nat} (h : Delivers lib bytes lo hi delivered) (hlo : lo ≤ hi)
    (hhi : hi < 2 ^ 31) (hm : lo ≤ m) (hlen : m ≤ bytes.length) (hmax : m ≤ maxSize)
    (hreach : m ≤ hi ∨ lo < awaited bytes) (hcuts : Cuts (bytes.drop m) chunks) :
    outcome lib bytes m chunks = delivered := by
  by_cases hdirect : m ≤ hi
  · exact h m chunks hm hdirect hlen hcuts
  · have hwait := hreach.resolve_left hdirect
    obtain ⟨chunks', hcuts', hsame⟩ :=
      @outcome_reaches lib bytes lo chunks m (by omega) hlen hwait (by omega) hmax hcuts
    rw [← hsame]
    exact h lo chunks' (le_refl _) hlo (by omega) hcuts'

theorem decoded_fresh (bytes : List UInt8) (chunks : List (List UInt8)) :
    decoded lib chunks {} = outcome lib bytes 0 chunks := by
  have hstop : fillLoop lib (front bytes 0 0) = .ok () {} :=
    fillLoop_short (by rw [List.take_zero]; decide)
  rw [outcome, hstop]
  rfl

theorem regardless_iff :
    Regardless lib bytes ↔ ∃ delivered, Delivers lib bytes 0 (2 ^ 31 - 1) delivered := by
  have hfresh := @decoded_fresh lib bytes
  constructor
  · intro h
    obtain ⟨whole, hwhole⟩ := exists_cuts bytes
    refine ⟨decoded lib whole {}, fun n chunks _ hhi hlen hcuts => ?_⟩
    by_cases hn : n = 0
    · subst hn
      rw [← hfresh]
      exact h chunks whole hcuts hwhole
    · obtain ⟨chunks', hcuts', hsame⟩ := @outcome_reaches lib bytes 0 chunks n (by omega) hlen
        (by unfold awaited headerSize; omega) (by decide) (by unfold maxSize; omega) hcuts
      rw [← hsame, ← hfresh]
      exact h chunks' whole hcuts' hwhole
  · rintro ⟨delivered, h⟩ chunks chunks' hcuts hcuts'
    rw [hfresh, hfresh, h 0 chunks (le_refl _) (Nat.zero_le _) (Nat.zero_le _) hcuts,
      h 0 chunks' (le_refl _) (Nat.zero_le _) (Nat.zero_le _) hcuts']

/-- A message is made of a frame that is not refused. -/
theorem resume_accepts (hn : headerSize ≤ n) (hlen : n ≤ bytes.length) (hmax : n ≤ maxSize)
    (hpos : size ≠ 0) (hsize : size ≤ n) (h : ¬ Refuses lib bytes n) :
    (resume lib chunks (fillLoop lib (front bytes n size))).1 ≠ [] := by
  unfold Refuses at h
  split at h
  next hsmall =>
    obtain ⟨k, hk⟩ := Option.ne_none_iff_exists'.mp h
    obtain ⟨message, hmessage⟩ := exists_decodes hsmall hn hlen hk
    have htaken := Message.taken_le hk
    rw [List.length_drop, List.length_take] at htaken
    rw [resume_takes hsmall hlen (by omega) hpos hsize hmessage]
    exact List.cons_ne_nil _ _
  next hlarge =>
    obtain ⟨k, hk⟩ := Option.ne_none_iff_exists'.mp h
    have hle := Message.width_le hk
    obtain ⟨message, hmessage⟩ := @decodes_of_width lib bytes k hk (by unfold headerSize; omega)
    rw [resume_overlong (by omega) hmax hlen hpos hsize
      (hmessage n (by unfold headerSize; omega) hlen)]
    exact List.cons_ne_nil _ _

/-- Once a frame counts as being there, something comes of it. -/
theorem resume_ne (hn : headerSize ≤ n) (hlen : n ≤ bytes.length) (hmax : n ≤ maxSize)
    (hpos : size ≠ 0) (hsize : size ≤ n) :
    resume lib chunks (fillLoop lib (front bytes n size)) ≠ ([], false) := by
  by_cases hrefuses : Refuses lib bytes n
  · rw [resume_refuses hmax hlen hn hpos hsize hrefuses]
    simp
  · intro hnothing
    exact @resume_accepts lib bytes n size chunks hn hlen hmax hpos hsize hrefuses
      (congrArg Prod.fst hnothing)

/-- Of a frame that is shorter than a header, a second chunk makes something else. -/
theorem Delivers.not_undersized (h : Delivers lib bytes lo hi delivered) (hlo : lo ≤ hi)
    (hhi : hi < 2 ^ 31) (hmax : bytes.length ≤ maxSize) (hsize : frontSize bytes < headerSize)
    (hmore : max headerSize lo < bytes.length)
    (hreach : bytes.length ≤ hi ∨ lo < headerSize) : False := by
  have hawaited : awaited bytes = headerSize := Nat.max_eq_left (by omega)
  obtain ⟨m, hm⟩ : ∃ m, m = max headerSize lo := ⟨_, rfl⟩
  have hheader : headerSize = 9 := rfl
  have hend : Cuts (bytes.drop bytes.length) [] := by
    rw [List.drop_length]
    exact cuts_nil_iff.mpr rfl
  -- in one chunk the bad length ends the loop
  have hsingle := h.reached hlo hhi (by omega) (le_refl _) hmax (by omega) hend
  rw [outcome_undersized (by omega) (le_refl _) hsize] at hsingle
  -- in two chunks the second call goes on behind it
  have hpair : Cuts (bytes.drop m) _ := hend.cons (show m < bytes.length by omega) (le_refl _)
  have hsplit := h.reached hlo hhi (by omega) (by omega) (by omega) (by omega) hpair
  have hcount : m + ((bytes.drop m).take (bytes.length - m)).length = bytes.length := by
    rw [List.length_take, List.length_drop]
    omega
  rw [outcome_undersized (by omega) (by omega) hsize, decoded_cons, ← hsingle,
    fill_front (by omega) (by omega) hpair (by omega), hcount] at hsplit
  have hnothing : resume lib [] (fillLoop lib (front bytes bytes.length (frontSize bytes))) =
      ([], false) := by
    have hmessages := (List.cons.inj (congrArg Prod.fst hsplit)).2
    have hthrown := congrArg Prod.snd hsplit
    exact Prod.ext hmessages hthrown
  by_cases hzero : frontSize bytes = 0
  · have hagain := @outcome_undersized lib bytes bytes.length [] (by omega) (le_refl _) hsize
    rw [outcome, ← hzero, hnothing] at hagain
    cases hagain
  · exact resume_ne (by omega) (le_refl _) hmax hzero (by omega) hnothing

/-! ### A cursor that comes round -/

/-- The cursor is at the start of `2 ^ 32` bytes, and more are waited for. -/
structure Round (f : MessageFactory) : Prop where
  length : f.buf.length = 2 ^ 32
  offset : f.buf.offset = 0
  waits : 2 ^ 32 < f.messageSize
  ready : f.readyMessages = []

theorem Round.fill {f : MessageFactory} (h : Round f) (hchunk : chunk.length ≤ 2 ^ 32) :
    fill lib chunk f = .ok () { f with buf := f.buf.stored chunk } := by
  have hlength := h.length
  have hoffset := h.offset
  have hsound : f.buf.Sound := ⟨by unfold maxSize; omega, Or.inl (by omega)⟩
  have hput : put chunk f.buf = _ := put_of_sound hsound (by unfold maxSize; omega)
  have hstored := (put_eq_ok hput).2.1
  have hwaits := h.waits
  exact (EStateM.bind_of_ok (onBuf_of_ok hput)).trans
    (fillLoop_waits (by unfold headerSize; omega) (by omega))

theorem Round.stored {f : MessageFactory} (h : Round f) (hchunk : chunk.length = 2 ^ 32) :
    Round { f with buf := f.buf.stored chunk } := by
  have hlength := h.length
  have hoffset := h.offset
  have hsound : f.buf.Sound := ⟨by unfold maxSize; omega, Or.inl (by omega)⟩
  have hput : put chunk f.buf = _ := put_of_sound hsound (by unfold maxSize; omega)
  refine ⟨?_, ?_, h.waits, h.ready⟩
  · rw [(put_eq_ok hput).2.1]
    omega
  · show ByteBuffer.offset ⟨_, Int32.ofNat (f.buf.offset + chunk.length)⟩ = 0
    rw [hoffset, hchunk]
    rfl

/-- What is left can come in such a way that nothing is seen of it. -/
theorem exists_unseen (rest : List UInt8) :
    ∃ chunks, Cuts rest chunks ∧ ∀ f, Round f → decoded lib chunks f = ([], false) := by
  -- pieces of `2 ^ 32` bytes, and what is left of the last one
  induction hn : rest.length using Nat.strong_induction_on generalizing rest with
  | h count ih =>
    by_cases hnil : rest = []
    · exact ⟨[], hnil ▸ cuts_nil_iff.mpr rfl, fun _ _ => rfl⟩
    have hpos := List.length_pos_iff.mpr hnil
    have hstart : rest.drop 0 = rest := rfl
    by_cases hlast : rest.length ≤ 2 ^ 32
    · refine ⟨[rest], ⟨List.append_nil _, List.forall_mem_singleton.mpr hnil⟩, fun f hf => ?_⟩
      rw [decoded_cons, hf.fill hlast]
      show (f.readyMessages ++ [], false) = _
      rw [hf.ready]
      rfl
    · obtain ⟨chunks, hcuts, hunseen⟩ := ih (rest.drop (2 ^ 32)).length
        (by rw [List.length_drop]; omega) (rest.drop (2 ^ 32)) rfl
      have hcount : (rest.take (2 ^ 32)).length = 2 ^ 32 := List.length_take_of_le (by omega)
      refine ⟨rest.take (2 ^ 32) :: chunks, ?_, fun f hf => ?_⟩
      · have hall := Cuts.cons (n := 0) (by omega) (by omega) hcuts
        exact hall
      · have hround := hf.stored hcount
        have hlater : decoded lib chunks
            (finishExtraction { f with buf := f.buf.stored (rest.take (2 ^ 32)) }) = ([], false) :=
          hunseen _ ⟨hround.length, hround.offset, hround.waits, rfl⟩
        rw [decoded_cons, hf.fill (by omega), resume, hlater]
        show (f.readyMessages ++ [], false) = _
        rw [hf.ready]
        rfl

/-- A frame that is not there in full before the cursor comes round can stay unseen. -/
theorem exists_outcome_unseen (hlen : n ≤ bytes.length) (hsmall : n < 2 ^ 31)
    (hsize : headerSize ≤ frontSize bytes) (hlong : min bytes.length (2 ^ 32) < frontSize bytes) :
    ∃ chunks, Cuts (bytes.drop n) chunks ∧ outcome lib bytes n chunks = ([], false) := by
  have hawaited : awaited bytes = frontSize bytes := Nat.max_eq_right hsize
  obtain ⟨m, hm⟩ : ∃ m, m = min bytes.length (2 ^ 32) := ⟨_, rfl⟩
  have hwaiting : ∃ chunks, Cuts (bytes.drop m) chunks ∧ outcome lib bytes m chunks = ([], false) := by
    by_cases hall : bytes.length ≤ 2 ^ 32
    · refine ⟨[], ?_, outcome_waiting_nil (by omega) (by omega)⟩
      rw [List.drop_of_length_le (by omega)]
      exact cuts_nil_iff.mpr rfl
    · obtain ⟨chunks, hcuts, hunseen⟩ := @exists_unseen lib (bytes.drop m)
      -- at `2 ^ 32` bytes the cursor is at the front again, and what comes then is written over the old
      have hround : Round (front bytes m (frontSize bytes)) := by
        refine ⟨?_, ?_, ?_, rfl⟩
        · rw [length_front (by omega)]
          omega
        · show ByteBuffer.offset ⟨_, Int32.ofNat (bytes.take m).length⟩ = 0
          rw [List.length_take_of_le (by omega), hm, Nat.min_eq_right (by omega)]
          rfl
        · show 2 ^ 32 < frontSize bytes
          omega
      have hlater := hunseen _ hround
      refine ⟨chunks, hcuts, ?_⟩
      have hbuf : (reading (bytes.take m) []).length = m := length_front (by omega) 0
      have hstop : fillLoop lib (front bytes m (frontSize bytes)) =
          .ok () (front bytes m (frontSize bytes)) :=
        fillLoop_waits (by unfold headerSize; omega) (by omega)
      rw [outcome, fillLoop_front (by unfold headerSize; omega) (by omega) hsize, hstop, resume]
      rw [show (front bytes m (frontSize bytes)).finishExtraction = front bytes m (frontSize bytes)
        from rfl, hlater]
      rfl
  by_cases hhere : n = m
  · rw [hhere]
    exact hwaiting
  -- what has come earlier does not matter while the frame is awaited
  · obtain ⟨chunks, hcuts, hunseen⟩ := hwaiting
    obtain ⟨chunks', hcuts', hsame⟩ := @outcome_reaches lib bytes n chunks m (by omega) (by omega)
      (by omega) hsmall (by unfold maxSize; omega) hcuts
    exact ⟨chunks', hcuts', hsame.trans hunseen⟩

theorem outcome_accepts (hn : max headerSize (frontSize bytes) ≤ n) (hlen : n ≤ bytes.length)
    (hmax : n ≤ maxSize) (hsize : headerSize ≤ frontSize bytes) (h : ¬ Refuses lib bytes n) :
    (outcome lib bytes n chunks).1 ≠ [] := by
  rw [outcome_whole hn hlen hsize]
  exact resume_accepts (by omega) hlen hmax (frontSize_ne_zero hsize) (by omega) h

theorem Delivers.refused (h : Delivers lib bytes lo hi ([], true)) (hlo : lo ≤ hi)
    (hhi : hi < 2 ^ 31) (hlen : lo ≤ bytes.length) : Refused lib bytes lo hi := by
  have hheader : headerSize = 9 := rfl
  have hsize : headerSize ≤ frontSize bytes := by
    by_contra hundersized
    have hawaited : awaited bytes = headerSize := Nat.max_eq_left (by omega)
    by_cases hshort : bytes.length < headerSize
    · -- nothing is done
      obtain ⟨chunks, hcuts⟩ := exists_cuts (bytes.drop lo)
      have hnever := @delivers_never lib bytes lo hi (by omega) (by omega) lo chunks (le_refl _) hlo
        hlen hcuts
      rw [h lo chunks (le_refl _) hlo hlen hcuts] at hnever
      cases hnever
    · -- an `InvalidMessage` is made
      obtain ⟨chunks, hcuts⟩ := exists_cuts (bytes.drop (max headerSize lo))
      have hinvalid := h.reached hlo hhi (Nat.le_max_right headerSize lo) (by omega)
        (by unfold maxSize; omega) (by omega) hcuts
      rw [outcome_undersized (by omega) (by omega) (by omega)] at hinvalid
      cases hinvalid
  have hawaited : awaited bytes = frontSize bytes := Nat.max_eq_right hsize
  have hlong : frontSize bytes ≤ min bytes.length (2 ^ 32) := by
    by_contra hlong
    obtain ⟨chunks, hcuts, hunseen⟩ :=
      @exists_outcome_unseen lib bytes lo hlen (by omega) hsize (by omega)
    rw [h lo chunks (le_refl _) hlo hlen hcuts] at hunseen
    cases hunseen
  refine ⟨hsize, by omega, by omega, fun n hn hnlen hreach => ?_⟩
  by_contra haccepts
  by_cases hsmall : n < 2 ^ 31
  · obtain ⟨chunks, hcuts⟩ := exists_cuts (bytes.drop n)
    have hthrown := h.reached hlo hhi (by omega) hnlen (by unfold maxSize; omega) (by omega) hcuts
    have hmessage := @outcome_accepts lib bytes n chunks (by omega) hnlen (by unfold maxSize; omega)
      hsize haccepts
    rw [hthrown] at hmessage
    exact hmessage rfl
  · -- the same holds as soon as the buffer is too long
    obtain ⟨m, hm⟩ : ∃ m, m = max (frontSize bytes) (2 ^ 31) := ⟨_, rfl⟩
    obtain ⟨chunks, hcuts⟩ := exists_cuts (bytes.drop m)
    have hthrown := h.reached hlo hhi (by omega) (by omega) (by unfold maxSize; omega) (by omega) hcuts
    have haccepts' : ¬ Refuses lib bytes m := by
      unfold Refuses at haccepts ⊢
      rw [if_neg hsmall] at haccepts
      rw [if_neg (by omega)]
      exact haccepts
    have hmessage := @outcome_accepts lib bytes m chunks (by omega) (by omega)
      (by unfold maxSize; omega) hsize haccepts'
    rw [hthrown] at hmessage
    exact hmessage rfl

end MessageFactory

/-- A document that is followed by something is no document. -/
def BsonLibrary.Strict (lib : BsonLibrary) : Prop :=
  ∀ bytes rest j, lib.from_bson bytes = some j → rest ≠ [] → lib.from_bson (bytes ++ rest) = none

theorem HelloMessage.Readable.append_eq {lib : BsonLibrary} (hstrict : lib.Strict)
    {body rest : List UInt8} (h : Readable lib body) (h' : Readable lib (body ++ rest)) :
    rest = [] := by
  obtain ⟨hlen, j, hj, -⟩ := h
  obtain ⟨-, j', hj', -⟩ := h'
  by_contra hrest
  have hnone := hstrict _ rest j hj hrest
  rw [List.drop_append_of_le_length hlen] at hj'
  change lib.from_bson _ = some j' at hj'
  rw [hnone] at hj'
  cases hj'

namespace MessageFactory

variable {lib : BsonLibrary} {bytes : List UInt8} {n k lo hi : Nat} {delivered : List Message × Bool}

/-- What the frame takes does not depend on what is buffered, if it is never refused. -/
theorem frontTaken_eq (hstrict : lib.Strict) (hn : headerSize ≤ n) (hlen : n ≤ bytes.length)
    (h : frontTaken lib bytes bytes.length = some k) (hsome : frontTaken lib bytes n ≠ none) :
    frontTaken lib bytes n = some k := by
  obtain ⟨k', hk'⟩ := Option.ne_none_iff_exists'.mp hsome
  rw [hk']
  by_cases hhello : frontType bytes = MessageType.hello.code
  · unfold frontTaken at h hk'
    rw [hhello] at h hk'
    have hall := Message.taken_hello_eq_some_iff.mp h
    have hpart := Message.taken_hello_eq_some_iff.mp hk'
    rw [List.take_length] at hall
    have hsplit : (bytes.take n).drop headerSize ++ bytes.drop n = bytes.drop headerSize := by
      rw [← List.drop_append_of_le_length (by rw [List.length_take]; omega), List.take_append_drop]
    rw [← hsplit] at hall
    have hend := HelloMessage.Readable.append_eq hstrict hpart.1 hall.1
    rw [hend, List.append_nil] at hall
    rw [← hall.2, ← hpart.2]
  · have hwidth := ((Message.taken_eq_some_iff hhello).mp h).1
    have hwidth' := ((Message.taken_eq_some_iff hhello).mp hk').1
    rw [← hwidth', hwidth]

theorem cuts_length (bytes : List UInt8) : Cuts (bytes.drop bytes.length) [] := by
  rw [List.drop_length]
  exact cuts_nil_iff.mpr rfl

/-- What comes after the frame in front comes to the same, too. -/
theorem Delivers.later (h : Delivers lib bytes lo hi delivered) (hhi : hi < 2 ^ 31)
    (hsize : headerSize ≤ frontSize bytes) (hlen : max lo (frontSize bytes) ≤ bytes.length)
    (hle : max lo (frontSize bytes) ≤ hi) (hk : headerSize + k ≤ max lo (frontSize bytes))
    (htaken : ∀ n, max lo (frontSize bytes) ≤ n → n ≤ hi → n ≤ bytes.length →
      frontTaken lib bytes n = some k) :
    Delivers lib (bytes.drop (headerSize + k)) (max lo (frontSize bytes) - (headerSize + k))
      (hi - (headerSize + k)) (delivered.1.tail, delivered.2) := by
  intro n chunks hn hnhi hnlen hcuts
  rw [List.length_drop] at hnlen
  rw [List.drop_drop] at hcuts
  have hfound := htaken (headerSize + k + n) (by omega) (by omega) (by omega)
  obtain ⟨message, hmessage⟩ := exists_decodes (by omega) (by omega) (by omega) hfound
  have hall := h (headerSize + k + n) chunks (by omega) (by omega) (by omega) hcuts
  rw [outcome_whole (by omega) (by omega) hsize, resume_takes (by omega) (by omega) (by omega)
    (frontSize_ne_zero hsize) (by omega) hmessage, Nat.add_sub_cancel_left] at hall
  rw [← hall]
  rfl

/-- A frame that does not end the stream in an error is accepted as soon as it has come. -/
theorem Delivers.accepts (h : Delivers lib bytes lo hi delivered) (hthrown : delivered ≠ ([], true))
    (hsize : headerSize ≤ frontSize bytes) (hn : max lo (frontSize bytes) ≤ n) (hhi : n ≤ hi)
    (hsmall : n < 2 ^ 31) (hlen : n ≤ bytes.length) : frontTaken lib bytes n ≠ none := by
  have hmax : maxSize = 2 ^ 63 - 1 := rfl
  intro hnone
  have hrefuses : Refuses lib bytes n := by
    unfold Refuses
    rw [if_pos hsmall]
    exact hnone
  obtain ⟨chunks, hcuts⟩ := exists_cuts (bytes.drop n)
  have hall := h n chunks (by omega) hhi hlen hcuts
  rw [outcome_whole (by omega) hlen hsize, resume_refuses (by omega) hlen (by omega)
    (frontSize_ne_zero hsize) (by omega) hrefuses] at hall
  exact hthrown hall.symm

/-- A frame of more than `2 ^ 31` bytes cannot be read in two chunks with the border there. -/
theorem Delivers.thrown_of_pause (h : Delivers lib bytes 0 hi delivered) (hhi : hi < 2 ^ 31)
    (hwait : 2 ^ 31 < frontSize bytes) (hmore : 2 ^ 31 < bytes.length) :
    delivered = ([], true) := by
  have hheader : headerSize = 9 := rfl
  have hbound : maxSize = 2 ^ 63 - 1 := rfl
  have hawaited : awaited bytes = frontSize bytes := Nat.max_eq_right (by omega)
  have hcuts : Cuts (bytes.drop (2 ^ 31)) _ := (cuts_length bytes).cons hmore (le_refl _)
  have hall := h.reached (Nat.zero_le _) hhi (Nat.zero_le _) (by omega) (by omega)
    (Or.inr (by omega)) hcuts
  have hnegative := offset_front_of_le (show 2 ^ 31 ≤ bytes.length by omega) (le_refl _) (by omega) 0
  rw [outcome_no_room (by omega) (by omega) (by omega)] at hall
  exact hall.symm

theorem Delivers.uniform_of_small (hstrict : lib.Strict) (hsmall : bytes.length < 2 ^ 31)
    (hlo : lo ≤ bytes.length) (h : Delivers lib bytes lo (2 ^ 31 - 1) delivered) :
    Uniform lib bytes lo := by
  have hheader : headerSize = 9 := rfl
  have hmax : maxSize = 2 ^ 63 - 1 := rfl
  induction hcount : bytes.length using Nat.strong_induction_on generalizing bytes lo delivered with
  | h count ih =>
  by_cases hshort : bytes.length < headerSize
  · exact .short hshort
  by_cases hundersized : frontSize bytes < headerSize
  · refine .undersized hundersized ?_
    by_contra hmore
    exact h.not_undersized (by omega) (by omega) (by omega) hundersized (by omega)
      (Or.inl (by omega))
  by_cases hwaits : bytes.length < frontSize bytes
  · exact .waits hwaits (by omega)
  have hsize : headerSize ≤ frontSize bytes := by omega
  by_cases hthrown : delivered = ([], true)
  · rw [hthrown] at h
    have hrefused := h.refused (by omega) (by omega) hlo
    refine .fails ⟨hsize, by omega, by omega, fun n hn hlen _ => ?_⟩
    exact hrefused.refuses n hn hlen (Or.inl (by omega))
  -- the frame is taken, whatever is buffered
  have haccepts (n : Nat) (hn : max lo (frontSize bytes) ≤ n) (hlen : n ≤ bytes.length) :
      frontTaken lib bytes n ≠ none := h.accepts hthrown hsize hn (by omega) (by omega) hlen
  obtain ⟨k, hk⟩ := Option.ne_none_iff_exists'.mp (haccepts bytes.length (by omega) (le_refl _))
  have htaken (n : Nat) (hn : max lo (frontSize bytes) ≤ n) (hlen : n ≤ bytes.length) :
      frontTaken lib bytes n = some k :=
    frontTaken_eq hstrict (by omega) hlen hk (haccepts n hn hlen)
  have hbody := Message.taken_le (htaken (max lo (frontSize bytes)) (le_refl _) (by omega))
  rw [List.length_drop, List.length_take] at hbody
  have hlater := h.later (by omega) hsize (by omega) (by omega) (by omega)
    fun n hn _ hlen => htaken n hn hlen
  refine .takes hsmall hsize (by omega) htaken ?_
  refine ih (bytes.drop (headerSize + k)).length (by rw [List.length_drop]; omega)
    (by rw [List.length_drop]; omega) (by rw [List.length_drop]; omega)
    (fun n chunks hn hnhi hlen hcuts => hlater n chunks hn ?_ hlen hcuts) rfl
  rw [List.length_drop] at hlen
  omega

theorem Delivers.uniform_of_large (hlarge : 2 ^ 31 ≤ bytes.length)
    (h : Delivers lib bytes 0 (2 ^ 31 - 1) delivered) : Uniform lib bytes 0 := by
  have hheader : headerSize = 9 := rfl
  have hbound : maxSize = 2 ^ 63 - 1 := rfl
  have hpos : 0 < awaited bytes := by
    unfold awaited
    omega
  by_cases hthrown : delivered = ([], true)
  · rw [hthrown] at h
    have hrefused := h.refused (by omega) (by omega) (by omega)
    refine .fails ⟨hrefused.header, hrefused.whole, hrefused.word, fun n hn hlen _ => ?_⟩
    have hsize := hrefused.header
    exact hrefused.refuses n hn hlen (Or.inr (by omega))
  -- with all of it in one chunk
  have hmax : bytes.length ≤ maxSize := by
    by_contra hroom
    have hall : Cuts (bytes.drop 0) [bytes] :=
      ⟨List.append_nil _, List.forall_mem_singleton.mpr (List.length_pos_iff.mp (by omega))⟩
    have hsingle := h 0 [bytes] (le_refl _) (by omega) (by omega) hall
    rw [outcome_no_room (by omega) hpos (by omega)] at hsingle
    exact hthrown hsingle.symm
  have hsingle := h.reached (by omega) (by omega) (Nat.zero_le _) (le_refl _) hmax (Or.inr hpos)
    (cuts_length bytes)
  by_cases hundersized : frontSize bytes < headerSize
  · exact (h.not_undersized (by omega) (by omega) hmax hundersized (by omega)
      (Or.inr (by omega))).elim
  have hsize : headerSize ≤ frontSize bytes := by omega
  by_cases hwaits : bytes.length < frontSize bytes
  · refine .waits hwaits ?_
    by_contra hmore
    exact hthrown (h.thrown_of_pause (by omega) (by omega) (by omega))
  rw [outcome_whole (by omega) (le_refl _) hsize] at hsingle
  cases hwidth : Message.width (frontType bytes) with
  | none =>
    have hrefuses : Refuses lib bytes bytes.length := by
      unfold Refuses
      rw [if_neg (by omega)]
      exact hwidth
    rw [resume_refuses hmax (le_refl _) (by omega) (frontSize_ne_zero hsize) (by omega) hrefuses]
      at hsingle
    exact absurd hsingle.symm hthrown
  | some k =>
    have hk := Message.width_le hwidth
    obtain ⟨message, hmessage⟩ := @decodes_of_width lib bytes k hwidth (by omega)
    rw [resume_overlong hlarge hmax (le_refl _) (frontSize_ne_zero hsize) (by omega)
      (hmessage bytes.length (by omega) (le_refl _))] at hsingle
    by_cases hfilled : frontSize bytes = 2 ^ 31
    · exact .filled hmax hfilled (by omega) hwidth
    have hlt : frontSize bytes < 2 ^ 31 := by
      by_contra hge
      exact hthrown (h.thrown_of_pause (by omega) (by omega) (by omega))
    have hbody : headerSize + k ≤ frontSize bytes := by
      -- a declared length without all of the body is an error as soon as it has come
      by_contra hless
      refine h.accepts hthrown hsize (le_of_eq (Nat.zero_max _)) (by omega) hlt (by omega) ?_
      exact frontTaken_eq_none hwidth (by omega) (by omega)
    have hlater := h.later (by omega) hsize (by omega) (by omega) (by omega)
      fun n hn _ hlen => (frontTaken_eq_some_iff hwidth hlen).mpr (by omega)
    rw [← hsingle, Nat.zero_max] at hlater
    exact .last hlarge hmax hwidth hbody hlt (Nat.zero_le _)
      (Delivers.refused hlater (by omega) (by omega) (by rw [List.length_drop]; omega))

/-- Exactly such streams come to the same however they are cut. -/
theorem regardless_iff_uniform (lib : BsonLibrary) (hstrict : lib.Strict) (bytes : List UInt8) :
    Regardless lib bytes ↔ Uniform lib bytes 0 := by
  rw [regardless_iff]
  constructor
  · rintro ⟨delivered, h⟩
    by_cases hsmall : bytes.length < 2 ^ 31
    · exact h.uniform_of_small hstrict hsmall (Nat.zero_le _)
    · exact h.uniform_of_large (Nat.le_of_not_lt hsmall)
  · exact fun h => h.delivers (Nat.zero_le _) (by decide)

theorem emptyLibrary_strict : emptyLibrary.Strict := by
  intro bytes rest j h hrest
  change emptyFromBson bytes = some j at h
  unfold emptyFromBson at h
  split at h
  next hbytes =>
    change emptyFromBson (bytes ++ rest) = none
    rw [emptyFromBson, if_neg]
    intro hall
    rw [hbytes] at hall
    exact hrest (List.append_right_eq_self.mp hall)
  next => cases h

/-- A HELLO with nothing behind it. -/
theorem hello_regardless :
    Regardless emptyLibrary (frameBytes .hello (0 :: 0 :: emptyBson)) := by
  refine (regardless_iff_uniform emptyLibrary emptyLibrary_strict _).mpr ?_
  refine .takes (k := 34) (by decide) (by decide) (by decide) (fun n hn hlen => ?_) (.short (by decide))
  have hall : n = 43 := le_antisymm hlen hn
  subst hall
  decide

/-- A header that declares nothing, with a byte behind it: the byte can come in a chunk of its own. -/
theorem undersized_not_regardless :
    ¬ ∀ (lib : BsonLibrary) (bytes : List UInt8), Regardless lib bytes := by
  intro h
  obtain ⟨delivered, hdelivers⟩ := regardless_iff.mp
    (h ⟨fun _ => none, fun _ => none⟩ (MessageType.taskNotify.code :: leBytes 8 0 ++ [0]))
  exact hdelivers.not_undersized (by decide) (by decide) (by decide) (by decide) (by decide)
    (Or.inl (by decide))

end MessageFactory

end Bem
