import Bem.Common.Arrivals
import Bem.Common.Writing
import Bem.Lib.Channel

/-!
# Connections that carry bytes

A writer puts the bytes of one message behind those of the other.  A reader takes some of them off at a
time, and hands on the messages that are ready before it reads again.  As long as its factory does not
throw, this is a channel of messages.
-/

namespace Bem

open MessageFactory

/-- One direction of a connection, with the factory of its reader and the messages of `readyMessages`
that are still to be handed on.  What the writer has in hand is under way as well.  The messages that
were written whole and the number of bytes that were read are no variables of the programs. -/
structure Wire where
  underWay : List UInt8 := []
  factory : MessageFactory := {}
  ready : List Message := []
  written : List Message := []
  taken : Nat := 0

/-- The readers of both programs offer `read` a buffer of this size. -/
def readSize : Nat := 32

/-- A reader has room for the message, and for what it reads at once. -/
def Message.Small (lib : BsonLibrary) (m : Message) : Prop := (m.serialized lib).length + readSize < 2 ^ 31

instance (lib : BsonLibrary) (m : Message) : Decidable (m.Small lib) :=
  inferInstanceAs (Decidable ((m.serialized lib).length + readSize < 2 ^ 31))

namespace Wire

def put (lib : BsonLibrary) (msg : Message) (w : Wire) : Except Fault Wire := do
  let mbuf ← msg.serialize lib
  return { w with underWay := w.underWay ++ mbuf.internal, written := w.written ++ [msg] }

/-- `read` can return `len` bytes. -/
def canFill (len : Nat) (w : Wire) : Prop :=
  w.ready = [] ∧ 1 ≤ len ∧ len ≤ readSize ∧ len ≤ w.underWay.length

instance (len : Nat) (w : Wire) : Decidable (w.canFill len) :=
  inferInstanceAs (Decidable (w.ready = [] ∧ 1 ≤ len ∧ len ≤ readSize ∧ len ≤ w.underWay.length))

/-- `read` returns `len` bytes, and the factory is filled with them.  The messages that are ready then
leave it one by one; nobody else sees it before `FinishExtraction`. -/
def fill (lib : BsonLibrary) (len : Nat) (w : Wire) : Except Fault Wire :=
  match MessageFactory.fill lib (w.underWay.take len) w.factory with
  | .ok () factory => .ok { w with
      underWay := w.underWay.drop len
      factory := factory.finishExtraction
      ready := factory.readyMessages
      taken := w.taken + len }
  | .error e _ => .error e

/-- The `len` bytes go on behind the end of a HELLO. -/
def overruns (lib : BsonLibrary) (len : Nat) (w : Wire) : Prop :=
  ∃ pre msg post, w.written = pre ++ msg :: post ∧ msg.isHello ∧
    w.taken < ((pre ++ [msg]).flatMap (Message.serialized lib)).length ∧
    ((pre ++ [msg]).flatMap (Message.serialized lib)).length < w.taken + len

/-- The next message is handed on. -/
def next (w : Wire) : Wire := { w with ready := w.ready.tail }

theorem written_put {lib : BsonLibrary} {msg : Message} {w w' : Wire} (h : w.put lib msg = .ok w') :
    w'.written = w.written ++ [msg] := by
  obtain ⟨mbuf, -, h⟩ := Except.bind_eq_ok.mp h
  cases h
  rfl

theorem written_fill {lib : BsonLibrary} {len : Nat} {w w' : Wire} (h : w.fill lib len = .ok w') :
    w'.written = w.written := by
  unfold fill at h
  split at h
  · cases h
    rfl
  · cases h

end Wire

theorem sendAll_of_serialized {lib : BsonLibrary} {sent : List Sent}
    (h : ∀ e ∈ sent, e.1.serialize lib = .ok e.2) : sendAll lib (sent.map Prod.fst) = .ok sent := by
  induction sent with
  | nil => rfl
  | cons e sent ih =>
    exact sendAll_cons_eq_ok.mpr ⟨e.2, sent, h e List.mem_cons_self,
      ih fun e' he' => h e' (List.mem_cons_of_mem e he'), rfl⟩

theorem flatMap_serialized {lib : BsonLibrary} {sent : List Sent}
    (h : ∀ e ∈ sent, e.1.serialize lib = .ok e.2) :
    (sent.map Prod.fst).flatMap (Message.serialized lib) = stream sent := by
  rw [List.flatMap_def, List.map_map, stream]
  exact congrArg List.flatten (List.map_congr_left fun e he => Message.serialized_of_serialize (h e he))

/-- One more chunk comes. -/
theorem MessageFactory.receive_concat {lib : BsonLibrary} {chunks : List (List UInt8)}
    {f g : MessageFactory} {messages : List Message} (chunk : List UInt8)
    (h : receive lib chunks f = .ok (messages, g)) :
    (∀ g', fill lib chunk g = .ok () g' → receive lib (chunks ++ [chunk]) f =
      .ok (messages ++ g'.readyMessages, g'.finishExtraction)) ∧
    ∀ e g', fill lib chunk g = .error e g' → receive lib (chunks ++ [chunk]) f = .error e := by
  induction chunks generalizing f messages with
  | nil =>
    cases h
    rw [List.nil_append, receive]
    constructor
    · intro g' hfill
      rw [hfill]
      show Except.ok (g'.readyMessages ++ [], g'.finishExtraction) = _
      rw [List.append_nil, List.nil_append]
    · intro e g' hfill
      rw [hfill]
  | cons first chunks ih =>
    rw [receive] at h
    rw [List.cons_append, receive]
    cases hfill : fill lib first f with
    | error e g' =>
      rw [hfill] at h
      cases h
    | ok _ f₁ =>
      rw [hfill] at h
      obtain ⟨⟨later, f₂⟩, hlater, hall⟩ := Except.bind_eq_ok.mp h
      cases hall
      dsimp only
      constructor
      · intro g' hfill
        rw [(ih hlater).1 g' hfill, List.append_assoc]
        rfl
      · intro e g' hfill
        rw [(ih hlater).2 e g' hfill]
        rfl

namespace Wire

theorem underWay_fill {lib : BsonLibrary} {len : Nat} {w w' : Wire} (h : w.fill lib len = .ok w') :
    w'.underWay = w.underWay.drop len := by
  unfold fill at h
  split at h
  · cases h
    rfl
  · cases h

/-- What the wire has to do with a channel of messages.  `sent` are the messages that were put there,
with their buffers, and `chunks` the bytes that `read` has returned. -/
structure Carried (lib : BsonLibrary) (sent : List Sent) (chunks : List (List UInt8)) (w : Wire)
    (c : Channel Message) : Prop where
  written : sent.map Prod.fst = w.written
  read : chunks.flatten.length = w.taken
  valid : ∀ e ∈ sent, e.1 ≠ .invalid
  serialized : ∀ e ∈ sent, e.1.serialize lib = .ok e.2
  messages : c.sent = sent.map fun e => e.1.delivered
  bytes : stream sent = chunks.flatten ++ w.underWay
  pieces : ∀ chunk ∈ chunks, chunk ≠ [] ∧ chunk.length ≤ readSize
  taken : receive lib chunks {} = .ok (c.received ++ w.ready, w.factory)

/-- The wire does with the messages that were written what the channel does. -/
def Conveys (lib : BsonLibrary) (w : Wire) (c : Channel Message) : Prop :=
  ∃ sent chunks, Carried lib sent chunks w c

variable {lib : BsonLibrary} {sent : List Sent} {chunks : List (List UInt8)} {w w' : Wire}
  {c : Channel Message}

theorem conveys_empty (lib : BsonLibrary) : Conveys lib {} .empty :=
  ⟨[], [], rfl, rfl, List.forall_mem_nil _, List.forall_mem_nil _, rfl, rfl, List.forall_mem_nil _, rfl⟩

theorem Conveys.put (h : Conveys lib w c) {msg : Message} (hmsg : msg ≠ .invalid)
    (hok : w.put lib msg = .ok w') : Conveys lib w' (c.put msg.delivered) := by
  obtain ⟨sent, chunks, h⟩ := h
  obtain ⟨mbuf, hmbuf, hw⟩ := Except.bind_eq_ok.mp hok
  cases hw
  refine ⟨sent ++ [(msg, mbuf)], chunks, ?_, h.read, ?_, ?_, ?_, ?_, h.pieces, h.taken⟩
  · rw [List.map_append, h.written]
    rfl
  · exact List.forall_mem_append.mpr ⟨h.valid, List.forall_mem_singleton.mpr hmsg⟩
  · exact List.forall_mem_append.mpr ⟨h.serialized, List.forall_mem_singleton.mpr hmbuf⟩
  · rw [Channel.sent_put, h.messages, List.map_append]
    rfl
  · show (List.map _ (sent ++ [(msg, mbuf)])).flatten = _
    rw [List.map_append, List.flatten_append]
    show stream sent ++ [mbuf.internal].flatten = _
    rw [h.bytes, List.flatten_singleton, List.append_assoc]

theorem Carried.fill (h : Carried lib sent chunks w c) {len : Nat} (hcan : w.canFill len)
    (hok : w.fill lib len = .ok w') : Carried lib sent (chunks ++ [w.underWay.take len]) w' c := by
  obtain ⟨hready, hpos, hsize, hlen⟩ := hcan
  have htaken := h.taken
  rw [hready, List.append_nil] at htaken
  have hreceive := receive_concat (w.underWay.take len) htaken
  unfold Wire.fill at hok
  cases hfill : MessageFactory.fill lib (w.underWay.take len) w.factory with
  | error e g =>
    rw [hfill] at hok
    cases hok
  | ok _ g =>
    rw [hfill] at hok
    cases hok
    refine ⟨h.written, ?_, h.valid, h.serialized, h.messages, ?_, ?_, hreceive.1 g hfill⟩
    · rw [List.flatten_append, List.flatten_singleton, List.length_append, h.read,
        List.length_take_of_le hlen]
    · rw [List.flatten_append, List.flatten_singleton, List.append_assoc, List.take_append_drop]
      exact h.bytes
    · refine List.forall_mem_append.mpr ⟨h.pieces, List.forall_mem_singleton.mpr ⟨fun hnil => ?_, ?_⟩⟩
      · have hzero := congrArg List.length hnil
        rw [List.length_take, List.length_nil] at hzero
        omega
      · rw [List.length_take]
        omega

theorem Conveys.fill (h : Conveys lib w c) {len : Nat} (hcan : w.canFill len)
    (hok : w.fill lib len = .ok w') : Conveys lib w' c := by
  obtain ⟨sent, chunks, hcarried⟩ := h
  exact ⟨sent, _, hcarried.fill hcan hok⟩

/-- What is ready is what comes next in the channel. -/
theorem Carried.ready (h : Carried lib sent chunks w c) (hlib : lib.Faithful) :
    w.ready <+: c.inFlight := by
  have hcarries : Carries lib (sent.map Prod.fst) (c.received ++ w.ready) := by
    refine ⟨sent, chunks.flatten, chunks, w.factory, sendAll_of_serialized h.serialized, ?_,
      ⟨rfl, fun chunk hchunk => (h.pieces chunk hchunk).1⟩, h.taken⟩
    rw [h.bytes]
    exact List.prefix_append _ _
  have hfront := hcarries.delivered hlib
  have hall : (sent.map Prod.fst).filter (fun m => m ≠ .invalid) = sent.map Prod.fst := by
    rw [List.filter_eq_self]
    intro m hm
    obtain ⟨e, he, rfl⟩ := List.mem_map.mp hm
    exact decide_eq_true (h.valid e he)
  rw [hall, List.map_map] at hfront
  have hsent : c.received ++ w.ready <+: c.sent := by
    rw [h.messages]
    exact hfront
  rwa [c.sent_eq, List.prefix_append_right_inj] at hsent

/-- The message that is handed on is the one that comes out of the channel. -/
theorem Conveys.next (h : Conveys lib w c) (hlib : lib.Faithful) {msg : Message}
    {rest : List Message} (hready : w.ready = msg :: rest) :
    (∃ more, c.inFlight = msg :: more) ∧ Conveys lib w.next c.next := by
  obtain ⟨sent, chunks, h⟩ := h
  obtain ⟨more, hmore⟩ := h.ready hlib
  rw [hready, List.cons_append] at hmore
  refine ⟨⟨_, hmore.symm⟩, sent, chunks, h.written, h.read, h.valid, h.serialized, h.messages, h.bytes, h.pieces, ?_⟩
  rw [Channel.received_next hmore.symm, List.append_assoc, List.singleton_append]
  have htaken := h.taken
  rw [hready] at htaken
  rw [show w.next.ready = rest from congrArg List.tail hready]
  exact htaken

theorem Carried.small (h : Carried lib sent chunks w c) (hsmall : ∀ m ∈ w.written, m.Small lib) :
    ∀ e ∈ sent, e.2.length + readSize < 2 ^ 31 := by
  intro e he
  have hwritten : e.1 ∈ w.written := by
    rw [← h.written]
    exact List.mem_map_of_mem he
  have hbound := hsmall e.1 hwritten
  rwa [Message.Small, Message.serialized_of_serialize (h.serialized e he)] at hbound

/-- What the reader makes of the bytes that it has read, and of these with `len` more. -/
theorem Carried.reads (h : Carried lib sent chunks w c) (hlib : lib.Faithful)
    (hsmall : ∀ m ∈ w.written, m.Small lib) {more : List (List UInt8)}
    (hmore : ∀ chunk ∈ more, chunk.length ≤ readSize) (hunderWay : more.flatten <+: w.underWay) :
    (HellosEndChunks (chunks ++ more) sent → ∃ f, receive lib (chunks ++ more) {} =
        .ok ((containedIn (chunks ++ more).flatten.length sent).map Message.delivered, f)) ∧
      (¬ HellosEndChunks (chunks ++ more) sent → ∃ e, receive lib (chunks ++ more) {} = .error e) := by
  have hbound := h.small hsmall
  have hchunks : (chunks ++ more).flatten <+: stream sent := by
    rw [h.bytes, List.flatten_append]
    exact (List.prefix_append_right_inj _).mpr hunderWay
  have hpieces : ∀ chunk ∈ chunks ++ more, chunk.length ≤ readSize :=
    List.forall_mem_append.mpr ⟨fun chunk hchunk => (h.pieces chunk hchunk).2, hmore⟩
  have hfits : Fits (chunks ++ more) sent := by
    refine .inr fun chunk hchunk e he => ?_
    have hpiece := hpieces chunk hchunk
    have hle := hbound e he
    omega
  exact receive_stream h.valid (fun _ _ _ => hlib) h.serialized
    (fun e he => by have hle := hbound e he; omega) hchunks hfits

/-- The bytes that the reader has read are those of the messages that it has got, and a part of the next. -/
theorem Carried.contained (h : Carried lib sent chunks w c) (hlib : lib.Faithful)
    (hsmall : ∀ m ∈ w.written, m.Small lib) :
    HellosEndChunks chunks sent ∧ c.received ++ w.ready = (containedIn w.taken sent).map Message.delivered := by
  have hstream := h.reads hlib hsmall (List.forall_mem_nil _) (List.nil_prefix)
  rw [List.append_nil] at hstream
  have hends : HellosEndChunks chunks sent := by
    by_contra hnot
    obtain ⟨e, he⟩ := hstream.2 hnot
    cases he.symm.trans h.taken
  refine ⟨hends, ?_⟩
  obtain ⟨f, hf⟩ := hstream.1 hends
  rw [h.read] at hf
  exact congrArg Prod.fst (Except.ok.inj (h.taken.symm.trans hf))

/-- Where a message ends on the wire. -/
theorem Carried.total_eq (h : Carried lib sent chunks w c) {pre post : List Sent} {e : Sent}
    (hsent : sent = pre ++ e :: post) : Framing.total (fun e : Sent => e.2.length) (pre ++ [e]) =
      ((pre.map Prod.fst ++ [e.1]).flatMap (Message.serialized lib)).length := by
  have hserialized : ∀ e' ∈ pre ++ [e], e'.1.serialize lib = .ok e'.2 := by
    intro e' he'
    refine h.serialized e' ?_
    rw [hsent, List.append_cons]
    exact List.mem_append_left post he'
  rw [← length_stream, ← flatMap_serialized hserialized, List.map_append]
  rfl

/-- A HELLO that the bytes go on behind, with its buffer. -/
theorem Carried.exists_of_overruns (h : Carried lib sent chunks w c) {len : Nat} (hoverruns : w.overruns lib len) :
    ∃ pre e post, sent = pre ++ e :: post ∧ e.1.isHello ∧
      w.taken < Framing.total (fun e : Sent => e.2.length) (pre ++ [e]) ∧
      Framing.total (fun e : Sent => e.2.length) (pre ++ [e]) < w.taken + len := by
  obtain ⟨_, _, _, hwritten, hhello, hgt, hlt⟩ := hoverruns
  obtain ⟨pre, rest, hsent, rfl, hrest⟩ := List.map_eq_append_iff.mp (h.written.trans hwritten)
  obtain ⟨e, post, rfl, rfl, rfl⟩ := List.map_eq_cons_iff.mp hrest
  rw [← h.total_eq hsent] at hgt hlt
  exact ⟨pre, e, post, hsent, hhello, hgt, hlt⟩

theorem Carried.hellosEndChunks_iff (h : Carried lib sent chunks w c) {len : Nat} (hlen : len ≤ w.underWay.length)
    (hends : HellosEndChunks chunks sent) :
    HellosEndChunks (chunks ++ [w.underWay.take len]) sent ↔ ¬ w.overruns lib len := by
  have hall : (chunks ++ [w.underWay.take len]).flatten.length = w.taken + len := by
    rw [List.flatten_append, List.flatten_singleton, List.length_append, h.read, List.length_take_of_le hlen]
  constructor
  · intro hmore hoverruns
    obtain ⟨pre, e, post, hsent, hhello, hgt, hlt⟩ := h.exists_of_overruns hoverruns
    obtain ⟨k, hk⟩ := hmore pre e post hsent hhello (by omega)
    -- the end of the HELLO is none of the chunks before the last
    by_cases hlast : k ≤ chunks.length
    · rw [List.take_append_of_le_length hlast] at hk
      have hprefix := ((List.take_prefix k chunks).flatten).length_le
      rw [h.read] at hprefix
      omega
    · rw [List.take_of_length_le (by rw [List.length_append, List.length_singleton]; omega)] at hk
      omega
  · intro hfits pre e post hsent hhello hle
    by_cases hbefore : Framing.total (fun e : Sent => e.2.length) (pre ++ [e]) ≤ chunks.flatten.length
    · obtain ⟨k, hk⟩ := hends pre e post hsent hhello hbefore
      refine ⟨min k chunks.length, ?_⟩
      rw [List.take_append_of_le_length (min_le_right _ _), ← List.take_eq_take_min]
      exact hk
    · refine ⟨(chunks ++ [w.underWay.take len]).length, ?_⟩
      rw [List.take_length]
      refine le_antisymm hle ?_
      by_contra hshort
      have hwritten : w.written = pre.map Prod.fst ++ e.1 :: post.map Prod.fst := by
        rw [← h.written, hsent, List.map_append, List.map_cons]
      have htotal := h.total_eq hsent
      rw [h.read] at hbefore
      exact hfits ⟨_, _, _, hwritten, hhello, by omega, by omega⟩

/-- The factory throws exactly if a chunk goes on behind the end of a HELLO. -/
theorem Conveys.fill_ok_iff (h : Conveys lib w c) (hlib : lib.Faithful) {len : Nat} (hcan : w.canFill len)
    (hsmall : ∀ m ∈ w.written, m.Small lib) :
    (∃ w', w.fill lib len = .ok w') ↔ ¬ w.overruns lib len := by
  obtain ⟨sent, chunks, h⟩ := h
  obtain ⟨hready, hpos, hsize, hlen⟩ := hcan
  have htaken := h.taken
  rw [hready, List.append_nil] at htaken
  have hreceive := receive_concat (w.underWay.take len) htaken
  have hchunk : ∀ chunk ∈ [w.underWay.take len], chunk.length ≤ readSize :=
    List.forall_mem_singleton.mpr (by rw [List.length_take]; omega)
  have hstream := h.reads hlib hsmall hchunk (by rw [List.flatten_singleton]; exact List.take_prefix _ _)
  rw [← h.hellosEndChunks_iff hlen (h.contained hlib hsmall).1]
  unfold Wire.fill
  cases hfill : MessageFactory.fill lib (w.underWay.take len) w.factory with
  | ok _ g =>
    refine iff_of_true ⟨_, rfl⟩ ?_
    by_contra hnot
    obtain ⟨e, he⟩ := hstream.2 hnot
    cases he.symm.trans (hreceive.1 g hfill)
  | error e g =>
    refine iff_of_false (by simp) fun hends => ?_
    obtain ⟨f, hf⟩ := hstream.1 hends
    cases hf.symm.trans (hreceive.2 e g hfill)

/-- A single byte does not go on behind anything. -/
theorem Conveys.exists_fill_one (h : Conveys lib w c) (hlib : lib.Faithful) (hready : w.ready = [])
    (hunderWay : w.underWay ≠ []) (hsmall : ∀ m ∈ w.written, m.Small lib) :
    w.canFill 1 ∧ ∃ w', w.fill lib 1 = .ok w' := by
  have hcan : w.canFill 1 := ⟨hready, le_rfl, by decide, List.length_pos_iff.mpr hunderWay⟩
  refine ⟨hcan, (h.fill_ok_iff hlib hcan hsmall).mpr fun hoverruns => ?_⟩
  obtain ⟨_, _, _, -, -, hgt, hlt⟩ := hoverruns
  omega

/-- When all bytes have been read, all messages have come. -/
theorem Conveys.ready_ne_nil (h : Conveys lib w c) (hlib : lib.Faithful)
    (hsmall : ∀ m ∈ w.written, m.Small lib) (hunderWay : w.underWay = []) (hnext : c.inFlight ≠ []) :
    w.ready ≠ [] := by
  obtain ⟨sent, chunks, h⟩ := h
  have hcome := (h.contained hlib hsmall).2
  have hall : w.taken = (stream sent).length := by
    rw [h.bytes, hunderWay, List.append_nil, h.read]
  rw [hall, containedIn_stream, List.map_map] at hcome
  have hsent : c.received ++ w.ready = c.received ++ c.inFlight := by
    rw [← c.sent_eq, h.messages]
    exact hcome
  rw [List.append_cancel_left hsent]
  exact hnext

/-- When all messages have come, all bytes have been read. -/
theorem Conveys.underWay_eq_nil (h : Conveys lib w c) (hlib : lib.Faithful)
    (hsmall : ∀ m ∈ w.written, m.Small lib) (hnone : c.inFlight = []) : w.ready = [] ∧ w.underWay = [] := by
  obtain ⟨sent, chunks, h⟩ := h
  have hready : w.ready = [] := List.prefix_nil.mp (hnone ▸ h.ready hlib)
  have hcome := congrArg List.length (h.contained hlib hsmall).2
  have hall := congrArg List.length (c.sent_eq)
  rw [hready, List.append_nil, List.length_map, containedIn, List.length_map] at hcome
  rw [hnone, List.append_nil, h.messages, List.length_map, hcome] at hall
  have htotal := Framing.total_le_of_contained hall.symm
  have hbytes := congrArg List.length h.bytes
  rw [length_stream, List.length_append, h.read] at hbytes
  exact ⟨hready, List.length_eq_zero_iff.mp (by omega)⟩

/-- A HELLO that comes first is read up to its end before there is anything behind it.  So no chunk goes on
behind its end. -/
theorem Conveys.exists_fill (h : Conveys lib w c) (hlib : lib.Faithful) {len : Nat}
    (hcan : w.canFill len) (hsmall : ∀ m ∈ w.written, m.Small lib)
    (hopening : ∀ pre m post, c.sent = pre ++ m :: post → m.isHello → pre = [])
    (hreceived : 2 ≤ c.sent.length → c.received ≠ []) : ∃ w', w.fill lib len = .ok w' := by
  refine (h.fill_ok_iff hlib hcan hsmall).mpr fun hoverruns => ?_
  obtain ⟨sent, chunks, h⟩ := h
  obtain ⟨-, -, -, hlen⟩ := hcan
  obtain ⟨pre, e, post, hsent, hhello, hgt, hlt⟩ := h.exists_of_overruns hoverruns
  have hmessages : c.sent = pre.map (fun e => e.1.delivered) ++ e.1.delivered ::
      post.map fun e => e.1.delivered := by
    rw [h.messages, hsent, List.map_append, List.map_cons]
  have hpre : pre = [] := List.map_eq_nil_iff.mp
    (hopening _ _ _ hmessages (e.1.isHello_delivered.trans hhello))
  subst hpre
  rw [List.nil_append, Framing.total_cons, Framing.total_nil, Nat.add_zero] at hgt hlt
  cases post with
  | nil =>
    -- all that was written is the HELLO
    have hall := congrArg List.length h.bytes
    rw [hsent, length_stream, List.length_append, h.read] at hall
    simp only [List.nil_append, Framing.total_cons, Framing.total_nil] at hall
    omega
  | cons e' post =>
    -- the HELLO has been received
    have hcome : c.received ≠ [] := hreceived (by rw [hmessages]; simp)
    have hcontained := (h.contained hlib hsmall).2
    have hnone : containedIn w.taken sent = [] := by
      rw [hsent]
      show (Framing.contained _ (e :: e' :: post) _).map Prod.fst = []
      rw [Framing.contained, if_pos hgt]
      rfl
    rw [hnone] at hcontained
    exact hcome (List.append_eq_nil_iff.mp hcontained).1

end Wire

end Bem
