import Bem.Common.RoundTrip

/-!
# Streams of messages, cut into chunks

A reader of a connection gets the serializations of several messages one behind the other, in
chunks of any sizes.  Messages of fixed length come through however the stream is cut.  A HELLO
comes through exactly when its frame ends where a chunk does.
-/

namespace Bem

open ByteBuffer MessageFactory

namespace Message

/-! ## What is delivered for a message -/

/-- Group and status of a task are not on the wire. -/
def received : Message → Message
  | task m => task { task := m.task.received }
  | m => m

/-- Beyond that, the entries of a game list are entered anew, by their ids. -/
def delivered : Message → Message
  | task m => task { task := m.task.received }
  | hello m => hello { m with gamelist := m.gamelist.rekeyed }
  | m => m

theorem isHello_delivered (m : Message) : m.delivered.isHello = m.isHello := by
  cases m <;> rfl

end Message

/-- The library inverts itself on objects and accepts nothing behind a document. -/
structure BsonLibrary.Faithful (lib : BsonLibrary) : Prop where
  inverse : ∀ members bytes, lib.to_bson (.object members) = some bytes →
    lib.from_bson bytes = some (.object members)
  strict : ∀ members bytes rest, lib.to_bson (.object members) = some bytes → rest ≠ [] →
    lib.from_bson (bytes ++ rest) = none

section Streams

variable {lib : BsonLibrary}

theorem exists_frame {m : Message} {b : ByteBuffer} (hm : m ≠ .invalid)
    (hlib : m.isHello → lib.Faithful) (h : m.serialize lib = .ok b) (hlen : b.length < 2 ^ 31) :
    ∃ F : Frame lib, F.bytes = b.internal ∧ F.message = m.delivered ∧ F.greedy = m.isHello := by
  cases m with
  | task m =>
    rw [Message.serialize_task] at h
    cases h
    exact ⟨Message.taskFrame lib m, by simp, rfl, rfl⟩
  | result m =>
    rw [Message.serialize_result] at h
    cases h
    exact ⟨Message.resultFrame lib m, by simp, rfl, rfl⟩
  | taskNotify m =>
    rw [Message.serialize_taskNotify] at h
    cases h
    exact ⟨Message.taskNotifyFrame lib m, by simp, rfl, rfl⟩
  | hello m =>
    have hfaithful := hlib rfl
    rcases Message.serialize_hello_eq_ok h hlen with ⟨bytes, hbson, -, hb⟩
    exact ⟨Message.helloFrame lib m bytes (hfaithful.inverse _ _ hbson)
      (fun rest => hfaithful.strict _ _ rest hbson), hb.symm, rfl, rfl⟩
  | invalid => exact absurd rfl hm

/-- A message and the buffer it has been serialized to. -/
abbrev Sent := Message × ByteBuffer

/-- Messages that have been serialized stand on the wire as frames. -/
theorem exists_frames {sent : List Sent} (hmsgs : ∀ e ∈ sent, e.1 ≠ .invalid)
    (hlib : ∀ e ∈ sent, e.1.isHello → lib.Faithful)
    (hsent : ∀ e ∈ sent, e.1.serialize lib = .ok e.2) (hlen : ∀ e ∈ sent, e.2.length < 2 ^ 31) :
    ∃ Fs : List (Frame lib), Fs.map (fun F => (F.bytes, F.message, F.greedy)) =
      sent.map fun e => (e.2.internal, e.1.delivered, e.1.isHello) := by
  induction sent with
  | nil => exact ⟨[], rfl⟩
  | cons e sent ih =>
    rcases exists_frame (hmsgs e List.mem_cons_self) (hlib e List.mem_cons_self)
      (hsent e List.mem_cons_self) (hlen e List.mem_cons_self) with ⟨F, hbytes, hmessage, hgreedy⟩
    rcases ih (fun e' he' => hmsgs e' (List.mem_cons_of_mem e he'))
      (fun e' he' => hlib e' (List.mem_cons_of_mem e he'))
      (fun e' he' => hsent e' (List.mem_cons_of_mem e he'))
      (fun e' he' => hlen e' (List.mem_cons_of_mem e he')) with ⟨Fs, hFs⟩
    exact ⟨F :: Fs, by rw [List.map_cons, List.map_cons, hFs, hbytes, hmessage, hgreedy]⟩

/-- The bytes a writer puts on the connection. -/
def stream (sent : List Sent) : List UInt8 := (sent.map fun e => e.2.internal).flatten

/-- The messages of `sent` whose frames lie in the first `n` bytes. -/
def containedIn (n : Nat) (sent : List Sent) : List Message :=
  (Framing.contained (fun e : Sent => e.2.length) sent n).map Prod.fst

/-- Every HELLO frame that arrives ends where a chunk does. -/
def HellosEndChunks (chunks : List (List UInt8)) (sent : List Sent) : Prop :=
  Framing.Aligned (fun e : Sent => e.2.length) (fun e => e.1.isHello)
    (fun e => e ≤ chunks.flatten.length → ∃ k, e = (chunks.take k).flatten.length) sent

/-- Only lengths, delivered messages and greediness of the frames matter for what arrives. -/
private theorem contained_frames {Fs : List (Frame lib)} {sent : List Sent}
    (hFs : Fs.map (fun F => (F.size, F.message, F.greedy)) =
      sent.map fun e => (e.2.length, e.1.delivered, e.1.isHello)) (n : Nat) :
    (Framing.contained Frame.size Fs n).map Frame.message =
      (containedIn n sent).map Message.delivered := by
  have hF := Framing.contained_map (fun x : Nat × Message × Bool => x.1)
    (fun F : Frame lib => (F.size, F.message, F.greedy)) Fs n
  have hsent := Framing.contained_map (fun x : Nat × Message × Bool => x.1)
    (fun e : Sent => (e.2.length, e.1.delivered, e.1.isHello)) sent n
  rw [hFs, hsent] at hF
  have hmessages := congrArg (List.map fun x : Nat × Message × Bool => x.2.1) hF
  rw [List.map_map, List.map_map] at hmessages
  rw [containedIn, List.map_map]
  exact hmessages.symm

private theorem aligned_frames {Fs : List (Frame lib)} {sent : List Sent}
    (hFs : Fs.map (fun F => (F.size, F.message, F.greedy)) =
      sent.map fun e => (e.2.length, e.1.delivered, e.1.isHello)) (border : Nat → Prop) :
    Framing.Aligned Frame.size Frame.greedy border Fs ↔
      Framing.Aligned (fun e : Sent => e.2.length) (fun e => e.1.isHello) border sent := by
  have hF := Framing.aligned_map (fun x : Nat × Message × Bool => x.1) (fun x => x.2.2) border
    (fun F : Frame lib => (F.size, F.message, F.greedy)) Fs
  have hsent := Framing.aligned_map (fun x : Nat × Message × Bool => x.1) (fun x => x.2.2) border
    (fun e : Sent => (e.2.length, e.1.delivered, e.1.isHello)) sent
  rw [hFs, hsent] at hF
  exact hF.symm

/-- No buffer has to hold `2 ^ 31` bytes: not even the whole stream has them, or no frame together
with a chunk. -/
def Fits (chunks : List (List UInt8)) (sent : List Sent) : Prop :=
  (stream sent).length < 2 ^ 31 ∨
    ∀ chunk ∈ chunks, ∀ e ∈ sent, e.2.length + chunk.length < 2 ^ 31

/-- What a reader makes of a stream, or of the beginning of one. -/
theorem receive_stream {sent : List Sent} (hmsgs : ∀ e ∈ sent, e.1 ≠ .invalid)
    (hlib : ∀ e ∈ sent, e.1.isHello → lib.Faithful)
    (hsent : ∀ e ∈ sent, e.1.serialize lib = .ok e.2) (hlen : ∀ e ∈ sent, e.2.length < 2 ^ 31)
    {chunks : List (List UInt8)} (hchunks : chunks.flatten <+: stream sent)
    (hfits : Fits chunks sent) :
    (HellosEndChunks chunks sent → ∃ f, receive lib chunks {} =
        .ok ((containedIn chunks.flatten.length sent).map Message.delivered, f)) ∧
      (¬ HellosEndChunks chunks sent → ∃ e, receive lib chunks {} = .error e) := by
  rcases exists_frames hmsgs hlib hsent hlen with ⟨Fs, hFs⟩
  have hsizes : Fs.map (fun F => (F.size, F.message, F.greedy)) =
      sent.map fun e => (e.2.length, e.1.delivered, e.1.isHello) := by
    have h := congrArg (List.map fun x : List UInt8 × Message × Bool => (x.1.length, x.2)) hFs
    simp only [List.map_map, Function.comp_def, Frame.length_bytes] at h
    exact h
  have hwire : Frame.wire Fs = stream sent := by
    have h := congrArg (List.map Prod.fst) hFs
    rw [List.map_map, List.map_map] at h
    exact congrArg List.flatten h
  -- a bound on the lengths sent is one on the sizes of the frames
  have hbound (n : Nat) (h : ∀ e ∈ sent, e.2.length + n < 2 ^ 31) :
      ∀ F ∈ Fs, F.size + n < 2 ^ 31 := by
    intro F hF
    have hmem : (F.size, F.message, F.greedy) ∈
        sent.map fun e => (e.2.length, e.1.delivered, e.1.isHello) := by
      rw [← hsizes]
      exact List.mem_map_of_mem hF
    rcases List.mem_map.mp hmem with ⟨e, he, heq⟩
    rw [← (Prod.mk.inj heq).1]
    exact h e he
  rcases hchunks with ⟨rest, hrest⟩
  have hw : Framing.Waiting Frame.size (Fs, 0) := by
    intro F Fs' _
    exact Nat.add_pos_left (by decide) _
  have hinit : holding [] (Fs, 0) = {} := by cases Fs <;> rfl
  have hfits' : (Frame.wire Fs).length < 2 ^ 31 ∨
      ∀ chunk ∈ chunks, ∀ F ∈ Fs, F.size + chunk.length < 2 ^ 31 :=
    hfits.imp (fun h => by rwa [hwire])
      (fun h chunk hchunk => hbound chunk.length (h chunk hchunk))
  have hrun := receive_frames Fs (hbound 0 hlen) chunks [] rest (by rw [hwire]; exact hrest) hfits'
    hw
  have haligned := Framing.receive_isSome_iff Frame.greedy hw (chunks.map List.length)
  simp only [Nat.zero_add, ← List.map_take, ← List.length_flatten] at haligned
  rw [aligned_frames hsizes] at haligned
  rw [List.length_nil, hinit] at hrun
  cases hr : Framing.receive Frame.size Frame.greedy (Fs, 0) (chunks.map List.length) with
  | none =>
    rw [hr] at hrun haligned
    exact ⟨fun h => absurd (haligned.mpr h) (by simp), fun _ => hrun⟩
  | some r =>
    rcases r with ⟨done, st⟩
    rw [hr] at hrun haligned
    refine ⟨fun _ => ?_, fun h => absurd (haligned.mp rfl) h⟩
    have hdone := Framing.receive_eq_contained hw hr
    rw [Nat.zero_add, ← List.length_flatten] at hdone
    rw [hdone] at hrun
    rw [← contained_frames hsizes]
    exact hrun

/-! ## Sending -/

/-- Serialize every message. -/
def sendAll (lib : BsonLibrary) : List Message → Except Fault (List Sent)
  | [] => .ok []
  | m :: msgs => do
    let b ← m.serialize lib
    let sent ← sendAll lib msgs
    return (m, b) :: sent

theorem sendAll_cons_eq_ok {m : Message} {msgs : List Message} {sent : List Sent} :
    sendAll lib (m :: msgs) = .ok sent ↔
      ∃ b rest, m.serialize lib = .ok b ∧ sendAll lib msgs = .ok rest ∧ sent = (m, b) :: rest := by
  rw [sendAll, Except.bind_eq_ok]
  constructor
  · intro h
    rcases h with ⟨b, hb, hrest⟩
    rcases Except.bind_eq_ok.mp hrest with ⟨rest, hr, heq⟩
    cases heq
    exact ⟨b, rest, hb, hr, rfl⟩
  · intro h
    rcases h with ⟨b, rest, hb, hr, rfl⟩
    exact ⟨b, hb, Except.bind_eq_ok.mpr ⟨rest, hr, rfl⟩⟩

theorem sendAll_eq_ok {msgs : List Message} {sent : List Sent} (h : sendAll lib msgs = .ok sent) :
    sent.map Prod.fst = msgs ∧ ∀ e ∈ sent, e.1.serialize lib = .ok e.2 := by
  induction msgs generalizing sent with
  | nil =>
    cases h
    exact ⟨rfl, fun e he => (List.not_mem_nil he).elim⟩
  | cons m msgs ih =>
    rcases sendAll_cons_eq_ok.mp h with ⟨b, rest, hb, hr, rfl⟩
    rcases ih hr with ⟨hfst, hsent⟩
    refine ⟨by rw [List.map_cons, hfst], fun e he => ?_⟩
    rcases List.mem_cons.mp he with rfl | he
    · exact hb
    · exact hsent e he

theorem sendAll_ok {msgs : List Message} (h : ∀ m ∈ msgs, ∃ b, m.serialize lib = .ok b) :
    ∃ sent, sendAll lib msgs = .ok sent := by
  induction msgs with
  | nil => exact ⟨[], rfl⟩
  | cons m msgs ih =>
    rcases h m List.mem_cons_self with ⟨b, hb⟩
    rcases ih fun m' hm' => h m' (List.mem_cons_of_mem m hm') with ⟨rest, hr⟩
    exact ⟨(m, b) :: rest, sendAll_cons_eq_ok.mpr ⟨b, rest, hb, hr, rfl⟩⟩

theorem length_stream (sent : List Sent) :
    (stream sent).length = Framing.total (fun e : Sent => e.2.length) sent := by
  rw [stream, List.length_flatten, List.map_map]
  rfl

theorem containedIn_stream (sent : List Sent) :
    containedIn (stream sent).length sent = sent.map Prod.fst := by
  rw [containedIn, length_stream, Framing.contained_total]

theorem length_le_stream {sent : List Sent} {e : Sent} (he : e ∈ sent) :
    e.2.length ≤ (stream sent).length := by
  have hmem : e.2.internal ∈ sent.map fun e => e.2.internal := List.mem_map_of_mem he
  exact (List.sublist_flatten_of_mem hmem).length_le

/-! ## Messages of fixed length -/

/-- The messages whose decoders stop at the end of their frames. -/
def Message.IsFixed : Message → Prop
  | .task _ => True
  | .result _ => True
  | .taskNotify _ => True
  | _ => False

theorem Message.IsFixed.serialize {m : Message} (h : m.IsFixed) : ∃ b, m.serialize lib = .ok b := by
  cases m with
  | task m => exact ⟨_, serialize_task m⟩
  | result m => exact ⟨_, serialize_result m⟩
  | taskNotify m => exact ⟨_, serialize_taskNotify m⟩
  | hello m => exact h.elim
  | invalid => exact h.elim

theorem Message.IsFixed.not_hello {m : Message} (h : m.IsFixed) : m.isHello = false := by
  cases m with
  | hello m => exact h.elim
  | _ => rfl

theorem Message.IsFixed.delivered {m : Message} (h : m.IsFixed) : m.delivered = m.received := by
  cases m with
  | hello m => exact h.elim
  | _ => rfl

/-- Messages of fixed length come through however the stream is cut; of a stream that has arrived
in part, those come through whose frames have arrived in full. -/
theorem receive_delivers_contained (lib : BsonLibrary) (msgs : List Message)
    (hmsgs : ∀ m ∈ msgs, m.IsFixed) :
    ∃ sent, sendAll lib msgs = .ok sent ∧
      ((stream sent).length < 2 ^ 31 → ∀ chunks : List (List UInt8),
        (chunks.flatten = stream sent →
          ∃ f, receive lib chunks {} = .ok (msgs.map Message.received, f)) ∧
        (chunks.flatten <+: stream sent →
          ∃ f, receive lib chunks {} =
            .ok ((containedIn chunks.flatten.length sent).map Message.received, f))) := by
  have hserialize : ∀ m ∈ msgs, ∃ b, m.serialize lib = .ok b := fun m hm => (hmsgs m hm).serialize
  rcases sendAll_ok hserialize with ⟨sent, hsend⟩
  rcases sendAll_eq_ok hsend with ⟨hfst, hsent⟩
  have hfixed : ∀ e ∈ sent, e.1.IsFixed := by
    intro e he
    refine hmsgs e.1 ?_
    rw [← hfst]
    exact List.mem_map_of_mem he
  refine ⟨sent, hsend, fun hlen chunks => ?_⟩
  -- no frame of fixed length is greedy, so that it does not matter where chunks end
  have hprefix (hchunks : chunks.flatten <+: stream sent) : ∃ f, receive lib chunks {} =
      .ok ((containedIn chunks.flatten.length sent).map Message.received, f) := by
    have hends : HellosEndChunks chunks sent := Framing.aligned_of_not_greedy
      fun e he => (hfixed e he).not_hello
    have hmsgs' : ∀ e ∈ sent, e.1 ≠ .invalid := by
      intro e he hinvalid
      have hf := hfixed e he
      rw [hinvalid] at hf
      exact hf
    have hlib : ∀ e ∈ sent, e.1.isHello → lib.Faithful := by
      intro e he hhello
      rw [(hfixed e he).not_hello] at hhello
      cases hhello
    have hrun := (receive_stream hmsgs' hlib hsent
      (fun e he => Nat.lt_of_le_of_lt (length_le_stream he) hlen) hchunks (Or.inl hlen)).1 hends
    have hsame : (containedIn chunks.flatten.length sent).map Message.delivered =
        (containedIn chunks.flatten.length sent).map Message.received := by
      apply List.map_congr_left
      intro m hm
      rcases List.mem_map.mp hm with ⟨e, he, rfl⟩
      exact (hfixed e (Framing.mem_of_mem_contained he)).delivered
    rwa [hsame] at hrun
  refine ⟨fun hall => ?_, hprefix⟩
  rcases hprefix (hall ▸ List.prefix_refl _) with ⟨f, hf⟩
  rw [hall, containedIn_stream, hfst] at hf
  exact ⟨f, hf⟩

theorem receive_delivers_contained_two :
    ∃ f, receive ⟨fun _ => none, fun _ => none⟩
        [(frameBytes .taskNotify [7, 0, 0, 0, 3]).take 5,
          (frameBytes .taskNotify [7, 0, 0, 0, 3]).drop 5 ++
            frameBytes .taskNotify [8, 0, 0, 0, 2]] {} =
      .ok ([.taskNotify ⟨7, .tsCancelled⟩, .taskNotify ⟨8, .tsRunning⟩], f) := by
  let lib : BsonLibrary := ⟨fun _ => none, fun _ => none⟩
  let msgs : List Message := [.taskNotify ⟨7, .tsCancelled⟩, .taskNotify ⟨8, .tsRunning⟩]
  have hfixed : ∀ m ∈ msgs, m.IsFixed := by
    intro m hm
    simp only [msgs, List.mem_cons, List.not_mem_nil, or_false] at hm
    rcases hm with rfl | rfl
    · trivial
    · trivial
  rcases receive_delivers_contained lib msgs hfixed with ⟨sent, hsend, hrun⟩
  rcases sendAll_cons_eq_ok.mp hsend with ⟨b, rest, hb, hrest, rfl⟩
  rcases sendAll_cons_eq_ok.mp hrest with ⟨b', rest', hb', hrest', rfl⟩
  rw [Message.serialize_taskNotify] at hb hb'
  cases hb
  cases hb'
  cases hrest'
  exact (hrun (by decide) _).1 rfl

/-! ## A library that knows one document -/

/-- `{"gamelist": {"games": []}}` in BSON. -/
def emptyBson : List UInt8 :=
  [32, 0, 0, 0, 3, 103, 97, 109, 101, 108, 105, 115, 116, 0, 17, 0, 0, 0, 4, 103, 97, 109, 101,
    115, 0, 5, 0, 0, 0, 0, 0, 0]

def emptyToBson : Json → Option (List UInt8)
  | .object [("gamelist", .object [("games", .array [])])] => some emptyBson
  | _ => none

def emptyFromBson (bytes : List UInt8) : Option Json :=
  if bytes = emptyBson then some (.object [("gamelist", .object [("games", .array [])])]) else none

def emptyLibrary : BsonLibrary where
  to_bson := emptyToBson
  from_bson := emptyFromBson

theorem emptyLibrary_faithful : emptyLibrary.Faithful := by
  have hdocument : ∀ members bytes, emptyLibrary.to_bson (.object members) = some bytes →
      members = [("gamelist", .object [("games", .array [])])] ∧ bytes = emptyBson := by
    intro members bytes h
    change emptyToBson (.object members) = some bytes at h
    unfold emptyToBson at h
    split at h
    next heq =>
      cases heq
      cases h
      exact ⟨rfl, rfl⟩
    next => cases h
  refine ⟨fun members bytes h => ?_, fun members bytes rest h hrest => ?_⟩
  · rcases hdocument members bytes h with ⟨rfl, rfl⟩
    change emptyFromBson emptyBson = _
    rw [emptyFromBson, if_pos rfl]
  · rcases hdocument members bytes h with ⟨rfl, rfl⟩
    change emptyFromBson (emptyBson ++ rest) = none
    rw [emptyFromBson, if_neg]
    intro heq
    refine hrest ?_
    have hlen := congrArg List.length heq
    rw [List.length_append] at hlen
    exact List.eq_nil_of_length_eq_zero (by omega)

/-- A HELLO with a notification behind it. -/
def emptyExchange : List Sent :=
  [(.hello {}, reading [] (frameBytes .hello (0 :: 0 :: emptyBson))),
    (.taskNotify ⟨7, .tsRunning⟩, reading [] (frameBytes .taskNotify [7, 0, 0, 0, 2]))]

theorem sendAll_emptyExchange :
    sendAll emptyLibrary [.hello {}, .taskNotify ⟨7, .tsRunning⟩] = .ok emptyExchange := by
  have hhello : (Message.hello {}).serialize emptyLibrary =
      .ok (reading [] (frameBytes .hello (0 :: 0 :: emptyBson))) :=
    Message.serialize_hello (m := {}) rfl (by decide)
  have hnotify : (Message.taskNotify ⟨7, .tsRunning⟩).serialize emptyLibrary =
      .ok (reading [] (frameBytes .taskNotify [7, 0, 0, 0, 2])) :=
    Message.serialize_taskNotify ⟨7, .tsRunning⟩
  exact sendAll_cons_eq_ok.mpr ⟨_, _, hhello,
    sendAll_cons_eq_ok.mpr ⟨_, _, hnotify, rfl, rfl⟩, rfl⟩

/-! ## Streams with game lists -/

/-- A game list comes through only if its entries stand under their own ids. -/
def Message.KeepsIds : Message → Prop
  | .hello m => m.gamelist.KeyedById
  | _ => True

/-- Nothing of the message is lost. -/
def Message.Survives : Message → Prop
  | .hello m => m.gamelist.KeyedById
  | .task m => m.task.groupId = taskIdNone ∧ m.task.status = .tsNone
  | _ => True

theorem Message.delivered_eq_received_iff (m : Message) :
    m.delivered = m.received ↔ m.KeepsIds := by
  cases m with
  | hello m =>
    change hello { m with gamelist := m.gamelist.rekeyed } = hello m ↔ m.gamelist.KeyedById
    rw [← GameList.rekeyed_eq_self_iff, Message.hello.injEq]
    exact ⟨fun h => congrArg HelloMessage.gamelist h, fun h => by rw [h]⟩
  | _ => exact ⟨fun _ => trivial, fun _ => rfl⟩

theorem Message.delivered_eq_self_iff (m : Message) : m.delivered = m ↔ m.Survives := by
  cases m with
  | hello m =>
    change hello { m with gamelist := m.gamelist.rekeyed } = hello m ↔ m.gamelist.KeyedById
    rw [← GameList.rekeyed_eq_self_iff, Message.hello.injEq]
    exact ⟨fun h => congrArg HelloMessage.gamelist h, fun h => by rw [h]⟩
  | task m =>
    rw [Survives, delivered, Message.task.injEq]
    constructor
    · intro h
      rw [← h]
      exact ⟨rfl, rfl⟩
    · intro h
      rcases m with ⟨t⟩
      cases t
      rcases h with ⟨rfl, rfl⟩
      rfl
  | _ => exact ⟨fun _ => trivial, fun _ => rfl⟩

/-- A stream that starts with a HELLO comes through exactly when each HELLO frame ends where a
chunk does. -/
theorem hello_stream_received_iff (lib : BsonLibrary) (hlib : lib.Faithful) (h : HelloMessage)
    (ms : List Message) (hms : ∀ m ∈ ms, m ≠ .invalid) (sent : List Sent)
    (hsend : sendAll lib (.hello h :: ms) = .ok sent) (chunks : List (List UInt8))
    (hchunks : chunks.flatten = stream sent) (hfits : Fits chunks sent) :
    ((∃ f, receive lib chunks {} = .ok ((.hello h :: ms).map Message.received, f)) ↔
        HellosEndChunks chunks sent ∧ ∀ m ∈ .hello h :: ms, m.KeepsIds) ∧
      ((∃ f, receive lib chunks {} = .ok (.hello h :: ms, f)) ↔
        HellosEndChunks chunks sent ∧ ∀ m ∈ .hello h :: ms, m.Survives) := by
  rcases sendAll_eq_ok hsend with ⟨hfst, hsent⟩
  have hmsgs : ∀ e ∈ sent, e.1 ≠ .invalid := by
    intro e he
    have hmem : e.1 ∈ .hello h :: ms := by
      rw [← hfst]
      exact List.mem_map_of_mem he
    rcases List.mem_cons.mp hmem with hhello | hmem
    · rw [hhello]
      exact fun hne => by cases hne
    · exact hms e.1 hmem
  have hlen : ∀ e ∈ sent, e.2.length < 2 ^ 31 := by
    intro e he
    have hle := length_le_stream he
    rcases hfits with hwhole | hparts
    · omega
    cases chunks with
    | nil =>
      rw [← hchunks] at hle
      exact Nat.lt_of_le_of_lt hle (by decide)
    | cons chunk chunks =>
      have hsum := hparts chunk List.mem_cons_self e he
      omega
  have hrun := receive_stream hmsgs (fun _ _ _ => hlib) hsent hlen (hchunks ▸ List.prefix_refl _)
    hfits
  by_cases hends : HellosEndChunks chunks sent
  · rcases hrun.1 hends with ⟨f, hf⟩
    rw [hchunks, containedIn_stream, hfst] at hf
    -- the reader returns; what it returns decides
    have hiff (expected : List Message) : (∃ f, receive lib chunks {} = .ok (expected, f)) ↔
        (.hello h :: ms).map Message.delivered = expected := by
      rw [hf]
      constructor
      · intro hex
        rcases hex with ⟨f', hf'⟩
        cases hf'
        rfl
      · intro heq
        exact ⟨f, by rw [heq]⟩
    rw [hiff, hiff, List.map_inj_left]
    refine ⟨?_, ?_⟩
    · simp only [hends, true_and, Message.delivered_eq_received_iff]
    · have hself := List.map_inj_left (f := Message.delivered) (g := id) (l := .hello h :: ms)
      rw [List.map_id] at hself
      rw [hself]
      simp only [id_eq, hends, true_and, Message.delivered_eq_self_iff]
  · rcases hrun.2 hends with ⟨e, he⟩
    rw [he]
    simp [hends]

theorem hello_stream_received_apart :
    ∃ f, receive emptyLibrary [frameBytes .hello (0 :: 0 :: emptyBson),
        frameBytes .taskNotify [7, 0, 0, 0, 2]] {} =
      .ok ([.hello {}, .taskNotify ⟨7, .tsRunning⟩], f) := by
  refine (hello_stream_received_iff emptyLibrary emptyLibrary_faithful {}
    [.taskNotify ⟨7, .tsRunning⟩] (by decide) emptyExchange sendAll_emptyExchange _ rfl
    (Or.inl (by decide))).2.mpr ⟨?_, ?_⟩
  · refine Framing.aligned_cons.mpr ⟨fun _ _ => ⟨1, rfl⟩, ?_⟩
    exact Framing.aligned_of_not_greedy (by decide)
  · intro m hm
    simp only [List.mem_cons, List.not_mem_nil, or_false] at hm
    rcases hm with rfl | rfl
    · exact ⟨fun _ he => (List.not_mem_nil he).elim, fun _ he => (List.not_mem_nil he).elim⟩
    · trivial

/-- In one chunk the two are lost. -/
theorem hello_stream_disturbed :
    ¬ ∀ (lib : BsonLibrary) (h : HelloMessage) (ms : List Message) (sent : List Sent)
        (chunks : List (List UInt8)), lib.Faithful → h.gamelist.IdsBelow (2 ^ 63) →
      (∀ m ∈ ms, m ≠ .invalid) → sendAll lib (.hello h :: ms) = .ok sent →
      chunks.flatten = stream sent → Fits chunks sent →
        ∃ f, receive lib chunks {} = .ok ((.hello h :: ms).map Message.received, f) := by
  intro hclaim
  have hflatten : [stream emptyExchange].flatten = stream emptyExchange := List.append_nil _
  have hlen : (stream emptyExchange).length < 2 ^ 31 := by decide
  rcases hclaim emptyLibrary {} [.taskNotify ⟨7, .tsRunning⟩] emptyExchange [stream emptyExchange]
    emptyLibrary_faithful (fun _ he => (List.not_mem_nil he).elim) (by decide)
    sendAll_emptyExchange hflatten (Or.inl hlen) with ⟨f, hf⟩
  have hends : ¬ HellosEndChunks [stream emptyExchange] emptyExchange := by
    intro hends
    -- the HELLO ends at 43, inside the only chunk
    have hborder : 43 ≤ 57 → ∃ k, 43 = ([stream emptyExchange].take k).flatten.length :=
      hends [] _ _ rfl rfl
    rcases hborder (by decide) with ⟨k, hk⟩
    cases k with
    | zero => exact absurd hk (by decide)
    | succ k =>
      rw [List.take_succ_cons, List.take_nil, hflatten] at hk
      exact absurd hk (by decide)
  rcases sendAll_eq_ok sendAll_emptyExchange with ⟨-, hsent⟩
  have hbound : ∀ e ∈ emptyExchange, e.2.length < 2 ^ 31 :=
    fun e he => Nat.lt_of_le_of_lt (length_le_stream he) hlen
  rcases (receive_stream (by decide) (fun _ _ _ => emptyLibrary_faithful) hsent hbound
    (hflatten ▸ List.prefix_refl _) (Or.inl hlen)).2 hends with ⟨e, he⟩
  rw [he] at hf
  cases hf

end Streams

end Bem
