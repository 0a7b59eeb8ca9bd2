import Bem.Common.Fragments

/-!
# What arrives on a connection

A writer serializes messages one after the other, and a reader fills a factory with the chunks that
have come so far.  Unless a call of `Fill` throws, it has the first of the messages, each as its class
decodes it, whatever the chunks are.
-/

namespace Bem

open ByteBuffer MessageFactory

variable {lib : BsonLibrary}

/-! ## Serialized messages -/

namespace ByteBuffer

theorem offset_reading_edge {pre rest : List UInt8} (h : pre.length = 2 ^ 31) :
    2 ^ 63 ≤ (reading pre rest).offset := by
  have hwraps : (Int32.ofNat (2 ^ 31)).toInt = -2 ^ 31 := by decide
  unfold offset reading
  rw [h]
  dsimp only
  rw [hwraps]
  decide

/-- The cursor stops at `2 ^ 31`, and no byte is put behind it. -/
theorem putEach_eq_ok {pre bytes : List UInt8} {b : ByteBuffer} (hpre : pre.length ≤ 2 ^ 31)
    (h : putEach bytes (reading pre []) = .ok () b) :
    b.internal = pre ++ bytes ∧ pre.length + bytes.length ≤ 2 ^ 31 := by
  induction bytes generalizing pre with
  | nil =>
    cases h
    exact ⟨rfl, hpre⟩
  | cons byte bytes ih =>
    rcases EStateM.bind_eq_ok h with ⟨_, b₁, hput, hrest⟩
    change put [byte] (reading pre []) = .ok () b₁ at hput
    -- the byte has been written, so that the cursor stood in front of the edge
    have hoffset : (reading pre []).offset < 2 ^ 63 := by
      have hwritten := (put_eq_ok hput).1
      unfold maxSize at hwritten
      omega
    have hroom : pre.length < 2 ^ 31 := by
      refine lt_of_le_of_ne hpre fun hedge => ?_
      have hbehind := @offset_reading_edge pre [] hedge
      omega
    rw [put_reading_of_le hroom (by unfold maxSize; simp only [List.length_singleton]; omega)] at hput
    cases hput
    have hlen : (pre ++ [byte]).length = pre.length + 1 := by simp
    have hall := ih (by omega) hrest
    rw [hlen, List.append_assoc, List.singleton_append] at hall
    rw [List.length_cons]
    exact ⟨hall.1, by omega⟩

end ByteBuffer

namespace MessageFactory

theorem frontSize_header (type : UInt8) (rest : List UInt8) {size : Nat} (h : size < 2 ^ 64) :
    frontSize (type :: leBytes 8 size ++ rest) = size := by
  have hbytes : ((type :: leBytes 8 size ++ rest).drop sizeOffset).take 8 = leBytes 8 size := by
    show (leBytes 8 size ++ rest).take 8 = _
    exact List.take_left' (length_leBytes 8 size)
  rw [frontSize, hbytes]
  exact leValue_leBytes h

/-- The length stands in the first bytes. -/
theorem frontSize_append {bytes : List UInt8} (h : headerSize ≤ bytes.length) (rest : List UInt8) :
    frontSize (bytes ++ rest) = frontSize bytes := by
  unfold headerSize at h
  unfold frontSize sizeOffset
  rw [List.drop_append_of_le_length (by omega),
    List.take_append_of_le_length (by rw [List.length_drop]; omega)]

end MessageFactory

/-- A message on the wire: a header with the length, and what is decoded of it.  A buffer of `2 ^ 31`
bytes can still be written, but not read. -/
structure Framed (lib : BsonLibrary) (bytes : List UInt8) (message : Message) : Prop where
  header : headerSize ≤ bytes.length
  room : bytes.length ≤ 2 ^ 31
  declares : frontSize bytes = bytes.length
  decodes : bytes.length < 2 ^ 31 → ∃ F : Frame lib, F.bytes = bytes ∧ F.message = message

theorem Frame.framed (F : Frame lib) (h : F.size < 2 ^ 31) : Framed lib F.bytes F.message where
  header := by
    rw [F.length_bytes]
    exact Nat.le_add_right _ _
  room := by
    rw [F.length_bytes]
    omega
  declares := by
    rw [F.length_bytes]
    exact frontSize_header _ _ (by show F.size < 2 ^ 64; omega)
  decodes _ := ⟨F, rfl, rfl⟩

/-- The bytes of a game list are its header, two bytes of its own and the document, also where they
fill the range of the cursor. -/
theorem HelloMessage.serialize_eq_ok {m : HelloMessage} {b : ByteBuffer}
    (h : (Message.hello m).serialize lib = .ok b) : ∃ bytes, lib.to_bson m.document = some bytes ∧
      headerSize + (m.protoVer :: m.flag :: bytes).length ≤ 2 ^ 31 ∧
      b = reading [] (frameBytes .hello (m.protoVer :: m.flag :: bytes)) := by
  have hwrite : m.serialize lib {} = .ok () b := Message.write_of_serialize h
  let reserved := MessageType.hello.code :: leBytes 8 1
  have hreserved : reserved.length = headerSize := by simp [reserved, headerSize]
  obtain ⟨b₂, hbody, hframe⟩ := frame_eq_ok hwrite
  -- the body
  have hversion : put [m.protoVer] (reading reserved []) =
      .ok () (reading (reserved ++ [m.protoVer]) []) := put_reading (by simp [reserved])
  have hflag : put [m.flag] (reading (reserved ++ [m.protoVer]) []) =
      .ok () (reading (reserved ++ [m.protoVer] ++ [m.flag]) []) := put_reading (by simp [reserved])
  rcases EStateM.bind_eq_ok hbody with ⟨_, b₃, h₃, hbody⟩
  rw [hversion] at h₃
  cases h₃
  rcases EStateM.bind_eq_ok hbody with ⟨_, b₄, h₄, hbytes⟩
  rw [hflag] at h₄
  cases h₄
  cases hbson : lib.to_bson m.document with
  | none =>
    rw [hbson] at hbytes
    cases hbytes
  | some bytes =>
    rw [hbson] at hbytes
    have hstart : (reserved ++ [m.protoVer] ++ [m.flag]).length = headerSize + 2 := by
      simp [reserved, headerSize]
    have hheader : headerSize = 9 := rfl
    have hwritten := putEach_eq_ok (by omega) hbytes
    have hall : b₂.internal = reserved ++ m.protoVer :: m.flag :: bytes := by
      rw [hwritten.1]
      simp
    have hlen : (m.protoVer :: m.flag :: bytes).length = bytes.length + 2 := rfl
    refine ⟨bytes, rfl, by omega, hframe _ hall (by omega)⟩

theorem HelloMessage.serialize_declares {m : HelloMessage} {b : ByteBuffer}
    (h : (Message.hello m).serialize lib = .ok b) :
    headerSize ≤ b.length ∧ b.length ≤ 2 ^ 31 ∧ frontSize b.internal = b.length := by
  obtain ⟨bytes, -, hroom, rfl⟩ := HelloMessage.serialize_eq_ok h
  have hlen : (reading [] (frameBytes .hello (m.protoVer :: m.flag :: bytes))).length =
      headerSize + (m.protoVer :: m.flag :: bytes).length := by
    rw [length_reading, length_frameBytes, List.length_nil, Nat.zero_add]
  rw [hlen]
  exact ⟨Nat.le_add_right _ _, hroom, frontSize_header _ _ (by omega)⟩

/-- The other messages are short. -/
theorem Message.IsFixed.length_serialize_le {m : Message} {b : ByteBuffer} (hm : m.IsFixed)
    (h : m.serialize lib = .ok b) : b.length ≤ 2 ^ 6 := by
  cases m with
  | task m =>
    rw [serialize_task] at h
    cases h
    show headerSize + m.task.bytes.length ≤ 2 ^ 6
    rw [Task.length_bytes]
    decide
  | result m =>
    rw [serialize_result] at h
    cases h
    rw [length_reading, Frame.length_bytes]
    show 0 + (headerSize + (leBytes 4 m.taskId.toNat ++ m.result.bytes).length) ≤ 2 ^ 6
    rw [List.length_append, length_leBytes, Result.length_bytes]
    decide
  | taskNotify m =>
    rw [serialize_taskNotify] at h
    cases h
    rw [length_reading, Frame.length_bytes]
    show 0 + (headerSize + (leBytes 4 m.taskId.toNat ++ [m.taskStatus.code]).length) ≤ 2 ^ 6
    rw [List.length_append, length_leBytes, List.length_singleton]
    decide
  | hello m => exact hm.elim
  | invalid => exact hm.elim

theorem Message.IsFixed.length_serialize {m : Message} {b : ByteBuffer} (hm : m.IsFixed)
    (h : m.serialize lib = .ok b) : b.length < 2 ^ 31 :=
  (hm.length_serialize_le h).trans_lt (by decide)

theorem framed_of_serialize (hlib : lib.Faithful) {m : Message} {b : ByteBuffer} (hm : m ≠ .invalid)
    (h : m.serialize lib = .ok b) : Framed lib b.internal m.delivered := by
  by_cases hsmall : b.length < 2 ^ 31
  · obtain ⟨F, hbytes, hmessage, -⟩ := exists_frame hm (fun _ => hlib) h hsmall
    rw [← hbytes, ← hmessage]
    refine F.framed ?_
    rw [← F.length_bytes, hbytes]
    exact hsmall
  · -- only a list of games can be that long
    cases m with
    | hello m =>
      obtain ⟨hheader, hroom, hdeclares⟩ := HelloMessage.serialize_declares h
      exact ⟨hheader, hroom, hdeclares, fun hlt => absurd hlt hsmall⟩
    | invalid => exact absurd rfl hm
    | task m =>
      have hfixed : (Message.task m).IsFixed := trivial
      exact absurd (hfixed.length_serialize h) hsmall
    | result m =>
      have hfixed : (Message.result m).IsFixed := trivial
      exact absurd (hfixed.length_serialize h) hsmall
    | taskNotify m =>
      have hfixed : (Message.taskNotify m).IsFixed := trivial
      exact absurd (hfixed.length_serialize h) hsmall

/-! ## Reading them -/

namespace MessageFactory

variable {bytes rest : List UInt8} {message : Message} {messages : List Message} {n : Nat}
variable {chunks : List (List UInt8)}

/-- A buffer of `2 ^ 31` bytes or more ends the stream once a whole frame stands in front. -/
theorem thrown_of_overlong (hn : max headerSize (frontSize bytes) ≤ n) (hlen : n ≤ bytes.length)
    (hmax : n ≤ maxSize) (hsize : headerSize ≤ frontSize bytes) (hlarge : 2 ^ 31 ≤ n) :
    (outcome lib bytes n chunks).2 = true := by
  rw [outcome_whole hn hlen hsize]
  cases hwidth : Message.width (frontType bytes) with
  | none =>
    have hrefuses : Refuses lib bytes n := by
      unfold Refuses
      rw [if_neg (by omega)]
      exact hwidth
    rw [resume_refuses hmax hlen (by omega) (frontSize_ne_zero hsize) (by omega) hrefuses]
  | some k =>
    have hk := Message.width_le hwidth
    have hheader : headerSize = 9 := rfl
    obtain ⟨message, hmessage⟩ := @decodes_of_width lib bytes k hwidth (by omega)
    rw [resume_overlong hlarge hmax hlen (frontSize_ne_zero hsize) (by omega)
      (hmessage n (by omega) hlen)]

theorem take_header_append (F : Frame lib) (rest : List UInt8) :
    (F.bytes ++ rest).take headerSize = F.header := by
  rw [Frame.bytes, List.append_assoc]
  exact List.take_left' F.length_header

theorem drop_header_append (F : Frame lib) (rest : List UInt8) (hn : F.bytes.length ≤ n) :
    ((F.bytes ++ rest).take n).drop headerSize = F.data ++ rest.take (n - F.bytes.length) := by
  rw [List.take_append, List.take_of_length_le hn, Frame.bytes, List.append_assoc]
  exact List.drop_left' F.length_header

/-- What is decoded while a frame stands in front is the frame, with what else is buffered behind it. -/
theorem decode_append (F : Frame lib) (rest : List UInt8) (hn : F.bytes.length ≤ n) :
    Message.decode lib (frontType (F.bytes ++ rest)) (reading ((F.bytes ++ rest).take headerSize)
        (((F.bytes ++ rest).take n).drop headerSize)) =
      Message.decode lib F.type.code
        (reading F.header (F.data ++ rest.take (n - F.bytes.length))) := by
  rw [take_header_append, drop_header_append F rest hn]
  rfl

/-- A frame that has come is taken off, or the stream ends. -/
theorem outcome_framed (h : Framed lib bytes message) (hn : bytes.length ≤ n)
    (hlen : n ≤ (bytes ++ rest).length) (hmax : n ≤ maxSize)
    (houtcome : outcome lib (bytes ++ rest) n chunks = (messages, false)) :
    ∃ later, messages = message :: later ∧
      outcome lib rest (n - bytes.length) chunks = (later, false) := by
  have hheader := h.header
  have hsize : frontSize (bytes ++ rest) = bytes.length :=
    (frontSize_append h.header rest).trans h.declares
  -- a larger buffer would have thrown
  have hsmall : n < 2 ^ 31 := by
    by_contra hlarge
    have hthrown := @thrown_of_overlong lib (bytes ++ rest) n chunks (by omega) hlen hmax (by omega)
      (by omega)
    rw [houtcome] at hthrown
    cases hthrown
  obtain ⟨F, rfl, rfl⟩ := h.decodes (by omega)
  have hcount : headerSize + F.data.length = F.bytes.length := F.length_bytes.symm
  have hdecodes := decode_append F rest hn
  have hfits : F.header.length + F.data.length + (rest.take (n - F.bytes.length)).length < 2 ^ 31 := by
    rw [F.length_header, List.length_take]
    omega
  rw [outcome_whole (by omega) hlen (by omega)] at houtcome
  by_cases hstuck : F.greedy = true ∧ rest.take (n - F.bytes.length) ≠ []
  · -- more than the frame has come, and its class reads all of it
    obtain ⟨e, b, hrejects⟩ := F.rejects hstuck.1 F.header _ hfits hstuck.2
    have hnone : frontTaken lib (F.bytes ++ rest) n = none := by
      by_contra hsome
      obtain ⟨k, hk⟩ := Option.ne_none_iff_exists'.mp hsome
      obtain ⟨other, hother⟩ := exists_decodes hsmall (by omega) hlen hk
      have hok := hdecodes.symm.trans hother
      rw [hrejects] at hok
      cases hok
    have hrefuses : Refuses lib (F.bytes ++ rest) n := by
      unfold Refuses
      rw [if_pos hsmall]
      exact hnone
    rw [resume_refuses hmax hlen (by omega) (frontSize_ne_zero (by omega)) (by omega) hrefuses]
      at houtcome
    cases houtcome
  · -- a class that reads up to the end finds nothing behind the frame
    have hgreedy : F.greedy = true → rest.take (n - F.bytes.length) = [] := by
      intro hgreedy
      by_contra hmore
      exact hstuck ⟨hgreedy, hmore⟩
    have hmade : Decodes lib (F.bytes ++ rest) n F.data.length F.message := by
      have hok := F.decodes F.header _ hfits hgreedy
      show Message.decode lib (frontType (F.bytes ++ rest)) _ = _
      rw [hdecodes, hok, take_header_append, drop_header_append F rest hn, List.take_left,
        List.drop_left]
    rw [resume_takes hsmall hlen (by omega) (frontSize_ne_zero (by omega)) (by omega) hmade, hcount,
      List.drop_left] at houtcome
    have hmessages := congrArg Prod.fst houtcome
    have hthrown := congrArg Prod.snd houtcome
    exact ⟨_, hmessages.symm, Prod.ext rfl hthrown⟩

/-- While the frame is not there the chunks are stored, or the stream ends. -/
theorem outcome_brings (hwhole : awaited bytes ≤ bytes.length) (hroom : awaited bytes ≤ 2 ^ 31)
    (hlen : n ≤ bytes.length) (hmax : n ≤ maxSize) (hcuts : Cuts (bytes.drop n) chunks)
    (houtcome : outcome lib bytes n chunks = (messages, false)) :
    ∃ n' chunks', awaited bytes ≤ n' ∧ n' ≤ bytes.length ∧ n' ≤ maxSize ∧
      Cuts (bytes.drop n') chunks' ∧ outcome lib bytes n' chunks' = (messages, false) := by
  induction chunks generalizing n with
  | nil =>
    have hall := cuts_end hcuts hlen
    exact ⟨n, [], by omega, hlen, hmax, hcuts, houtcome⟩
  | cons chunk chunks ih =>
    by_cases henough : awaited bytes ≤ n
    · exact ⟨n, chunk :: chunks, henough, hlen, hmax, hcuts, houtcome⟩
    · obtain ⟨-, hle, -, htail⟩ := hcuts.tail hlen
      have hstored : n + chunk.length ≤ maxSize := by
        by_contra hfull
        rw [outcome_no_room hlen (by omega) (by rw [offset_front hlen (by omega)]; omega)] at houtcome
        cases houtcome
      rw [outcome_waiting hlen (by omega) (by omega) hstored hcuts] at houtcome
      exact ih hle hstored htail houtcome

/-- Of frames that follow each other, the first ones have been decoded. -/
theorem outcome_prefix {frames : List (List UInt8 × Message)} (hframes : ∀ G ∈ frames, Framed lib G.1 G.2)
    (hfront : bytes <+: (frames.map Prod.fst).flatten) (hlen : n ≤ bytes.length) (hmax : n ≤ maxSize)
    (hcuts : Cuts (bytes.drop n) chunks)
    (houtcome : outcome lib bytes n chunks = (messages, false)) :
    messages <+: frames.map Prod.snd := by
  induction frames generalizing bytes n chunks messages with
  | nil =>
    -- without a frame there are no bytes and no message
    have hnil : bytes = [] := List.prefix_nil.mp hfront
    subst hnil
    rw [List.drop_nil, cuts_nil_iff] at hcuts
    rw [hcuts, outcome_waiting_nil hlen (by unfold awaited headerSize; simp at hlen; omega)]
      at houtcome
    cases houtcome
    exact List.prefix_refl []
  | cons G frames ih =>
    have hG := hframes G List.mem_cons_self
    have hheader := hG.header
    have hroom := hG.room
    rw [List.map_cons, List.flatten_cons] at hfront
    by_cases hshort : bytes.length < G.1.length
    · -- the first frame has not come in full
      have hpart : bytes <+: G.1 :=
        List.prefix_of_prefix_length_le hfront (List.prefix_append _ _) (by omega)
      have hawaited : bytes.length < awaited bytes := by
        unfold awaited
        by_cases hstart : headerSize ≤ bytes.length
        · obtain ⟨more, hmore⟩ := hpart
          have hsize := frontSize_append hstart more
          rw [hmore, hG.declares] at hsize
          omega
        · omega
      have hnever := @delivers_never lib bytes 0 n hawaited (by omega) n chunks (Nat.zero_le _)
        (le_refl _) hlen hcuts
      rw [houtcome] at hnever
      cases hnever
      exact List.nil_prefix
    · -- it has, and the rest is the beginning of the frames that follow
      obtain ⟨tail, htail⟩ := List.prefix_of_prefix_length_le (List.prefix_append G.1 _) hfront
        (by omega)
      subst htail
      have htailfront : tail <+: (frames.map Prod.fst).flatten :=
        (List.prefix_append_right_inj G.1).mp hfront
      have hsize := (frontSize_append hG.header tail).trans hG.declares
      have hawaited : awaited (G.1 ++ tail) = G.1.length := by
        unfold awaited
        omega
      obtain ⟨n', chunks', hn', hlen', hmax', hcuts', houtcome'⟩ :=
        outcome_brings (by omega) (by omega) hlen hmax hcuts houtcome
      obtain ⟨later, hmessages, hlater⟩ :=
        outcome_framed hG (by omega) hlen' hmax' houtcome'
      rw [List.drop_append, List.drop_of_length_le (by omega), List.nil_append] at hcuts'
      rw [List.length_append] at hlen'
      have hrest := ih (fun G' hG' => hframes G' (List.mem_cons_of_mem G hG')) htailfront (by omega)
        (by omega) hcuts' hlater
      rw [hmessages, List.map_cons]
      exact List.cons_prefix_cons.mpr ⟨rfl, hrest⟩

theorem decoded_of_receive {f f' : MessageFactory} (h : receive lib chunks f = .ok (messages, f')) :
    decoded lib chunks f = (messages, false) := by
  induction chunks generalizing f messages with
  | nil =>
    cases h
    rfl
  | cons chunk chunks ih =>
    unfold receive at h
    rw [decoded]
    cases hfill : fill lib chunk f with
    | error e g =>
      rw [hfill] at h
      cases h
    | ok _ g =>
      rw [hfill] at h
      obtain ⟨⟨later, g'⟩, hlater, hall⟩ := Except.bind_eq_ok.mp h
      cases hall
      show (g.readyMessages ++ (decoded lib chunks g.finishExtraction).1,
        (decoded lib chunks g.finishExtraction).2) = _
      rw [ih hlater]

end MessageFactory

/-! ## Connections -/

/-- What a reader has of the messages written on a connection: some of the bytes have arrived, in
chunks that `read` returned, and no call of `Fill` has thrown. -/
def Carries (lib : BsonLibrary) (written received : List Message) : Prop :=
  ∃ sent arrived chunks f, sendAll lib written = .ok sent ∧ arrived <+: stream sent ∧
    Cuts arrived chunks ∧ receive lib chunks {} = .ok (received, f)

/-- An `InvalidMessage` is serialized to nothing. -/
theorem stream_filter {sent : List Sent} (h : ∀ e ∈ sent, e.1.serialize lib = .ok e.2) :
    stream (sent.filter fun e => e.1 ≠ .invalid) = stream sent := by
  induction sent with
  | nil => rfl
  | cons e sent ih =>
    have hrest := ih fun e' he' => h e' (List.mem_cons_of_mem e he')
    by_cases he : e.1 = .invalid
    · have hnothing := h e List.mem_cons_self
      rw [he] at hnothing
      have hbuffer : e.2 = {} := (Except.ok.inj hnothing).symm
      rw [List.filter_cons_of_neg (by simpa using he), hrest]
      show _ = e.2.internal ++ stream sent
      rw [hbuffer]
      rfl
    · rw [List.filter_cons_of_pos (by simpa using he)]
      show e.2.internal ++ stream _ = e.2.internal ++ stream sent
      rw [hrest]

theorem Carries.delivered (hlib : lib.Faithful) {written received : List Message}
    (h : Carries lib written received) :
    received <+: (written.filter fun m => m ≠ .invalid).map Message.delivered := by
  obtain ⟨sent, arrived, chunks, f, hsend, harrived, hcuts, hreceive⟩ := h
  rcases sendAll_eq_ok hsend with ⟨rfl, hserialize⟩
  let frames := (sent.filter fun e => e.1 ≠ .invalid).map fun e => (e.2.internal, e.1.delivered)
  have hstream : (frames.map Prod.fst).flatten = stream sent := by
    rw [← stream_filter hserialize, List.map_map]
    rfl
  have hframes : ∀ G ∈ frames, Framed lib G.1 G.2 := by
    intro G hG
    rcases List.mem_map.mp hG with ⟨e, he, rfl⟩
    have hmem := List.mem_filter.mp he
    exact framed_of_serialize hlib (of_decide_eq_true hmem.2) (hserialize e hmem.1)
  have houtcome := decoded_of_receive hreceive
  rw [decoded_fresh arrived] at houtcome
  rw [← hstream] at harrived
  have hfront := outcome_prefix hframes harrived (Nat.zero_le _) (Nat.zero_le _) hcuts houtcome
  rw [List.filter_map, List.map_map]
  rw [List.map_map] at hfront
  exact hfront

/-- With each message in a chunk of its own all of them are received. -/
theorem carries_of_sendAll (hlib : lib.Faithful) {written : List Message} {sent : List Sent}
    (hmsgs : ∀ m ∈ written, m ≠ .invalid) (hsend : sendAll lib written = .ok sent)
    (hlen : (stream sent).length < 2 ^ 31) : Carries lib written (written.map Message.delivered) := by
  rcases sendAll_eq_ok hsend with ⟨rfl, hserialize⟩
  have hvalid : ∀ e ∈ sent, e.1 ≠ .invalid := fun e he => hmsgs e.1 (List.mem_map_of_mem he)
  let chunks := sent.map fun e => e.2.internal
  have hcuts : Cuts (stream sent) chunks := by
    refine ⟨rfl, fun chunk hchunk hnil => ?_⟩
    rcases List.mem_map.mp hchunk with ⟨e, he, rfl⟩
    have hheader := (framed_of_serialize hlib (hvalid e he) (hserialize e he)).header
    rw [hnil] at hheader
    cases hheader
  have hends : HellosEndChunks chunks sent := by
    intro before e after hsent _ _
    refine ⟨before.length + 1, ?_⟩
    have htake : chunks.take (before.length + 1) = (before ++ [e]).map fun e => e.2.internal := by
      show (sent.map _).take (before.length + 1) = _
      rw [← List.map_take, hsent, List.append_cons, ← List.length_singleton (a := e),
        ← List.length_append, List.take_left]
    rw [htake]
    exact (length_stream (before ++ [e])).symm
  obtain ⟨f, hreceive⟩ := (receive_stream hvalid (fun _ _ _ => hlib) hserialize
    (fun e he => Nat.lt_of_le_of_lt (length_le_stream he) hlen) (List.prefix_refl _)
    (Or.inl hlen)).1 hends
  rw [show chunks.flatten = stream sent from rfl, containedIn_stream] at hreceive
  exact ⟨sent, stream sent, chunks, f, hsend, List.prefix_refl _, hcuts, hreceive⟩

section

variable {written received : List Message}

/-- Every message that has come was written. -/
theorem Carries.exists_written (hlib : lib.Faithful) (h : Carries lib written received) {m : Message}
    (hm : m ∈ received) : ∃ m' ∈ written, m = m'.delivered := by
  rcases List.mem_map.mp ((h.delivered hlib).subset hm) with ⟨m', hm', rfl⟩
  exact ⟨m', (List.mem_filter.mp hm').1, rfl⟩

theorem Carries.task (hlib : lib.Faithful) (h : Carries lib written received) {m : TaskMessage}
    (hm : .task m ∈ received) : ∃ m', .task m' ∈ written ∧ m.task = m'.task.received := by
  obtain ⟨m', hm', hdelivered⟩ := h.exists_written hlib hm
  cases m' with
  | task m' =>
    cases hdelivered
    exact ⟨m', hm', rfl⟩
  | _ => cases hdelivered

theorem Carries.hello (hlib : lib.Faithful) (h : Carries lib written received) {m : HelloMessage}
    (hm : .hello m ∈ received) :
    ∃ m', .hello m' ∈ written ∧ m.gamelist = m'.gamelist.rekeyed := by
  obtain ⟨m', hm', hdelivered⟩ := h.exists_written hlib hm
  cases m' with
  | hello m' =>
    cases hdelivered
    exact ⟨m', hm', rfl⟩
  | _ => cases hdelivered

end

end Bem
