import Bem.Common.MessageFactory
import Bem.Lib.Framing

/-!
# Streams of messages

What a factory makes of the serializations of several messages, cut into chunks at will.  `Framing`
says which frames arrive after which chunk; here the factory is shown to follow it.
-/

namespace Bem

open ByteBuffer MessageFactory

/-! ## Decodable frames -/

/-- A frame together with what a factory makes of it.  A `greedy` frame is one whose decoder does
not stop at its end. -/
structure Frame (lib : BsonLibrary) where
  type : MessageType
  data : List UInt8
  message : Message
  greedy : Bool
  decodes : ∀ pre rest : List UInt8, pre.length + data.length + rest.length < 2 ^ 31 →
    (greedy = true → rest = []) →
      Message.decode lib type.code (reading pre (data ++ rest)) =
        .ok message (reading (pre ++ data) rest)
  rejects : greedy = true → ∀ pre rest : List UInt8,
    pre.length + data.length + rest.length < 2 ^ 31 → rest ≠ [] →
      ∃ e b, Message.decode lib type.code (reading pre (data ++ rest)) = .error e b

namespace Frame

variable {lib : BsonLibrary}

def header (F : Frame lib) : List UInt8 := F.type.code :: leBytes 8 (headerSize + F.data.length)

def bytes (F : Frame lib) : List UInt8 := F.header ++ F.data

def size (F : Frame lib) : Nat := headerSize + F.data.length

@[simp] theorem length_header (F : Frame lib) : F.header.length = headerSize := by
  simp [header, headerSize]

@[simp] theorem length_bytes (F : Frame lib) : F.bytes.length = F.size := length_frameBytes _ _

def wire (Fs : List (Frame lib)) : List UInt8 := (Fs.map bytes).flatten

@[simp] theorem wire_cons (F : Frame lib) (Fs : List (Frame lib)) :
    wire (F :: Fs) = F.bytes ++ wire Fs := rfl

@[simp] theorem wire_append (Fs Gs : List (Frame lib)) :
    wire (Fs ++ Gs) = wire Fs ++ wire Gs := by
  rw [wire, List.map_append, List.flatten_append, wire, wire]

theorem length_wire (Fs : List (Frame lib)) : (wire Fs).length = Framing.total size Fs := by
  induction Fs with
  | nil => rfl
  | cons F Fs ih => rw [wire_cons, List.length_append, length_bytes, ih, Framing.total_cons]

end Frame

section Factory

variable {lib : BsonLibrary}

/-! ## One frame -/

private theorem foldlM_put (pre q : List UInt8) (h : pre.length + q.length < 2 ^ 31) :
    q.foldlM (fun newBuf byte =>
      match put [byte] newBuf with
      | .ok () newBuf => Except.ok newBuf
      | .error e _ => .error e) (reading pre []) = .ok (reading (pre ++ q) []) := by
  induction q generalizing pre with
  | nil =>
    rw [List.append_nil]
    rfl
  | cons byte q ih =>
    have hlen : pre.length + (q.length + 1) < 2 ^ 31 := h
    have hput : put [byte] (reading pre []) = .ok () (reading (pre ++ [byte]) []) :=
      put_reading (by rw [List.length_singleton]; omega)
    rw [List.foldlM_cons, hput]
    have hrest := ih (pre ++ [byte]) (by rw [List.length_append, List.length_singleton]; omega)
    rw [List.append_assoc, List.singleton_append] at hrest
    exact hrest

theorem copyRemaining_reading (pre q : List UInt8) (h : pre.length + q.length < 2 ^ 31) :
    copyRemaining (reading pre q) = .ok (reading q []) (reading (pre ++ q) []) :=
  drain_reading h (foldlM_put [] q (by rw [List.length_nil]; omega))

/-- The cursor of a factory that has looked at the type byte stands behind the header. -/
private theorem interpret_opens (F : Frame lib) (q : List UInt8) (size : Nat) (ready : List Message) :
    interpret lib ⟨reading (F.bytes ++ q) [], size, ready⟩ =
      (onBuf (Message.decode lib F.type.code) >>= fun message => do
        modify fun f => { f with readyMessages := f.readyMessages ++ [message], messageSize := 0 }
        let newBuf ← onBuf copyRemaining
        modify fun f => { f with buf := newBuf })
        ⟨reading F.header (F.data ++ q), size, ready⟩ := by
  have hinternal : (reading (F.bytes ++ q) []).internal = F.header ++ (F.data ++ q) := by
    rw [internal_reading, List.append_nil, Frame.bytes, List.append_assoc]
  have htype : getAt typeOffset 1 (reading (F.bytes ++ q) []) =
      .ok [F.type.code] (reading (F.bytes ++ q) []) :=
    getAt_ok [] [F.type.code] (leBytes 8 F.size ++ (F.data ++ q)) hinternal (Nat.le_of_ble_eq_true rfl)
  have hseek := seek_reading F.header (F.data ++ q) _ hinternal
  rw [Frame.length_header] at hseek
  refine (EStateM.bind_of_ok (onBuf_of_ok htype)).trans ?_
  exact EStateM.bind_of_ok (onBuf_of_ok hseek)

theorem interpret_frame (F : Frame lib) (q : List UInt8) (size : Nat) (ready : List Message)
    (h : (F.bytes ++ q).length < 2 ^ 31) (hgreedy : F.greedy = true → q = []) :
    interpret lib ⟨reading (F.bytes ++ q) [], size, ready⟩ =
      .ok () ⟨reading q [], 0, ready ++ [F.message]⟩ := by
  have hlen : F.header.length + F.data.length + q.length < 2 ^ 31 := by
    rwa [Frame.bytes, List.length_append, List.length_append] at h
  have hdecode := F.decodes F.header q hlen hgreedy
  have hcopy := copyRemaining_reading (F.header ++ F.data) q (by rwa [List.length_append])
  rw [interpret_opens]
  refine (EStateM.bind_of_ok (onBuf_of_ok hdecode)).trans ?_
  let f : MessageFactory := ⟨reading (F.header ++ F.data) q, 0, ready ++ [F.message]⟩
  change (onBuf copyRemaining >>= fun newBuf => modify fun f => { f with buf := newBuf }) f = _
  rw [EStateM.bind_of_ok (onBuf_of_ok hcopy)]
  rfl

theorem interpret_greedy (F : Frame lib) (q : List UInt8) (size : Nat) (ready : List Message)
    (h : (F.bytes ++ q).length < 2 ^ 31) (hgreedy : F.greedy = true) (hq : q ≠ []) :
    ∃ e f, interpret lib ⟨reading (F.bytes ++ q) [], size, ready⟩ = .error e f := by
  have hlen : F.header.length + F.data.length + q.length < 2 ^ 31 := by
    rwa [Frame.bytes, List.length_append, List.length_append] at h
  rcases F.rejects hgreedy F.header q hlen hq with ⟨e, b, herror⟩
  rw [interpret_opens]
  exact ⟨e, _, EStateM.bind_of_error (onBuf_of_error herror)⟩

/-! ## One chunk -/

/-- The declared length a factory remembers: that of the frame in front, once its header is there. -/
def declared : Framing.Pending (Frame lib) → Nat
  | ([], _) => 0
  | (F :: _, held) => if held < headerSize then 0 else F.size

theorem getAt_size (F : Frame lib) (q : List UInt8) :
    getAt sizeOffset 8 (reading (F.header ++ q) []) =
      .ok (leBytes 8 F.size) (reading (F.header ++ q) []) := by
  have hinternal : (reading (F.header ++ q) []).internal =
      [F.type.code] ++ (leBytes 8 F.size ++ q) := by
    rw [internal_reading, List.append_nil]
    rfl
  have hbytes := getAt_ok [F.type.code] (leBytes 8 F.size) q hinternal (by simp)
  rwa [length_leBytes] at hbytes

/-- The loop reads the declared length of the frame in front, or knows it already. -/
theorem fillLoop_declares (F : Frame lib) (q : List UInt8) (ready : List Message)
    (h : F.size < 2 ^ 31) :
    fillLoop lib ⟨reading (F.header ++ q) [], 0, ready⟩ =
      fillLoop lib ⟨reading (F.header ++ q) [], F.size, ready⟩ := by
  have hsize : leValue (leBytes 8 F.size) = F.size :=
    leValue_leBytes (show F.size < 256 ^ 8 by omega)
  have hlen : headerSize ≤ (reading (F.header ++ q) []).length := by simp
  have hge : headerSize ≤ leValue (leBytes 8 F.size) := by
    rw [hsize]
    exact Nat.le_add_right _ _
  rw [fillLoop_header hlen (getAt_size F q) hge, hsize]

private theorem append_split {α : Type} {a b c d : List α} (h : a ++ b = c ++ d)
    (hlen : c.length ≤ a.length) : ∃ q, a = c ++ q ∧ q ++ b = d := by
  rcases List.append_eq_append_iff.mp h with ⟨q, hc, hb⟩ | ⟨q, ha, hd⟩
  · have hq : q = [] := by
      rw [hc, List.length_append] at hlen
      exact List.eq_nil_of_length_eq_zero (by omega)
    subst hq
    exact ⟨[], by rw [hc, List.append_nil, List.append_nil], hb⟩
  · exact ⟨q, ha, hd.symm⟩

/-- The loop on the first bytes `p` of a stream follows `deliver`. -/
theorem fillLoop_frames (Fs : List (Frame lib)) (hFs : ∀ F ∈ Fs, F.size < 2 ^ 31)
    (p rest : List UInt8) (ready : List Message) (hp : p ++ rest = Frame.wire Fs)
    (h : p.length < 2 ^ 31) (size : Nat) (hsize : size = 0 ∨ size = declared (Fs, p.length)) :
    match Framing.deliver Frame.size Frame.greedy Fs p.length with
    | none => ∃ e f, fillLoop lib ⟨reading p [], size, ready⟩ = .error e f
    | some (done, st) =>
      fillLoop lib ⟨reading p [], size, ready⟩ =
        .ok () ⟨reading (p.drop (Framing.total Frame.size done)) [], declared st,
          ready ++ done.map Frame.message⟩ := by
  induction Fs generalizing p ready size with
  | nil =>
    have hnil : p = [] := (List.append_eq_nil_iff.mp hp).1
    have hzero : size = 0 := hsize.elim id id
    subst hnil
    subst hzero
    change fillLoop lib _ = .ok () ⟨_, 0, ready ++ []⟩
    rw [fillLoop_short (show (reading [] []).length < headerSize by decide), List.append_nil]
    rfl
  | cons F Fs ih =>
    have hpos : headerSize ≤ F.size := Nat.le_add_right _ _
    have hF : F.size < 2 ^ 31 := hFs F List.mem_cons_self
    have hlen : (reading p []).length = p.length := by simp
    rw [Framing.deliver]
    by_cases hheader : p.length < headerSize
    · have hzero : declared (F :: Fs, p.length) = 0 := if_pos hheader
      rw [hzero, or_self] at hsize
      subst hsize
      rw [if_pos (by omega)]
      change fillLoop lib _ = .ok () ⟨_, declared (F :: Fs, p.length), ready ++ []⟩
      -- the header of the frame in front is not there yet
      rw [fillLoop_short (by omega), hzero, List.append_nil]
      rfl
    · have hdeclared : declared (F :: Fs, p.length) = F.size := if_neg hheader
      have hknown : fillLoop lib ⟨reading p [], size, ready⟩ =
          fillLoop lib ⟨reading p [], F.size, ready⟩ := by
        rcases hsize with rfl | rfl
        · rw [Frame.wire_cons, Frame.bytes, List.append_assoc] at hp
          rcases append_split hp (by rw [Frame.length_header]; omega) with ⟨q, rfl, -⟩
          exact fillLoop_declares F q ready hF
        · rw [hdeclared]
      rw [hknown]
      by_cases hshort : p.length < F.size
      · rw [if_pos hshort]
        change fillLoop lib _ = .ok () ⟨_, declared (F :: Fs, p.length), ready ++ []⟩
        -- the frame is not there in full
        rw [fillLoop_waits (by omega) (by omega), hdeclared, List.append_nil]
        rfl
      · rw [if_neg hshort]
        rcases append_split hp (by rw [Frame.length_bytes]; omega) with ⟨q, rfl, hq⟩
        have hsplit : (F.bytes ++ q).length = F.size + q.length := by
          rw [List.length_append, Frame.length_bytes]
        by_cases hg : (F.greedy && decide (F.size < (F.bytes ++ q).length)) = true
        · rw [if_pos hg]
          rw [Bool.and_eq_true, decide_eq_true_eq] at hg
          have hne : q ≠ [] := by
            intro hnil
            have hzero : q.length = 0 := by rw [hnil, List.length_nil]
            omega
          rcases interpret_greedy F q F.size ready h hg.1 hne with ⟨e, f, herror⟩
          exact ⟨e, f, fillLoop_throws (by omega) (by unfold headerSize at hpos; omega) (by omega)
            herror⟩
        · rw [if_neg hg]
          rw [Bool.and_eq_true, decide_eq_true_eq] at hg
          -- a greedy frame is the last of what is buffered
          have hlast : F.greedy = true → q = [] := by
            intro hgreedy
            refine List.eq_nil_of_length_eq_zero ?_
            have hnot : ¬ F.size < (F.bytes ++ q).length := fun hlt => hg ⟨hgreedy, hlt⟩
            omega
          have hsub : (F.bytes ++ q).length - F.size = q.length := by omega
          have htake := fillLoop_interpret (by omega) (by unfold headerSize at hpos; omega)
            (by omega) (interpret_frame F q F.size ready h hlast)
          have hrest := ih (fun G hG => hFs G (List.mem_cons_of_mem F hG)) q
            (ready ++ [F.message]) hq (by omega) 0 (Or.inl rfl)
          rw [htake, hsub]
          cases hd : Framing.deliver Frame.size Frame.greedy Fs q.length with
          | none =>
            rw [hd] at hrest
            exact hrest
          | some r =>
            rcases r with ⟨done, st⟩
            rw [hd] at hrest
            have hdrop : (F.bytes ++ q).drop (Framing.total Frame.size (F :: done)) =
                q.drop (Framing.total Frame.size done) := by
              rw [Framing.total_cons, ← List.drop_drop, ← F.length_bytes, List.drop_left]
            change fillLoop lib _ = .ok () ⟨reading ((F.bytes ++ q).drop
              (Framing.total Frame.size (F :: done))) [], declared st,
                ready ++ (F :: done).map Frame.message⟩
            rw [hdrop, List.map_cons, List.append_cons ready F.message (done.map Frame.message)]
            exact hrest

/-! ## A run of chunks -/

/-- A factory that has taken all complete frames and holds the bytes `tail` of the next one. -/
def holding (tail : List UInt8) (st : Framing.Pending (Frame lib)) : MessageFactory where
  buf := reading tail []
  messageSize := declared st

theorem declared_mono {Fs : List (Frame lib)} {n m : Nat} (h : n ≤ m) :
    declared (Fs, n) = 0 ∨ declared (Fs, n) = declared (Fs, m) := by
  cases Fs with
  | nil => exact Or.inl rfl
  | cons F Fs =>
    by_cases hn : n < headerSize
    · exact Or.inl (if_pos hn)
    · refine Or.inr ?_
      change (if n < headerSize then 0 else F.size) = if m < headerSize then 0 else F.size
      rw [if_neg hn, if_neg (by omega)]

theorem fill_frames (Fs : List (Frame lib)) (hFs : ∀ F ∈ Fs, F.size < 2 ^ 31)
    (tail chunk rest : List UInt8) (hp : tail ++ chunk ++ rest = Frame.wire Fs)
    (h : tail.length + chunk.length < 2 ^ 31) :
    match Framing.deliver Frame.size Frame.greedy Fs (tail.length + chunk.length) with
    | none => ∃ e f, fill lib chunk (holding tail (Fs, tail.length)) = .error e f
    | some (done, st) =>
      fill lib chunk (holding tail (Fs, tail.length)) =
        .ok () { holding ((tail ++ chunk).drop (Framing.total Frame.size done)) st with
          readyMessages := done.map Frame.message } := by
  have hput : put chunk (reading tail []) = .ok () (reading (tail ++ chunk) []) := by
    rw [put_reading h, List.drop_nil]
  have hfill : fill lib chunk (holding tail (Fs, tail.length)) =
      fillLoop lib ⟨reading (tail ++ chunk) [], declared (Fs, tail.length), []⟩ :=
    EStateM.bind_of_ok (onBuf_of_ok hput)
  have hlen : (tail ++ chunk).length = tail.length + chunk.length := List.length_append
  have hloop := fillLoop_frames Fs hFs (tail ++ chunk) rest [] hp (by omega)
    (declared (Fs, tail.length)) (declared_mono (by omega))
  rw [hlen] at hloop
  rw [hfill]
  exact hloop

/-- A reader follows `Framing.receive`. -/
theorem receive_frames (Fs : List (Frame lib)) (hFs : ∀ F ∈ Fs, F.size < 2 ^ 31)
    (chunks : List (List UInt8)) (tail rest : List UInt8)
    (hp : tail ++ chunks.flatten ++ rest = Frame.wire Fs)
    (h : (Frame.wire Fs).length < 2 ^ 31 ∨
      ∀ chunk ∈ chunks, ∀ F ∈ Fs, F.size + chunk.length < 2 ^ 31)
    (hw : Framing.Waiting Frame.size (Fs, tail.length)) :
    match Framing.receive Frame.size Frame.greedy (Fs, tail.length) (chunks.map List.length) with
    | none => ∃ e, receive lib chunks (holding tail (Fs, tail.length)) = .error e
    | some (done, _) =>
      ∃ f, receive lib chunks (holding tail (Fs, tail.length)) = .ok (done.map Frame.message, f) := by
  induction chunks generalizing Fs tail with
  | nil => exact ⟨_, rfl⟩
  | cons chunk chunks ih =>
    rw [List.flatten_cons, ← List.append_assoc, List.append_assoc] at hp
    -- the buffer never holds more than one frame and a chunk
    have hbound : tail.length + chunk.length < 2 ^ 31 := by
      rcases h with h | h
      · rw [← hp, List.length_append, List.length_append] at h
        omega
      cases Fs with
      | nil =>
        have hnil := (List.append_eq_nil_iff.mp hp).1
        rw [List.append_eq_nil_iff] at hnil
        rw [hnil.1, hnil.2]
        decide
      | cons F Fs =>
        have hlt : tail.length < F.size := hw F Fs rfl
        have hchunk := h chunk List.mem_cons_self F List.mem_cons_self
        omega
    have hfill := fill_frames Fs hFs tail chunk (chunks.flatten ++ rest) hp hbound
    rw [List.map_cons, Framing.receive, receive]
    cases hd : Framing.deliver Frame.size Frame.greedy Fs (tail.length + chunk.length) with
    | none =>
      rw [hd] at hfill
      rcases hfill with ⟨e, f, herror⟩
      rw [herror]
      exact ⟨e, rfl⟩
    | some r =>
      rcases r with ⟨done, st⟩
      rw [hd] at hfill
      rcases Framing.deliver_eq_some hd with ⟨hFs', hn, hw', -⟩
      have hwire : tail ++ chunk ++ (chunks.flatten ++ rest) = Frame.wire done ++ Frame.wire st.1 := by
        rw [hp, ← Frame.wire_append, ← hFs']
      rcases append_split hwire (by rw [Frame.length_wire, List.length_append]; omega)
        with ⟨q, hq, hrest⟩
      have hdrop : (tail ++ chunk).drop (Framing.total Frame.size done) = q := by
        rw [hq, ← Frame.length_wire, List.drop_left]
      have hheld : st.2 = q.length := by
        have hlen := congrArg List.length hq
        rw [List.length_append, List.length_append, Frame.length_wire] at hlen
        omega
      rcases st with ⟨Fs', n⟩
      change n = q.length at hheld
      subst hheld
      have hnext := ih Fs' (fun F hF => hFs F (by rw [hFs']; exact List.mem_append_right _ hF)) q
        (by rw [List.append_assoc]; exact hrest)
        (h.imp
          (fun hwhole => by
            rw [hFs', Frame.wire_append, List.length_append] at hwhole
            exact Nat.lt_of_le_of_lt (Nat.le_add_left _ _) hwhole)
          (fun hparts c hc F hF => hparts c (List.mem_cons_of_mem _ hc) F
            (by rw [hFs']; exact List.mem_append_right _ hF))) hw'
      rw [hfill, hdrop]
      change match ((Framing.receive Frame.size Frame.greedy (Fs', q.length)
        (chunks.map List.length)).bind fun r => some (done ++ r.1, r.2)) with
        | none => ∃ e, (receive lib chunks (holding q (Fs', q.length)) >>= fun r =>
            Except.ok (done.map Frame.message ++ r.1, r.2)) = .error e
        | some (done', _) => ∃ f, (receive lib chunks (holding q (Fs', q.length)) >>= fun r =>
            Except.ok (done.map Frame.message ++ r.1, r.2)) = .ok (done'.map Frame.message, f)
      cases hr : Framing.receive Frame.size Frame.greedy (Fs', q.length) (chunks.map List.length) with
      | none =>
        rw [hr] at hnext
        rcases hnext with ⟨e, herror⟩
        rw [herror]
        exact ⟨e, rfl⟩
      | some r =>
        rw [hr] at hnext
        rcases hnext with ⟨f, hok⟩
        rw [hok]
        exact ⟨f, by rw [List.map_append]; rfl⟩

end Factory

end Bem
