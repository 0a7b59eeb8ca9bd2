import Bem.Common.Arrivals
import Bem.Common.Documents

/-!
# Game lists as BSON

Which documents can be written as BSON, how long they become there, and what is needed for a HELLO
to be written and read back.
-/

namespace Bem

open ByteBuffer MessageFactory

namespace Json

/-! ## Documents -/

/-- BSON has integers of 64 bits with a sign, and a key ends at its first zero byte. -/
inductive FitsBson : Json → Prop
  | null : FitsBson null
  | boolean (b : Bool) : FitsBson (boolean b)
  | integer {n : Int} (hlo : -2 ^ 63 ≤ n) (hhi : n < 2 ^ 63) : FitsBson (integer n)
  | float (converted : UInt64) : FitsBson (float converted)
  | string (s : String) : FitsBson (string s)
  | array {items : List Json} (h : ∀ item ∈ items, FitsBson item) : FitsBson (array items)
  | object {members : List (String × Json)}
    (hkeys : ∀ member ∈ members, Char.ofNat 0 ∉ member.1.toList)
    (h : ∀ member ∈ members, FitsBson member.2) : FitsBson (object members)

/-- `calc_bson_entry_header_size`. -/
def calcBsonEntryHeaderSize (name : String) : Nat := 1 + name.utf8ByteSize + 1

mutual

/-- `calc_bson_object_size`, `calc_bson_array_size` and the sizes of the other values. -/
def calcBsonSize : Json → Nat
  | null => 0
  | boolean _ => 1
  | integer n => if -2 ^ 31 ≤ n ∧ n < 2 ^ 31 then 4 else 8
  | float _ => 8
  | string s => 4 + s.utf8ByteSize + 1
  | array items => 4 + calcBsonItems 0 items + 1
  | object members => 4 + calcBsonMembers members + 1

/-- The elements of an array have their indices as names. -/
def calcBsonItems (index : Nat) : List Json → Nat
  | [] => 0
  | item :: items =>
    calcBsonEntryHeaderSize (toString index) + item.calcBsonSize + calcBsonItems (index + 1) items

def calcBsonMembers : List (String × Json) → Nat
  | [] => 0
  | (name, value) :: members =>
    calcBsonEntryHeaderSize name + value.calcBsonSize + calcBsonMembers members

end

theorem fitsBson_integer_iff {n : Int} : (integer n).FitsBson ↔ -2 ^ 63 ≤ n ∧ n < 2 ^ 63 := by
  constructor
  · intro h
    cases h with
    | integer hlo hhi => exact ⟨hlo, hhi⟩
  · intro h
    exact .integer h.1 h.2

theorem fitsBson_array_iff {items : List Json} :
    (array items).FitsBson ↔ ∀ item ∈ items, item.FitsBson := by
  constructor
  · intro h
    cases h with
    | array hitems => exact hitems
  · exact .array

/-- The keys of the program are names. -/
theorem fitsBson_object_iff {members : List (String × Json)}
    (hkeys : ∀ member ∈ members, Char.ofNat 0 ∉ member.1.toList) :
    (object members).FitsBson ↔ ∀ member ∈ members, member.2.FitsBson := by
  constructor
  · intro h
    cases h with
    | object _ hmembers => exact hmembers
  · exact .object hkeys

end Json

/-! ## Game lists -/

private theorem fitsBson_id_iff (id : UInt64) :
    (Json.integer id.toNat).FitsBson ↔ id.toNat < 2 ^ 63 := by
  rw [Json.fitsBson_integer_iff]
  omega

theorem Agent.fitsBson_iff (a : Agent) : a.toJson.FitsBson ↔ a.agentId.toNat < 2 ^ 63 := by
  unfold Agent.toJson
  rw [Json.fitsBson_object_iff (by simp)]
  simp only [List.forall_mem_cons, List.not_mem_nil, false_implies, implies_true, and_true,
    Json.FitsBson.string, true_and, fitsBson_id_iff]

theorem Game.fitsBson_iff (g : Game) : g.toJson.FitsBson ↔ g.gameId.toNat < 2 ^ 63 ∧
    ∀ a ∈ g.agents.entries, a.2.agentId.toNat < 2 ^ 63 := by
  unfold Game.toJson
  rw [Json.fitsBson_object_iff (by simp)]
  simp only [List.forall_mem_cons, List.not_mem_nil, false_implies, implies_true, and_true,
    Json.FitsBson.string, true_and, fitsBson_id_iff, Json.fitsBson_array_iff, List.forall_mem_map,
    Agent.fitsBson_iff]
  exact and_comm

theorem GameList.fitsBson_iff (gl : GameList) : gl.toJson.FitsBson ↔ gl.IdsBelow (2 ^ 63) := by
  unfold GameList.toJson
  rw [Json.fitsBson_object_iff (by simp)]
  simp only [List.forall_mem_singleton, Json.fitsBson_array_iff, List.forall_mem_map,
    Game.fitsBson_iff]
  rfl

/-- The ids decide whether a HELLO has a document in BSON. -/
theorem HelloMessage.fitsBson_iff (m : HelloMessage) :
    m.document.FitsBson ↔ m.gamelist.IdsBelow (2 ^ 63) := by
  unfold HelloMessage.document
  rw [Json.fitsBson_object_iff (by simp), List.forall_mem_singleton]
  exact m.gamelist.fitsBson_iff

/-! ### The order means nothing -/

theorem GameList.idsBelow_iff_lookup {gl : GameList} {bound : Nat} :
    gl.IdsBelow bound ↔ ∀ id g, gl.games.lookup id = some g → g.gameId.toNat < bound ∧
      ∀ agentId a, g.agents.lookup agentId = some a → a.agentId.toNat < bound := by
  constructor
  · intro h id g hg
    have hgame := h ⟨id, g⟩ (AList.mem_lookup_iff.mp hg)
    exact ⟨hgame.1, fun agentId a ha => hgame.2 ⟨agentId, a⟩ (AList.mem_lookup_iff.mp ha)⟩
  · intro h e he
    have hgame := h e.1 e.2 (AList.mem_lookup_iff.mpr he)
    exact ⟨hgame.1, fun a ha => hgame.2 a.1 a.2 (AList.mem_lookup_iff.mpr ha)⟩

theorem GameList.Same.idsBelow {gl gl' : GameList} (h : gl.Same gl') {bound : Nat}
    (hgl : gl.IdsBelow bound) : gl'.IdsBelow bound := by
  rw [idsBelow_iff_lookup] at hgl ⊢
  intro id g' hg'
  obtain ⟨g, hg, hsame⟩ := h.of_some hg'
  have hgame := hgl id g hg
  rw [← hsame.gameId]
  exact ⟨hgame.1, fun agentId a ha => hgame.2 agentId a ((hsame.agents agentId).trans ha)⟩

/-! ## What the library promises -/

/-- `to_bson` throws at an integer above `2 ^ 63 - 1`, its result has the size it calculates, and
`from_bson` inverts it. -/
structure BsonLibrary.Handles (lib : BsonLibrary) (j : Json) : Prop where
  encodes_iff : (∃ bytes, lib.to_bson j = some bytes) ↔ j.FitsBson
  size : ∀ bytes, lib.to_bson j = some bytes → bytes.length = j.calcBsonSize
  inverse : ∀ bytes, lib.to_bson j = some bytes → lib.from_bson bytes = some j

/-! ## There and back -/

namespace HelloMessage

/-- `Serialize` returns, and what it returns is decoded to a HELLO with the game list `gl`. -/
def Arrives (lib : BsonLibrary) (m : HelloMessage) (gl : GameList) : Prop :=
  ∃ b, (Message.hello m).serialize lib = .ok b ∧
    ∃ received, decoded lib [b.internal] {} = ([.hello received], false) ∧
      gl.Same received.gamelist

/-- The length of the frame of a HELLO. -/
def frameSize (m : HelloMessage) : Nat := headerSize + 2 + m.document.calcBsonSize

variable {lib : BsonLibrary} {m : HelloMessage} {gl : GameList}

/-- All bytes of a frame in one chunk. -/
theorem decoded_single {bytes : List UInt8} (hne : bytes ≠ []) (hmax : bytes.length ≤ maxSize) :
    decoded lib [bytes] {} = outcome lib bytes bytes.length [] := by
  have hcuts : Cuts (bytes.drop 0) [bytes] :=
    ⟨List.append_nil _, List.forall_mem_singleton.mpr hne⟩
  have hpos : 0 < awaited bytes := by
    unfold awaited headerSize
    omega
  rw [decoded_fresh, outcome_waiting (Nat.zero_le _) hpos (by decide) (by omega) hcuts, Nat.zero_add]

theorem decode_frame {bytes : List UInt8} (hinverse : lib.from_bson bytes = some m.document)
    (hkeyed : m.gamelist.KeyedById)
    (hsmall : headerSize + (m.protoVer :: m.flag :: bytes).length < 2 ^ 31) :
    let all := frameBytes .hello (m.protoVer :: m.flag :: bytes)
    Decodes lib all all.length (m.protoVer :: m.flag :: bytes).length (.hello m) := by
  intro all
  let header := MessageType.hello.code :: leBytes 8 (headerSize + (m.protoVer :: m.flag :: bytes).length)
  have hlen : header.length = headerSize := by simp [header, headerSize]
  have hsplit : all = header ++ (m.protoVer :: m.flag :: bytes) := rfl
  have hheader : all.take headerSize = header := by rw [hsplit, List.take_left' hlen]
  have hbody : (all.take all.length).drop headerSize = m.protoVer :: m.flag :: bytes := by
    rw [List.take_length, hsplit, List.drop_left' hlen]
  show Message.decode lib MessageType.hello.code (reading (all.take headerSize)
    ((all.take all.length).drop headerSize)) = _
  rw [hbody, List.take_length, List.drop_length, Message.decode_hello]
  have hbound : (all.take headerSize).length + (bytes.length + 2) < 2 ^ 31 := by
    rw [hheader, hlen]
    simp only [List.length_cons] at hsmall
    omega
  -- the document is the one that was written
  have hread := Message.deserialize_document lib hinverse hbound
  rw [(GameList.rekeyed_eq_self_iff _).mpr hkeyed] at hread
  exact EStateM.bind_of_ok hread

theorem arrives_of_fits (hlib : lib.Handles m.document) (hkeyed : m.gamelist.KeyedById)
    (hids : m.gamelist.IdsBelow (2 ^ 63)) (hsize : m.frameSize < 2 ^ 31)
    (hsame : gl.Same m.gamelist) : m.Arrives lib gl := by
  obtain ⟨bytes, hbytes⟩ := hlib.encodes_iff.mpr (m.fitsBson_iff.mpr hids)
  have hlen := hlib.size bytes hbytes
  have hsmall : headerSize + (m.protoVer :: m.flag :: bytes).length < 2 ^ 31 := by
    unfold frameSize at hsize
    simp only [List.length_cons]
    omega
  refine ⟨_, Message.serialize_hello hbytes hsmall, m, ?_, hsame⟩
  have hheader : headerSize = 9 := rfl
  have hdecodes := decode_frame (hlib.inverse bytes hbytes) hkeyed hsmall
  have hall := length_frameBytes .hello (m.protoVer :: m.flag :: bytes)
  have hfront : frontSize (frameBytes .hello (m.protoVer :: m.flag :: bytes)) =
      headerSize + (m.protoVer :: m.flag :: bytes).length :=
    frontSize_header MessageType.hello.code _ (by omega)
  have hsingle : decoded lib [frameBytes .hello (m.protoVer :: m.flag :: bytes)] {} = _ :=
    decoded_single (List.cons_ne_nil _ _) (by unfold maxSize; omega)
  show decoded lib [frameBytes .hello (m.protoVer :: m.flag :: bytes)] {} = _
  rw [hsingle, outcome_whole (by omega) (le_refl _) (by omega),
    resume_takes (by omega) (le_refl _) (by omega) (by omega) (by omega) hdecodes, hall, Nat.sub_self]
  -- nothing is left behind the frame
  rw [outcome_waiting_nil (Nat.zero_le _) (by unfold awaited; omega)]

theorem fits_of_arrives (hlib : lib.Handles m.document) (h : m.Arrives lib gl) :
    m.gamelist.IdsBelow (2 ^ 63) ∧ m.frameSize < 2 ^ 31 := by
  obtain ⟨b, hb, received, hdecoded, -⟩ := h
  have hheader : headerSize = 9 := rfl
  have hdeclares := HelloMessage.serialize_declares hb
  have hne : b.internal ≠ [] := by
    intro hnil
    have hlen : b.length = 0 := congrArg List.length hnil
    omega
  have hsmall : b.length < 2 ^ 31 := by
    by_contra hlarge
    have hthrown := @thrown_of_overlong lib b.internal b.length [] (by omega) (le_refl _)
      (by unfold maxSize; omega) (by omega) (by omega)
    rw [decoded_single hne (by unfold maxSize; show b.length ≤ _; omega)] at hdecoded
    rw [show b.length = b.internal.length from rfl, hdecoded] at hthrown
    exact Bool.noConfusion hthrown
  obtain ⟨bytes, hbytes, hfits, -⟩ := Message.serialize_hello_eq_ok hb hsmall
  refine ⟨m.fitsBson_iff.mp (hlib.encodes_iff.mp ⟨bytes, hbytes⟩), ?_⟩
  have hlen := hlib.size bytes hbytes
  simp only [List.length_cons] at hfits
  unfold frameSize
  omega

end HelloMessage

/-! ## A library that knows two documents -/

/-- The document of `soloGames` in BSON. -/
def soloBson : List UInt8 :=
  [139, 0, 0, 0, 3, 103, 97, 109, 101, 108, 105, 115, 116, 0, 124, 0, 0, 0, 4, 103, 97, 109, 101,
    115, 0, 112, 0, 0, 0, 3, 48, 0, 104, 0, 0, 0, 4, 97, 103, 101, 110, 116, 115, 0, 58, 0, 0, 0, 3,
    48, 0, 50, 0, 0, 0, 2, 102, 105, 108, 101, 110, 97, 109, 101, 0, 1, 0, 0, 0, 0, 2, 104, 97, 115,
    104, 0, 1, 0, 0, 0, 0, 16, 105, 100, 0, 1, 0, 0, 0, 2, 110, 97, 109, 101, 0, 1, 0, 0, 0, 0, 0,
    0, 2, 100, 105, 114, 110, 97, 109, 101, 0, 1, 0, 0, 0, 0, 16, 105, 100, 0, 1, 0, 0, 0, 2, 110,
    97, 109, 101, 0, 1, 0, 0, 0, 0, 0, 0, 0, 0]

def soloToBson : Json → Option (List UInt8)
  | .object [("gamelist", .object [("games", .array [])])] => some emptyBson
  | .object [("gamelist", .object [("games", .array [.object [
      ("agents", .array [.object [("filename", .string ""), ("hash", .string ""),
        ("id", .integer 1), ("name", .string "")]]),
      ("dirname", .string ""), ("id", .integer 1), ("name", .string "")]])])] => some soloBson
  | _ => none

def soloFromBson (bytes : List UInt8) : Option Json :=
  if bytes = emptyBson then some (HelloMessage.document {})
  else if bytes = soloBson then some (HelloMessage.document { gamelist := soloGames })
  else none

def soloLibrary : BsonLibrary where
  to_bson := soloToBson
  from_bson := soloFromBson

theorem soloLibrary_faithful : soloLibrary.Faithful := by
  have hdocument : ∀ members bytes, soloLibrary.to_bson (.object members) = some bytes →
      (Json.object members = HelloMessage.document {} ∧ bytes = emptyBson) ∨
        (Json.object members = HelloMessage.document { gamelist := soloGames } ∧
          bytes = soloBson) := by
    intro members bytes h
    change soloToBson (.object members) = some bytes at h
    unfold soloToBson at h
    split at h
    next heq =>
      cases heq
      cases h
      exact Or.inl ⟨rfl, rfl⟩
    next heq =>
      cases heq
      cases h
      exact Or.inr ⟨rfl, rfl⟩
    next => cases h
  refine ⟨fun members bytes h => ?_, fun members bytes rest h hrest => ?_⟩
  · rcases hdocument members bytes h with ⟨hmembers, rfl⟩ | ⟨hmembers, rfl⟩
    · rw [hmembers]
      rfl
    · rw [hmembers]
      rfl
  · -- a document with more behind it is neither of the two
    change soloFromBson (bytes ++ rest) = none
    have hlonger {l : List UInt8} (hl : bytes ++ rest = l) : bytes.length < l.length := by
      have hpos := List.length_pos_iff.mpr hrest
      rw [← hl, List.length_append]
      omega
    have hneither : bytes ++ rest ≠ emptyBson ∧ bytes ++ rest ≠ soloBson := by
      rcases hdocument members bytes h with ⟨-, rfl⟩ | ⟨-, rfl⟩
      · refine ⟨fun heq => absurd (hlonger heq) (lt_irrefl _), fun heq => ?_⟩
        -- the first byte is the length
        cases congrArg List.head? heq
      · refine ⟨fun heq => absurd (hlonger heq) ?_, fun heq => absurd (hlonger heq) (lt_irrefl _)⟩
        decide +kernel
    rw [soloFromBson, if_neg hneither.1, if_neg hneither.2]

theorem soloGames_idsBelow : soloGames.IdsBelow (2 ^ 63) := by
  intro e he
  cases List.mem_singleton.mp he
  refine ⟨by decide, fun a ha => ?_⟩
  cases List.mem_singleton.mp ha
  decide

/-- The bytes of the document are as many as json.hpp calculates. -/
theorem soloLibrary_handles : soloLibrary.Handles (HelloMessage.document { gamelist := soloGames }) := by
  have hall : ∀ bytes, soloLibrary.to_bson (HelloMessage.document { gamelist := soloGames }) = some bytes →
      bytes = soloBson := fun bytes h => (Option.some.inj h).symm
  constructor
  · rw [HelloMessage.fitsBson_iff]
    exact ⟨fun _ => soloGames_idsBelow, fun _ => ⟨soloBson, rfl⟩⟩
  · intro bytes h
    rw [hall bytes h]
    decide +kernel
  · intro bytes h
    rw [hall bytes h]
    rfl

end Bem
