import Bem.Common.ByteBuffer
import Bem.Lib.KeyedMap

/-!
# Game lists and their JSON form

`Json` is what the program uses of the vendored JSON library's value type: the constructors, `at`,
and the conversions to `uint64_t`, `std::string` and `std::vector`.  Objects are kept in the
library's own order, by key.
-/

namespace Bem

/-- `games_id_t`. -/
abbrev GamesId := UInt64

structure Agent where
  agentId : GamesId
  name : String
  filename : String
  hash : String
  deriving DecidableEq

structure Game where
  gameId : GamesId
  name : String
  dirname : String
  agents : KeyedMap GamesId Agent
  deriving DecidableEq

structure GameList where
  games : KeyedMap GamesId Game := ∅
  deriving DecidableEq

namespace GameList

def containsGame (gl : GameList) (gameId : GamesId) : Bool := (gl.games.lookup gameId).isSome

def containsAgent (gl : GameList) (gameId agentId : GamesId) : Bool :=
  match gl.games.lookup gameId with
  | none => false
  | some game => (game.agents.lookup agentId).isSome

def getGameName (gl : GameList) (gameId : GamesId) : Except Fault String :=
  match gl.games.lookup gameId with
  | none => .error .outOfRange
  | some game => .ok game.name

def getAgentRelativePath (gl : GameList) (gameId agentId : GamesId) : Except Fault String :=
  match gl.games.lookup gameId with
  | none => .error .outOfRange
  | some game =>
    match game.agents.lookup agentId with
    | none => .error .outOfRange
    | some agent => .ok (game.dirname ++ "/" ++ agent.filename)

end GameList

/-! ## JSON values -/

/-- `number_integer_t` and `number_unsigned_t` compare by value and share a constructor.  A
floating-point number is seen through its conversion to `uint64_t`. -/
inductive Json
  | null
  | boolean (b : Bool)
  | integer (n : Int)
  | float (converted : UInt64)
  | string (s : String)
  | array (items : List Json)
  | object (members : List (String × Json))

namespace Json

def atKey (j : Json) (key : String) : Except Fault Json :=
  match j with
  | object members =>
    match members.lookup key with
    | some v => .ok v
    | none => .error .jsonException
  | _ => .error .jsonException

def getUInt64 : Json → Except Fault UInt64
  | integer n => .ok (UInt64.ofInt n)
  | float converted => .ok converted
  | _ => .error .jsonException

def getString : Json → Except Fault String
  | string s => .ok s
  | _ => .error .jsonException

def getVector {α : Type} (fromJson : Json → Except Fault α) : Json → Except Fault (List α)
  | array items => items.mapM fromJson
  | _ => .error .jsonException

end Json

/-! ## Conversions -/

def Agent.toJson (a : Agent) : Json :=
  .object [("filename", .string a.filename), ("hash", .string a.hash),
    ("id", .integer a.agentId.toNat), ("name", .string a.name)]

def Agent.fromJson (j : Json) : Except Fault Agent := do
  let agentId ← (← j.atKey "id").getUInt64
  let name ← (← j.atKey "name").getString
  let filename ← (← j.atKey "filename").getString
  let hash ← (← j.atKey "hash").getString
  return { agentId, name, filename, hash }

def Game.toJson (g : Game) : Json :=
  .object [("agents", .array (g.agents.entries.map fun e => e.2.toJson)),
    ("dirname", .string g.dirname), ("id", .integer g.gameId.toNat), ("name", .string g.name)]

def Game.fromJson (j : Json) : Except Fault Game := do
  let gameId ← (← j.atKey "id").getUInt64
  let name ← (← j.atKey "name").getString
  let dirname ← (← j.atKey "dirname").getString
  let agents ← (← j.atKey "agents").getVector Agent.fromJson
  return { gameId, name, dirname, agents := KeyedMap.emplaceAll Agent.agentId ∅ agents }

namespace GameList

def toJson (gl : GameList) : Json :=
  .object [("games", .array (gl.games.entries.map fun e => e.2.toJson))]

/-- `get_to(gl)`: the games of the document are inserted into those `gl` has. -/
def fromJson (gl : GameList) (j : Json) : Except Fault GameList := do
  let games ← (← j.atKey "games").getVector Game.fromJson
  return { games := KeyedMap.emplaceAll Game.gameId gl.games games }

/-- Every game and every agent stands under its own id. -/
def KeyedById (gl : GameList) : Prop :=
  gl.games.KeyedBy Game.gameId ∧ ∀ e ∈ gl.games.entries, e.2.agents.KeyedBy Agent.agentId

/-- The ids of the list stay below `bound`. -/
def IdsBelow (bound : Nat) (gl : GameList) : Prop :=
  ∀ e ∈ gl.games.entries, e.2.gameId.toNat < bound ∧
    ∀ a ∈ e.2.agents.entries, a.2.agentId.toNat < bound

end GameList

/-! ## The round trip -/

private theorem ofInt_toNat (v : UInt64) : UInt64.ofInt (v.toNat : Int) = v := by
  have hmod : ((v.toNat : Int) % 2 ^ 64).toNat = v.toNat := by
    have hlt := v.toNat_lt
    omega
  unfold UInt64.ofInt
  rw [hmod, UInt64.ofNat_toNat]

private theorem mapM_map_ok {α β : Type} {f : β → Except Fault α} {g : α → β} {h : α → α}
    (hfg : ∀ a, f (g a) = .ok (h a)) (l : List α) : (l.map g).mapM f = .ok (l.map h) := by
  induction l with
  | nil => rfl
  | cons a l ih =>
    rw [List.map_cons, List.mapM_cons, hfg, ih]
    rfl

theorem Agent.fromJson_toJson (a : Agent) : Agent.fromJson a.toJson = .ok a := by
  change Except.ok { a with agentId := UInt64.ofInt a.agentId.toNat } = Except.ok a
  rw [ofInt_toNat]

/-- What a game is after a trip through its document: its agents are entered anew, by their ids. -/
def Game.rekeyed (g : Game) : Game :=
  { g with agents := KeyedMap.emplaceAll Agent.agentId ∅ (g.agents.entries.map Sigma.snd) }

theorem Game.fromJson_toJson (g : Game) : Game.fromJson g.toJson = .ok g.rekeyed := by
  have hagents : Json.getVector Agent.fromJson
      (.array (g.agents.entries.map fun e => e.2.toJson)) =
        .ok (g.agents.entries.map Sigma.snd) := by
    have hm := mapM_map_ok (h := id) Agent.fromJson_toJson (g.agents.entries.map Sigma.snd)
    rw [List.map_map, List.map_id] at hm
    exact hm
  change (Json.getVector Agent.fromJson (.array (g.agents.entries.map fun e => e.2.toJson)) >>=
    fun agents => Except.ok { g with
      gameId := UInt64.ofInt g.gameId.toNat
      agents := KeyedMap.emplaceAll Agent.agentId ∅ agents }) = _
  rw [hagents, ofInt_toNat]
  rfl

namespace GameList

def rekeyed (gl : GameList) : GameList where
  games := KeyedMap.emplaceAll Game.gameId ∅ (gl.games.entries.map fun e => e.2.rekeyed)

theorem fromJson_toJson (gl : GameList) : fromJson {} gl.toJson = .ok gl.rekeyed := by
  have hgames : Json.getVector Game.fromJson (.array (gl.games.entries.map fun e => e.2.toJson)) =
      .ok (gl.games.entries.map fun e => e.2.rekeyed) := by
    have hm := mapM_map_ok Game.fromJson_toJson (gl.games.entries.map Sigma.snd)
    rw [List.map_map, List.map_map] at hm
    exact hm
  change (Json.getVector Game.fromJson (.array (gl.games.entries.map fun e => e.2.toJson)) >>=
    fun games => Except.ok { games := KeyedMap.emplaceAll Game.gameId ∅ games : GameList }) = _
  rw [hgames]
  rfl

/-- The trip gives a game list back exactly when it keeps everything under its own id. -/
theorem rekeyed_eq_self_iff (gl : GameList) : gl.rekeyed = gl ↔ gl.KeyedById := by
  constructor
  · intro h
    rw [← h]
    refine ⟨KeyedMap.keyedBy_emplaceAll_empty _ _, ?_⟩
    let P (e : Sigma fun _ : GamesId => Game) : Prop := e.2.agents.KeyedBy Agent.agentId
    have hnone : ∀ e ∈ (∅ : KeyedMap GamesId Game).entries, P e :=
      fun _ he => (List.not_mem_nil he).elim
    have hall : ∀ g ∈ gl.games.entries.map fun e => e.2.rekeyed, P ⟨g.gameId, g⟩ := by
      intro g hg
      rcases List.mem_map.mp hg with ⟨e, -, rfl⟩
      exact KeyedMap.keyedBy_emplaceAll_empty _ _
    exact KeyedMap.forall_emplaceAll hnone hall
  · intro hkeyed
    rcases hkeyed with ⟨hgames, hagents⟩
    have hself : (gl.games.entries.map fun e => e.2.rekeyed) = gl.games.entries.map Sigma.snd := by
      apply List.map_congr_left
      intro e he
      unfold Game.rekeyed
      rw [(KeyedMap.emplaceAll_values_iff e.2.agents).mpr (hagents e he)]
    unfold rekeyed
    rw [hself, (KeyedMap.emplaceAll_values_iff gl.games).mpr hgames]

end GameList

/-! ## What is read from a document -/

theorem Json.forall_of_getVector {α : Type} {fromJson : Json → Except Fault α} {P : α → Prop}
    (hfromJson : ∀ j a, fromJson j = .ok a → P a) {j : Json} {l : List α}
    (h : j.getVector fromJson = .ok l) : ∀ a ∈ l, P a := by
  have hitems : ∀ (items : List Json) (l : List α), items.mapM fromJson = .ok l → ∀ a ∈ l, P a := by
    intro items
    induction items with
    | nil =>
      intro l hl
      cases hl
      exact fun a ha => absurd ha List.not_mem_nil
    | cons item items ih =>
      intro l hl
      rw [List.mapM_cons] at hl
      obtain ⟨a, ha, hl⟩ := Except.bind_eq_ok.mp hl
      obtain ⟨l', hl', hl⟩ := Except.bind_eq_ok.mp hl
      cases hl
      exact List.forall_mem_cons.mpr ⟨hfromJson item a ha, ih l' hl'⟩
  cases j with
  | array items => exact hitems items l h
  | _ => cases h

theorem Game.keyedBy_of_fromJson {j : Json} {g : Game} (h : Game.fromJson j = .ok g) :
    g.agents.KeyedBy Agent.agentId := by
  unfold Game.fromJson at h
  -- only the last of the lookups gives agents
  iterate 8
    obtain ⟨_, -, h⟩ := Except.bind_eq_ok.mp h
  cases h
  exact KeyedMap.keyedBy_emplaceAll_empty _ _

theorem GameList.keyedById_of_fromJson {gl : GameList} {j : Json}
    (h : GameList.fromJson {} j = .ok gl) : gl.KeyedById := by
  obtain ⟨document, -, h⟩ := Except.bind_eq_ok.mp h
  obtain ⟨games, hgames, h⟩ := Except.bind_eq_ok.mp h
  cases h
  have hagents := Json.forall_of_getVector (P := fun g => g.agents.KeyedBy Agent.agentId)
    (fun _ _ => Game.keyedBy_of_fromJson) hgames
  refine ⟨KeyedMap.keyedBy_emplaceAll_empty _ _, ?_⟩
  exact KeyedMap.forall_emplaceAll (fun _ he => absurd he List.not_mem_nil) hagents

/-- A single game with a single agent. -/
def soloGames : GameList where
  games := AList.singleton 1
    { gameId := 1, name := "", dirname := ""
      agents := AList.singleton 1 { agentId := 1, name := "", filename := "", hash := "" } }

end Bem
