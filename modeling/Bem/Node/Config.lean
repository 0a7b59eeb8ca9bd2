import Bem.Common.Bson
import Bem.Node.Startup

/-!
# The configuration of a node

What is loaded from a file, and whether the game list in it can be announced to the coordinator.
-/

namespace Bem

namespace Json

/-- The conversion to an integer of fewer bits takes a boolean, too. -/
def getUInt16 : Json → Except Fault UInt16
  | integer n => .ok (UInt16.ofInt n)
  | float converted => .ok converted.toUInt16
  | boolean b => .ok (if b then 1 else 0)
  | _ => .error .jsonException

def getUInt8 : Json → Except Fault UInt8
  | integer n => .ok (UInt8.ofInt n)
  | float converted => .ok converted.toUInt8
  | boolean b => .ok (if b then 1 else 0)
  | _ => .error .jsonException

end Json

/-- The whole of the source's `NodeConfig`. -/
structure LoadedConfig extends NodeConfig where
  host : String
  port : UInt16
  protocolVersion : UInt8

namespace LoadedConfig

def fromJson (j : Json) : Except Fault LoadedConfig := do
  let host ← (← j.atKey "host").getString
  let port ← (← j.atKey "port").getUInt16
  let protocolVersion ← (← j.atKey "protocol_version").getUInt8
  let gamesDir ← (← j.atKey "games_dir").getString
  let gameLauncher ← (← j.atKey "game_launcher").getString
  let gamelist ← GameList.fromJson {} (← j.atKey "gamelist")
  return { host, port, protocolVersion, gamesDir, gameLauncher, gamelist }

/-- `load_node_config_from_file`.  The file, if there is one, is what `json::parse` makes of it. -/
def loadNodeConfigFromFile (file : Option (Except Fault Json)) :
    Except Fault (Option LoadedConfig) :=
  match file with
  | none => .ok none
  | some parsed =>
    match parsed >>= fromJson with
    | .ok config => .ok (some config)
    | .error .jsonException => .ok none
    | .error e => .error e

/-- The HELLO that `register_to_coordinator` makes.  The copy of the game list may list its entries
in an order of its own. -/
structure Builds (config : LoadedConfig) (m : HelloMessage) : Prop where
  protoVer : m.protoVer = config.protocolVersion
  flag : m.flag = HelloMessage.flagNone
  gamelist : config.gamelist.Same m.gamelist

theorem builds_hello (config : LoadedConfig) :
    ∃ m, (NodeProgram.start config.protocolVersion config.toNodeConfig).hello = .hello m ∧
      config.Builds m :=
  ⟨_, rfl, rfl, rfl, .refl config.gamelist⟩

variable {file : Option (Except Fault Json)} {config : LoadedConfig}

theorem keyedById_of_fromJson {j : Json} (h : fromJson j = .ok config) :
    config.gamelist.KeyedById := by
  unfold fromJson at h
  -- the game list is the last thing that is read
  iterate 11
    obtain ⟨_, -, h⟩ := Except.bind_eq_ok.mp h
  obtain ⟨gamelist, hgamelist, h⟩ := Except.bind_eq_ok.mp h
  cases h
  exact GameList.keyedById_of_fromJson hgamelist

theorem keyedById_of_load (h : loadNodeConfigFromFile file = .ok (some config)) :
    config.gamelist.KeyedById := by
  unfold loadNodeConfigFromFile at h
  split at h
  next => cases h
  next parsed =>
    split at h
    next config' hconfig =>
      cases h
      obtain ⟨j, -, hj⟩ := Except.bind_eq_ok.mp hconfig
      exact keyedById_of_fromJson hj
    next => cases h
    next => cases h

/-- What can be loaded can be announced exactly when BSON has room for the ids and the cursor of the
buffer for the frame. -/
theorem hello_announced_iff (lib : BsonLibrary)
    (hload : loadNodeConfigFromFile file = .ok (some config)) {m : HelloMessage}
    (hm : config.Builds m) (hlib : lib.Handles m.document) :
    m.Arrives lib config.gamelist ↔
      config.gamelist.IdsBelow (2 ^ 63) ∧ m.frameSize < 2 ^ 31 := by
  constructor
  · intro h
    have hfits := HelloMessage.fits_of_arrives hlib h
    exact ⟨hm.gamelist.symm.idsBelow hfits.1, hfits.2⟩
  · intro h
    have hkeyed := hm.gamelist.keyedById (keyedById_of_load hload)
    exact HelloMessage.arrives_of_fits hlib hkeyed (hm.gamelist.idsBelow h.1) h.2 hm.gamelist

/-! ## Two files -/

/-- A file that lists these games. -/
def fileOf (games : List Json) : Json :=
  .object [("host", .string "localhost"), ("port", .integer 8080), ("protocol_version", .integer 1),
    ("games_dir", .string "games"), ("game_launcher", .string "run.sh"),
    ("gamelist", .object [("games", .array games)])]

def configOf (gamelist : GameList) : LoadedConfig where
  host := "localhost"
  port := 8080
  protocolVersion := 1
  gamesDir := "games"
  gameLauncher := "run.sh"
  gamelist := gamelist

/-- A file with one game that one agent plays. -/
theorem hello_announced_solo :
    HelloMessage.Arrives soloLibrary
      { protoVer := 1, flag := HelloMessage.flagNone, gamelist := soloGames } soloGames := by
  have hload : loadNodeConfigFromFile (some (.ok (fileOf
      [Json.object [("agents", .array [.object [("filename", .string ""), ("hash", .string ""),
        ("id", .integer 1), ("name", .string "")]]), ("dirname", .string ""), ("id", .integer 1),
        ("name", .string "")]]))) = .ok (some (configOf soloGames)) := rfl
  have hbuilds : (configOf soloGames).Builds
      { protoVer := 1, flag := HelloMessage.flagNone, gamelist := soloGames } := ⟨rfl, rfl, .refl _⟩
  refine (hello_announced_iff soloLibrary hload hbuilds soloLibrary_handles).mpr ⟨?_, ?_⟩
  · exact soloGames_idsBelow
  · decide +kernel

/-- An id of 64 bits. -/
def largeGame : Game where
  gameId := 9223372036854775808
  name := "chess"
  dirname := "chess"
  agents := ∅

theorem large_id_unannounced :
    ¬ ∀ (lib : BsonLibrary) (file : Option (Except Fault Json)) (config : LoadedConfig)
        (m : HelloMessage), loadNodeConfigFromFile file = .ok (some config) → config.Builds m →
      lib.Handles m.document → m.Arrives lib config.gamelist := by
  intro h
  let gl : GameList := { games := AList.singleton largeGame.gameId largeGame }
  let m : HelloMessage := { protoVer := 1, flag := HelloMessage.flagNone, gamelist := gl }
  have hload : loadNodeConfigFromFile (some (.ok (fileOf [largeGame.toJson]))) =
      .ok (some (configOf gl)) := rfl
  have hthrows : emptyLibrary.to_bson m.document = none := rfl
  have hids : ¬ m.gamelist.IdsBelow (2 ^ 63) := by
    intro hids
    exact absurd (hids ⟨largeGame.gameId, largeGame⟩ List.mem_cons_self).1 (by decide)
  have hlib : emptyLibrary.Handles m.document := by
    constructor
    · rw [hthrows, HelloMessage.fitsBson_iff]
      constructor
      · intro hsome
        obtain ⟨_, hnone⟩ := hsome
        cases hnone
      · exact fun hbelow => absurd hbelow hids
    · rw [hthrows]
      exact fun _ hnone => by cases hnone
    · rw [hthrows]
      exact fun _ hnone => by cases hnone
  have harrives := h emptyLibrary _ (configOf gl) m hload ⟨rfl, rfl, .refl gl⟩ hlib
  exact hids (HelloMessage.fits_of_arrives hlib harrives).1

end LoadedConfig

end Bem
