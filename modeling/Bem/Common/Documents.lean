import Bem.Common.GameList

/-!
# Game lists as documents

A document has its games and agents in arrays.  What is read from one is a map, and the order in
which a map lists its entries means nothing.
-/

namespace Bem

/-! ## Equal maps -/

/-- The same game: its agents may be listed in another order. -/
structure Game.Same (g g' : Game) : Prop where
  gameId : g.gameId = g'.gameId
  name : g.name = g'.name
  dirname : g.dirname = g'.dirname
  agents : ∀ id, g.agents.lookup id = g'.agents.lookup id

/-- The same maps, listed in orders of their own. -/
def GameList.Same (gl gl' : GameList) : Prop :=
  ∀ id, Option.Rel Game.Same (gl.games.lookup id) (gl'.games.lookup id)

theorem Game.Same.refl (g : Game) : g.Same g := ⟨rfl, rfl, rfl, fun _ => rfl⟩

theorem Game.Same.symm {g g' : Game} (h : g.Same g') : g'.Same g :=
  ⟨h.gameId.symm, h.name.symm, h.dirname.symm, fun id => (h.agents id).symm⟩

theorem Game.Same.keyedBy {g g' : Game} (h : g.Same g') (hg : g.agents.KeyedBy Agent.agentId) :
    g'.agents.KeyedBy Agent.agentId := by
  rw [KeyedMap.keyedBy_iff_lookup] at hg ⊢
  intro id a ha
  rw [← h.agents id] at ha
  exact hg id a ha

namespace GameList

variable {gl gl' : GameList}

theorem Same.refl (gl : GameList) : gl.Same gl := by
  intro id
  cases gl.games.lookup id with
  | none => exact .none
  | some g => exact .some (.refl g)

theorem Same.symm (h : gl.Same gl') : gl'.Same gl := by
  intro id
  have hid := h id
  generalize gl.games.lookup id = found, gl'.games.lookup id = found' at hid ⊢
  cases hid with
  | none => exact .none
  | some hsame => exact .some hsame.symm

theorem Same.of_some (h : gl.Same gl') {id : GamesId} {g' : Game}
    (hg' : gl'.games.lookup id = some g') : ∃ g, gl.games.lookup id = some g ∧ g.Same g' := by
  have hid := h id
  rw [hg'] at hid
  generalize gl.games.lookup id = found at hid ⊢
  cases hid with
  | some hsame => exact ⟨_, rfl, hsame⟩

theorem keyedById_iff_lookup : gl.KeyedById ↔ ∀ id g, gl.games.lookup id = some g →
    id = g.gameId ∧ g.agents.KeyedBy Agent.agentId := by
  unfold KeyedById
  rw [KeyedMap.keyedBy_iff_lookup]
  constructor
  · intro h id g hg
    exact ⟨h.1 id g hg, h.2 ⟨id, g⟩ (AList.mem_lookup_iff.mp hg)⟩
  · intro h
    refine ⟨fun id g hg => (h id g hg).1, fun e he => ?_⟩
    exact (h e.1 e.2 (AList.mem_lookup_iff.mpr he)).2

theorem Same.keyedById (h : gl.Same gl') (hgl : gl.KeyedById) : gl'.KeyedById := by
  rw [keyedById_iff_lookup] at hgl ⊢
  intro id g' hg'
  obtain ⟨g, hg, hsame⟩ := h.of_some hg'
  obtain ⟨hid, hagents⟩ := hgl id g hg
  exact ⟨hid.trans hsame.gameId, hsame.keyedBy hagents⟩

end GameList

/-! ## Elements and their ids -/

namespace Json

/-- The id of an element. -/
def elementId (j : Json) : Except Fault UInt64 := do (← j.atKey "id").getUInt64

/-- The array under a key. -/
def elementsAt (j : Json) (key : String) : List Json :=
  match j.atKey key with
  | .ok (.array items) => items
  | _ => []

/-- The first element of the array under a key that has the id. -/
def firstAt (j : Json) (key : String) (id : UInt64) : Option Json :=
  (j.elementsAt key).find? fun item => item.elementId = .ok id

/-- Among the values read from an array, the first one with an id is read from the first element
with it. -/
theorem find?_of_mapM {α : Type} {fromJson : Json → Except Fault α} {key : α → UInt64}
    (hkey : ∀ item a, fromJson item = .ok a → item.elementId = .ok (key a)) {items : List Json}
    {l : List α} (h : items.mapM fromJson = .ok l) (id : UInt64) :
    (l.find? fun a => key a = id) =
      (items.find? fun item => item.elementId = .ok id).bind fun item => (fromJson item).toOption := by
  induction items generalizing l with
  | nil =>
    cases h
    rfl
  | cons item items ih =>
    rw [List.mapM_cons] at h
    obtain ⟨a, ha, h⟩ := Except.bind_eq_ok.mp h
    obtain ⟨l', hl', h⟩ := Except.bind_eq_ok.mp h
    cases h
    rw [List.find?_cons, List.find?_cons, hkey item a ha]
    by_cases heq : key a = id
    · rw [heq, decide_eq_true rfl, decide_eq_true rfl]
      change some a = (fromJson item).toOption
      rw [ha]
      rfl
    · rw [decide_eq_false heq, decide_eq_false (fun hok => heq (Except.ok.inj hok))]
      exact ih hl'

/-- The same, for the array under a key of a document. -/
theorem find?_of_getVector {α : Type} {fromJson : Json → Except Fault α} {key : α → UInt64}
    (hkey : ∀ item a, fromJson item = .ok a → item.elementId = .ok (key a)) {j array : Json}
    {name : String} (harray : j.atKey name = .ok array) {l : List α}
    (h : array.getVector fromJson = .ok l) (id : UInt64) :
    (l.find? fun a => key a = id) =
      (j.firstAt name id).bind fun item => (fromJson item).toOption := by
  cases array with
  | array items =>
    have hitems : j.elementsAt name = items := by
      unfold elementsAt
      rw [harray]
    unfold firstAt
    rw [hitems]
    exact find?_of_mapM hkey h id
  | _ => cases h

end Json

theorem Agent.elementId_of_fromJson {item : Json} {a : Agent} (h : Agent.fromJson item = .ok a) :
    item.elementId = .ok a.agentId := by
  unfold Agent.fromJson at h
  obtain ⟨value, hvalue, h⟩ := Except.bind_eq_ok.mp h
  obtain ⟨agentId, hid, h⟩ := Except.bind_eq_ok.mp h
  iterate 6
    obtain ⟨_, -, h⟩ := Except.bind_eq_ok.mp h
  cases h
  exact Except.bind_eq_ok.mpr ⟨value, hvalue, hid⟩

/-- What is read of a game. -/
theorem Game.of_fromJson {item : Json} {g : Game} (h : Game.fromJson item = .ok g) :
    item.elementId = .ok g.gameId ∧ ∀ id, g.agents.lookup id =
      (item.firstAt "agents" id).bind fun item => (Agent.fromJson item).toOption := by
  unfold Game.fromJson at h
  obtain ⟨value, hvalue, h⟩ := Except.bind_eq_ok.mp h
  obtain ⟨gameId, hid, h⟩ := Except.bind_eq_ok.mp h
  iterate 4
    obtain ⟨_, -, h⟩ := Except.bind_eq_ok.mp h
  obtain ⟨array, harray, h⟩ := Except.bind_eq_ok.mp h
  obtain ⟨agents, hagents, h⟩ := Except.bind_eq_ok.mp h
  cases h
  refine ⟨Except.bind_eq_ok.mpr ⟨value, hvalue, hid⟩, fun id => ?_⟩
  have hfirst : (agents.find? fun a => a.agentId = id) = _ :=
    Json.find?_of_getVector (fun _ _ => Agent.elementId_of_fromJson) harray hagents id
  rw [← hfirst]
  exact KeyedMap.lookup_emplaceAll Agent.agentId ∅ agents id

/-! ## What a document stands for -/

namespace GameList

/-- For each id there is the element of the document that comes first with it. -/
structure HoldsFirst (j : Json) (gl : GameList) : Prop where
  games : ∀ id, gl.games.lookup id =
    (j.firstAt "games" id).bind fun item => (Game.fromJson item).toOption
  agents : ∀ id g, gl.games.lookup id = some g → ∃ item, j.firstAt "games" id = some item ∧
    Game.fromJson item = .ok g ∧ ∀ agentId, g.agents.lookup agentId =
      (item.firstAt "agents" agentId).bind fun item => (Agent.fromJson item).toOption

theorem holdsFirst_of_fromJson {j : Json} {gl : GameList} (h : fromJson {} j = .ok gl) :
    gl.HoldsFirst j := by
  obtain ⟨array, harray, h⟩ := Except.bind_eq_ok.mp h
  obtain ⟨games, hgames, h⟩ := Except.bind_eq_ok.mp h
  cases h
  have hlookup (id : GamesId) : (KeyedMap.emplaceAll Game.gameId ∅ games).lookup id =
      (j.firstAt "games" id).bind fun item => (Game.fromJson item).toOption := by
    have hfirst : (games.find? fun g => g.gameId = id) = _ :=
      Json.find?_of_getVector (fun _ _ hitem => (Game.of_fromJson hitem).1) harray hgames id
    rw [← hfirst]
    exact KeyedMap.lookup_emplaceAll Game.gameId ∅ games id
  refine ⟨hlookup, fun id g hg => ?_⟩
  change (KeyedMap.emplaceAll Game.gameId ∅ games).lookup id = some g at hg
  rw [hlookup id] at hg
  obtain ⟨item, hitem, hg⟩ := Option.bind_eq_some_iff.mp hg
  have hread : Game.fromJson item = .ok g := by
    cases hgame : Game.fromJson item with
    | error e =>
      rw [hgame] at hg
      cases hg
    | ok g' =>
      rw [hgame] at hg
      cases hg
      rfl
  exact ⟨item, hitem, hread, (Game.of_fromJson hread).2⟩

/-- Reading back what was written gives the same maps, in whatever order they are written. -/
theorem fromJson_toJson_same {gl gl' : GameList} (hkeyed : gl.KeyedById) (hsame : gl.Same gl') :
    ∃ read, fromJson {} gl'.toJson = .ok read ∧ gl.Same read := by
  refine ⟨gl', ?_, hsame⟩
  rw [fromJson_toJson, (rekeyed_eq_self_iff gl').mpr (hsame.keyedById hkeyed)]

/-- Game lists survive the trip through their documents. -/
theorem json_round_trip :
    (∀ j gl, fromJson {} j = .ok gl → gl.KeyedById ∧ gl.HoldsFirst j) ∧
      (∀ gl gl' : GameList, gl.KeyedById → gl.Same gl' →
        ∃ read, fromJson {} gl'.toJson = .ok read ∧ gl.Same read) ∧
      ∀ j gl gl', fromJson {} j = .ok gl → gl.Same gl' →
        ∃ read, fromJson {} gl'.toJson = .ok read ∧ gl.Same read := by
  refine ⟨fun j gl h => ⟨keyedById_of_fromJson h, holdsFirst_of_fromJson h⟩, ?_, ?_⟩
  · intro gl gl' hkeyed hsame
    exact fromJson_toJson_same hkeyed hsame
  · intro j gl gl' h hsame
    exact fromJson_toJson_same (keyedById_of_fromJson h) hsame

/-- Two games with the id `1`. -/
def chessTwice : Json :=
  let agent := Agent.toJson { agentId := 2, name := "bob", filename := "bob.py", hash := "" }
  .object [("games", .array [
    .object [("id", .integer 1), ("name", .string "chess"), ("dirname", .string "chess"),
      ("agents", .array [agent])],
    .object [("id", .integer 1), ("name", .string "go"), ("dirname", .string "go"),
      ("agents", .array [])]])]

/-- The first of them. -/
def chessOnce : GameList where
  games := AList.singleton 1
    { gameId := 1, name := "chess", dirname := "chess"
      agents := AList.singleton 2 { agentId := 2, name := "bob", filename := "bob.py", hash := "" } }

theorem json_round_trip_chess :
    (chessOnce.KeyedById ∧ chessOnce.HoldsFirst chessTwice) ∧
      ∃ read, fromJson {} chessOnce.toJson = .ok read ∧ chessOnce.Same read :=
  ⟨json_round_trip.1 chessTwice chessOnce rfl,
    json_round_trip.2.2 chessTwice chessOnce chessOnce rfl (.refl chessOnce)⟩

end GameList

end Bem
