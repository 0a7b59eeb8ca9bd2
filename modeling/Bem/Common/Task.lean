import Bem.Common.GameList
import Bem.Common.Result

/-!
# Tasks and task groups
-/

namespace Bem

open ByteBuffer

/-- `task_id_t`. -/
abbrev TaskId := UInt32

def taskIdNone : TaskId := 0

def taskIdFirst : TaskId := 1

def gameIdNone : GamesId := 0

/-- `TaskStatus` is an enumeration over `int8_t`: a byte from the wire need not name one of its
constants. -/
inductive TaskStatus
  | tsNone
  | tsQuestion
  | tsRunning
  | tsCancelled
  | tsDone
  | unnamed (code : { c : UInt8 // 5 ≤ c })
  deriving DecidableEq

namespace TaskStatus

def code : TaskStatus → UInt8
  | tsNone => 0
  | tsQuestion => 1
  | tsRunning => 2
  | tsCancelled => 3
  | tsDone => 4
  | unnamed c => c

def ofCode (c : UInt8) : TaskStatus :=
  if h : 5 ≤ c then unnamed ⟨c, h⟩
  else if c = 0 then tsNone
  else if c = 1 then tsQuestion
  else if c = 2 then tsRunning
  else if c = 3 then tsCancelled
  else tsDone

theorem ofCode_code (s : TaskStatus) : ofCode s.code = s := by
  cases s with
  | unnamed c =>
    unfold ofCode
    rw [dif_pos (show 5 ≤ (unnamed c).code from c.2)]
    rfl
  | _ => rfl

end TaskStatus

structure Task where
  id : TaskId := taskIdNone
  groupId : TaskId := taskIdNone
  gameId : GamesId := gameIdNone
  agent1 : GamesId := gameIdNone
  agent2 : GamesId := gameIdNone
  boardSize : UInt32 := 8
  moveLimitMs : UInt32 := 20000
  games : UInt32 := 1
  status : TaskStatus := .tsNone
  deriving DecidableEq

namespace Task

def serialize (t : Task) : BufferM Unit := do
  putUInt32 t.id
  putUInt64 t.gameId
  putUInt64 t.agent1
  putUInt64 t.agent2
  putUInt32 t.boardSize
  putUInt32 t.moveLimitMs
  putUInt32 t.games

/-- The fields that are not on the wire keep the values they have. -/
def deserialize (t : Task) : BufferM Task := do
  let id ← getUInt32
  let gameId ← getUInt64
  let agent1 ← getUInt64
  let agent2 ← getUInt64
  let boardSize ← getUInt32
  let moveLimitMs ← getUInt32
  let games ← getUInt32
  return { t with id, gameId, agent1, agent2, boardSize, moveLimitMs, games }

/-! ## Codec -/

/-- A task as a receiver sees it: group and status stay behind. -/
def received (t : Task) : Task := { t with groupId := taskIdNone, status := .tsNone }

def bytes (t : Task) : List UInt8 :=
  leBytes 4 t.id.toNat ++ (leBytes 8 t.gameId.toNat ++ (leBytes 8 t.agent1.toNat ++
    (leBytes 8 t.agent2.toNat ++ (leBytes 4 t.boardSize.toNat ++ (leBytes 4 t.moveLimitMs.toNat ++
      leBytes 4 t.games.toNat)))))

@[simp] theorem length_bytes (t : Task) : t.bytes.length = 40 := by
  simp only [bytes, List.length_append, length_leBytes]

theorem appends_serialize (t : Task) : Appends t.serialize t.bytes :=
  .bind (.put _) <| .bind (.put _) <| .bind (.put _) <| .bind (.put _) <| .bind (.put _) <|
    .bind (.put _) (.put _)

theorem parses_deserialize (t : Task) : Parses (deserialize {}) t.bytes t.received := by
  have h : Parses (deserialize {}) (leBytes 4 t.id.toNat ++ (leBytes 8 t.gameId.toNat ++
      (leBytes 8 t.agent1.toNat ++ (leBytes 8 t.agent2.toNat ++ (leBytes 4 t.boardSize.toNat ++
        (leBytes 4 t.moveLimitMs.toNat ++ (leBytes 4 t.games.toNat ++ []))))))) t.received :=
    .bind (.uint32 _) <| .bind (.uint64 _) <| .bind (.uint64 _) <| .bind (.uint64 _) <|
      .bind (.uint32 _) <| .bind (.uint32 _) <| .bind (.uint32 _) (.pure _)
  rwa [List.append_nil] at h

end Task

structure TaskGroup where
  id : TaskId
  remainingTasks : UInt32 := 0
  aggregateResult : Result := {}
  status : TaskStatus := .tsNone
  deriving DecidableEq

end Bem
