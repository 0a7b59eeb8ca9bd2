import Bem.Common.ByteBuffer
import Mathlib.Data.UInt

/-!
# Results of games

The six counters of a `Result` are `uint32_t` and wrap.
-/

namespace Bem

structure Result where
  games : UInt32 := 0
  failedGames : UInt32 := 0
  winAgent1 : UInt32 := 0
  winAgent2 : UInt32 := 0
  timeoutAgent1 : UInt32 := 0
  timeoutAgent2 : UInt32 := 0
  deriving DecidableEq

namespace Result

open ByteBuffer

def merge (r other : Result) : Result where
  games := r.games + other.games
  failedGames := r.failedGames + other.failedGames
  winAgent1 := r.winAgent1 + other.winAgent1
  winAgent2 := r.winAgent2 + other.winAgent2
  timeoutAgent1 := r.timeoutAgent1 + other.timeoutAgent1
  timeoutAgent2 := r.timeoutAgent2 + other.timeoutAgent2

def serialize (r : Result) : BufferM Unit := do
  putUInt32 r.games
  putUInt32 r.failedGames
  putUInt32 r.winAgent1
  putUInt32 r.winAgent2
  putUInt32 r.timeoutAgent1
  putUInt32 r.timeoutAgent2

def deserialize : BufferM Result := do
  let games ← getUInt32
  let failedGames ← getUInt32
  let winAgent1 ← getUInt32
  let winAgent2 ← getUInt32
  let timeoutAgent1 ← getUInt32
  let timeoutAgent2 ← getUInt32
  return { games, failedGames, winAgent1, winAgent2, timeoutAgent1, timeoutAgent2 }

/-! ## Sums -/

/-- The sum of several results, field by field and modulo `2 ^ 32`. -/
def sum (rs : List Result) : Result where
  games := (rs.map games).sum
  failedGames := (rs.map failedGames).sum
  winAgent1 := (rs.map winAgent1).sum
  winAgent2 := (rs.map winAgent2).sum
  timeoutAgent1 := (rs.map timeoutAgent1).sum
  timeoutAgent2 := (rs.map timeoutAgent2).sum

@[simp] theorem sum_nil : sum [] = {} := rfl

theorem sum_concat (rs : List Result) (r : Result) : sum (rs ++ [r]) = (sum rs).merge r := by
  simp [sum, merge, List.sum_append]

/-- Merging adds nothing exactly when every counter of the merged result is zero. -/
theorem merge_eq_self_iff (r other : Result) : r.merge other = r ↔ other = {} := by
  cases r
  cases other
  simp [merge]

/-! ## Codec -/

/-- The bytes `serialize` writes. -/
def bytes (r : Result) : List UInt8 :=
  leBytes 4 r.games.toNat ++ (leBytes 4 r.failedGames.toNat ++ (leBytes 4 r.winAgent1.toNat ++
    (leBytes 4 r.winAgent2.toNat ++ (leBytes 4 r.timeoutAgent1.toNat ++
      leBytes 4 r.timeoutAgent2.toNat))))

@[simp] theorem length_bytes (r : Result) : r.bytes.length = 24 := by
  simp only [bytes, List.length_append, length_leBytes]

theorem appends_serialize (r : Result) : Appends r.serialize r.bytes :=
  .bind (.put _) <| .bind (.put _) <| .bind (.put _) <| .bind (.put _) <| .bind (.put _) (.put _)

theorem parses_deserialize (r : Result) : Parses deserialize r.bytes r := by
  have h : Parses deserialize (leBytes 4 r.games.toNat ++ (leBytes 4 r.failedGames.toNat ++
      (leBytes 4 r.winAgent1.toNat ++ (leBytes 4 r.winAgent2.toNat ++
        (leBytes 4 r.timeoutAgent1.toNat ++ (leBytes 4 r.timeoutAgent2.toNat ++ [])))))) r :=
    .bind (.uint32 _) <| .bind (.uint32 _) <| .bind (.uint32 _) <| .bind (.uint32 _) <|
      .bind (.uint32 _) <| .bind (.uint32 _) (.pure _)
  rwa [List.append_nil] at h

end Result

end Bem
