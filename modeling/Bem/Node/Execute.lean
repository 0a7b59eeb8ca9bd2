import Bem.Common.Messages

/-!
# Playing the games of a task

What `launch_subprocess` makes of a game and what `execute_task` counts.  The games themselves are
other programs: how one of them ends and what it prints is given.
-/

namespace Bem

/-! ## Commands -/

/-- The part of the node's configuration that `execute_task` reads. -/
structure NodeConfig where
  gamesDir : String
  gameLauncher : String
  gamelist : GameList

def prepareCommand (gamesDir gameLauncher gameName agent1Path agent2Path : String)
    (moveLimitMs boardSize : UInt32) : String :=
  " " ++ gamesDir ++ "/" ++ gameLauncher ++
  " " ++ gamesDir ++ "/" ++ agent1Path ++
  " " ++ gamesDir ++ "/" ++ agent2Path ++
  " " ++ gameName ++
  " " ++ toString boardSize ++
  " " ++ toString moveLimitMs

/-- The start of `execute_task`, under `mtx_config`. -/
def gameCommand (config : NodeConfig) (task : Task) : Except Fault String := do
  let gameName ← config.gamelist.getGameName task.gameId
  let ag1Path ← config.gamelist.getAgentRelativePath task.gameId task.agent1
  let ag2Path ← config.gamelist.getAgentRelativePath task.gameId task.agent2
  return prepareCommand config.gamesDir config.gameLauncher gameName ag1Path ag2Path
    task.moveLimitMs task.boardSize

/-! ## Outcomes -/

/-- `GameOutcomeFlags`. -/
abbrev GameOutcomeFlags := UInt32

namespace GameOutcomeFlags

def gofNone : GameOutcomeFlags := 0

def gofGameException : GameOutcomeFlags := 1

def gofPlayer1Winner : GameOutcomeFlags := 2

def gofPlayer2Winner : GameOutcomeFlags := 4

def gofReasonTimeout : GameOutcomeFlags := 8

def has (flags flag : GameOutcomeFlags) : Bool := flags &&& flag ≠ 0

end GameOutcomeFlags

open GameOutcomeFlags

/-- `std::getline(ss, field, ';')`: the field and what is left of the stream. -/
def getline (ss : List Char) : List Char × List Char :=
  (ss.takeWhile (· ≠ ';'), (ss.dropWhile (· ≠ ';')).drop 1)

def timeoutReason : List Char := ['T', 'I', 'M', 'E', 'O', 'U', 'T']

def player1Prompt : List Char := ['"', 'P', 'L', 'A', 'Y', 'E', 'R', '1', '"']

def player2Prompt : List Char := ['"', 'P', 'L', 'A', 'Y', 'E', 'R', '2', '"']

/-- What `launch_subprocess` returns for a game with this exit status and output. -/
def gameOutcome (exitStatus : UInt8) (result : List Char) : GameOutcomeFlags :=
  if exitStatus ≠ 0 then gofGameException
  else
    let (_agent1Name, ss) := getline result
    let (_agent2Name, ss) := getline ss
    let (winPrompt, ss) := getline ss
    let (reason, _) := getline ss
    let outcome := if reason = timeoutReason then gofNone ||| gofReasonTimeout else gofNone
    if winPrompt = player1Prompt then outcome ||| gofPlayer1Winner
    else if winPrompt = player2Prompt then outcome ||| gofPlayer2Winner
    else outcome

/-- No game is won by both. -/
def GameOutcomeFlags.IsOutcome (flags : GameOutcomeFlags) : Prop :=
  ¬ (flags.has gofPlayer1Winner ∧ flags.has gofPlayer2Winner)

instance (flags : GameOutcomeFlags) : Decidable flags.IsOutcome :=
  inferInstanceAs (Decidable (¬ (_ ∧ _)))

theorem isOutcome_gameOutcome (exitStatus : UInt8) (result : List Char) :
    (gameOutcome exitStatus result).IsOutcome := by
  unfold gameOutcome
  dsimp only
  split
  · decide
  split
  · split <;> decide
  split
  · split <;> decide
  · split <;> decide

/-! ## Counting -/

/-- The counters of `execute_task` after one more game. -/
def countGame (result : Result) (flags : GameOutcomeFlags) : Result :=
  let result := { result with games := result.games + 1 }
  if flags.has gofGameException then { result with failedGames := result.failedGames + 1 }
  else
    let result :=
      if flags.has gofPlayer1Winner then
        let result := { result with winAgent1 := result.winAgent1 + 1 }
        if flags.has gofReasonTimeout then
          { result with timeoutAgent2 := result.timeoutAgent2 + 1 }
        else result
      else result
    if flags.has gofPlayer2Winner then
      let result := { result with winAgent2 := result.winAgent2 + 1 }
      if flags.has gofReasonTimeout then
        { result with timeoutAgent1 := result.timeoutAgent1 + 1 }
      else result
    else result

/-- The counters after some games. -/
def tally (outcomes : List GameOutcomeFlags) : Result := outcomes.foldl countGame {}

/-- `execute_task` has counted all games of the task. -/
def Produces (task : Task) (result : Result) : Prop :=
  ∃ outcomes : List GameOutcomeFlags, (∀ flags ∈ outcomes, flags.IsOutcome) ∧
    outcomes.length = task.games.toNat ∧ result = tally outcomes

/-- No game is counted twice, and a game is lost by time only to a winner. -/
structure Result.Consistent (r : Result) : Prop where
  games : r.failedGames.toNat + r.winAgent1.toNat + r.winAgent2.toNat ≤ r.games.toNat
  timeout1 : r.timeoutAgent1.toNat ≤ r.winAgent2.toNat
  timeout2 : r.timeoutAgent2.toNat ≤ r.winAgent1.toNat

theorem games_countGame (r : Result) (flags : GameOutcomeFlags) :
    (countGame r flags).games = r.games + 1 := by
  unfold countGame
  dsimp only
  split_ifs <;> rfl

theorem toNat_add_one {i : UInt32} (h : i.toNat + 1 < 2 ^ 32) : (i + 1).toNat = i.toNat + 1 := by
  rw [UInt32.toNat_add]
  exact Nat.mod_eq_of_lt h

theorem consistent_countGame {r : Result} {flags : GameOutcomeFlags} (hr : r.Consistent)
    (hflags : flags.IsOutcome) (hgames : r.games.toNat + 1 < 2 ^ 32) :
    (countGame r flags).Consistent := by
  obtain ⟨hsum, htimeout1, htimeout2⟩ := hr
  have hg := toNat_add_one hgames
  have hfailed : (r.failedGames + 1).toNat = r.failedGames.toNat + 1 := toNat_add_one (by omega)
  have hwin1 : (r.winAgent1 + 1).toNat = r.winAgent1.toNat + 1 := toNat_add_one (by omega)
  have hwin2 : (r.winAgent2 + 1).toNat = r.winAgent2.toNat + 1 := toNat_add_one (by omega)
  have ht1 : (r.timeoutAgent1 + 1).toNat = r.timeoutAgent1.toNat + 1 := toNat_add_one (by omega)
  have ht2 : (r.timeoutAgent2 + 1).toNat = r.timeoutAgent2.toNat + 1 := toNat_add_one (by omega)
  unfold GameOutcomeFlags.IsOutcome at hflags
  unfold countGame
  dsimp only
  split_ifs
  -- both players cannot have won
  all_goals first
    | exact absurd ⟨‹_›, ‹_›⟩ hflags
    | constructor <;> dsimp only <;> omega

theorem tally_concat (outcomes : List GameOutcomeFlags) (flags : GameOutcomeFlags) :
    tally (outcomes ++ [flags]) = countGame (tally outcomes) flags := by
  unfold tally
  rw [List.foldl_append]
  rfl

/-- As long as the number of games does not wrap, it is the number of outcomes. -/
theorem tally_games {outcomes : List GameOutcomeFlags} (h : outcomes.length < 2 ^ 32) :
    (tally outcomes).games.toNat = outcomes.length := by
  induction outcomes using List.reverseRecOn with
  | nil => rfl
  | append_singleton outcomes flags ih =>
    rw [List.length_append, List.length_singleton] at h ⊢
    have hprev := ih (by omega)
    rw [tally_concat, games_countGame, toNat_add_one (by omega), hprev]

theorem consistent_tally {outcomes : List GameOutcomeFlags}
    (houtcomes : ∀ flags ∈ outcomes, flags.IsOutcome) (h : outcomes.length < 2 ^ 32) :
    (tally outcomes).Consistent := by
  induction outcomes using List.reverseRecOn with
  | nil => exact ⟨Nat.zero_le _, Nat.zero_le _, Nat.zero_le _⟩
  | append_singleton outcomes flags ih =>
    rw [List.length_append, List.length_singleton] at h
    rw [List.forall_mem_append, List.forall_mem_singleton] at houtcomes
    rw [tally_concat]
    apply consistent_countGame (ih houtcomes.1 (by omega)) houtcomes.2
    rw [tally_games (by omega)]
    omega

namespace Produces

variable {task : Task} {result : Result}

theorem games_eq (h : Produces task result) : result.games = task.games := by
  obtain ⟨outcomes, -, hlength, rfl⟩ := h
  apply UInt32.toNat_inj.mp
  rw [tally_games (by rw [hlength]; exact task.games.toNat_lt), hlength]

theorem consistent (h : Produces task result) : result.Consistent := by
  obtain ⟨outcomes, houtcomes, hlength, rfl⟩ := h
  exact consistent_tally houtcomes (by rw [hlength]; exact task.games.toNat_lt)

end Produces

end Bem
