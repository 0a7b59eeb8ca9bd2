import Mathlib.Data.List.TakeWhile
import Bem.Node.Program

/-!
# The output of a game

`launch_subprocess` puts the output of the launcher together from pieces of fifteen bytes at most,
and `execute_task` counts what it says.
-/

namespace Bem

open GameOutcomeFlags

/-! ## Pieces -/

/-- `GAME_OUTPUT_BUFFER_SIZE`. -/
def gameOutputBufferSize : Nat := 16

/-- The stream that `popen` opens: what is still to be read, and the indicator that `feof` tests. -/
structure Pipe where
  rest : List Char
  eof : Bool := false

/-- The bytes that `fgets` stores if it may store `n`, those that it leaves, and whether it has come
to the end. -/
def getLine : Nat → List Char → List Char × List Char × Bool
  | 0, rest => ([], rest, false)
  | _ + 1, [] => ([], [], true)
  | n + 1, c :: rest =>
    if c = '\n' then ([c], rest, false)
    else
      let (line, rest, eof) := getLine n rest
      (c :: line, rest, eof)

/-- `fgets` with a buffer of `size` bytes, the last of which is for the null character.  It returns a
null pointer when it has stored nothing. -/
def fgets (size : Nat) (pipe : Pipe) : Option (List Char) × Pipe :=
  let (line, rest, eof) := getLine (size - 1) pipe.rest
  (if line = [] then none else some line, { rest, eof := pipe.eof || eof })

theorem getLine_append (n : Nat) (rest : List Char) :
    (getLine n rest).1 ++ (getLine n rest).2.1 = rest := by
  induction n generalizing rest with
  | zero => rfl
  | succ n ih =>
    cases rest with
    | nil => rfl
    | cons c rest =>
      unfold getLine
      by_cases hnewline : c = '\n'
      · rw [if_pos hnewline]
        rfl
      · rw [if_neg hnewline]
        show c :: ((getLine n rest).1 ++ (getLine n rest).2.1) = c :: rest
        rw [ih rest]

/-- The end is only seen once nothing is left. -/
theorem getLine_rest_of_eof {n : Nat} {rest : List Char} (h : (getLine n rest).2.2 = true) :
    (getLine n rest).2.1 = [] := by
  induction n generalizing rest with
  | zero => cases h
  | succ n ih =>
    cases rest with
    | nil => rfl
    | cons c rest =>
      unfold getLine at h ⊢
      by_cases hnewline : c = '\n'
      · rw [if_pos hnewline] at h
        cases h
      · rw [if_neg hnewline] at h ⊢
        exact ih h

/-- A call that does not see the end stores something. -/
theorem getLine_ne_nil {n : Nat} {rest : List Char} (hn : 0 < n)
    (h : (getLine n rest).2.2 = false) : (getLine n rest).1 ≠ [] := by
  cases n with
  | zero => omega
  | succ n =>
    cases rest with
    | nil => cases h
    | cons c rest =>
      unfold getLine
      by_cases hnewline : c = '\n'
      · simp [hnewline]
      · simp [hnewline]

/-- The loop of `launch_subprocess` gets on: there is less to read, or the end has been seen. -/
theorem fgets_decreases {pipe : Pipe} (h : pipe.eof = false) :
    (fgets gameOutputBufferSize pipe).2.rest.length +
        (if (fgets gameOutputBufferSize pipe).2.eof then 0 else 1) <
      pipe.rest.length + (if pipe.eof then 0 else 1) := by
  have hsplit := congrArg List.length (getLine_append 15 pipe.rest)
  rw [List.length_append] at hsplit
  show (getLine 15 pipe.rest).2.1.length +
    (if (pipe.eof || (getLine 15 pipe.rest).2.2) then 0 else 1) < _
  rw [h]
  cases hseen : (getLine 15 pipe.rest).2.2 with
  -- what is left can be as long as before, but the indicator is set
  | true => simp; omega
  | false =>
    have hpos := List.length_pos_iff.mpr (getLine_ne_nil (by decide) hseen)
    simp
    omega

/-- The loop of `launch_subprocess`, if the node neither quits nor cancels. -/
def readOutput (pipe : Pipe) (result : List Char) : List Char :=
  if _h : pipe.eof then result
  else
    let call := fgets gameOutputBufferSize pipe
    -- `result += buffer` stops at a null character
    readOutput call.2 (result ++ (call.1.getD []).takeWhile (· ≠ Char.ofNat 0))
termination_by pipe.rest.length + (if pipe.eof then 0 else 1)
decreasing_by exact fgets_decreases (by simpa using _h)

theorem takeWhile_of_notMem {c : Char} {l : List Char} (h : c ∉ l) : l.takeWhile (· ≠ c) = l := by
  rw [List.takeWhile_eq_self_iff]
  intro a ha
  have hne : a ≠ c := fun heq => h (heq ▸ ha)
  simpa using hne

theorem fgets_line (pipe : Pipe) :
    (fgets gameOutputBufferSize pipe).1.getD [] = (getLine 15 pipe.rest).1 := by
  show (if (getLine 15 pipe.rest).1 = [] then none else some (getLine 15 pipe.rest).1).getD [] = _
  split
  next hnil => exact hnil.symm
  next => rfl

/-- However the pieces are cut, all of the output is put together again. -/
theorem readOutput_eq {pipe : Pipe} (heof : pipe.eof = true → pipe.rest = [])
    (hprintable : Char.ofNat 0 ∉ pipe.rest) (result : List Char) :
    readOutput pipe result = result ++ pipe.rest := by
  fun_induction readOutput pipe result with
  | case1 pipe result h => rw [heof h, List.append_nil]
  | case2 pipe result h call ih =>
    -- `call.2.rest` and `call.2.eof` are what the call has left
    have hsplit := getLine_append 15 pipe.rest
    rw [← hsplit, List.mem_append, not_or] at hprintable
    have hend : call.2.eof = true → call.2.rest = [] := by
      intro hseen
      show (getLine 15 pipe.rest).2.1 = []
      have hor : (pipe.eof || (getLine 15 pipe.rest).2.2) = true := hseen
      rw [Bool.eq_false_iff.mpr h, Bool.false_or] at hor
      exact getLine_rest_of_eof hor
    rw [ih hend hprintable.2, fgets_line, takeWhile_of_notMem hprintable.1]
    show result ++ (getLine 15 pipe.rest).1 ++ (getLine 15 pipe.rest).2.1 = _
    rw [List.append_assoc, hsplit]

/-! ## What the output says -/

/-- `launch_subprocess`, given what the process exits with and prints, if `popen` opens one. -/
def launchSubprocess : Option (UInt8 × List Char) → GameOutcomeFlags
  | none => gofGameException
  | some (exitStatus, output) => gameOutcome exitStatus (readOutput { rest := output } [])

/-- What a launcher is to print: fields that are ended by semicolons. -/
structure Report where
  agent1 : List Char
  agent2 : List Char
  winner : List Char
  reason : List Char
  rest : List Char
  separated : ∀ field ∈ [agent1, agent2, winner, reason], ';' ∉ field
  printable : ∀ field ∈ [agent1, agent2, winner, reason, rest], Char.ofNat 0 ∉ field

namespace Report

def output (r : Report) : List Char :=
  r.agent1 ++ ';' :: (r.agent2 ++ ';' :: (r.winner ++ ';' :: (r.reason ++ ';' :: r.rest)))

theorem notMem_output (r : Report) : Char.ofNat 0 ∉ r.output := by
  have hprintable := r.printable
  simp only [List.forall_mem_cons, List.not_mem_nil, false_implies, implies_true, and_true]
    at hprintable
  simp only [output, List.mem_append, List.mem_cons, not_or]
  have hne : Char.ofNat 0 ≠ ';' := by decide
  simp [hprintable, hne]

end Report

/-- A field that is ended by a semicolon. -/
theorem getline_field {field : List Char} (h : ';' ∉ field) (ss : List Char) :
    getline (field ++ ';' :: ss) = (field, ss) := by
  have hfield : ∀ c ∈ field, decide (c ≠ ';') = true := by
    intro c hc
    have hne : c ≠ ';' := fun heq => h (heq ▸ hc)
    simpa using hne
  unfold getline
  rw [List.takeWhile_append_of_pos hfield, List.dropWhile_append_of_pos hfield]
  simp

/-- The third field and the fourth one decide. -/
theorem gameOutcome_report (r : Report) : gameOutcome 0 r.output =
    (if r.reason = timeoutReason then gofReasonTimeout else gofNone) |||
      (if r.winner = player1Prompt then gofPlayer1Winner
        else if r.winner = player2Prompt then gofPlayer2Winner else gofNone) := by
  have hseparated := r.separated
  simp only [List.forall_mem_cons, List.not_mem_nil, false_implies, implies_true, and_true]
    at hseparated
  unfold gameOutcome Report.output
  rw [if_neg (by decide)]
  simp only [getline_field hseparated.1, getline_field hseparated.2.1,
    getline_field hseparated.2.2.1, getline_field hseparated.2.2.2]
  split_ifs <;> rfl

theorem launchSubprocess_report (r : Report) : launchSubprocess (some (0, r.output)) =
    (if r.reason = timeoutReason then gofReasonTimeout else gofNone) |||
      (if r.winner = player1Prompt then gofPlayer1Winner
        else if r.winner = player2Prompt then gofPlayer2Winner else gofNone) := by
  show gameOutcome 0 (readOutput { rest := r.output } []) = _
  rw [readOutput_eq (fun heof => by cases heof) r.notMem_output, List.nil_append,
    gameOutcome_report]

theorem flags_report (r : Report) :
    let flags := launchSubprocess (some (0, r.output))
    (flags.has gofPlayer1Winner ↔ r.winner = player1Prompt) ∧
      (flags.has gofPlayer2Winner ↔ r.winner = player2Prompt) ∧
      (flags.has gofReasonTimeout ↔ r.reason = timeoutReason) ∧ ¬ flags.has gofGameException := by
  intro flags
  have hflags : flags = _ := launchSubprocess_report r
  have hprompts : player1Prompt ≠ player2Prompt := by decide
  rw [hflags]
  -- one case for each set of flags
  by_cases htimeout : r.reason = timeoutReason
  · by_cases hwin1 : r.winner = player1Prompt
    · simp only [htimeout, hwin1, hprompts, if_true]
      decide
    · by_cases hwin2 : r.winner = player2Prompt
      · simp only [htimeout, hwin2, hprompts.symm, if_true, if_false]
        decide
      · simp only [htimeout, hwin1, hwin2, if_true, if_false]
        decide
  · by_cases hwin1 : r.winner = player1Prompt
    · simp only [htimeout, hwin1, hprompts, if_true, if_false]
      decide
    · by_cases hwin2 : r.winner = player2Prompt
      · simp only [htimeout, hwin2, hprompts.symm, if_true, if_false]
        decide
      · simp only [htimeout, hwin1, hwin2, if_false]
        decide

/-! ## Counting -/

/-- A game cannot be started, or it fails, or it ends with a report. -/
inductive Ending
  | unopened
  | failed (exitStatus : UInt8) (output : List Char) (h : exitStatus ≠ 0)
  | reported (report : Report)

inductive Verdict
  | failed
  | win1
  | win2
  | draw
  deriving DecidableEq

namespace Ending

/-- What `launch_subprocess` gets to see of it. -/
def process : Ending → Option (UInt8 × List Char)
  | unopened => none
  | failed exitStatus output _ => some (exitStatus, output)
  | reported report => some (0, report.output)

def verdict : Ending → Verdict
  | unopened => .failed
  | failed _ _ _ => .failed
  | reported report =>
    if report.winner = player1Prompt then .win1
    else if report.winner = player2Prompt then .win2
    else .draw

end Ending

/-- The loop of `execute_task` from game `i` on, if the node neither quits nor cancels. -/
def playGames (games : UInt32) :
    List (Option (UInt8 × List Char)) → UInt32 → Result → Result
  | [], _, result => result
  | process :: processes, i, result =>
    if i < games then
      playGames games processes (i + 1) (countGame result (launchSubprocess process))
    else result

def executeTask (task : Task) (processes : List (Option (UInt8 × List Char))) : Result :=
  playGames task.games processes 0 {}

theorem playGames_eq (games i : UInt32) (processes : List (Option (UInt8 × List Char)))
    (result : Result) : playGames games processes i result =
      ((processes.take (games.toNat - i.toNat)).map launchSubprocess).foldl countGame result := by
  induction processes generalizing i result with
  | nil => simp [playGames]
  | cons process processes ih =>
    have hbound := games.toNat_lt
    unfold playGames
    by_cases hi : i < games
    · have hlt : i.toNat < games.toNat := UInt32.lt_iff_toNat_lt.mp hi
      have hnext := @toNat_add_one i (by omega)
      have hleft : games.toNat - i.toNat = games.toNat - (i + 1).toNat + 1 := by omega
      rw [if_pos hi, ih (i + 1), hleft]
      rfl
    · have hle : games.toNat - i.toNat = 0 := by
        have hnot : ¬ i.toNat < games.toNat := fun h => hi (UInt32.lt_iff_toNat_lt.mpr h)
        omega
      rw [if_neg hi, hle]
      rfl

theorem executeTask_eq (task : Task) (endings : List Ending) :
    executeTask task (endings.map Ending.process) =
      tally ((endings.take task.games.toNat).map fun e => launchSubprocess e.process) := by
  unfold executeTask tally
  rw [playGames_eq, ← List.map_take, List.map_map]
  rfl

/-- One more game is counted under its verdict, and under nothing else. -/
theorem countGame_ending (r : Result) (e : Ending) :
    let r' := countGame r (launchSubprocess e.process)
    r'.failedGames = r.failedGames + (if e.verdict = .failed then 1 else 0) ∧
      r'.winAgent1 = r.winAgent1 + (if e.verdict = .win1 then 1 else 0) ∧
      r'.winAgent2 = r.winAgent2 + (if e.verdict = .win2 then 1 else 0) := by
  intro r'
  cases e with
  | unopened => simp [r', countGame, launchSubprocess, Ending.process, Ending.verdict, has,
      gofGameException]
  | failed exitStatus output h =>
    simp [r', countGame, launchSubprocess, Ending.process, Ending.verdict, gameOutcome, h, has,
      gofGameException]
  | reported report =>
    have hflags := flags_report report
    have hprompts : player1Prompt ≠ player2Prompt := by decide
    show (countGame r (launchSubprocess (some (0, report.output)))).failedGames = _ ∧
      (countGame r (launchSubprocess (some (0, report.output)))).winAgent1 = _ ∧
      (countGame r (launchSubprocess (some (0, report.output)))).winAgent2 = _
    unfold countGame
    dsimp only
    rw [if_neg hflags.2.2.2]
    -- the winner is one of two texts or none of them
    by_cases hwin1 : report.winner = player1Prompt
    · have hnot2 : report.winner ≠ player2Prompt := fun h => hprompts (hwin1.symm.trans h)
      rw [if_pos (hflags.1.mpr hwin1), if_neg (fun h => hnot2 (hflags.2.1.mp h))]
      split
      · simp [Ending.verdict, hwin1]
      · simp [Ending.verdict, hwin1]
    · rw [if_neg (fun h => hwin1 (hflags.1.mp h))]
      by_cases hwin2 : report.winner = player2Prompt
      · rw [if_pos (hflags.2.1.mpr hwin2)]
        split
        · simp [Ending.verdict, hwin2, hprompts.symm]
        · simp [Ending.verdict, hwin2, hprompts.symm]
      · rw [if_neg (fun h => hwin2 (hflags.2.1.mp h))]
        simp [Ending.verdict, hwin1, hwin2]

/-- The counters are the numbers of games with each verdict. -/
theorem tally_endings (endings : List Ending) (h : endings.length < 2 ^ 32) :
    let r := tally (endings.map fun e => launchSubprocess e.process)
    let verdicts := endings.map Ending.verdict
    r.failedGames.toNat = verdicts.count .failed ∧ r.winAgent1.toNat = verdicts.count .win1 ∧
      r.winAgent2.toNat = verdicts.count .win2 := by
  induction endings using List.reverseRecOn with
  | nil => exact ⟨rfl, rfl, rfl⟩
  | append_singleton endings e ih =>
    rw [List.length_append, List.length_singleton] at h
    have hcounted := ih (by omega)
    have hstep := countGame_ending (tally (endings.map fun e => launchSubprocess e.process)) e
    intro r verdicts
    have hr : r = countGame (tally (endings.map fun e => launchSubprocess e.process))
        (launchSubprocess e.process) := by
      show tally _ = _
      rw [List.map_append, List.map_singleton, tally_concat]
    have hverdicts : verdicts = endings.map Ending.verdict ++ [e.verdict] := List.map_append
    -- no counter exceeds the number of games, which fits into one
    have hadd (n : UInt32) (verdict : Verdict) (hn : n.toNat = (endings.map Ending.verdict).count verdict) :
        (n + if e.verdict = verdict then 1 else 0).toNat = verdicts.count verdict := by
      have hle := List.count_le_length (a := verdict) (l := endings.map Ending.verdict)
      rw [List.length_map] at hle
      rw [hverdicts, List.count_append, List.count_singleton]
      by_cases heq : e.verdict = verdict
      · rw [if_pos heq, toNat_add_one (by omega), hn]
        simp [heq]
      · rw [if_neg heq]
        simp [heq, hn]
    rw [hr, hstep.1, hstep.2.1, hstep.2.2]
    exact ⟨hadd _ _ hcounted.1, hadd _ _ hcounted.2.1, hadd _ _ hcounted.2.2⟩

theorem count_verdicts (verdicts : List Verdict) :
    verdicts.count .failed + verdicts.count .win1 + verdicts.count .win2 + verdicts.count .draw =
      verdicts.length := by
  induction verdicts with
  | nil => rfl
  | cons verdict verdicts ih =>
    simp only [List.count_cons, List.length_cons]
    cases verdict <;> simp <;> omega

/-- The games that `games` counts and no other counter does. -/
def Result.draws (r : Result) : Nat :=
  r.games.toNat - r.failedGames.toNat - r.winAgent1.toNat - r.winAgent2.toNat

/-- What the launcher prints is understood, and each game is counted under one thing. -/
theorem launcher_read_and_counted :
    (∀ r : Report, let flags := launchSubprocess (some (0, r.output))
      (flags.has gofPlayer1Winner ↔ r.winner = player1Prompt) ∧
        (flags.has gofPlayer2Winner ↔ r.winner = player2Prompt) ∧
        (flags.has gofReasonTimeout ↔ r.reason = timeoutReason) ∧ ¬ flags.has gofGameException) ∧
      ∀ (task : Task) (endings : List Ending),
        let result := executeTask task (endings.map Ending.process)
        let verdicts := (endings.take task.games.toNat).map Ending.verdict
        result.games.toNat = verdicts.length ∧ result.failedGames.toNat = verdicts.count .failed ∧
          result.winAgent1.toNat = verdicts.count .win1 ∧
          result.winAgent2.toNat = verdicts.count .win2 ∧ result.draws = verdicts.count .draw := by
  refine ⟨flags_report, fun task endings => ?_⟩
  intro result verdicts
  have hbound : (endings.take task.games.toNat).length < 2 ^ 32 := by
    have hgames := task.games.toNat_lt
    rw [List.length_take]
    omega
  have hresult : result = _ := executeTask_eq task endings
  have hcounted : result.failedGames.toNat = verdicts.count .failed ∧
      result.winAgent1.toNat = verdicts.count .win1 ∧
      result.winAgent2.toNat = verdicts.count .win2 := by
    rw [hresult]
    exact tally_endings (endings.take task.games.toNat) hbound
  have hgames : result.games.toNat = verdicts.length := by
    rw [hresult, tally_games (by rwa [List.length_map]), List.length_map, List.length_map]
  have hall := count_verdicts verdicts
  refine ⟨hgames, hcounted.1, hcounted.2.1, hcounted.2.2, ?_⟩
  unfold Result.draws
  rw [hgames, hcounted.1, hcounted.2.1, hcounted.2.2]
  omega

/-! ## The executor -/

namespace NodeProgram

/-- The steps of the executor from the first test of `feof` on. -/
def fetches (pipe : Pipe) : List Op :=
  if _h : pipe.eof then [.execute]
  else
    let call := Bem.fgets gameOutputBufferSize pipe
    .execute :: .execute :: .fgets call.1 call.2.eof :: fetches call.2
termination_by pipe.rest.length + (if pipe.eof then 0 else 1)
decreasing_by exact fgets_decreases (by simpa using _h)

/-- The steps of the executor in `launch_subprocess`. -/
def launches : Option (UInt8 × List Char) → List Op
  | none => [.popen false]
  | some (exitStatus, output) => .popen true :: fetches { rest := output } ++ [.pclose exitStatus]

theorem run_fetches {s : State} {p : Play} {pipe : Pipe} {output : List Char}
    (hplace : s.executor = .reading p output pipe.eof) (hrun : s.shouldQuit = false)
    (hsome : s.currentTaskId ≠ taskIdNone) :
    program.FreeRun s (fetches pipe) { s with executor := .closing p (readOutput pipe output) } := by
  fun_induction readOutput pipe output generalizing s with
  | case1 pipe output h =>
    unfold fetches
    rw [dif_pos h]
    -- the stream has ended
    have hclose : program.step s .execute = .ok { s with executor := .closing p output } := by
      show s.execute = _
      unfold State.execute
      simp [hplace, h]
    exact .cons (by simp [program, State.enabled, State.canExecute, hplace]) trivial hclose (.nil _)
  | case2 pipe output h call =>
    rename_i ih
    unfold fetches
    rw [dif_neg h]
    have hlook : program.step s .execute = .ok { s with executor := .readingId p output } := by
      show s.execute = _
      unfold State.execute
      simp [hplace, h, hrun]
    have hfetch : program.step { s with executor := .readingId p output } .execute =
        .ok { s with executor := .fetching p output } := by
      show State.execute { s with executor := .readingId p output } = _
      unfold State.execute
      simp [hsome]
    -- two looks at the state, a call of `fgets`, and the loop again
    refine .cons (by simp [program, State.enabled, State.canExecute, hplace]) trivial hlook ?_
    refine .cons rfl trivial hfetch ?_
    refine .cons rfl trivial rfl ?_
    exact @ih { s with executor := .reading p _ call.2.eof } rfl hrun hsome

/-- Where nothing disturbs it, the executor finishes the game with what `launch_subprocess` returns. -/
theorem run_launches {s : State} {p : Play} (process : Option (UInt8 × List Char))
    (hplace : s.executor = .launching p) (hrun : s.shouldQuit = false)
    (hsome : s.currentTaskId ≠ taskIdNone) : program.FreeRun s (launches process)
      { s with executor := State.finishGame p (launchSubprocess process) } := by
  have henabled (opened : Bool) : program.enabled s (.popen opened) := by
    simp [program, State.enabled, Executor.isLaunching, hplace]
  cases process with
  | none =>
    have hfails : program.step s (.popen false) =
        .ok { s with executor := State.finishGame p gofGameException } := by
      show Except.ok (s.popen false) = _
      simp [State.popen, hplace]
    exact .cons (henabled false) trivial hfails (.nil _)
  | some exited =>
    have hopens : program.step s (.popen true) = .ok { s with executor := .reading p [] false } := by
      show Except.ok (s.popen true) = _
      simp [State.popen, hplace]
    have hreads := @run_fetches { s with executor := .reading p [] false } p
      { rest := exited.2 } [] rfl hrun hsome
    exact .cons (henabled true) trivial hopens (hreads.append (.cons rfl trivial rfl (.nil _)))

end NodeProgram

end Bem
