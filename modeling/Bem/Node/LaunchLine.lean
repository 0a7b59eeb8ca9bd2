import Bem.Lib.ShellWords
import Bem.Common.Verifying
import Bem.Node.Config
import Mathlib.Data.List.TakeWhile

/-!
# The command line of the launcher

`prepare_command` joins strings of the configuration with blanks, and `popen` gives the result to a
shell, which splits it again.  The launcher checks that it gets five arguments.
-/

namespace Bem

open ShellWords

def nul : Char := Char.ofNat 0

/-- `c_str()`, as a reader of C strings sees it. -/
def cString (s : String) : List Char := s.toList.takeWhile (· ≠ nul)

namespace NodeConfig

/-- What `execute_task` finds in the game list for the task. -/
structure Finds (config : NodeConfig) (task : Task) (game : Game) (agent1 agent2 : Agent) : Prop where
  foundGame : config.gamelist.games.lookup task.gameId = some game
  foundAgent1 : game.agents.lookup task.agent1 = some agent1
  foundAgent2 : game.agents.lookup task.agent2 = some agent2

/-- The launcher and its arguments, as they are meant. -/
def launchWords (config : NodeConfig) (task : Task) (game : Game) (agent1 agent2 : Agent) :
    List (List Char) :=
  [(config.gamesDir ++ "/" ++ config.gameLauncher).toList,
    (config.gamesDir ++ "/" ++ (game.dirname ++ "/" ++ agent1.filename)).toList,
    (config.gamesDir ++ "/" ++ (game.dirname ++ "/" ++ agent2.filename)).toList,
    game.name.toList,
    (toString task.boardSize).toList,
    (toString task.moveLimitMs).toList]

/-- Every shell makes these words of the command. -/
def LauncherReceives (config : NodeConfig) (task : Task) (game : Game) (agent1 agent2 : Agent) :
    Prop :=
  ∃ command, gameCommand config task = .ok command ∧
    ∀ sh : Shell, sh.arguments (cString command) =
      some (config.launchWords task game agent1 agent2)

/-- No character ends a word or a C string, and none is removed as a quote. -/
def PlainText (s : String) : Prop := ∀ c ∈ s.toList, isOrdinary c ∧ c ≠ nul

instance (s : String) : Decidable (PlainText s) := List.decidableBAll _ s.toList

/-- None of the strings of the command means anything to a shell. -/
structure Plain (config : NodeConfig) (task : Task) (game : Game) (agent1 agent2 : Agent) : Prop where
  gamesDir : PlainText config.gamesDir
  gameLauncher : PlainText config.gameLauncher
  dirname : PlainText game.dirname
  filename1 : PlainText agent1.filename
  filename2 : PlainText agent2.filename
  name : PlainText game.name
  nameNonempty : game.name ≠ ""
  /-- No word begins a comment. -/
  starts : config.gamesDir.toList.head? ≠ some '#' ∧ game.name.toList.head? ≠ some '#'
  unexpanded : ∀ w ∈ config.launchWords task game agent1 agent2, mayExpand w = false
  command : isAssignment (config.gamesDir ++ "/" ++ config.gameLauncher).toList = false

end NodeConfig

/-! ## The line -/

theorem prepareCommand_toList (gamesDir gameLauncher gameName agent1Path agent2Path : String)
    (moveLimitMs boardSize : UInt32) :
    (prepareCommand gamesDir gameLauncher gameName agent1Path agent2Path moveLimitMs
        boardSize).toList =
      spaced [(gamesDir ++ "/" ++ gameLauncher).toList, (gamesDir ++ "/" ++ agent1Path).toList,
        (gamesDir ++ "/" ++ agent2Path).toList, gameName.toList, (toString boardSize).toList,
        (toString moveLimitMs).toList] := by
  have hblank : " ".toList = [' '] := rfl
  unfold prepareCommand spaced
  simp only [String.toList_append, hblank, List.flatMap_cons, List.flatMap_nil, List.append_assoc,
    List.cons_append, List.nil_append, List.append_nil]

namespace NodeConfig

variable {config : NodeConfig} {task : Task} {game : Game} {agent1 agent2 : Agent}

theorem Finds.gameCommand (h : config.Finds task game agent1 agent2) :
    ∃ command, gameCommand config task = .ok command ∧
      command.toList = spaced (config.launchWords task game agent1 agent2) := by
  refine ⟨_, ?_, prepareCommand_toList _ _ _ _ _ _ _⟩
  -- none of the three lookups throws
  have hname : config.gamelist.getGameName task.gameId = .ok game.name := by
    unfold GameList.getGameName
    rw [h.foundGame]
  have hpath1 : config.gamelist.getAgentRelativePath task.gameId task.agent1 =
      .ok (game.dirname ++ "/" ++ agent1.filename) := by
    unfold GameList.getAgentRelativePath
    rw [h.foundGame]
    dsimp only
    rw [h.foundAgent1]
  have hpath2 : config.gamelist.getAgentRelativePath task.gameId task.agent2 =
      .ok (game.dirname ++ "/" ++ agent2.filename) := by
    unfold GameList.getAgentRelativePath
    rw [h.foundGame]
    dsimp only
    rw [h.foundAgent2]
  unfold Bem.gameCommand
  rw [hname, hpath1, hpath2]
  rfl

end NodeConfig

/-! ## The words -/

/-- What a command takes for one word, and a C string for text. -/
def IsWord (t : List Char) : Prop := Literal t ∧ nul ∉ t

theorem toList_path (a b : String) : (a ++ "/" ++ b).toList = a.toList ++ '/' :: b.toList := by
  simp

theorem isWord_text (s : String) : IsWord s.toList ↔ NodeConfig.PlainText s ∧ s ≠ "" ∧
    s.toList.head? ≠ some '#' ∧ mayExpand s.toList = false := by
  unfold IsWord NodeConfig.PlainText
  constructor
  · rintro ⟨⟨hnonempty, hchars, hcomment, hexpand⟩, hnul⟩
    refine ⟨fun c hc => ⟨hchars c hc, fun hcn => hnul (hcn ▸ hc)⟩, ?_, hcomment, hexpand⟩
    rintro rfl
    exact hnonempty rfl
  · rintro ⟨hchars, hnonempty, hcomment, hexpand⟩
    have hlist : s.toList ≠ [] := fun h => hnonempty (String.toList_eq_nil_iff.mp h)
    exact ⟨⟨hlist, fun c hc => (hchars c hc).1, hcomment, hexpand⟩, fun hc => (hchars _ hc).2 rfl⟩

theorem plainText_path (a b : String) : NodeConfig.PlainText (a ++ "/" ++ b) ↔
    NodeConfig.PlainText a ∧ NodeConfig.PlainText b := by
  unfold NodeConfig.PlainText
  rw [toList_path, List.forall_mem_append, List.forall_mem_cons]
  have hslash : isOrdinary '/' ∧ '/' ≠ nul := by decide
  rw [and_iff_right hslash]

/-- A path begins as its directory does, or with the slash. -/
theorem isWord_path (a b : String) : IsWord (a ++ "/" ++ b).toList ↔ NodeConfig.PlainText a ∧
    NodeConfig.PlainText b ∧ a.toList.head? ≠ some '#' ∧ mayExpand (a ++ "/" ++ b).toList = false := by
  have hnonempty : a ++ "/" ++ b ≠ "" := by
    intro h
    have hlist := congrArg String.toList h
    rw [toList_path] at hlist
    simp at hlist
  have hhead : (a ++ "/" ++ b).toList.head? ≠ some '#' ↔ a.toList.head? ≠ some '#' := by
    rw [toList_path]
    cases a.toList <;> simp
  rw [isWord_text, plainText_path, hhead]
  simp only [and_assoc, ne_eq, hnonempty, not_false_eq_true, true_and]

theorem digit_plain {c : Char} (h : c.isDigit) :
    isOrdinary c ∧ c ≠ nul ∧ isActive c = false ∧ c ≠ '#' ∧ c ≠ '~' := by
  have hother {d : Char} (hd : d.isDigit = false) : c ≠ d := by
    rintro rfl
    rw [hd] at h
    cases h
  simp [isOrdinary, isBlank, isOperator, isQuoting, isActive, isWild, hother, nul, singleQuote,
    doubleQuote, backslash, backquote, openBrace]

/-- A number is a word in decimal. -/
theorem isWord_number (n : UInt32) : IsWord (toString n).toList := by
  have hdigits : (toString n).toList = Nat.toDigits 10 n.toNat := by
    rw [← Nat.toList_repr]
    rfl
  have hplain : ∀ c ∈ Nat.toDigits 10 n.toNat, isOrdinary c ∧ c ≠ nul ∧ isActive c = false ∧
      c ≠ '#' ∧ c ≠ '~' := by
    intro c hc
    exact digit_plain (Nat.isDigit_of_mem_toDigits (Nat.succ_pos 9) (le_refl 10) hc)
  have hstart (c : Char) (h : (Nat.toDigits 10 n.toNat).head? = some c) : c ≠ '#' ∧ c ≠ '~' :=
    (hplain c (List.mem_of_head? h)).2.2.2
  rw [hdigits]
  refine ⟨⟨Nat.toDigits_ne_nil, fun c hc => (hplain c hc).1, fun h => (hstart _ h).1 rfl, ?_⟩,
    fun hc => (hplain _ hc).2.1 rfl⟩
  rw [← Bool.not_eq_true]
  intro hexpand
  have hactive := active_of_mayExpand hexpand
  simp only [bareWord, Bool.or_eq_true, List.any_eq_true, decide_eq_true_eq] at hactive
  -- neither in a number nor at its start is there anything to expand
  rcases hactive with ⟨c, hc, hactive⟩ | hhome
  · rw [(hplain c hc).2.2.1] at hactive
    cases hactive
  · exact (hstart _ hhome).2 rfl

namespace NodeConfig

variable {config : NodeConfig} {task : Task} {game : Game} {agent1 agent2 : Agent}

theorem plain_iff : config.Plain task game agent1 agent2 ↔
    (∀ t ∈ config.launchWords task game agent1 agent2, IsWord t) ∧
      Unassigned (config.launchWords task game agent1 agent2) := by
  have hwords (P : List Char → Prop) : (∀ t ∈ config.launchWords task game agent1 agent2, P t) ↔
      P (config.gamesDir ++ "/" ++ config.gameLauncher).toList ∧
      P (config.gamesDir ++ "/" ++ (game.dirname ++ "/" ++ agent1.filename)).toList ∧
      P (config.gamesDir ++ "/" ++ (game.dirname ++ "/" ++ agent2.filename)).toList ∧
      P game.name.toList ∧ P (toString task.boardSize).toList ∧
      P (toString task.moveLimitMs).toList := by
    unfold launchWords
    simp only [List.forall_mem_cons, List.not_mem_nil, false_implies, implies_true, and_true]
  have hfirst : Unassigned (config.launchWords task game agent1 agent2) ↔
      isAssignment (config.gamesDir ++ "/" ++ config.gameLauncher).toList = false := by
    unfold Unassigned launchWords
    simp only [List.head?_cons, Option.some_inj, forall_eq']
  -- the two numbers are words anyway
  rw [hwords, hfirst]
  simp only [isWord_path, isWord_text game.name, plainText_path, isWord_number, and_true]
  constructor
  · rintro ⟨hdir, hlauncher, hdirname, hfile1, hfile2, hname, hnonempty, ⟨hstart, hnameStart⟩,
      hexpand, hcommand⟩
    rw [hwords] at hexpand
    obtain ⟨hexp1, hexp2, hexp3, hexp4, -⟩ := hexpand
    exact ⟨⟨⟨hdir, hlauncher, hstart, hexp1⟩, ⟨hdir, ⟨hdirname, hfile1⟩, hstart, hexp2⟩,
      ⟨hdir, ⟨hdirname, hfile2⟩, hstart, hexp3⟩, hname, hnonempty, hnameStart, hexp4⟩, hcommand⟩
  · rintro ⟨⟨⟨hdir, hlauncher, hstart, hexp1⟩, ⟨-, ⟨hdirname, hfile1⟩, -, hexp2⟩,
      ⟨-, ⟨-, hfile2⟩, -, hexp3⟩, hname, hnonempty, hnameStart, hexp4⟩, hcommand⟩
    refine ⟨hdir, hlauncher, hdirname, hfile1, hfile2, hname, hnonempty, ⟨hstart, hnameStart⟩, ?_,
      hcommand⟩
    rw [hwords]
    exact ⟨hexp1, hexp2, hexp3, hexp4, (isWord_number _).1.unexpanded,
      (isWord_number _).1.unexpanded⟩

end NodeConfig

/-! ## What the launcher receives -/

theorem nul_not_mem_spaced {ts : List (List Char)} :
    nul ∉ spaced ts ↔ ∀ t ∈ ts, nul ∉ t := by
  unfold spaced
  have hblank : nul ≠ ' ' := by decide
  simp [List.mem_flatMap, hblank]

/-- A C string is the whole text if there is no terminator in it. -/
theorem cString_eq_toList_iff (s : String) : cString s = s.toList ↔ nul ∉ s.toList := by
  unfold cString
  rw [List.takeWhile_eq_self_iff]
  constructor
  · intro h hmem
    simpa using h nul hmem
  · intro h c hc
    simpa using fun hcn : c = nul => h (hcn ▸ hc)

/-- A shell with no values for its parameters has the words of the line only if they are plain. -/
theorem isWord_of_arguments {command : String} {t : List Char} {ts : List (List Char)}
    (hline : command.toList = spaced (t :: ts))
    (h : emptied.arguments (cString command) = some (t :: ts)) :
    (∀ u ∈ t :: ts, IsWord u) ∧ Unassigned (t :: ts) := by
  have hsub : (cString command).Sublist (spaced (t :: ts)) := by
    rw [← hline]
    exact List.takeWhile_sublist _
  obtain ⟨rest, hrest⟩ : ∃ rest, cString command = ' ' :: rest := by
    unfold cString
    rw [hline]
    exact ⟨_, List.takeWhile_cons_of_pos (by decide)⟩
  rw [hrest] at h hsub
  obtain ⟨hliteral, hfirst, hlength⟩ := literal_of_arguments h hsub.length_le
  -- nothing has been cut off
  have hwhole : cString command = command.toList := by
    rw [hrest, hline]
    exact hsub.eq_of_length hlength
  have hnul := (cString_eq_toList_iff command).mp hwhole
  rw [hline, nul_not_mem_spaced] at hnul
  exact ⟨fun u hu => ⟨hliteral u hu, hnul u hu⟩, hfirst⟩

namespace NodeConfig

variable {config : NodeConfig} {task : Task} {game : Game} {agent1 agent2 : Agent}

theorem launcherReceives_iff (h : config.Finds task game agent1 agent2) :
    config.LauncherReceives task game agent1 agent2 ↔ config.Plain task game agent1 agent2 := by
  obtain ⟨command, hok, hline⟩ := h.gameCommand
  rw [plain_iff]
  constructor
  · rintro ⟨command', hok', harguments⟩
    rw [hok] at hok'
    cases hok'
    -- one shell is enough
    exact isWord_of_arguments hline (harguments emptied)
  · rintro ⟨hwords, hfirst⟩
    refine ⟨command, hok, fun sh => ?_⟩
    have hwhole : cString command = command.toList := by
      rw [cString_eq_toList_iff, hline, nul_not_mem_spaced]
      exact fun t ht => (hwords t ht).2
    rw [hwhole, hline]
    exact arguments_spaced sh (fun t ht => (hwords t ht).1) hfirst

def minmax : Agent :=
  { agentId := 2, name := "Minmax Player", filename := "MinMaxPlayer.sh", hash := "234234" }

def migration : Game :=
  { gameId := 1, name := "Migration", dirname := "migration", agents := AList.singleton 2 minmax }

def migrationNode : NodeConfig where
  gamesDir := "games"
  gameLauncher := "mock_launcher.sh"
  gamelist := { games := AList.singleton 1 migration }

theorem launcherReceives_migration : migrationNode.LauncherReceives
    { id := 1, gameId := 1, agent1 := 2, agent2 := 2, boardSize := 8, moveLimitMs := 500, games := 1 }
    migration minmax minmax := by
  refine (launcherReceives_iff ⟨rfl, rfl, rfl⟩).mpr ?_
  constructor
  all_goals decide

/-- The strings of the command are not empty. -/
def Filled (config : NodeConfig) (game : Game) (agent1 agent2 : Agent) : Prop :=
  ∀ s ∈ [config.gamesDir, config.gameLauncher, game.name, game.dirname, agent1.filename,
    agent2.filename], s ≠ ""

instance (config : NodeConfig) (game : Game) (agent1 agent2 : Agent) :
    Decidable (config.Filled game agent1 agent2) := inferInstanceAs (Decidable (∀ s ∈ _, s ≠ ""))

def ticTacToe : Game :=
  { gameId := 2, name := "Tic Tac Toe", dirname := "tictactoe", agents := AList.singleton 2 minmax }

theorem launcher_misses_name :
    ¬ ∀ (existing : String → Bool) (file : Option (Except Fault Json)) (config : LoadedConfig)
        (task : Task) (game : Game) (agent1 agent2 : Agent),
      LoadedConfig.loadNodeConfigFromFile file = .ok (some config) →
      config.gamelist.verifyLoadedGamelist existing config.gamesDir config.gameLauncher = .ok true →
      config.toNodeConfig.Finds task game agent1 agent2 →
      config.toNodeConfig.Filled game agent1 agent2 →
        config.toNodeConfig.LauncherReceives task game agent1 agent2 := by
  intro h
  let config := LoadedConfig.configOf { games := AList.singleton 2 ticTacToe }
  let task : Task := { id := 1, gameId := 2, agent1 := 2, agent2 := 2, games := 1 }
  have hload : LoadedConfig.loadNodeConfigFromFile
      (some (.ok (LoadedConfig.fileOf [ticTacToe.toJson]))) = .ok (some config) := rfl
  have hfinds : config.toNodeConfig.Finds task ticTacToe minmax minmax := ⟨rfl, rfl, rfl⟩
  obtain ⟨command, hok, harguments⟩ := h (fun _ => true) _ config task ticTacToe minmax minmax hload
    (by decide) hfinds (by decide)
  obtain ⟨command', hok', hline⟩ := hfinds.gameCommand
  cases hok.symm.trans hok'
  -- the name would have to be one word
  have hname : IsWord ticTacToe.name.toList :=
    (isWord_of_arguments hline (harguments emptied)).1 _ (by simp)
  exact absurd (hname.1.chars ' ' (by decide)) (by decide)

end NodeConfig

end Bem
