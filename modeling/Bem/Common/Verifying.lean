import Bem.Common.GameList

/-!
# The check of the game files

Before it connects, a node asks the file system whether what its game list names is there.
-/

namespace Bem

namespace GameList

section

-- `existing` is what `std::filesystem::exists` answers
variable (existing : String → Bool) (gl : GameList) (gamesDir gameLauncher : String)

/-- The loop over the agents of a game. -/
def verifyAgents (gameId : GamesId) (agents : List (Sigma fun _ : GamesId => Agent)) (valid : Bool) :
    Except Fault Bool :=
  agents.foldlM (fun valid e => do
    let relativeAgentFilepath ← gl.getAgentRelativePath gameId e.1
    let agentFilepath := gamesDir ++ "/" ++ relativeAgentFilepath
    return if existing agentFilepath then valid else false) valid

/-- `verify_loaded_gamelist`, without what it prints. -/
def verifyLoadedGamelist : Except Fault Bool :=
  if ¬ existing gamesDir then return false
  else
    let launcherPath := gamesDir ++ "/" ++ gameLauncher
    if ¬ existing launcherPath then return false
    else
      gl.games.entries.foldlM (fun valid e => do
        -- the directory of all games is tested again, and not the one of this game
        let valid := if existing gamesDir then valid else false
        gl.verifyAgents existing gamesDir e.1 e.2.agents.entries valid) true

/-- The files of the agents are there. -/
def HasAgents : Prop :=
  ∀ e ∈ gl.games.entries, ∀ a ∈ e.2.agents.entries,
    existing (gamesDir ++ "/" ++ (e.2.dirname ++ "/" ++ a.2.filename))

/-- All that a list names is there. -/
structure Installed : Prop where
  root : existing gamesDir
  launcher : existing (gamesDir ++ "/" ++ gameLauncher)
  directories : ∀ e ∈ gl.games.entries, existing (gamesDir ++ "/" ++ e.2.dirname)
  agents : gl.HasAgents existing gamesDir

/-- All is there but for the directory of a game. -/
structure LacksDirectory : Prop where
  root : existing gamesDir
  launcher : existing (gamesDir ++ "/" ++ gameLauncher)
  missing : ∃ e ∈ gl.games.entries, ¬ existing (gamesDir ++ "/" ++ e.2.dirname)
  agents : gl.HasAgents existing gamesDir

end

variable {existing : String → Bool} {gl : GameList} {gamesDir gameLauncher : String}

/-- The keys that the loops come by are found. -/
theorem getAgentRelativePath_of_mem {e : Sigma fun _ : GamesId => Game}
    (he : e ∈ gl.games.entries) {a : Sigma fun _ : GamesId => Agent}
    (ha : a ∈ e.2.agents.entries) :
    gl.getAgentRelativePath e.1 a.1 = .ok (e.2.dirname ++ "/" ++ a.2.filename) := by
  have hgame : gl.games.lookup e.1 = some e.2 := AList.mem_lookup_iff.mpr he
  have hagent : e.2.agents.lookup a.1 = some a.2 := AList.mem_lookup_iff.mpr ha
  unfold getAgentRelativePath
  rw [hgame]
  dsimp only
  rw [hagent]

private theorem foldlM_all {α : Type} {f : Bool → α → Except Fault Bool} {p : α → Bool}
    {l : List α} (h : ∀ valid, ∀ a ∈ l, f valid a = .ok (valid && p a)) (valid : Bool) :
    l.foldlM f valid = .ok (valid && l.all p) := by
  induction l generalizing valid with
  | nil => rw [List.all_nil, Bool.and_true]; rfl
  | cons a l ih =>
    rw [List.foldlM_cons, h valid a List.mem_cons_self, List.all_cons, ← Bool.and_assoc]
    exact ih (fun valid b hb => h valid b (List.mem_cons_of_mem a hb)) (valid && p a)

theorem verifyAgents_eq {e : Sigma fun _ : GamesId => Game} (he : e ∈ gl.games.entries)
    (valid : Bool) :
    gl.verifyAgents existing gamesDir e.1 e.2.agents.entries valid =
      .ok (valid && e.2.agents.entries.all fun a =>
        existing (gamesDir ++ "/" ++ (e.2.dirname ++ "/" ++ a.2.filename))) := by
  refine foldlM_all (fun valid a ha => ?_) valid
  rw [getAgentRelativePath_of_mem he ha]
  change Except.ok (if existing (gamesDir ++ "/" ++ (e.2.dirname ++ "/" ++ a.2.filename)) then valid
    else false) = _
  cases existing (gamesDir ++ "/" ++ (e.2.dirname ++ "/" ++ a.2.filename)) <;> simp

/-- What the check comes to. -/
theorem verifyLoadedGamelist_eq :
    gl.verifyLoadedGamelist existing gamesDir gameLauncher =
      .ok (existing gamesDir && existing (gamesDir ++ "/" ++ gameLauncher) &&
        gl.games.entries.all fun e => e.2.agents.entries.all fun a =>
          existing (gamesDir ++ "/" ++ (e.2.dirname ++ "/" ++ a.2.filename))) := by
  unfold verifyLoadedGamelist
  by_cases hdir : existing gamesDir
  · by_cases hlauncher : existing (gamesDir ++ "/" ++ gameLauncher)
    · rw [if_neg (not_not.mpr hdir)]
      dsimp only
      rw [if_neg (not_not.mpr hlauncher), hdir, hlauncher]
      refine (foldlM_all (fun valid e he => ?_) true).trans rfl
      exact verifyAgents_eq he valid
    · rw [if_neg (not_not.mpr hdir)]
      dsimp only
      rw [if_pos hlauncher, Bool.eq_false_iff.mpr hlauncher, Bool.and_false, Bool.false_and]
      rfl
  · rw [if_pos hdir, Bool.eq_false_iff.mpr hdir, Bool.false_and, Bool.false_and]
    rfl

theorem verifyLoadedGamelist_eq_true_iff :
    gl.verifyLoadedGamelist existing gamesDir gameLauncher = .ok true ↔
      existing gamesDir ∧ existing (gamesDir ++ "/" ++ gameLauncher) ∧
        gl.HasAgents existing gamesDir := by
  rw [verifyLoadedGamelist_eq, Except.ok.injEq]
  simp only [Bool.and_eq_true, List.all_eq_true, and_assoc, HasAgents]

/-- The check is right unless nothing but directories of games is missing. -/
theorem verify_exact_iff (existing : String → Bool) (gl : GameList)
    (gamesDir gameLauncher : String) :
    (∃ valid, gl.verifyLoadedGamelist existing gamesDir gameLauncher = .ok valid ∧
        (valid = true ↔ gl.Installed existing gamesDir gameLauncher)) ↔
      ¬ gl.LacksDirectory existing gamesDir gameLauncher := by
  have htrue := @verifyLoadedGamelist_eq_true_iff existing gl gamesDir gameLauncher
  constructor
  · intro h hlacks
    obtain ⟨valid, hvalid, hiff⟩ := h
    have hfound := htrue.mpr ⟨hlacks.root, hlacks.launcher, hlacks.agents⟩
    rw [hvalid, Except.ok.injEq] at hfound
    obtain ⟨e, he, hmissing⟩ := hlacks.missing
    exact hmissing ((hiff.mp hfound).directories e he)
  · intro hlacks
    refine ⟨_, verifyLoadedGamelist_eq, ?_⟩
    rw [verifyLoadedGamelist_eq, Except.ok.injEq] at htrue
    rw [htrue]
    constructor
    · intro h
      obtain ⟨hdir, hlauncher, hagents⟩ := h
      refine ⟨hdir, hlauncher, fun e he => ?_, hagents⟩
      by_contra hmissing
      exact hlacks ⟨hdir, hlauncher, ⟨e, he, hmissing⟩, hagents⟩
    · intro h
      exact ⟨h.root, h.launcher, h.agents⟩

/-- Where a file does not stand without its directory, a game without a directory is one without
agents. -/
theorem LacksDirectory.exists_no_agents (h : gl.LacksDirectory existing gamesDir gameLauncher)
    (hclosed : ∀ d f, existing (d ++ "/" ++ f) → existing d) :
    ∃ e ∈ gl.games.entries, e.2.agents.entries = [] := by
  obtain ⟨e, he, hmissing⟩ := h.missing
  refine ⟨e, he, List.eq_nil_iff_forall_not_mem.mpr fun a ha => hmissing ?_⟩
  have hfile := h.agents e he a ha
  apply hclosed (gamesDir ++ "/" ++ e.2.dirname) a.2.filename
  simpa only [String.append_assoc] using hfile

/-- A game without agents whose directory is missing. -/
def bareGames : GameList where
  games := AList.singleton 1 { gameId := 1, name := "chess", dirname := "chess", agents := ∅ }

theorem verify_overlooks_directory :
    ¬ ∀ (existing : String → Bool) (gl : GameList) (gamesDir gameLauncher : String),
      gl.verifyLoadedGamelist existing gamesDir gameLauncher = .ok true ↔
        gl.Installed existing gamesDir gameLauncher := by
  intro h
  have hverdict : bareGames.verifyLoadedGamelist (fun path => path ∈ ["games", "games/run.sh"])
      "games" "run.sh" = .ok true := by
    decide
  have hdirname := ((h _ _ _ _).mp hverdict).directories ⟨1, _⟩ List.mem_cons_self
  exact absurd hdirname (by decide)

end GameList

end Bem
