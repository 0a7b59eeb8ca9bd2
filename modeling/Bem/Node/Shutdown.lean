import Bem.Lib.Ranking
import Bem.Node.Answers

/-!
# Quitting

Once `should_quit` is set, the two threads leave their loops after a few steps, whatever waits in the
queues and however many games are left.
-/

namespace Bem

namespace NodeProgram

/-- A step of the executor or of the game that it waits for. -/
def Op.isExecution : Op → Bool
  | .execute | .popen _ | .fgets _ _ | .pclose _ => true
  | _ => false

def Op.isInstruct : Op → Bool
  | .instruct => true
  | _ => false

def Op.isPopen : Op → Bool
  | .popen _ => true
  | _ => false

namespace Executor

/-- The steps to the end of a program that quits. -/
def toEnd : Executor → Nat
  | checking _ | readingId _ _ => 7
  | launching _ | fetching _ _ => 6
  | storing _ | reading _ _ _ | deciding _ => 5
  | preparing _ | closing _ _ | sending _ => 4
  | playing _ | clearing => 3
  | looping | waiting | played _ => 2
  | terminating => 1
  | finished => 0

/-- The games that such a program still starts. -/
def toStart : Executor → Nat
  | checking _ | launching _ => 1
  | _ => 0

/-- The results that it still sends. -/
def toReport : Executor → Nat
  | deciding _ | sending _ => 1
  | _ => 0

end Executor

namespace Instructions

def toEnd : Instructions → Nat
  | handling _ => 5
  | answering _ _ => 4
  | replying _ _ | cancelling _ => 3
  | looping | receiving => 2
  | terminating => 1
  | finished => 0

/-- The answers that it still gives. -/
def toAnswer : Instructions → Nat
  | handling _ | answering _ _ | replying _ _ => 1
  | _ => 0

end Instructions

namespace State

/-- Both threads have left their loops. -/
def Ended (s : State) : Prop := s.executor = .finished ∧ s.instructions = .finished

/-- What a step leaves to do for a program that quits. -/
structure Nears (op : Op) (s s' : State) : Prop where
  quit : s'.shouldQuit = true
  executor : s'.executor.toEnd + (if op.isExecution then 1 else 0) ≤ s.executor.toEnd
  started : s'.executor.toStart + (if op.isPopen then 1 else 0) ≤ s.executor.toStart
  instructions : s'.instructions.toEnd + (if op.isInstruct then 1 else 0) ≤ s.instructions.toEnd
  said : s'.history.length + s'.executor.toReport + s'.instructions.toAnswer ≤
    s.history.length + s.executor.toReport + s.instructions.toAnswer

variable {s s' : State} {op : Op}

/-- A step of the executor, or of a game. -/
theorem Nears.of_executor (hquit : s'.shouldQuit = true) (hinstructions : s'.instructions = s.instructions)
    (hop : op.isInstruct = false)
    (hend : s'.executor.toEnd + (if op.isExecution then 1 else 0) ≤ s.executor.toEnd)
    (hstart : s'.executor.toStart + (if op.isPopen then 1 else 0) ≤ s.executor.toStart)
    (hsaid : s'.history.length + s'.executor.toReport ≤ s.history.length + s.executor.toReport) :
    Nears op s s' where
  quit := hquit
  executor := hend
  started := hstart
  instructions := by
    rw [hop, hinstructions]
    exact Nat.le_refl _
  said := by
    rw [hinstructions]
    exact Nat.add_le_add_right hsaid _

theorem nears_execute (hquit : s.shouldQuit = true) (hcan : s.canExecute = true)
    (h : s.execute = .ok s') : Nears .execute s s' := by
  have hgoOn {place : Executor} (hend : place.toEnd + 1 ≤ s.executor.toEnd)
      (hstart : place.toStart ≤ s.executor.toStart) (hreport : place.toReport ≤ s.executor.toReport) :
      Nears .execute s { s with executor := place } :=
    .of_executor hquit rfl rfl hend hstart (Nat.add_le_add_left hreport _)
  unfold execute at h
  simp only [if_pos hquit] at h
  split at h
  case h_1 hplace | h_2 hplace =>
    cases h
    exact hgoOn (by simp [hplace, Executor.toEnd]) (Nat.zero_le _) (Nat.zero_le _)
  case h_3 task hplace =>
    cases h
    exact .of_executor hquit rfl rfl (by simp [hplace, Op.isExecution, Executor.toEnd]) (Nat.zero_le _)
      (by simp [history, Executor.toReport])
  case h_4 task hplace =>
    split at h <;> cases h
    exact hgoOn (by simp [hplace, Executor.toEnd]) (Nat.zero_le _) (Nat.zero_le _)
  case h_5 p hplace =>
    split at h <;> cases h <;>
      exact hgoOn (by simp [hplace, Executor.toEnd]) (Nat.zero_le _) (Nat.zero_le _)
  case h_6 p hplace =>
    split at h <;> cases h
    · exact hgoOn (by simp [hplace, Executor.toEnd]) (Nat.zero_le _) (Nat.zero_le _)
    · exact hgoOn (by simp [hplace, Executor.toEnd]) (by simp [hplace, Executor.toStart]) (Nat.zero_le _)
  case h_7 p output eof hplace =>
    split at h <;> cases h <;>
      exact hgoOn (by simp [hplace, Executor.toEnd]) (Nat.zero_le _) (Nat.zero_le _)
  case h_8 p output hplace =>
    split at h <;> cases h <;>
      exact hgoOn (by simp [hplace, Executor.toEnd]) (Nat.zero_le _) (Nat.zero_le _)
  case h_9 p hplace =>
    cases h
    exact hgoOn (by simp [hplace, Executor.toEnd]) (Nat.zero_le _) (Nat.zero_le _)
  case h_10 p hplace =>
    split at h <;> cases h
    · exact hgoOn (by simp [hplace, Executor.toEnd]) (Nat.zero_le _) (Nat.zero_le _)
    · exact hgoOn (by simp [hplace, Executor.toEnd]) (Nat.zero_le _) (by simp [hplace, Executor.toReport])
  case h_11 p hplace =>
    cases h
    refine .of_executor hquit rfl rfl (by simp [hplace, Op.isExecution, Executor.toEnd]) (Nat.zero_le _) ?_
    show (s.sendMessage _).history.length + 0 ≤ _
    rw [history_sendMessage, List.length_append, hplace]
    exact Nat.le_refl _
  case h_12 hplace =>
    cases h
    exact .of_executor hquit rfl rfl (by simp [hplace, Op.isExecution, Executor.toEnd]) (Nat.zero_le _)
      (by simp [history, Executor.toReport])
  case h_13 hplace =>
    cases h
    exact .of_executor rfl rfl rfl (by simp [hplace, Op.isExecution, Executor.toEnd]) (Nat.zero_le _)
      (by simp [history, Executor.toReport])
  all_goals
    rename_i hplace
    simp [canExecute, hplace] at hcan

theorem nears_popen (hquit : s.shouldQuit = true) (hlaunching : s.executor.isLaunching = true)
    (opened : Bool) : Nears (.popen opened) s (s.popen opened) := by
  unfold popen
  split
  next p hplace =>
    split <;> exact .of_executor hquit rfl rfl
      (by simp [hplace, Op.isExecution, finishGame, Executor.toEnd])
      (by simp [hplace, Op.isPopen, finishGame, Executor.toStart])
      (by simp [history, finishGame, Executor.toReport])
  next hplace =>
    unfold Executor.isLaunching at hlaunching
    split at hlaunching
    · exact absurd ‹_› (hplace _)
    · cases hlaunching

theorem nears_fgets (hquit : s.shouldQuit = true) (hfetching : s.executor.isFetching = true)
    (line : Option (List Char)) (eof : Bool) : Nears (.fgets line eof) s (s.fgets line eof) := by
  unfold fgets
  split
  next p output hplace =>
    exact .of_executor hquit rfl rfl (by simp [hplace, Op.isExecution, Executor.toEnd]) (Nat.zero_le _)
      (by simp [history, Executor.toReport])
  next hplace =>
    unfold Executor.isFetching at hfetching
    split at hfetching
    · exact absurd ‹_› (hplace _ _)
    · cases hfetching

theorem nears_pclose (hquit : s.shouldQuit = true) (hclosing : s.executor.isClosing = true)
    (exitStatus : UInt8) : Nears (.pclose exitStatus) s (s.pclose exitStatus) := by
  unfold pclose
  split
  next p output hplace =>
    exact .of_executor hquit rfl rfl (by simp [hplace, Op.isExecution, finishGame, Executor.toEnd])
      (Nat.zero_le _) (by simp [history, finishGame, Executor.toReport])
  next hplace =>
    unfold Executor.isClosing at hclosing
    split at hclosing
    · exact absurd ‹_› (hplace _ _)
    · cases hclosing

theorem nears_instruct (hquit : s.shouldQuit = true) (hcan : s.canInstruct = true)
    (h : s.instruct = .ok s') : Nears .instruct s s' := by
  have hbeside := beside_instruct h
  have hrest : s'.instructions.toEnd + 1 ≤ s.instructions.toEnd ∧
      s'.history.length + s'.instructions.toAnswer ≤ s.history.length + s.instructions.toAnswer := by
    unfold instruct at h
    simp only [if_pos hquit] at h
    split at h
    case h_1 hplace | h_2 hplace =>
      cases h
      simp [hplace, Instructions.toEnd, Instructions.toAnswer, history]
    case h_3 msg hplace =>
      cases h
      simp [hplace, finishHandling, Instructions.toEnd, Instructions.toAnswer, history]
    case h_4 msg hplace =>
      split at h
      · cases h
        simp [hplace, Instructions.toEnd, Instructions.toAnswer, history]
      · split at h <;> cases h <;>
          simp [hplace, finishHandling, Instructions.toEnd, Instructions.toAnswer, history]
      · cases h
    case h_5 => cases h
    case h_6 hplace =>
      split at h <;> cases h <;> simp [hplace, Instructions.toEnd, Instructions.toAnswer, history]
    case h_7 question msg hplace =>
      cases h
      simp [hplace, finishHandling, sendMessage, Instructions.toEnd, Instructions.toAnswer, history,
        Nat.add_assoc]
    case h_8 hplace =>
      cases h
      simp [hplace, finishHandling, Instructions.toEnd, Instructions.toAnswer, history]
    case h_9 hplace =>
      cases h
      simp [hplace, Instructions.toEnd, Instructions.toAnswer, history]
    case h_10 hplace => simp [canInstruct, hplace] at hcan
  refine ⟨hbeside.quit hquit, ?_, ?_, hrest.1, ?_⟩
  · rw [hbeside.executor]
    exact Nat.le_refl _
  · rw [hbeside.executor]
    exact Nat.le_refl _
  · rw [hbeside.executor]
    omega

theorem nears_step (hquit : s.shouldQuit = true) (henabled : s.enabled op = true) (hok : s.step op = .ok s') :
    Nears op s s' := by
  cases op with
  | instruct => exact nears_instruct hquit henabled hok
  | execute => exact nears_execute hquit henabled hok
  | popen opened =>
    cases hok
    exact nears_popen hquit henabled opened
  | fgets line eof =>
    cases hok
    exact nears_fgets hquit henabled line eof
  | pclose exitStatus =>
    cases hok
    exact nears_pclose hquit henabled exitStatus
  | deliver msg =>
    cases hok
    exact ⟨hquit, Nat.le_refl _, Nat.le_refl _, Nat.le_refl _, Nat.le_refl _⟩
  | write =>
    cases hok
    have hhistory := s.history_takeMessage
    unfold takeMessage at hhistory ⊢
    split at hhistory
    · exact ⟨hquit, Nat.le_refl _, Nat.le_refl _, Nat.le_refl _, Nat.le_refl _⟩
    · exact ⟨hquit, Nat.le_refl _, Nat.le_refl _, Nat.le_refl _, by rw [hhistory]⟩
  | quit =>
    cases hok
    exact ⟨rfl, Nat.le_refl _, Nat.le_refl _, Nat.le_refl _, Nat.le_refl _⟩

/-- A program that quits goes on until both threads have left their loops. -/
theorem ended_of_rest (hquit : s.shouldQuit = true)
    (hrest : ∀ op, op.isExecution ∨ op.isInstruct → s.enabled op = false) : s.Ended := by
  constructor
  · cases hplace : s.executor with
    | finished => rfl
    | launching p =>
      have hpopen := hrest (.popen true) (.inl rfl)
      simp [enabled, hplace, Executor.isLaunching] at hpopen
    | fetching p output =>
      have hfgets := hrest (.fgets none true) (.inl rfl)
      simp [enabled, hplace, Executor.isFetching] at hfgets
    | closing p output =>
      have hpclose := hrest (.pclose 0) (.inl rfl)
      simp [enabled, hplace, Executor.isClosing] at hpclose
    | _ =>
      have hexecute := hrest .execute (.inl rfl)
      simp [enabled, canExecute, hplace, hquit] at hexecute
  · cases hplace : s.instructions with
    | finished => rfl
    | _ =>
      have hinstruct := hrest .instruct (.inr rfl)
      simp [enabled, canInstruct, hplace, hquit] at hinstruct

end State

namespace Executor

theorem toEnd_le (place : Executor) : place.toEnd ≤ 7 := by
  cases place <;> simp [toEnd]

theorem toStart_le (place : Executor) : place.toStart ≤ 1 := by
  cases place <;> simp [toStart]

theorem toReport_le (place : Executor) : place.toReport ≤ 1 := by
  cases place <;> simp [toReport]

end Executor

namespace Instructions

theorem toEnd_le (place : Instructions) : place.toEnd ≤ 5 := by
  cases place <;> simp [toEnd]

theorem toAnswer_le (place : Instructions) : place.toAnswer ≤ 1 := by
  cases place <;> simp [toAnswer]

end Instructions

/-- Once `should_quit` is set, the executor takes at most seven steps more and the other thread five,
one game is started at most and two things are said; and then both are at their end. -/
theorem quits_promptly {s s' : State} {ops : List Op} (hquit : s.shouldQuit = true)
    (hrun : program.FreeRun s ops s') :
    ops.countP Op.isExecution ≤ 7 ∧ ops.countP Op.isInstruct ≤ 5 ∧ ops.countP Op.isPopen ≤ 1 ∧
      s'.history.length ≤ s.history.length + 2 ∧
      ((∀ op, op.isExecution ∨ op.isInstruct → s'.enabled op = false) → s'.Ended) := by
  obtain ⟨hquits, hquit'⟩ := hrun.along (K := fun s => s.shouldQuit = true)
    (fun _ _ _ hquit henabled _ hok => (State.nears_step hquit henabled hok).quit) hquit
  have hnears (s : State) (op : Op) (s' : State) (henabled : program.enabled s op)
      (hquit : s.shouldQuit = true ∧ True) (hok : program.step s op = .ok s') : State.Nears op s s' :=
    State.nears_step hquit.1 henabled hok
  have hexecution := hquits.countP_le (fun s => s.executor.toEnd) (b := Op.isExecution)
    fun s op s' henabled hquit hok => (hnears s op s' henabled hquit hok).executor
  have hinstruct := hquits.countP_le (fun s => s.instructions.toEnd) (b := Op.isInstruct)
    fun s op s' henabled hquit hok => (hnears s op s' henabled hquit hok).instructions
  have hpopen := hquits.countP_le (fun s => s.executor.toStart) (b := Op.isPopen)
    fun s op s' henabled hquit hok => (hnears s op s' henabled hquit hok).started
  have hsaid := hquits.invariant
    (I := fun t => t.history.length + t.executor.toReport + t.instructions.toAnswer ≤
      s.history.length + s.executor.toReport + s.instructions.toAnswer)
    (fun t op t' ht henabled hquit hok => (hnears t op t' henabled hquit hok).said.trans ht) (Nat.le_refl _)
  have hends := s.executor.toEnd_le
  have hstarts := s.executor.toStart_le
  have hreports := s.executor.toReport_le
  have hstops := s.instructions.toEnd_le
  have hanswers := s.instructions.toAnswer_le
  refine ⟨by omega, by omega, by omega, by omega, State.ended_of_rest hquit'⟩

/-- A task of a thousand games is interrupted in its first game. -/
def interrupted : List Op :=
  receiving (taskMessage 1 1000) ++ [.instruct] ++ starting ++ [.execute, .quit]

def leaving : List Op := [.execute, .popen true, .execute, .pclose 0, .execute, .execute, .execute]

theorem quits_promptly_leaving : ∃ s s', s.shouldQuit = true ∧ program.FreeRun s leaving s' ∧
    s'.history.length ≤ s.history.length + 2 := by
  have hrun : program.FreeRun (program.after (initial soloNode) interrupted) leaving
      (program.after (program.after (initial soloNode) interrupted) leaving) :=
    Machine.run_after (by decide +kernel)
  have hquit : (program.after (initial soloNode) interrupted).shouldQuit = true := by decide +kernel
  exact ⟨_, _, hquit, hrun, (quits_promptly hquit hrun).2.2.2.1⟩

end NodeProgram

end Bem
