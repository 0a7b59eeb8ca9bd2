import Bem.Node.Cancelling
import Bem.Node.Sessions

/-!
# Programs that are left alone

Where nothing is called off and the program goes on, it reports every task that it takes.  So when none
of its threads has anything left to do, all tasks that have come to it are reported.
-/

namespace Bem

namespace NodeProgram

namespace State

/-- No task was given up, and no thread has left its loop. -/
structure Diligent (s : State) : Prop where
  current : ∀ task ∈ s.executor.underway, s.currentTaskId = task.id
  reported : s.reported.length + s.executor.inHand.length = s.started.length
  executor : s.executor ≠ .terminating ∧ s.executor ≠ .finished
  instructions : s.instructions ≠ .terminating ∧ s.instructions ≠ .finished

variable {s s' : State}

theorem diligent_initial (config : NodeConfig) : (initial config).Diligent :=
  ⟨fun _ h => absurd h List.not_mem_nil, rfl, by simp [initial], by simp [initial]⟩

/-- The executor goes on with what it has. -/
theorem Diligent.goOn (h : s.Diligent) {place : Executor}
    (hunderway : ∀ task ∈ place.underway, task ∈ s.executor.underway)
    (hhand : place.inHand = s.executor.inHand)
    (hplace : place ≠ .terminating ∧ place ≠ .finished) : Diligent { s with executor := place } where
  current task htask := h.current task (hunderway task htask)
  reported := by
    show s.reported.length + place.inHand.length = s.started.length
    rw [hhand]
    exact h.reported
  executor := hplace
  instructions := h.instructions

/-- Another thread leaves the current task alone. -/
theorem Diligent.beside (h : s.Diligent) (hbeside : Beside s s')
    (hcurrent : s'.currentTaskId = s.currentTaskId)
    (hinstructions : s'.instructions ≠ .terminating ∧ s'.instructions ≠ .finished) : s'.Diligent where
  current := by
    rw [hbeside.executor, hcurrent]
    exact h.current
  reported := by
    rw [hbeside.executor, hbeside.reported, hbeside.started]
    exact h.reported
  executor := by
    rw [hbeside.executor]
    exact h.executor
  instructions := hinstructions

theorem Diligent.takeMessage (h : s.Diligent) : s.takeMessage.Diligent := by
  have hsame : s.takeMessage.currentTaskId = s.currentTaskId ∧
      s.takeMessage.instructions = s.instructions := by
    unfold State.takeMessage
    split <;> exact ⟨rfl, rfl⟩
  refine h.beside (beside_takeMessage s) hsame.1 ?_
  rw [hsame.2]
  exact h.instructions

/-- The task that is underway is the current one, and no task has the id of none. -/
theorem Diligent.current_ne (h : s.Diligent) (horder : s.InOrder)
    (hids : ∀ task ∈ s.started, task.id ≠ taskIdNone) {p : Play}
    (hunderway : s.executor.underway = [p.task]) (hhand : s.executor.inHand = [p.task]) :
    s.currentTaskId ≠ taskIdNone := by
  rw [h.current p.task (by rw [hunderway]; exact List.mem_singleton_self _)]
  obtain ⟨given, hstarted, -⟩ := horder.sent
  apply hids
  rw [hstarted, hhand]
  exact List.mem_append_right _ (List.mem_singleton_self _)

theorem diligent_execute (h : s.Diligent) (horder : s.InOrder)
    (hids : ∀ task ∈ s.started, task.id ≠ taskIdNone) (hok : s.execute = .ok s')
    (hrun : s'.shouldQuit = false) : s'.Diligent := by
  have hsame {place : Executor} (hplace : s.executor = place) {place' : Executor}
      (hunderway : ∀ task ∈ place'.underway, task ∈ place.underway)
      (hhand : place'.inHand = place.inHand)
      (hgoesOn : place' ≠ .terminating ∧ place' ≠ .finished) :
      Diligent { s with executor := place' } := by
    subst hplace
    exact h.goOn hunderway hhand hgoesOn
  have hreported := h.reported
  cases executed hok with
  | idle => exact h
  | wait hplace => exact hsame hplace (fun _ => id) rfl (by simp)
  | leave _ hquit | interrupt _ hquit | interruptGame _ hquit => cases hrun.symm.trans hquit
  | finish => cases hrun
  | @take task taskQueue hplace =>
    refine ⟨fun _ htask => absurd htask List.not_mem_nil, ?_, by simp, h.instructions⟩
    rw [hplace] at hreported
    show s.reported.length + 1 = (s.started ++ [task]).length
    rw [List.length_append, ← hreported]
    rfl
  | @store task hplace =>
    refine ⟨fun t ht => by rw [List.mem_singleton.mp ht], ?_, by simp, h.instructions⟩
    rw [hplace] at hreported
    exact hreported
  | prepare hplace | check hplace | complete hplace | launch hplace | close hplace | look hplace
  | fetch hplace | compare hplace => exact hsame hplace (fun _ => id) rfl (by simp)
  | send hplace => exact hsame hplace (fun _ htask => absurd htask List.not_mem_nil) rfl (by simp)
  | cancel hplace hnone | cancelGame hplace hnone | ignore hplace hnone =>
    exact absurd hnone (h.current_ne horder hids (by rw [hplace]; rfl) (by rw [hplace]; rfl))
  | @report p hplace =>
    refine ⟨fun _ htask => absurd htask List.not_mem_nil, ?_, by simp, h.instructions⟩
    rw [hplace] at hreported
    show (s.sendMessage (.result _)).reported.length + 0 = s.started.length
    rw [reported_sendMessage_result, List.length_append]
    exact hreported
  | clear hplace =>
    refine ⟨fun _ htask => absurd htask List.not_mem_nil, ?_, by simp, h.instructions⟩
    rw [hplace] at hreported
    exact hreported

theorem diligent_instruct (h : s.Diligent) (hcalm : ∀ m ∈ s.instructions.inHand, ¬ m.isCancel)
    (hok : s.instruct = .ok s') (hrun : s'.shouldQuit = false) : s'.Diligent := by
  have hbeside := beside_instruct hok
  have hstill : s.shouldQuit = false := by
    by_contra hquit
    cases hrun.symm.trans (hbeside.quit (by simpa using hquit))
  unfold State.instruct at hok
  split at hok
  case h_1 =>
    rw [if_neg (by simp [hstill])] at hok
    cases hok
    exact h.beside hbeside rfl (by simp)
  case h_2 =>
    rw [if_neg (by simp [hstill])] at hok
    split at hok <;> cases hok
    · exact h
    · exact h.beside hbeside rfl (by simp)
  case h_3 =>
    cases hok
    exact h.beside hbeside rfl (by simp [finishHandling])
  case h_4 =>
    split at hok
    · cases hok
      exact h.beside hbeside rfl (by simp)
    · split at hok <;> cases hok
      · exact h.beside hbeside rfl (by simp)
      · exact h.beside hbeside rfl (by simp [finishHandling])
    · cases hok
  case h_5 => cases hok
  case h_6 =>
    split at hok <;> cases hok <;> exact h.beside hbeside rfl (by simp)
  case h_7 =>
    cases hok
    exact h.beside hbeside rfl (by simp [finishHandling])
  case h_8 taskId hplace =>
    -- a notification of a cancel would be in hand
    rw [hplace] at hcalm
    exact absurd rfl (hcalm _ (List.mem_singleton_self _))
  case h_9 hplace => exact absurd hplace h.instructions.1
  case h_10 hplace => exact absurd hplace h.instructions.2

theorem diligent_step {op : Op} (h : s.Diligent) (horder : s.InOrder)
    (hids : ∀ task ∈ s.started, task.id ≠ taskIdNone)
    (hcalm : ∀ m ∈ s.instructions.inHand, ¬ m.isCancel) (hok : s.step op = .ok s')
    (hrun : s'.shouldQuit = false) : s'.Diligent := by
  cases op with
  | deliver msg =>
    cases hok
    exact h.beside (beside_instructions s s.instructions _) rfl h.instructions
  | write =>
    cases hok
    exact h.takeMessage
  | quit =>
    cases hok
    cases hrun
  | instruct => exact diligent_instruct h hcalm hok hrun
  | execute => exact diligent_execute h horder hids hok hrun
  | popen opened =>
    cases hok
    unfold popen
    split
    next hplace =>
      split
      · exact h.goOn (by rw [hplace]; exact fun _ => id) (by rw [hplace]; rfl) (by simp)
      · exact h.goOn (by rw [hplace]; exact fun _ => id) (by rw [hplace]; rfl) (by simp [finishGame])
    next => exact h
  | fgets line eof =>
    cases hok
    unfold fgets
    split
    next hplace => exact h.goOn (by rw [hplace]; exact fun _ => id) (by rw [hplace]; rfl) (by simp)
    next => exact h
  | pclose exitStatus =>
    cases hok
    unfold pclose
    split
    next hplace =>
      exact h.goOn (by rw [hplace]; exact fun _ => id) (by rw [hplace]; rfl) (by simp [finishGame])
    next => exact h

/-- Nothing is taken back from what was reported. -/
theorem Diligent.reports (h : s.Diligent) (horder : s.InOrder) (hhand : s.executor.inHand = []) :
    List.Forall₂ Reports s.reported s.started := by
  obtain ⟨given, hstarted, hsent⟩ := horder.sent
  have hlength := h.reported
  rw [hhand, List.append_nil] at hstarted
  rw [hhand, List.length_nil, Nat.add_zero] at hlength
  subst hstarted
  rw [List.sublistForall₂_iff] at hsent
  obtain ⟨tasks, hmatch, hsub⟩ := hsent
  rwa [← hsub.eq_of_length (hmatch.length_eq.symm.trans hlength)]

end State

namespace Session

variable {s s' : Session} {given : List Message}

theorem Stepped.diligent {op : Op} (hstep : Stepped s op s') (htook : s.Took given)
    (hcalm : ∀ m ∈ given, ¬ m.isCancel) (hids : ∀ task ∈ tasksIn given, task.id ≠ taskIdNone)
    (h : s.node.Diligent) (hrun : s'.node.shouldQuit = false) : s'.node.Diligent := by
  cases hstep with
  | program hmain henabled hok =>
    obtain ⟨replies, -, hgiven⟩ := htook.given
    refine State.diligent_step h htook.inOrder (fun task htask => hids task ?_) (fun m hm => hcalm m ?_)
      hok hrun
    · apply (receivedTasks_sublist htook).subset
      rw [htook.inOrder.taken]
      exact List.mem_append_left _ htask
    · rw [hgiven, State.incoming]
      exact List.mem_append_right _ (List.mem_append_left _ (List.mem_append_right _ hm))
  | greet hmain =>
    exact h.beside ⟨rfl, rfl, rfl, id, .inl rfl, reported_sendHello s, [], (List.append_nil _).symm,
      (List.append_nil _).symm⟩ rfl h.instructions
  | accept | refuse => exact h.beside (beside_instructions s.node s.node.instructions _) rfl h.instructions
  | giveUp => cases hrun

/-- No thread of the program can go on, and no game is being played. -/
def atRest (s : Session) : Prop := ∀ op : Op, op.isOwn → op ≠ .quit → ¬ s.enabled op

/-- The threads of the program wait, and so does it for no game. -/
def rests (s : Session) : Bool :=
  !s.canAct && !s.node.canExecute && !s.node.executor.isLaunching && !s.node.executor.isFetching &&
    !s.node.executor.isClosing

theorem atRest_of_rests (h : s.rests) : s.atRest := by
  unfold rests at h
  simp only [Bool.and_eq_true, Bool.not_eq_true'] at h
  obtain ⟨⟨⟨⟨hact, hexecute⟩, hlaunching⟩, hfetching⟩, hclosing⟩ := h
  intro op hown hquit henabled
  cases op with
  | deliver msg => cases hown
  | write => cases hown
  | quit => exact hquit rfl
  | instruct => cases hact.symm.trans henabled
  | execute => cases hexecute.symm.trans henabled
  | popen opened => cases hlaunching.symm.trans henabled
  | fgets line eof => cases hfetching.symm.trans henabled
  | pclose exitStatus => cases hclosing.symm.trans henabled

/-- When there is nothing left to do, all that has come is handled. -/
theorem incoming_of_atRest (hrest : s.atRest) (htook : s.Took given) (h : s.node.Diligent)
    (hrun : s.node.shouldQuit = false) : s.node.incoming = s.node.handled := by
  have hinstruct := hrest .instruct rfl nofun
  change ¬ s.canAct = true at hinstruct
  unfold canAct State.canInstruct at hinstruct
  have hnone (hinstructions : s.node.instructions.inHand = [])
      (hqueue : s.node.recvMessageQueue = []) : s.node.incoming = s.node.handled := by
    unfold State.incoming
    rw [hinstructions, hqueue, List.append_nil, List.append_nil]
  cases hmain : s.main with
  | greeting | rejected => simp [hmain] at hinstruct
  | awaiting =>
    have hidle := htook.idle (by rw [hmain]; exact Main.noConfusion)
    refine hnone (by rw [hidle.1]; rfl) ?_
    simpa [hmain, hrun] using hinstruct
  | instructing =>
    rw [hmain] at hinstruct
    cases hplace : s.node.instructions with
    | receiving =>
      refine hnone (by rw [hplace]; rfl) ?_
      simpa [hplace, hrun] using hinstruct
    | finished => exact absurd hplace h.instructions.2
    | _ => simp [hplace] at hinstruct

theorem idle_of_atRest (hrest : s.atRest) (h : s.node.Diligent) (hrun : s.node.shouldQuit = false) :
    s.node.executor.inHand = [] ∧ s.node.taskQueue = [] := by
  have hexecute : ¬ s.node.canExecute = true := hrest .execute rfl nofun
  have hpopen : ¬ s.node.executor.isLaunching = true := hrest (.popen true) rfl nofun
  have hfgets : ¬ s.node.executor.isFetching = true := hrest (.fgets none true) rfl nofun
  have hpclose : ¬ s.node.executor.isClosing = true := hrest (.pclose 0) rfl nofun
  unfold State.canExecute at hexecute
  cases hplace : s.node.executor with
  | waiting =>
    refine ⟨rfl, ?_⟩
    simpa [hplace, hrun] using hexecute
  | finished => exact absurd hplace h.executor.2
  | launching p => exact absurd (by rw [hplace]; rfl) hpopen
  | fetching p output => exact absurd (by rw [hplace]; rfl) hfgets
  | closing p output => exact absurd (by rw [hplace]; rfl) hpclose
  | _ => simp [hplace] at hexecute

/-- A program that has nothing left to do has reported every task that has come, provided that no task has
come in the place of the reply to its HELLO. -/
theorem reports_of_atRest (hrest : s.atRest) (htook : s.Took given) (h : s.node.Diligent)
    (hrun : s.node.shouldQuit = false) (hopening : ∀ msg, given.head? ≠ some (.task msg)) :
    List.Forall₂ Reports (resultsIn s.node.history) (tasksIn given) := by
  obtain ⟨hhand, hqueue⟩ := idle_of_atRest hrest h hrun
  have hreports := h.reports htook.inOrder hhand
  obtain ⟨replies, hlength, hgiven⟩ := htook.given
  rw [incoming_of_atRest hrest htook h hrun] at hgiven
  have htaken := htook.inOrder.taken
  rw [hqueue, List.append_nil] at htaken
  have hnone : tasksIn replies = [] := by
    cases replies with
    | nil => rfl
    | cons m replies =>
      have hshort : replies = [] := by
        rw [List.length_cons] at hlength
        have hle : s.consumed ≤ 1 := by
          unfold consumed
          split <;> omega
        exact List.length_eq_zero_iff.mp (by omega)
      subst hshort
      cases m with
      | task msg => exact absurd (by rw [hgiven]; rfl) (hopening msg)
      | _ => rfl
  rw [hgiven, tasksIn_append, hnone, List.nil_append]
  show List.Forall₂ Reports s.node.reported s.node.receivedTasks
  rw [htaken]
  exact hreports

end Session

end NodeProgram

end Bem
