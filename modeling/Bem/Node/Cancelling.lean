import Bem.Node.Reports

/-!
# Cancelled tasks

A CANCELLED notification is handled by comparing its task with the current one, and then forgetting
the current one.  What follows says which tasks it stops, and which it may stop by mistake.
-/

namespace Bem

namespace NodeProgram

/-! ## What a cancel stops -/

namespace Executor

/-- A task that is off the queue and not yet the current one. -/
def taken : Executor → List Task
  | storing task => [task]
  | _ => []

/-- A task whose next game or whose result is already decided on. -/
def committed : Executor → List Task
  | launching p | sending p => [p.task]
  | _ => []

end Executor

namespace State

/-- The next step of the instruction thread is the last one of handling CANCELLED for the task. -/
def finishesCancel (id : TaskId) (s : State) : Bool :=
  match s.instructions with
  | .cancelling taskId => taskId == id
  | .handling msg => msg == cancelMessage id && id != s.currentTaskId
  | _ => false

/-- The cancel does not come too early or too late for the task. -/
structure CancelReaches (id : TaskId) (s : State) : Prop where
  pending : s.shouldQuit = true ∨ ∀ task ∈ s.taskQueue ++ s.executor.taken, task.id ≠ id
  committed : ∀ task ∈ s.executor.committed, task.id ≠ id

instance (id : TaskId) (s : State) : Decidable (s.CancelReaches id) :=
  decidable_of_iff (_ ∧ _) ⟨fun h => ⟨h.1, h.2⟩, fun h => ⟨h.1, h.2⟩⟩

/-- The step makes a received task wait in the queue. -/
def receives (id : TaskId) (s : State) : Op → Bool
  | .instruct =>
    match s.instructions with
    | .handling (.task msg) => msg.task.id == id
    | _ => false
  | _ => false

/-- The tasks for which a step launches a game or sends a result. -/
def acts (s : State) : Op → List TaskId
  | .popen _ =>
    match s.executor with
    | .launching p => [p.task.id]
    | _ => []
  | .execute =>
    match s.executor with
    | .sending p => [p.task.id]
    | _ => []
  | _ => []

/-- Nothing more comes of the task: where it is still being played, a check will end it. -/
def Silent (id : TaskId) (s : State) : Prop :=
  (s.shouldQuit = true ∨ ∀ task ∈ s.taskQueue, task.id ≠ id) ∧
    match s.executor with
    | .storing task => s.shouldQuit = true ∨ task.id ≠ id
    | .preparing task => task.id = id → s.shouldQuit = true ∨ s.currentTaskId = taskIdNone
    | .playing p | .reading p _ _ | .readingId p _ | .fetching p _ | .closing p _ | .played p =>
      p.task.id = id → s.shouldQuit = true ∨ s.currentTaskId = taskIdNone
    | .checking p | .deciding p => p.task.id = id → s.currentTaskId = taskIdNone
    | .launching p | .sending p => p.task.id ≠ id
    | _ => True

end State

section Silent

variable {s s' : State} {id : TaskId}

theorem taskQueue_instruct (h : s.instruct = .ok s') :
    s'.taskQueue = s.taskQueue ∨
      ∃ msg, s.instructions = .handling (.task msg) ∧ s'.taskQueue = s.taskQueue ++ [msg.task] := by
  cases instructed h with
  | task msg hplace => exact .inr ⟨msg, hplace, rfl⟩
  | _ => exact .inl rfl

theorem State.Silent.beside (h : s.Silent id) (hbeside : Beside s s')
    (hqueue : s'.shouldQuit = true ∨ ∀ task ∈ s'.taskQueue, task.id ≠ id) : s'.Silent id := by
  have hnone : s.currentTaskId = taskIdNone → s'.currentTaskId = taskIdNone := fun hnone =>
    hbeside.current.elim (fun heq => heq.trans hnone) fun heq => heq
  have hstop : s.shouldQuit = true ∨ s.currentTaskId = taskIdNone →
      s'.shouldQuit = true ∨ s'.currentTaskId = taskIdNone := Or.imp hbeside.quit hnone
  refine ⟨hqueue, ?_⟩
  have hplace := h.2
  rw [hbeside.executor]
  split at hplace
  case h_1 => exact hplace.imp_left hbeside.quit
  case h_9 | h_10 => exact fun hid => hnone (hplace hid)
  case h_11 | h_12 => exact hplace
  case h_13 => trivial
  all_goals exact fun hid => hstop (hplace hid)

theorem silent_execute (h : s.execute = .ok s') (hs : s.Silent id) : s'.Silent id := by
  unfold State.Silent at hs
  cases executed h with
  | idle => exact hs
  | take hplace hrun hqueue =>
    have hne := hs.1.resolve_left hrun
    rw [hqueue, List.forall_mem_cons] at hne
    exact ⟨.inr hne.2, .inr hne.1⟩
  | store hplace =>
    rw [hplace] at hs
    exact ⟨hs.1, fun hid => .inl (hs.2.resolve_right (not_not.mpr hid))⟩
  | check hplace _ hrun | compare hplace hrun =>
    rw [hplace] at hs
    exact ⟨hs.1, fun hid => (hs.2 hid).resolve_left hrun⟩
  | cancel hplace hnone =>
    rw [hplace] at hs
    exact ⟨hs.1, fun _ => .inr hnone⟩
  | launch hplace hsome | send hplace hsome =>
    rw [hplace] at hs
    exact ⟨hs.1, fun hid => hsome (hs.2 hid)⟩
  | prepare hplace | interrupt hplace | complete hplace | close hplace | look hplace
  | interruptGame hplace | fetch hplace | cancelGame hplace =>
    rw [hplace] at hs
    exact hs
  | wait | leave | ignore | report | clear => exact ⟨hs.1, trivial⟩
  | finish => exact ⟨.inl rfl, trivial⟩

theorem silent_popen (opened : Bool) (hs : s.Silent id) : (s.popen opened).Silent id := by
  unfold State.popen
  split
  next p hplace =>
    simp only [State.Silent, hplace] at hs
    have hother : p.task.id = id → s.shouldQuit = true ∨ s.currentTaskId = taskIdNone :=
      fun hid => absurd hid hs.2
    split
    · exact ⟨hs.1, hother⟩
    · exact ⟨hs.1, hother⟩
  next => exact hs

theorem silent_fgets (line : Option (List Char)) (eof : Bool) (hs : s.Silent id) :
    (s.fgets line eof).Silent id := by
  unfold State.fgets
  split
  next p output hplace =>
    simp only [State.Silent, hplace] at hs
    exact hs
  next => exact hs

theorem silent_pclose (exitStatus : UInt8) (hs : s.Silent id) :
    (s.pclose exitStatus).Silent id := by
  unfold State.pclose
  split
  next p output hplace =>
    simp only [State.Silent, hplace] at hs
    exact hs
  next => exact hs

theorem silent_step {op : Op} (h : program.step s op = .ok s') (hop : s.receives id op = false)
    (hs : s.Silent id) : s'.Silent id := by
  cases op with
  | deliver msg =>
    cases h
    exact hs.beside (beside_instructions s s.instructions _) hs.1
  | write =>
    cases h
    refine hs.beside (beside_takeMessage s) ?_
    unfold State.takeMessage
    split
    · exact hs.1
    · exact hs.1
  | quit =>
    cases h
    exact hs.beside (beside_quit s) (.inl rfl)
  | instruct =>
    have hbeside := beside_instruct h
    apply hs.beside hbeside
    refine hs.1.imp hbeside.quit fun hne => ?_
    cases taskQueue_instruct h with
    | inl hsame =>
      rw [hsame]
      exact hne
    | inr hmore =>
      -- a task that comes to the queue is another one
      rcases hmore with ⟨msg, hplace, hqueue⟩
      rw [hqueue, List.forall_mem_append, List.forall_mem_singleton]
      simp only [State.receives, hplace] at hop
      exact ⟨hne, ne_of_beq_false hop⟩
  | execute => exact silent_execute h hs
  | popen opened =>
    cases h
    exact silent_popen opened hs
  | fgets line eof =>
    cases h
    exact silent_fgets line eof hs
  | pclose exitStatus =>
    cases h
    exact silent_pclose exitStatus hs

theorem not_mem_acts {op : Op} (hs : s.Silent id) : id ∉ s.acts op := by
  unfold State.acts
  cases op with
  | popen opened =>
    dsimp only
    split
    next p hplace =>
      simp only [State.Silent, hplace] at hs
      exact fun hmem => hs.2 (List.mem_singleton.mp hmem).symm
    next => exact List.not_mem_nil
  | execute =>
    dsimp only
    split
    next p hplace =>
      simp only [State.Silent, hplace] at hs
      exact fun hmem => hs.2 (List.mem_singleton.mp hmem).symm
    next => exact List.not_mem_nil
  | _ => exact List.not_mem_nil

/-- The instruction thread is done with a cancel that reaches the task. -/
theorem silent_of_finishesCancel (hsound : s.Sound) (hfinish : s.finishesCancel id = true)
    (hreach : s.CancelReaches id) (h : s.instruct = .ok s') : s'.Silent id := by
  have hbeside := beside_instruct h
  have hqueue : s'.taskQueue = s.taskQueue := by
    cases taskQueue_instruct h with
    | inl hsame => exact hsame
    | inr hmore =>
      rcases hmore with ⟨msg, hplace, -⟩
      rw [State.finishesCancel, hplace] at hfinish
      cases hfinish
  -- the task is not the current one, whether it has been or not
  have hother : s'.currentTaskId = id → s'.currentTaskId = taskIdNone := by
    intro hid
    unfold State.finishesCancel at hfinish
    split at hfinish
    next taskId hplace =>
      simp only [State.instruct, hplace] at h
      cases h
      rfl
    next msg hplace =>
      rw [Bool.and_eq_true, beq_iff_eq, bne_iff_ne] at hfinish
      simp only [State.instruct, hplace, hfinish.1, cancelMessage, if_neg hfinish.2] at h
      cases h
      exact absurd hid.symm hfinish.2
    next => cases hfinish
  have hsound' := hsound.beside hbeside
  have hpending := hreach.pending
  have hcommitted := hreach.committed
  rw [← hbeside.executor, ← hqueue] at hpending
  rw [← hbeside.executor] at hcommitted
  rw [List.forall_mem_append] at hpending
  refine ⟨hpending.imp hbeside.quit And.left, ?_⟩
  unfold State.Sound at hsound'
  split
  case h_1 task hplace =>
    rw [hplace] at hpending
    exact hpending.imp hbeside.quit fun hne => hne.2 task (List.mem_singleton_self task)
  case h_11 p hplace | h_12 p hplace =>
    rw [hplace] at hcommitted
    exact hcommitted p.task (List.mem_singleton_self p.task)
  case h_13 => trivial
  case h_2 hplace =>
    simp only [hplace] at hsound'
    exact fun hid => .inr (hsound'.elim (fun hcur => hother (hcur.trans hid)) fun hnone => hnone)
  case h_9 hplace | h_10 hplace =>
    simp only [hplace] at hsound'
    exact fun hid => hsound'.1.current.elim (fun hcur => hother (hcur.trans hid)) fun hnone => hnone
  all_goals
    rename_i hplace
    simp only [hplace] at hsound'
    exact fun hid => .inr (hsound'.1.current.elim (fun hcur => hother (hcur.trans hid))
      fun hnone => hnone)

/-- After a cancel that reaches the task, and until the task is received again, none of its games is
launched and no result of it is sent. -/
theorem cancel_takes_effect {config : NodeConfig} {ops rest : List Op} {s s' : State} {id : TaskId}
    (hrun : program.FreeRun (initial config) ops s) (hfinish : s.finishesCancel id = true)
    (hreach : s.CancelReaches id)
    (hrest : program.Run (fun s op => s.receives id op = false) s (.instruct :: rest) s') :
    id ∉ program.outputs State.acts s (.instruct :: rest) := by
  have hsound := (inOrder_run hrun).1
  cases hrest with
  | cons henabled _ hok hrest =>
    have hsilent := silent_of_finishesCancel hsound hfinish hreach hok
    have hnone := hrest.outputs_invariant State.acts (I := fun s log => s.Silent id ∧ id ∉ log)
      (fun s op s' log hs _ hop hok => ⟨silent_step hok hop hs.1,
        fun hmem => (List.mem_append.mp hmem).elim hs.2 (not_mem_acts hs.1)⟩)
      ⟨hsilent, List.not_mem_nil⟩
    rw [Machine.outputs, hok]
    exact hnone.2

/-- The task is cancelled while its first game prints. -/
theorem cancel_takes_effect_running :
    let s := program.after (initial soloNode)
      (receiving (taskMessage 1 2) ++ [.instruct] ++ starting ++ [.execute, .execute, .popen true] ++
        receiving (cancelMessage 1) ++ [.instruct])
    1 ∉ program.outputs State.acts s
      [.instruct, .execute, .execute, .pclose 0, .execute, .execute, .execute] :=
  cancel_takes_effect (Machine.run_after (by decide +kernel)) (by decide +kernel)
    (by decide +kernel) (Machine.run_after (by decide +kernel))

/-- The second task is cancelled while it waits: it is played and reported all the same. -/
theorem cancelled_task_played : ¬ ∀ (config : NodeConfig) (ops rest : List Op) (s s' : State)
    (id : TaskId), program.FreeRun (initial config) ops s → id ∈ s.receivedTasks.map Task.id →
      s.finishesCancel id = true →
      program.Run (fun s op => s.receives id op = false) s (.instruct :: rest) s' →
      id ∉ program.outputs State.acts s (.instruct :: rest) := by
  intro h
  have hrun := Machine.run_after (show (program.exec (fun _ _ => True) (initial soloNode)
    (receiving (taskMessage 1 1) ++ [.instruct] ++ receiving (taskMessage 2 1) ++ [.instruct] ++
      starting ++ receiving (cancelMessage 2))).isSome by decide +kernel)
  have hrest := Machine.run_after (show (program.exec (fun s op => s.receives 2 op = false)
    (program.after (initial soloNode) (receiving (taskMessage 1 1) ++ [.instruct] ++
      receiving (taskMessage 2 1) ++ [.instruct] ++ starting ++ receiving (cancelMessage 2)))
    (.instruct :: (playing ++ reporting ++ starting ++ playing ++ reporting))).isSome by
      decide +kernel)
  have hnone := h _ _ _ _ _ 2 hrun (by decide +kernel) (by decide +kernel) hrest
  revert hnone
  decide +kernel

end Silent

/-! ## What a cancel may not stop -/

/-- The task that the executor has made the current one, until it decides on the result. -/
def Executor.underway : Executor → List Task
  | preparing task => [task]
  | playing p | checking p | launching p | reading p _ _ | readingId p _ | fetching p _
  | closing p _ | played p | deciding p => [p.task]
  | _ => []

/-- What was handled after so many tasks. -/
def afterTask : Nat → List Message → List Message
  | 0, log => log
  | _ + 1, [] => []
  | k + 1, .task _ :: log => afterTask k log
  | k + 1, _ :: log => afterTask (k + 1) log

theorem afterTask_append {k : Nat} {log : List Message}
    (h : k ≤ (log.filterMap fun | .task msg => some msg.task | _ => none).length)
    (more : List Message) : afterTask k (log ++ more) = afterTask k log ++ more := by
  induction k, log using afterTask.induct with
  | case1 log => rw [afterTask, afterTask]
  | case2 k => exact absurd h (Nat.not_succ_le_zero k)
  | case3 k msg log ih => exact ih (Nat.le_of_succ_le_succ h)
  | case4 k head log hhead ih =>
    cases head with
    | task msg => exact absurd rfl (hhead msg)
    | _ => exact ih h

namespace State

/-- The task whose result the executor is about to ignore. -/
def ignored (s : State) : List Task :=
  match s.executor with
  | .deciding p => if s.currentTaskId = taskIdNone then [p.task] else []
  | _ => []

/-- A result is ignored only if its task, the last one taken, was cancelled after it was received. -/
def Deserved (s : State) : Prop :=
  ∀ task ∈ s.ignored, s.started.getLast? = some task ∧
    cancelMessage task.id ∈ afterTask s.started.length s.handled

instance (s : State) : Decidable s.Deserved := inferInstanceAs (Decidable (∀ task ∈ s.ignored, _))

/-- Nothing but the task that was compared is forgotten, and no task has the id of none. -/
def spares (s : State) : Op → Bool
  | .instruct =>
    match s.instructions with
    | .cancelling taskId =>
      s.currentTaskId == taskIdNone || s.executor.underway.all fun task => task.id == taskId
    | _ => true
  | .execute =>
    match s.executor with
    | .storing task => task.id != taskIdNone
    | _ => true
  | _ => true

/-- As long as a task is underway, only a cancel of it leaves none as the current one. -/
def Excused (s : State) : Prop :=
  ∀ task ∈ s.executor.underway, s.currentTaskId = taskIdNone →
    cancelMessage task.id ∈ afterTask s.started.length s.handled

end State

section Deserved

variable {s s' : State}

theorem afterTask_started (hs : s.InOrder) (more : List Message) :
    afterTask s.started.length (s.handled ++ more) =
      afterTask s.started.length s.handled ++ more := by
  apply afterTask_append
  show s.started.length ≤ s.receivedTasks.length
  rw [hs.taken, List.length_append]
  exact Nat.le_add_right _ _

theorem handled_instruct (h : s.instruct = .ok s') : ∃ more, s'.handled = s.handled ++ more ∧
    (s'.currentTaskId = s.currentTaskId ∨
      ∃ taskId, s.instructions = .cancelling taskId ∧ more = [cancelMessage taskId]) := by
  cases instructed h with
  | move place queue => exact ⟨[], (List.append_nil _).symm, .inl rfl⟩
  | quit => exact ⟨[], (List.append_nil _).symm, .inl rfl⟩
  | task msg hplace => exact ⟨[_], rfl, .inl rfl⟩
  | ignore msg hplace => exact ⟨[_], rfl, .inl rfl⟩
  | reply question msg hplace => exact ⟨[_], rfl, .inl rfl⟩
  | cancel taskId hplace => exact ⟨[_], rfl, .inr ⟨taskId, hplace, rfl⟩⟩

theorem excused_instruct (h : s.instruct = .ok s') (hop : s.spares .instruct = true)
    (horder : s.InOrder) (hs : s.Excused) : s'.Excused := by
  have hbeside := beside_instruct h
  unfold State.Excused
  rw [hbeside.executor, hbeside.started]
  intro task htask hnone
  rcases handled_instruct h with ⟨more, hmore, hcurrent⟩
  rw [hmore, afterTask_started horder, List.mem_append]
  by_cases hwas : s.currentTaskId = taskIdNone
  · exact .inl (hs task htask hwas)
  cases hcurrent with
  | inl heq => exact absurd (heq.symm.trans hnone) hwas
  | inr hcancel =>
    rcases hcancel with ⟨taskId, hplace, rfl⟩
    -- the task that is forgotten is the one that the message is about
    simp only [State.spares, hplace, Bool.or_eq_true, beq_iff_eq, List.all_eq_true] at hop
    rw [(hop.resolve_left hwas) task htask]
    exact .inr (List.mem_singleton_self _)

theorem State.Excused.goOn (h : s.Excused) {place place' : Executor} (hplace : s.executor = place)
    (hsame : place'.underway = place.underway) : State.Excused { s with executor := place' } := by
  show ∀ task ∈ place'.underway, _
  rw [hsame, ← hplace]
  exact h

theorem excused_of_idle (hidle : s.executor.underway = []) : s.Excused := by
  intro task htask
  rw [hidle] at htask
  exact absurd htask List.not_mem_nil

theorem excused_execute (h : s.execute = .ok s') (hop : s.spares .execute = true)
    (hs : s.Excused) : s'.Excused := by
  cases executed h with
  | idle => exact hs
  | store hplace =>
    simp only [State.spares, hplace, bne_iff_ne] at hop
    intro other _ hnone
    exact absurd hnone hop
  | prepare hplace | check hplace | interrupt hplace | complete hplace | launch hplace
  | cancel hplace | close hplace | look hplace | interruptGame hplace | fetch hplace
  | cancelGame hplace | compare hplace => exact hs.goOn hplace rfl
  | wait | leave | take | send | ignore | report | clear | finish => exact excused_of_idle rfl

theorem excused_step {op : Op} (h : program.step s op = .ok s') (hop : s.spares op = true)
    (horder : s.InOrder) (hs : s.Excused) : s'.Excused := by
  cases op with
  | deliver msg =>
    cases h
    exact hs
  | write =>
    cases h
    unfold State.takeMessage
    split
    · exact hs
    · exact hs
  | quit =>
    cases h
    exact hs
  -- only an instruction forgets the task, and only the executor takes one up
  | instruct => exact excused_instruct h hop horder hs
  | execute => exact excused_execute h hop hs
  | popen opened =>
    cases h
    unfold State.popen
    split
    next p hplace =>
      split
      · exact hs.goOn hplace rfl
      · exact hs.goOn hplace rfl
    next => exact hs
  | fgets line eof =>
    cases h
    unfold State.fgets
    split
    next p output hplace => exact hs.goOn hplace rfl
    next => exact hs
  | pclose exitStatus =>
    cases h
    unfold State.pclose
    split
    next p output hplace => exact hs.goOn hplace rfl
    next => exact hs

/-- As long as no cancel forgets another task than its own, a result that is ignored is one of a
task that was cancelled. -/
theorem ignores_only_cancelled {config : NodeConfig} {ops : List Op}
    (hrun : program.Run (fun s op => s.spares op = true) (initial config) ops s) : s.Deserved := by
  have hs := hrun.invariant (I := fun s => s.Sound ∧ s.InOrder ∧ s.Excused)
    (fun _ _ _ hs _ hop hok => ⟨sound_step hok hs.1, inOrder_step hok hs.1 hs.2.1,
      excused_step hok hop hs.2.1 hs.2.2⟩)
    ⟨trivial, ⟨rfl, [], rfl, .nil⟩, excused_of_idle rfl⟩
  intro task htask
  unfold State.ignored at htask
  split at htask
  next p hplace =>
    split at htask
    next hnone =>
      rw [List.mem_singleton.mp htask]
      rcases hs.2.1.sent with ⟨given, hstarted, -⟩
      have hunderway := hs.2.2
      unfold State.Excused at hunderway
      rw [hplace] at hstarted hunderway
      constructor
      · rw [hstarted]
        exact List.getLast?_concat
      · exact hunderway p.task (List.mem_singleton_self _) hnone
    next => cases htask
  next => cases htask

/-- A task is cancelled in its only game, after another one was reported. -/
theorem ignores_only_cancelled_second :
    (program.after (initial soloNode)
      (receiving (taskMessage 1 1) ++ [.instruct] ++ receiving (taskMessage 2 1) ++ [.instruct] ++
        starting ++ playing ++ reporting ++ starting ++ [.execute, .execute, .popen true] ++
        receiving (cancelMessage 2) ++ [.instruct, .instruct, .execute, .execute, .pclose 0] ++
        [.execute, .execute])).Deserved :=
  ignores_only_cancelled (Machine.run_after (by decide +kernel))

/-- The first task is compared while it is the current one, and the second one is forgotten. -/
theorem wrong_task_ignored : ¬ ∀ (config : NodeConfig) (ops : List Op) (s : State),
    program.FreeRun (initial config) ops s → s.Deserved := by
  intro h
  have hrun := Machine.run_after (show (program.exec (fun _ _ => True) (initial soloNode)
    (receiving (taskMessage 1 1) ++ [.instruct] ++ receiving (taskMessage 2 1) ++ [.instruct] ++
      starting ++ playing ++ receiving (cancelMessage 1) ++ [.instruct] ++ reporting ++ starting ++
      [.execute, .execute, .popen true, .instruct, .execute, .execute, .pclose 0, .execute,
        .execute])).isSome by decide +kernel)
  have hdeserved := h _ _ _ hrun
  revert hdeserved
  decide +kernel

end Deserved

end NodeProgram

end Bem
