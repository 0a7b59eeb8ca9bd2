import Bem.Node.Reports

/-!
# What a node answers

A question is answered with the result of two reads of `current_task_id`.  The executor stores a task
between them at will, and the answer is then that a task with no id is running.
-/

namespace Bem

namespace NodeProgram

namespace State

/-- The node has received and started a task with the id. -/
def hasStarted (s : State) (id : TaskId) : Prop :=
  id ≠ taskIdNone ∧ ∃ task ∈ s.started, task ∈ s.receivedTasks ∧ task.id = id

/-- Whatever was said to be running had been started. -/
def CoherentAnswers (s : State) : Prop :=
  ∀ msg, .taskNotify msg ∈ s.history → msg.taskStatus = .tsRunning → s.hasStarted msg.taskId

/-- The second read finds no task where the first one found none. -/
def readsAgree (s : State) (op : Op) : Prop :=
  match op, s.instructions with
  | .instruct, .answering _ taskId => taskId = taskIdNone → s.currentTaskId = taskIdNone
  | _, _ => True

instance (s : State) (op : Op) : Decidable (s.readsAgree op) := by
  unfold readsAgree
  split <;> infer_instance

/-- The answer that goes wrong. -/
def nothingRuns : TaskNotifyMessage := { taskId := taskIdNone, taskStatus := .tsRunning }

/-! ## Runs whose reads agree -/

/-- The id of the current task, as far as it is one of a task that was taken. -/
def Known (s : State) (id : TaskId) : Prop := id = taskIdNone ∨ ∃ task ∈ s.started, task.id = id

/-- What the instruction thread has read so far is coherent. -/
def ReadsCoherent (s : State) : Instructions → Prop
  | .answering _ taskId => s.Known taskId
  | .replying _ msg => msg.taskStatus = .tsRunning → msg.taskId ≠ taskIdNone ∧ s.Known msg.taskId
  | _ => True

structure Truthful (s : State) : Prop where
  current : s.Known s.currentTaskId
  storing : ∀ task, s.executor = .storing task → task ∈ s.started
  place : s.ReadsCoherent s.instructions
  answers : ∀ msg, .taskNotify msg ∈ s.history → msg.taskStatus = .tsRunning →
    msg.taskId ≠ taskIdNone ∧ s.Known msg.taskId

variable {s s' : State}

theorem Known.mono {id : TaskId} (h : s.Known id) (hstarted : ∀ task ∈ s.started, task ∈ s'.started) :
    s'.Known id := by
  unfold Known at h
  rcases h with hnone | ⟨task, htask, hid⟩
  · exact .inl hnone
  · exact .inr ⟨task, hstarted task htask, hid⟩

/-- Steps that only take further tasks, and say nothing. -/
theorem Truthful.quiet (h : s.Truthful) (hstarted : ∀ task ∈ s.started, task ∈ s'.started)
    (hcurrent : s'.Known s'.currentTaskId)
    (hstoring : ∀ task, s'.executor = .storing task → task ∈ s'.started)
    (hplace : s'.ReadsCoherent s'.instructions)
    (hhistory : ∀ msg, .taskNotify msg ∈ s'.history → .taskNotify msg ∈ s.history) :
    s'.Truthful where
  current := hcurrent
  storing := hstoring
  place := hplace
  answers msg hmsg hrunning := by
    have hold := h.answers msg (hhistory msg hmsg) hrunning
    exact ⟨hold.1, hold.2.mono hstarted⟩

theorem ReadsCoherent.mono {place : Instructions} (h : s.ReadsCoherent place)
    (hstarted : ∀ task ∈ s.started, task ∈ s'.started) : s'.ReadsCoherent place := by
  unfold ReadsCoherent at h ⊢
  split at h
  · exact h.mono hstarted
  · exact fun hrunning => ⟨(h hrunning).1, (h hrunning).2.mono hstarted⟩
  · trivial

/-- Only the result of a task is sent by the executor. -/
theorem taskNotify_mem_sendResult {msg : TaskNotifyMessage} {result : ResultMessage}
    (h : .taskNotify msg ∈ (s.sendMessage (.result result)).history) :
    .taskNotify msg ∈ s.history := by
  rw [history_sendMessage, List.mem_append, List.mem_singleton] at h
  exact h.resolve_right fun heq => by cases heq

/-- The executor goes on with the games of its task. -/
theorem Truthful.play (h : s.Truthful) {place : Executor} (hplace : ∀ task, place ≠ .storing task) :
    Truthful { s with executor := place } :=
  h.quiet (fun _ => id) h.current (fun task ht => absurd ht (hplace task))
    (h.place.mono fun _ => id) fun _ => id

theorem truthful_execute (h : s.Truthful) (hok : s.execute = .ok s') : s'.Truthful := by
  cases executed hok with
  | idle => exact h
  | @take task taskQueue hplace hrun hqueue =>
    have hmore : ∀ t ∈ s.started, t ∈ s.started ++ [task] :=
      fun t ht => List.mem_append_left _ ht
    refine h.quiet hmore (h.current.mono hmore) (fun t ht => ?_) (h.place.mono hmore) fun _ => id
    cases ht
    exact List.mem_append_right _ (List.mem_singleton_self task)
  | @store task hplace =>
    -- the one store of an id: it is that of a task that was taken
    have htask := h.storing task hplace
    exact h.quiet (fun _ => id) (.inr ⟨task, htask, rfl⟩) (fun t ht => by cases ht)
      (h.place.mono fun _ => id) fun _ => id
  | report hplace =>
    exact h.quiet (fun _ => id) h.current (fun t ht => by cases ht) (h.place.mono fun _ => id)
      fun msg hmsg => taskNotify_mem_sendResult hmsg
  | clear hplace =>
    exact h.quiet (fun _ => id) (.inl rfl) (fun t ht => by cases ht) (h.place.mono fun _ => id)
      fun _ => id
  | wait | leave | prepare | check | interrupt | complete | launch | cancel | close | look
  | interruptGame | fetch | cancelGame | compare | send | ignore => exact h.play fun _ heq => by cases heq
  | finish =>
    exact h.quiet (fun _ => id) h.current (fun t ht => by cases ht) (h.place.mono fun _ => id)
      fun _ => id

/-- The instruction thread goes on, and says nothing. -/
theorem Truthful.goOn (h : s.Truthful) {place : Instructions} {queue : List Message}
    {tasks : List Task} {handled : List Message} {quit : Bool} {current : TaskId}
    (hcurrent : s.Known current) (hplace : s.ReadsCoherent place) :
    Truthful { s with
      instructions := place, recvMessageQueue := queue, taskQueue := tasks, handled := handled
      shouldQuit := quit, currentTaskId := current } :=
  h.quiet (fun _ => id) hcurrent h.storing (hplace.mono fun _ => id) fun _ => id

/-- The second read: an answer that a task runs is about the task of the first read. -/
theorem readsCoherent_second {question : TaskNotifyMessage} {taskId : TaskId}
    (hplace : s.instructions = .answering question taskId) (hagree : s.readsAgree .instruct)
    (hid : s.Known taskId) (hruns : s.currentTaskId ≠ taskIdNone) :
    s.ReadsCoherent (.replying question { taskId, taskStatus := .tsRunning }) := by
  intro _
  simp only [readsAgree, hplace] at hagree
  exact ⟨fun hnone => hruns (hagree hnone), hid⟩

theorem truthful_instruct (h : s.Truthful) (hagree : s.readsAgree .instruct)
    (hok : s.instruct = .ok s') : s'.Truthful := by
  have hreads := h.place
  unfold instruct at hok
  split at hok
  case h_1 =>
    split at hok <;> cases hok
    · exact h.goOn h.current trivial
    · exact h.goOn h.current trivial
  case h_2 =>
    split at hok
    · cases hok
      exact h.goOn h.current trivial
    split at hok <;> cases hok
    · exact h
    · exact h.goOn h.current trivial
  case h_3 msg hplace =>
    cases hok
    exact h.goOn h.current trivial
  case h_4 msg hplace =>
    split at hok
    · cases hok
      -- the first read
      exact h.goOn h.current h.current
    · split at hok <;> cases hok
      · exact h.goOn h.current trivial
      · exact h.goOn h.current trivial
    · cases hok
  case h_5 => cases hok
  case h_6 question taskId hplace =>
    rw [hplace] at hreads
    split at hok <;> cases hok
    next => exact h.goOn h.current fun hrunning => TaskStatus.noConfusion hrunning
    next hruns => exact h.goOn h.current (readsCoherent_second hplace hagree hreads hruns)
  case h_7 question msg hplace =>
    rw [hplace] at hreads
    cases hok
    refine ⟨h.current, h.storing, trivial, fun sent hsent hrunning => ?_⟩
    have hlog : Message.taskNotify sent ∈ s.history ++ [.taskNotify msg] := by
      rw [← history_sendMessage]
      exact hsent
    cases List.mem_append.mp hlog with
    | inl hold => exact h.answers sent hold hrunning
    | inr hnew =>
      cases List.mem_singleton.mp hnew
      exact hreads hrunning
  case h_8 =>
    cases hok
    exact h.goOn (.inl rfl) trivial
  case h_9 =>
    cases hok
    exact h.goOn h.current trivial
  case h_10 =>
    cases hok
    exact h

/-- The writer thread only moves what was said. -/
theorem truthful_takeMessage (h : s.Truthful) : s.takeMessage.Truthful := by
  have hhistory := s.history_takeMessage
  unfold takeMessage at hhistory ⊢
  split at hhistory
  · exact h
  · refine h.quiet (fun _ => id) h.current h.storing (h.place.mono fun _ => id) fun msg hmsg => ?_
    rw [← hhistory]
    exact hmsg

theorem truthful_step {op : Op} (h : s.Truthful) (hagree : s.readsAgree op)
    (hok : program.step s op = .ok s') : s'.Truthful := by
  cases op with
  | deliver msg =>
    cases hok
    exact h.goOn h.current h.place
  | write =>
    cases hok
    exact truthful_takeMessage h
  | quit =>
    cases hok
    exact h.goOn h.current h.place
  -- only these two threads give answers or change what they are about
  | instruct => exact truthful_instruct h hagree hok
  | execute => exact truthful_execute h hok
  | popen opened =>
    cases hok
    unfold State.popen
    split
    · split
      · exact h.play fun _ heq => by cases heq
      · exact h.play fun _ heq => by cases heq
    · exact h
  | fgets line eof =>
    cases hok
    unfold State.fgets
    split
    · exact h.play fun _ heq => by cases heq
    · exact h
  | pclose exitStatus =>
    cases hok
    unfold State.pclose
    split
    · exact h.play fun _ heq => by cases heq
    · exact h

theorem truthful_run {config : NodeConfig} {ops : List Op}
    (hrun : program.Run readsAgree (initial config) ops s) : s.Truthful :=
  hrun.invariant (fun _ _ _ hs _ hagree hok => truthful_step hs hagree hok)
    ⟨.inl rfl, fun _ ht => Executor.noConfusion ht, trivial,
      fun _ hmsg => absurd hmsg List.not_mem_nil⟩

/-- A task that was taken had been received. -/
theorem Truthful.coherentAnswers (h : s.Truthful) (horder : s.InOrder) : s.CoherentAnswers := by
  intro msg hmsg hrunning
  have hanswer := h.answers msg hmsg hrunning
  cases hanswer.2 with
  | inl hnone => exact absurd hnone hanswer.1
  | inr hknown =>
    rcases hknown with ⟨task, htask, hid⟩
    refine ⟨hanswer.1, task, htask, ?_, hid⟩
    rw [horder.taken]
    exact List.mem_append_left _ htask

/-! ## The steps beside the instruction thread -/

/-- What a step of any other thread is to the instruction thread. -/
structure Aside (s s' : State) : Prop where
  instructions : s'.instructions = s.instructions
  quit : s.shouldQuit = true → s'.shouldQuit = true
  history : ∀ msg ∈ s.history, msg ∈ s'.history

theorem aside_execute (hok : s.execute = .ok s') :
    Aside s s' ∧ s'.recvMessageQueue = s.recvMessageQueue := by
  cases executed hok with
  | report hplace =>
    refine ⟨⟨rfl, id, fun msg hmsg => ?_⟩, rfl⟩
    show _ ∈ (s.sendMessage _).history
    rw [history_sendMessage]
    exact List.mem_append_left _ hmsg
  | finish hplace => exact ⟨⟨rfl, fun _ => rfl, fun _ => id⟩, rfl⟩
  | _ => exact ⟨⟨rfl, id, fun _ => id⟩, rfl⟩

theorem aside_takeMessage (s : State) :
    Aside s s.takeMessage ∧ s.takeMessage.recvMessageQueue = s.recvMessageQueue := by
  have hhistory := s.history_takeMessage
  unfold takeMessage at hhistory ⊢
  split at hhistory
  · exact ⟨⟨rfl, id, fun _ => id⟩, rfl⟩
  · exact ⟨⟨rfl, id, fun _ hmsg => hhistory ▸ hmsg⟩, rfl⟩

theorem aside_step {op : Op} (hok : program.step s op = .ok s') (hop : op ≠ .instruct) :
    Aside s s' ∧ (s'.recvMessageQueue = s.recvMessageQueue ∨
      ∃ msg, op = .deliver msg ∧ s'.recvMessageQueue = s.recvMessageQueue ++ [msg]) := by
  have hsame : Aside s s := ⟨rfl, id, fun _ => id⟩
  cases op with
  | instruct => exact absurd rfl hop
  -- the one step that adds to the queue
  | deliver msg =>
    cases hok
    exact ⟨⟨rfl, id, fun _ => id⟩, .inr ⟨msg, rfl, rfl⟩⟩
  | write =>
    cases hok
    exact (aside_takeMessage s).imp_right .inl
  | quit =>
    cases hok
    exact ⟨⟨rfl, fun _ => rfl, fun _ => id⟩, .inl rfl⟩
  | execute => exact (aside_execute hok).imp_right .inl
  | popen opened =>
    cases hok
    unfold State.popen
    split
    · split <;> exact ⟨⟨rfl, id, fun _ => id⟩, .inl rfl⟩
    · exact ⟨hsame, .inl rfl⟩
  | fgets line eof =>
    cases hok
    unfold State.fgets
    split <;> exact ⟨⟨rfl, id, fun _ => id⟩, .inl rfl⟩
  | pclose exitStatus =>
    cases hok
    unfold State.pclose
    split <;> exact ⟨⟨rfl, id, fun _ => id⟩, .inl rfl⟩

/-! ## Runs whose reads differ -/

/-- A task with no id is said to be running, or about to be. -/
def Slipped (s : State) : Prop :=
  (∃ question, s.instructions = .replying question nothingRuns) ∨ .taskNotify nothingRuns ∈ s.history

theorem slipped_of_differ {op : Op} (hagree : ¬ s.readsAgree op)
    (hok : program.step s op = .ok s') : s'.Slipped := by
  unfold readsAgree at hagree
  split at hagree
  next question taskId hplace =>
    rw [Classical.not_imp] at hagree
    have hstep : s.instruct = .ok s' := hok
    rw [instruct, hplace] at hstep
    dsimp only at hstep
    rw [if_neg hagree.2, hagree.1] at hstep
    cases hstep
    exact .inl ⟨question, rfl⟩
  next => exact absurd trivial hagree

theorem slipped_instruct (h : s.Slipped) (hok : s.instruct = .ok s') : s'.Slipped := by
  unfold Slipped at h
  cases h with
  | inl hplace =>
    rcases hplace with ⟨question, hplace⟩
    rw [instruct, hplace] at hok
    cases hok
    refine .inr ?_
    show _ ∈ (s.sendMessage _).history
    rw [history_sendMessage]
    exact List.mem_append_right _ (List.mem_singleton_self _)
  | inr hsaid =>
    refine .inr ?_
    cases instructed hok with
    | reply question msg hplace =>
      show _ ∈ (s.sendMessage _).history
      rw [history_sendMessage]
      exact List.mem_append_left _ hsaid
    | move | task | ignore | cancel | quit => exact hsaid

theorem slipped_step {op : Op} (h : s.Slipped) (hok : program.step s op = .ok s') : s'.Slipped := by
  by_cases hop : op = .instruct
  · subst hop
    exact slipped_instruct h hok
  · have haside := (aside_step hok hop).1
    unfold Slipped at h ⊢
    rw [haside.instructions]
    exact h.imp_right (haside.history _)

/-- Once two reads have differed, it stays said. -/
theorem agree_or_slipped {ops : List Op} (hrun : program.FreeRun s ops s') :
    program.Run readsAgree s ops s' ∨ s'.Slipped := by
  induction hrun with
  | nil s => exact .inl (.nil s)
  | @cons s s₁ s₂ op ops henabled hfree hok hrest ih =>
    by_cases hagree : s.readsAgree op
    · exact ih.imp_left (.cons henabled hagree hok)
    · exact .inr (hrest.invariant (fun _ _ _ hs _ _ hok => slipped_step hs hok)
        (slipped_of_differ hagree hok))

theorem not_coherentAnswers (h : .taskNotify nothingRuns ∈ s.history) : ¬ s.CoherentAnswers :=
  fun hcoherent => (hcoherent nothingRuns h rfl).1 rfl

end State

/-! ## The answers of a run -/

/-- The answers are coherent as long as the two reads of each of them agree, and no longer: once they
have differed, the answer that goes wrong is on its way. -/
theorem answers_coherent_iff {config : NodeConfig} {ops : List Op} {s : State}
    (hrun : program.FreeRun (initial config) ops s) :
    (program.Run State.readsAgree (initial config) ops s → s.CoherentAnswers) ∧
      (s.CoherentAnswers → (∀ question msg, s.instructions ≠ .replying question msg) →
        program.Run State.readsAgree (initial config) ops s) := by
  constructor
  · intro hagree
    exact (State.truthful_run hagree).coherentAnswers (inOrder_run hrun).2
  · intro hcoherent hplace
    cases State.agree_or_slipped hrun with
    | inl hagree => exact hagree
    | inr hslipped =>
      cases hslipped with
      | inl hreplying =>
        rcases hreplying with ⟨question, heq⟩
        exact absurd heq (hplace question _)
      | inr hsaid => exact absurd hcoherent (State.not_coherentAnswers hsaid)

/-- A question is answered while a task is played. -/
theorem answers_coherent_playing :
    (program.after (initial soloNode)
      (receiving (taskMessage 1 1) ++ [.instruct] ++ starting ++ receiving questionMessage ++
        [.instruct, .instruct, .instruct])).CoherentAnswers :=
  (answers_coherent_iff (Machine.run_after (by decide +kernel))).1
    (Machine.run_after (by decide +kernel))

/-- The executor stores the id of a task between the two reads. -/
theorem answer_about_no_task : ¬ ∀ (config : NodeConfig) (ops : List Op) (s : State),
    program.FreeRun (initial config) ops s → s.CoherentAnswers := by
  intro h
  have hrun := Machine.run_after (show (program.exec (fun _ _ => True) (initial soloNode)
    (receiving (taskMessage 1 1) ++ [.instruct] ++ receiving questionMessage ++ [.instruct] ++
      starting ++ [.instruct, .instruct])).isSome by decide +kernel)
  have hsaid : Message.taskNotify State.nothingRuns ∈ (program.after (initial soloNode)
    (receiving (taskMessage 1 1) ++ [.instruct] ++ receiving questionMessage ++ [.instruct] ++
      starting ++ [.instruct, .instruct])).history := by decide +kernel
  exact State.not_coherentAnswers hsaid (h _ _ _ hrun)

end NodeProgram

end Bem
