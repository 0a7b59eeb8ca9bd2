import Bem.Node.Sessions

/-!
# What a node can answer

Whatever the two reads of the current task are, an answer that a task is running names one that the
executor has taken, or none.
-/

namespace Bem

namespace NodeProgram

/-- The thread has read the current task. -/
def Instructions.hasRead : Instructions → Bool
  | .answering _ _ | .replying _ _ => true
  | _ => false

namespace State

/-- An answer names a task that was taken, or none. -/
def NamesKnown (s : State) (msg : TaskNotifyMessage) : Prop :=
  msg.taskStatus = .tsRunning → s.Known msg.taskId

/-- What the two threads have read and said so far. -/
structure Credible (s : State) : Prop where
  current : s.Known s.currentTaskId
  storing : ∀ task, s.executor = .storing task → task ∈ s.started
  answering : ∀ question taskId, s.instructions = .answering question taskId → s.Known taskId
  replying : ∀ question msg, s.instructions = .replying question msg → s.NamesKnown msg
  answers : ∀ msg, .taskNotify msg ∈ s.history → s.NamesKnown msg

variable {s s' : State}

theorem NamesKnown.mono {msg : TaskNotifyMessage} (h : s.NamesKnown msg)
    (hstarted : ∀ task ∈ s.started, task ∈ s'.started) : s'.NamesKnown msg :=
  fun hrunning => (h hrunning).mono hstarted

/-- The instruction thread stands where it stood, and no answer is given. -/
theorem Credible.beside (h : s.Credible) (hstarted : ∀ task ∈ s.started, task ∈ s'.started)
    (hcurrent : s'.Known s'.currentTaskId)
    (hstoring : ∀ task, s'.executor = .storing task → task ∈ s'.started)
    (hplace : s'.instructions = s.instructions)
    (hhistory : ∀ msg, .taskNotify msg ∈ s'.history → .taskNotify msg ∈ s.history) :
    s'.Credible where
  current := hcurrent
  storing := hstoring
  answering question taskId hanswering :=
    (h.answering question taskId (hplace.symm.trans hanswering)).mono hstarted
  replying question msg hreplying :=
    (h.replying question msg (hplace.symm.trans hreplying)).mono hstarted
  answers msg hmsg := (h.answers msg (hhistory msg hmsg)).mono hstarted

/-- The executor goes on with the same task as the current one. -/
theorem Credible.play (h : s.Credible) {place : Executor} {quit : Bool}
    (hplace : ∀ task, place ≠ .storing task) :
    Credible { s with executor := place, shouldQuit := quit } :=
  h.beside (fun _ => id) h.current (fun task heq => absurd heq (hplace task)) rfl fun _ => id

theorem credible_execute (h : s.Credible) (hok : s.execute = .ok s') : s'.Credible := by
  cases executed hok with
  | idle => exact h
  | @take task taskQueue hplace hrun hqueue =>
    have hmore : ∀ t ∈ s.started, t ∈ s.started ++ [task] := fun t ht => List.mem_append_left _ ht
    refine h.beside hmore (h.current.mono hmore) (fun t heq => ?_) rfl fun _ => id
    cases heq
    exact List.mem_append_right _ (List.mem_singleton_self task)
  | @store task hplace =>
    -- the one store of an id: it is that of a task that was taken
    have htask := h.storing task hplace
    exact h.beside (fun _ => id) (.inr ⟨task, htask, rfl⟩) (fun t heq => by cases heq) rfl fun _ => id
  | report hplace =>
    exact h.beside (fun _ => id) h.current (fun t heq => by cases heq) rfl
      fun msg hmsg => taskNotify_mem_sendResult hmsg
  | clear hplace =>
    exact h.beside (fun _ => id) (.inl rfl) (fun t heq => by cases heq) rfl fun _ => id
  | wait | leave | prepare | check | interrupt | complete | launch | cancel | close | look
  | interruptGame | fetch | cancelGame | compare | send | ignore | finish =>
    exact h.play fun _ heq => by cases heq

/-- The instruction thread goes on, and says nothing. -/
theorem Credible.goOn (h : s.Credible) {place : Instructions} {queue : List Message}
    {tasks : List Task} {handled : List Message} {quit : Bool} {current : TaskId}
    (hcurrent : s.Known current)
    (hanswering : ∀ question taskId, place = .answering question taskId → s.Known taskId)
    (hreplying : ∀ question msg, place = .replying question msg → s.NamesKnown msg) :
    Credible { s with
      instructions := place, recvMessageQueue := queue, taskQueue := tasks, handled := handled
      shouldQuit := quit, currentTaskId := current } :=
  ⟨hcurrent, h.storing, hanswering, hreplying, h.answers⟩

theorem credible_instruct (h : s.Credible) (hok : s.instruct = .ok s') : s'.Credible := by
  -- the thread goes to a place where it has read nothing
  have hplain {place : Instructions} {queue : List Message} {tasks : List Task}
      {handled : List Message} {quit : Bool} {current : TaskId} (hcurrent : s.Known current)
      (hplace : place.hasRead = false) : Credible { s with
        instructions := place, recvMessageQueue := queue, taskQueue := tasks, handled := handled
        shouldQuit := quit, currentTaskId := current } := by
    refine h.goOn hcurrent (fun question taskId heq => ?_) fun question msg heq => ?_
    · rw [heq] at hplace
      cases hplace
    · rw [heq] at hplace
      cases hplace
  unfold instruct at hok
  split at hok
  case h_1 =>
    split at hok <;> cases hok
    · exact hplain h.current rfl
    · exact hplain h.current rfl
  case h_2 =>
    split at hok
    · cases hok
      exact hplain h.current rfl
    split at hok <;> cases hok
    · exact h
    · exact hplain h.current rfl
  case h_3 msg hplace =>
    cases hok
    exact hplain h.current rfl
  case h_4 msg hplace =>
    split at hok
    · cases hok
      -- the first read
      refine h.goOn h.current (fun question taskId heq => ?_) fun _ _ heq => by cases heq
      cases heq
      exact h.current
    · split at hok <;> cases hok
      · exact hplain h.current rfl
      · exact hplain h.current rfl
    · cases hok
  case h_5 => cases hok
  case h_6 question taskId hplace =>
    -- the second read decides whether a task is said to run, but not which
    have hread := h.answering question taskId hplace
    split at hok <;> cases hok
    · exact h.goOn h.current (fun _ _ heq => by cases heq) fun _ msg heq hrunning => by
        cases heq
        cases hrunning
    · exact h.goOn h.current (fun _ _ heq => by cases heq) fun _ msg heq _ => by
        cases heq
        exact hread
  case h_7 question msg hplace =>
    cases hok
    refine ⟨h.current, h.storing, fun _ _ heq => Instructions.noConfusion heq,
      fun _ _ heq => Instructions.noConfusion heq, fun sent hsent => ?_⟩
    have hlog : Message.taskNotify sent ∈ s.history ++ [.taskNotify msg] := by
      rw [← history_sendMessage]
      exact hsent
    cases List.mem_append.mp hlog with
    | inl hold => exact h.answers sent hold
    | inr hnew =>
      cases List.mem_singleton.mp hnew
      exact h.replying question msg hplace
  case h_8 =>
    cases hok
    exact hplain (.inl rfl) rfl
  case h_9 =>
    cases hok
    exact hplain h.current rfl
  case h_10 =>
    cases hok
    exact h

theorem credible_step {op : Op} (h : s.Credible) (hok : program.step s op = .ok s') :
    s'.Credible := by
  cases op with
  | deliver msg =>
    cases hok
    exact ⟨h.current, h.storing, h.answering, h.replying, h.answers⟩
  | write =>
    cases hok
    have hhistory := s.history_takeMessage
    unfold takeMessage at hhistory ⊢
    split at hhistory
    · exact h
    · exact h.beside (fun _ => id) h.current h.storing rfl fun msg hmsg => hhistory ▸ hmsg
  | quit =>
    cases hok
    exact ⟨h.current, h.storing, h.answering, h.replying, h.answers⟩
  | instruct => exact credible_instruct h hok
  | execute => exact credible_execute h hok
  | popen opened =>
    cases hok
    unfold State.popen
    split
    · split
      · exact h.play fun _ heq => by cases heq
      · exact h.play fun _ heq => by cases heq
    · exact h
  | fgets line eof =>
    cases hok
    unfold State.fgets
    split
    · exact h.play fun _ heq => by cases heq
    · exact h
  | pclose exitStatus =>
    cases hok
    unfold State.pclose
    split
    · exact h.play fun _ heq => by cases heq
    · exact h

end State

namespace Session

variable {s s' : Session}

theorem credible_start (protocolVersion : UInt8) (config : NodeConfig) :
    (start protocolVersion config).node.Credible :=
  ⟨.inl rfl, fun _ heq => Executor.noConfusion heq, fun _ _ heq => Instructions.noConfusion heq,
    fun _ _ heq => Instructions.noConfusion heq, fun _ hmsg => absurd hmsg List.not_mem_nil⟩

theorem Stepped.credible {op : Op} (hstep : Stepped s op s') (h : s.node.Credible) :
    s'.node.Credible := by
  cases hstep with
  | program hmain henabled hok => exact State.credible_step h hok
  | greet hmain =>
    refine h.beside (fun _ => id) h.current h.storing rfl fun msg hmsg => ?_
    rw [State.history_sendMessage, List.mem_append, List.mem_singleton] at hmsg
    exact hmsg.resolve_right fun heq => by cases heq
  | accept | refuse | giveUp => exact ⟨h.current, h.storing, h.answering, h.replying, h.answers⟩

end Session

end NodeProgram

end Bem
