import Bem.Node.Sessions

/-!
# Questions and answers

The program says HELLO before anything else, and from there on it notifies the coordinator once for each
question that it is done with, and never unasked.
-/

namespace Bem

namespace NodeProgram

namespace State

/-- Every question that was handled has been answered, and nothing else has. -/
structure Replied (s : State) : Prop where
  count : s.history.countP Message.isNotify = s.handled.countP Message.isQuestion
  answering : ∀ question taskId, s.instructions = .answering question taskId →
    question.taskStatus = .tsQuestion
  replying : ∀ question msg, s.instructions = .replying question msg →
    question.taskStatus = .tsQuestion

variable {s s' : State}

theorem Replied.beside (h : s.Replied) (hinstructions : s'.instructions = s.instructions)
    (hhandled : s'.handled = s.handled)
    (hhistory : s'.history.countP Message.isNotify = s.history.countP Message.isNotify) :
    s'.Replied where
  count := by rw [hhistory, hhandled, h.count]
  answering := by
    rw [hinstructions]
    exact h.answering
  replying := by
    rw [hinstructions]
    exact h.replying

/-- The thread goes to a place without a question, having handled no question or having answered it. -/
theorem Replied.goTo {more messages : List Message} (h : s.Replied)
    (hhistory : s'.history = s.history ++ messages) (hhandled : s'.handled = s.handled ++ more)
    (hcount : messages.countP Message.isNotify = more.countP Message.isQuestion)
    (hanswering : ∀ question taskId, s'.instructions ≠ .answering question taskId)
    (hreplying : ∀ question msg, s'.instructions ≠ .replying question msg) : s'.Replied where
  count := by rw [hhistory, hhandled, List.countP_append, List.countP_append, h.count, hcount]
  answering question taskId heq := absurd heq (hanswering question taskId)
  replying question msg heq := absurd heq (hreplying question msg)

theorem Replied.instruct (h : s.Replied) (hok : s.instruct = .ok s') : s'.Replied := by
  have hmove {node : State} (hhistory : node.history = s.history) (hhandled : node.handled = s.handled)
      (hanswering : ∀ question taskId, node.instructions ≠ .answering question taskId)
      (hreplying : ∀ question msg, node.instructions ≠ .replying question msg) : node.Replied :=
    h.goTo (by rw [hhistory, List.append_nil]) (by rw [hhandled, List.append_nil]) rfl hanswering
      hreplying
  unfold State.instruct at hok
  split at hok
  case h_1 =>
    split at hok <;> cases hok <;> exact hmove rfl rfl (by simp) (by simp)
  case h_2 =>
    split at hok
    · cases hok
      exact hmove rfl rfl (by simp) (by simp)
    split at hok <;> cases hok
    next => exact h
    next => exact hmove rfl rfl (by simp) (by simp)
  case h_3 msg hplace =>
    cases hok
    exact h.goTo (List.append_nil _).symm rfl rfl (by simp [finishHandling]) (by simp [finishHandling])
  case h_4 msg hplace =>
    split at hok
    next hquestion =>
      cases hok
      refine ⟨h.count, fun question taskId heq => ?_, fun question msg heq => (by cases heq)⟩
      cases heq
      exact hquestion
    next hcancelled =>
      split at hok <;> cases hok
      · exact hmove rfl rfl (by simp) (by simp)
      · refine h.goTo (List.append_nil _).symm rfl ?_ (by simp [finishHandling]) (by simp [finishHandling])
        simp [Message.isQuestion, hcancelled]
    · cases hok
  case h_5 => cases hok
  case h_6 question taskId hplace =>
    have hquestion := h.answering question taskId hplace
    split at hok <;> cases hok
    all_goals
      refine ⟨h.count, fun _ _ heq => (by cases heq), fun question' msg heq => ?_⟩
      cases heq
      exact hquestion
  case h_7 question msg hplace =>
    cases hok
    refine h.goTo (s.history_sendMessage (.taskNotify msg)) rfl ?_ (by simp [finishHandling])
      (by simp [finishHandling])
    -- this is the question that the message answers
    simp [Message.isNotify, Message.isQuestion, h.replying question msg hplace]
  case h_8 =>
    cases hok
    refine h.goTo (List.append_nil _).symm rfl ?_ (by simp [finishHandling]) (by simp [finishHandling])
    simp [Message.isQuestion]
  case h_9 =>
    cases hok
    exact hmove rfl rfl (by simp) (by simp)
  case h_10 =>
    cases hok
    exact h

theorem Replied.execute (h : s.Replied) (hok : s.execute = .ok s') : s'.Replied := by
  cases executed hok with
  | @report p hplace =>
    refine h.beside rfl rfl ?_
    show (s.sendMessage (.result _)).history.countP _ = _
    rw [history_sendMessage, List.countP_append]
    rfl
  | _ => exact h.beside rfl rfl rfl

theorem Replied.step {op : Op} (h : s.Replied) (hok : s.step op = .ok s') (hown : op.isOwn) :
    s'.Replied := by
  cases op with
  | deliver msg => cases hown
  | write => cases hown
  | quit =>
    cases hok
    exact h.beside rfl rfl rfl
  | instruct => exact h.instruct hok
  | execute => exact h.execute hok
  | popen opened =>
    cases hok
    unfold popen
    split
    · split <;> exact h.beside rfl rfl rfl
    · exact h
  | fgets line eof =>
    cases hok
    unfold fgets
    split
    · exact h.beside rfl rfl rfl
    · exact h
  | pclose exitStatus =>
    cases hok
    unfold pclose
    split
    · exact h.beside rfl rfl rfl
    · exact h

end State

namespace Session

variable {s s' : Session} {given : List Message}

/-- What the program has said begins with its HELLO. -/
structure Spoken (s : Session) : Prop where
  replied : s.node.Replied
  opening : s.node.history = [] ∨ ∃ rest, s.node.history = s.hello :: rest

theorem spoken_start (protocolVersion : UInt8) (config : NodeConfig) :
    (start protocolVersion config).Spoken where
  replied := ⟨rfl, fun _ _ h => (by cases h), fun _ _ h => (by cases h)⟩
  opening := .inl rfl

theorem Spoken.receive (h : s.Spoken) (msg : Message) : (s.receive msg).Spoken where
  replied := h.replied.beside rfl rfl rfl
  opening := h.opening

theorem Spoken.takeMessage (h : s.Spoken) : s.takeMessage.Spoken where
  replied := by
    have hhistory := s.node.history_takeMessage
    have hsame : s.node.takeMessage.instructions = s.node.instructions ∧
        s.node.takeMessage.handled = s.node.handled := by
      unfold State.takeMessage
      split <;> exact ⟨rfl, rfl⟩
    exact h.replied.beside hsame.1 hsame.2 (congrArg _ hhistory)
  opening := by
    have hhello : s.takeMessage.hello = s.hello := by
      unfold hello Session.takeMessage
      rw [(beside_takeMessage s.node).config]
    rw [show s.takeMessage.node.history = _ from s.node.history_takeMessage, hhello]
    exact h.opening

/-- A program that has handled nothing reports nothing. -/
theorem not_isReport_of_idle (htook : s.Took given) (hreplied : s.node.Replied) (hnone : s.node.handled = [])
    {m : Message} (hm : m ∈ s.node.history) : ¬ m.isReport := by
  intro hreport
  cases m with
  | result msg =>
    have hmsg : msg ∈ s.node.reported := List.mem_filterMap.mpr ⟨_, hm, rfl⟩
    obtain ⟨task, htask, -⟩ := exists_of_sublistForall₂ htook.inOrder.sublist hmsg
    unfold State.receivedTasks at htask
    rw [hnone] at htask
    exact List.not_mem_nil htask
  | taskNotify msg =>
    have hnotify := hreplied.count
    rw [hnone, List.countP_nil, List.countP_eq_zero] at hnotify
    exact hnotify _ hm rfl
  | _ => cases hreport

/-- A program that has not said HELLO has said nothing. -/
theorem history_eq_nil (htook : s.Took given) (hreplied : s.node.Replied) (hmain : s.main = .greeting) :
    s.node.history = [] := by
  obtain ⟨-, hnone⟩ := htook.idle (by rw [hmain]; exact Main.noConfusion)
  have hsaid := htook.said
  simp only [greetings, hmain] at hsaid
  rw [List.filter_eq_nil_iff] at hsaid
  rw [List.eq_nil_iff_forall_not_mem]
  intro m hm
  have hreport := not_isReport_of_idle htook hreplied hnone hm
  exact hsaid m hm (by simpa using hreport)

theorem Spoken.stepped {op : Op} (h : s.Spoken) (htook : s.Took given) (hstep : Stepped s op s')
    (hown : op.isOwn) : s'.Spoken := by
  have htook' := htook.stepped hstep hown
  cases hstep with
  | @program op node hmain henabled hok =>
    have hreplied := h.replied.step hok hown
    refine ⟨hreplied, ?_⟩
    have hworks := State.works_step hok hown
    obtain ⟨more, hqueue, -⟩ := hworks.said
    have hhistory : node.history = s.node.history ++ more := by
      unfold State.history
      rw [hworks.written, hqueue, List.append_assoc]
    have hhello : hello { s with node } = s.hello := by
      unfold hello
      rw [hworks.config]
    cases h.opening with
    | inl hnone =>
      -- where nothing was said, the HELLO is still to come
      have hgreeting : s.main = .greeting := by
        have hsaid := htook.said
        rw [hnone] at hsaid
        unfold greetings at hsaid
        split at hsaid
        next hmain => exact hmain
        next => cases hsaid
      exact .inl (history_eq_nil htook' hreplied hgreeting)
    | inr hopened =>
      obtain ⟨rest, hrest⟩ := hopened
      refine .inr ⟨rest ++ more, ?_⟩
      show node.history = hello { s with node } :: (rest ++ more)
      rw [hhistory, hrest, hhello]
      rfl
  | greet hmain =>
    have hnone := history_eq_nil htook h.replied hmain
    refine ⟨h.replied.beside rfl rfl ?_, .inr ⟨[], ?_⟩⟩
    · show (s.node.sendMessage s.hello).history.countP _ = _
      rw [State.history_sendMessage, List.countP_append]
      rfl
    · show (s.node.sendMessage s.hello).history = [s.hello]
      rw [State.history_sendMessage, hnone]
      rfl
  | accept | refuse | giveUp => exact ⟨h.replied.beside rfl rfl rfl, h.opening⟩

/-! ## Before the reply -/

/-- Only the instruction thread handles messages. -/
theorem handled_step {node node' : State} {op : Op} (hok : node.step op = .ok node') (hop : op ≠ .instruct) :
    node'.handled = node.handled := by
  cases op with
  | instruct => exact absurd rfl hop
  | execute =>
    cases executed hok with
    | _ => rfl
  | write =>
    cases hok
    unfold State.takeMessage
    split <;> rfl
  | popen opened =>
    cases hok
    unfold State.popen
    split
    · split <;> rfl
    · rfl
  | fgets line eof =>
    cases hok
    unfold State.fgets
    split <;> rfl
  | pclose exitStatus =>
    cases hok
    unfold State.pclose
    split <;> rfl
  | deliver msg | quit =>
    cases hok
    rfl

/-- Without a reply nothing is handled. -/
def Unanswered (s : Session) : Prop := s.replied = false → s.node.handled = []

theorem Unanswered.act (h : s.Unanswered) (horder : s.Orderly) (hok : s.act = .ok s') : s'.Unanswered := by
  unfold Orderly at horder
  unfold Session.act at hok
  split at hok
  case h_1 =>
    cases hok
    exact h
  case h_2 =>
    split at hok
    · cases hok
    split at hok
    · cases hok
      exact h
    · split at hok <;> cases hok <;> exact h
  case h_3 =>
    cases hok
    exact h
  case h_4 hplace =>
    rw [hplace] at horder
    obtain ⟨node, hnode, rfl⟩ := Except.map_eq_ok.mp hok
    intro hreplied
    have hleaving : s.node.Leaving := horder.resolve_right fun hheeds => by
      rw [show s.replied = false from hreplied] at hheeds
      cases hheeds.1
    -- the thread goes on to its end
    have hsame : node.handled = s.node.handled := by
      unfold State.instruct at hnode
      cases hleaving.place with
      | inl hlooping =>
        rw [hlooping] at hnode
        dsimp only at hnode
        rw [if_pos hleaving.quit] at hnode
        cases hnode
        rfl
      | inr hlater =>
        cases hlater with
        | inl hterminating =>
          rw [hterminating] at hnode
          cases hnode
          rfl
        | inr hfinished =>
          rw [hfinished] at hnode
          cases hnode
          rfl
    exact hsame.trans (h hreplied)

theorem unanswered_run {P : Session → Op → Prop} {protocolVersion : UInt8} {config : NodeConfig}
    {ops : List Op} (hrun : startup.Run P (start protocolVersion config) ops s) : s.Unanswered := by
  have h := hrun.invariant (I := fun s => s.Orderly ∧ s.Unanswered) (fun s op s' h henabled _ hok => by
    refine ⟨orderly_step h.1 henabled hok, ?_⟩
    by_cases hop : op = .instruct
    · subst hop
      exact h.2.act h.1 hok
    by_cases hdeliver : ∃ msg, op = .deliver msg
    · obtain ⟨msg, rfl⟩ := hdeliver
      cases hok
      intro hreplied
      exact h.2 (Bool.or_eq_false_iff.mp hreplied).1
    · rw [step_eq hop (not_exists.mp hdeliver)] at hok
      obtain ⟨node, hnode, rfl⟩ := Except.map_eq_ok.mp hok
      intro hreplied
      exact (handled_step hnode hop).trans (h.2 hreplied))
    ⟨⟨rfl, fun _ => List.forall_mem_nil _, .nil⟩, fun _ => rfl⟩
  exact h.2

end Session

end NodeProgram

end Bem
