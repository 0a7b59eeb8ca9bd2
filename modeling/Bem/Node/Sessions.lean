import Bem.Node.Startup

/-!
# What a node's program does with its messages

It takes them up in the order in which they have come, and loses none of them.  What it says are a
HELLO at the start, and results and answers.
-/

namespace Bem

namespace NodeProgram

/-- The step has to do with no message that comes or goes. -/
def Op.isOwn : Op → Bool
  | .deliver _ | .write => false
  | _ => true

/-- The message that the instruction thread has taken off the queue and is not done with. -/
def Instructions.inHand : Instructions → List Message
  | .handling msg => [msg]
  | .answering question _ | .replying question _ => [.taskNotify question]
  | .cancelling taskId => [.taskNotify { taskId, taskStatus := .tsCancelled }]
  | _ => []

namespace State

/-- The messages that have come to the loop of the instruction thread, in their order. -/
def incoming (s : State) : List Message := s.handled ++ s.instructions.inHand ++ s.recvMessageQueue

/-- What a step of the program is to its messages. -/
structure Works (s s' : State) : Prop where
  config : s'.config = s.config
  written : s'.written = s.written
  said : ∃ more, s'.sendMessageQueue = s.sendMessageQueue ++ more ∧ ∀ m ∈ more, m.isReport
  incoming : s'.incoming = s.incoming

variable {s s' : State}

/-- A step that says nothing. -/
theorem Works.quiet (hconfig : s'.config = s.config) (hwritten : s'.written = s.written)
    (hqueue : s'.sendMessageQueue = s.sendMessageQueue) (hincoming : s'.incoming = s.incoming) :
    Works s s' :=
  ⟨hconfig, hwritten, ⟨[], by rw [hqueue, List.append_nil], fun _ h => absurd h List.not_mem_nil⟩,
    hincoming⟩

/-- The message in hand is done with. -/
theorem incoming_finishHandling {msg : Message} (hhand : s.instructions.inHand = [msg]) :
    (s.finishHandling msg).incoming = s.incoming := by
  unfold incoming finishHandling
  rw [hhand]
  show (s.handled ++ [msg]) ++ [] ++ s.recvMessageQueue = _
  rw [List.append_nil]

theorem works_instruct (h : s.instruct = .ok s') : Works s s' := by
  -- the thread goes from one place to another with the same message in hand
  have hmove (place : Instructions) (hhand : place.inHand = s.instructions.inHand) :
      Works s { s with instructions := place } := by
    refine Works.quiet rfl rfl rfl ?_
    show s.handled ++ place.inHand ++ s.recvMessageQueue = _
    rw [hhand]
    rfl
  have hdone (msg : Message) (hhand : s.instructions.inHand = [msg]) :
      Works s (s.finishHandling msg) :=
    Works.quiet rfl rfl rfl (incoming_finishHandling hhand)
  unfold instruct at h
  split at h
  case h_1 hplace =>
    split at h <;> cases h
    · exact hmove _ (by rw [hplace]; rfl)
    · exact hmove _ (by rw [hplace]; rfl)
  case h_2 hplace =>
    split at h
    · cases h
      exact hmove _ (by rw [hplace]; rfl)
    split at h <;> cases h
    next => exact Works.quiet rfl rfl rfl rfl
    next msg recvMessageQueue hqueue =>
      refine Works.quiet rfl rfl rfl ?_
      show s.handled ++ [msg] ++ recvMessageQueue = s.handled ++ s.instructions.inHand ++ _
      rw [hqueue, hplace]
      simp [Instructions.inHand]
  case h_3 msg hplace =>
    cases h
    have hhand : s.instructions.inHand = [.task msg] := by rw [hplace]; rfl
    exact ⟨rfl, rfl, (hdone _ hhand).said, incoming_finishHandling hhand⟩
  case h_4 msg hplace =>
    split at h
    · cases h
      exact hmove _ (by rw [hplace]; rfl)
    next hcancelled =>
      split at h <;> cases h
      · refine hmove _ ?_
        rw [hplace]
        show [Message.taskNotify { taskId := msg.taskId, taskStatus := .tsCancelled }] =
          [Message.taskNotify msg]
        rw [← hcancelled]
      · exact hdone _ (by rw [hplace]; rfl)
    · cases h
  case h_5 => cases h
  case h_6 hplace =>
    split at h <;> cases h
    · exact hmove _ (by rw [hplace]; rfl)
    · exact hmove _ (by rw [hplace]; rfl)
  case h_7 question msg hplace =>
    cases h
    have hhand : s.instructions.inHand = [.taskNotify question] := by rw [hplace]; rfl
    refine ⟨rfl, rfl, ⟨[.taskNotify msg], rfl, ?_⟩, incoming_finishHandling hhand⟩
    exact List.forall_mem_singleton.mpr rfl
  case h_8 taskId hplace =>
    cases h
    have hhand : s.instructions.inHand =
        [.taskNotify { taskId, taskStatus := .tsCancelled }] := by rw [hplace]; rfl
    exact ⟨rfl, rfl, (hdone _ hhand).said, incoming_finishHandling hhand⟩
  case h_9 hplace =>
    cases h
    have hterminating := hmove .finished (by rw [hplace]; rfl)
    exact ⟨rfl, rfl, hterminating.said, hterminating.incoming⟩
  case h_10 =>
    cases h
    exact Works.quiet rfl rfl rfl rfl

theorem works_execute (h : s.execute = .ok s') : Works s s' := by
  cases executed h with
  | report hplace =>
    exact ⟨rfl, rfl, ⟨[_], rfl, List.forall_mem_singleton.mpr rfl⟩, rfl⟩
  | _ => exact Works.quiet rfl rfl rfl rfl

theorem works_step {op : Op} (h : s.step op = .ok s') (hown : op.isOwn) : Works s s' := by
  cases op with
  | deliver msg => cases hown
  | write => cases hown
  | quit =>
    cases h
    exact Works.quiet rfl rfl rfl rfl
  | instruct => exact works_instruct h
  | execute => exact works_execute h
  | popen opened =>
    cases h
    unfold popen
    split
    · split <;> exact Works.quiet rfl rfl rfl rfl
    · exact Works.quiet rfl rfl rfl rfl
  | fgets line eof =>
    cases h
    unfold fgets
    split <;> exact Works.quiet rfl rfl rfl rfl
  | pclose exitStatus =>
    cases h
    unfold pclose
    split <;> exact Works.quiet rfl rfl rfl rfl

/-- The executor does not forget which tasks it has taken. -/
theorem started_step {op : Op} (h : s.step op = .ok s') : ∀ task ∈ s.started, task ∈ s'.started := by
  have hsame {node : State} (hbeside : Beside s node) : ∀ task ∈ s.started, task ∈ node.started := by
    rw [hbeside.started]
    exact fun _ => id
  cases op with
  | deliver msg =>
    cases h
    exact fun _ => id
  | write =>
    cases h
    exact hsame (beside_takeMessage s)
  | quit =>
    cases h
    exact fun _ => id
  | instruct => exact hsame (beside_instruct h)
  | execute =>
    cases executed h with
    | take => exact fun _ htask => List.mem_append_left _ htask
    | _ => exact fun _ => id
  | popen opened =>
    cases h
    unfold popen
    split
    · split <;> exact fun _ => id
    · exact fun _ => id
  | fgets line eof =>
    cases h
    unfold fgets
    split <;> exact fun _ => id
  | pclose exitStatus =>
    cases h
    unfold pclose
    split <;> exact fun _ => id

end State

namespace Session

/-- What `step` makes of a message that comes. -/
def receive (msg : Message) (s : Session) : Session :=
  { s with
    replied := s.replied || msg.isHello
    node := { s.node with recvMessageQueue := s.node.recvMessageQueue ++ [msg] } }

def takeMessage (s : Session) : Session := { s with node := s.node.takeMessage }

/-- All that a step can do that neither brings a message nor takes one away. -/
inductive Stepped (s : Session) : Op → Session → Prop
  | program {op : Op} {node : State} (hmain : op = .instruct → s.main = .instructing)
    (henabled : s.node.enabled op) (hok : s.node.step op = .ok node) : Stepped s op { s with node }
  | greet (hmain : s.main = .greeting) :
    Stepped s .instruct { s with main := .awaiting, node := s.node.sendMessage s.hello }
  | accept {msg : Message} {recvMessageQueue : List Message} (hmain : s.main = .awaiting)
    (hqueue : s.node.recvMessageQueue = msg :: recvMessageQueue)
    (hregisters : registerToCoordinator [msg] = some true) :
    Stepped s .instruct { s with main := .instructing, node := { s.node with recvMessageQueue } }
  | refuse {msg : Message} {recvMessageQueue : List Message} (hmain : s.main = .awaiting)
    (hqueue : s.node.recvMessageQueue = msg :: recvMessageQueue)
    (hregisters : registerToCoordinator [msg] ≠ some true) :
    Stepped s .instruct { s with main := .rejected, node := { s.node with recvMessageQueue } }
  | giveUp (hmain : s.main = .rejected) :
    Stepped s .instruct { s with main := .instructing, node := { s.node with shouldQuit := true } }

variable {s s' : Session}

theorem stepped {op : Op} (henabled : s.enabled op) (h : s.step op = .ok s') (hown : op.isOwn) :
    Stepped s op s' := by
  by_cases hop : op = .instruct
  · subst hop
    change s.act = .ok s' at h
    unfold act at h
    split at h
    case h_1 hmain =>
      cases h
      exact .greet hmain
    case h_2 hmain =>
      split at h
      · cases h
      next hrun =>
        split at h
        next hqueue =>
          -- the thread is not woken while the queue is empty
          change s.canAct = true at henabled
          simp [canAct, hmain, hrun, hqueue] at henabled
        next msg recvMessageQueue hqueue =>
          split at h <;> cases h
          next hregisters => exact .accept hmain hqueue hregisters
          next hregisters => exact .refuse hmain hqueue hregisters
    case h_3 hmain =>
      cases h
      exact .giveUp hmain
    case h_4 hmain =>
      obtain ⟨node, hnode, rfl⟩ := Except.map_eq_ok.mp h
      have hcan : s.canAct = true := henabled
      have hcan : s.node.canInstruct = true := by simpa [canAct, hmain] using hcan
      exact .program (fun _ => hmain) hcan hnode
  · have hdeliver (msg : Message) : op ≠ .deliver msg := fun heq => by rw [heq] at hown; cases hown
    have hstep : (s.node.step op).map (fun node => { s with node }) = .ok s' :=
      (step_eq hop hdeliver).symm.trans h
    obtain ⟨node, hnode, rfl⟩ := Except.map_eq_ok.mp hstep
    refine .program (fun heq => absurd heq hop) ?_ hnode
    cases op with
    | instruct => exact absurd rfl hop
    | deliver msg => exact absurd rfl (hdeliver msg)
    | _ => exact henabled

/-- Nothing is written to the socket. -/
theorem Stepped.written {op : Op} (h : Stepped s op s') (hown : op.isOwn) :
    s'.node.written = s.node.written := by
  cases h with
  | program hmain henabled hok => exact (State.works_step hok hown).written
  | _ => rfl

theorem Stepped.started {op : Op} (h : Stepped s op s') :
    ∀ task ∈ s.node.started, task ∈ s'.node.started := by
  cases h with
  | program hmain henabled hok => exact State.started_step hok
  | _ => exact fun _ => id

/-! ## What a session has taken in and said -/

/-- The number of messages that the registration has taken. -/
def consumed (s : Session) : Nat :=
  match s.main with
  | .greeting | .awaiting => 0
  | .rejected | .instructing => 1

/-- What the registration has sent. -/
def greetings (s : Session) : List Message :=
  match s.main with
  | .greeting => []
  | _ => [s.hello]

/-- `given` are the messages that have come. -/
structure Took (s : Session) (given : List Message) : Prop where
  sound : s.node.Sound
  inOrder : s.node.InOrder
  -- the loop of the instructions has not been entered yet
  idle : s.main ≠ .instructing → s.node.instructions = .looping ∧ s.node.handled = []
  given : ∃ replies, replies.length = s.consumed ∧ given = replies ++ s.node.incoming
  said : s.node.history.filter (fun m => !m.isReport) = s.greetings

variable {given : List Message}

theorem took_start (protocolVersion : UInt8) (config : NodeConfig) :
    (start protocolVersion config).Took [] :=
  ⟨trivial, ⟨rfl, [], rfl, .nil⟩, fun _ => ⟨rfl, rfl⟩, ⟨[], rfl, rfl⟩, rfl⟩

theorem Took.receive (h : s.Took given) (msg : Message) :
    (s.receive msg).Took (given ++ [msg]) := by
  have hbeside := beside_instructions s.node s.node.instructions (s.node.recvMessageQueue ++ [msg])
  refine ⟨h.sound.beside hbeside, h.inOrder.beside hbeside, h.idle, ?_, h.said⟩
  obtain ⟨replies, hlength, hgiven⟩ := h.given
  refine ⟨replies, hlength, ?_⟩
  show _ = replies ++ (s.node.handled ++ s.node.instructions.inHand ++
    (s.node.recvMessageQueue ++ [msg]))
  rw [hgiven, State.incoming]
  simp only [List.append_assoc]

theorem Took.takeMessage (h : s.Took given) : s.takeMessage.Took given := by
  have hbeside := beside_takeMessage s.node
  have hrest : s.node.takeMessage.instructions = s.node.instructions ∧
      s.node.takeMessage.handled = s.node.handled ∧
      s.node.takeMessage.recvMessageQueue = s.node.recvMessageQueue := by
    unfold State.takeMessage
    split <;> exact ⟨rfl, rfl, rfl⟩
  refine ⟨h.sound.beside hbeside, h.inOrder.beside hbeside, fun hmain => ?_, ?_, ?_⟩
  · obtain ⟨hlooping, hnone⟩ := h.idle hmain
    exact ⟨hrest.1.trans hlooping, hrest.2.1.trans hnone⟩
  · have hincoming : s.node.takeMessage.incoming = s.node.incoming := by
      unfold State.incoming
      rw [hrest.1, hrest.2.1, hrest.2.2]
    show ∃ replies, _ ∧ given = replies ++ s.node.takeMessage.incoming
    rw [hincoming]
    exact h.given
  · show s.node.takeMessage.history.filter _ = _
    have hgreetings : s.takeMessage.greetings = s.greetings := by
      show (match s.main with | .greeting => [] | _ => [s.takeMessage.hello]) = _
      unfold greetings hello Session.takeMessage
      dsimp only
      rw [hbeside.config]
    rw [s.node.history_takeMessage, hgreetings]
    exact h.said

/-- A message that the program sends comes last. -/
theorem history_of_works {node node' : State} (h : State.Works node node') :
    node'.history.filter (fun m => !m.isReport) = node.history.filter (fun m => !m.isReport) := by
  obtain ⟨more, hqueue, hreports⟩ := h.said
  unfold State.history
  have hnone : more.filter (fun m => !m.isReport) = [] :=
    List.filter_eq_nil_iff.mpr fun m hm => by simp [hreports m hm]
  rw [h.written, hqueue, ← List.append_assoc, List.filter_append, hnone, List.append_nil]

theorem Took.program {op : Op} {node : State} (h : s.Took given)
    (hmain : op = .instruct → s.main = .instructing) (hok : s.node.step op = .ok node)
    (hown : op.isOwn) : Took { s with node } given := by
  have hworks := State.works_step hok hown
  refine ⟨sound_step hok h.sound, inOrder_step hok h.sound h.inOrder, fun hplace => ?_, ?_, ?_⟩
  · -- the other threads leave the instructions alone
    have hop : op ≠ .instruct := fun heq => hplace (hmain heq)
    obtain ⟨haside, hqueue⟩ := State.aside_step hok hop
    obtain ⟨hlooping, hnone⟩ := h.idle hplace
    have hlooping' : node.instructions = .looping := haside.instructions.trans hlooping
    refine ⟨hlooping', ?_⟩
    have hqueue : node.recvMessageQueue = s.node.recvMessageQueue := by
      refine hqueue.resolve_right fun hmsg => ?_
      obtain ⟨msg, heq, -⟩ := hmsg
      rw [heq] at hown
      cases hown
    have hincoming := hworks.incoming
    unfold State.incoming at hincoming
    rw [hlooping, hlooping', hqueue, hnone] at hincoming
    simpa [Instructions.inHand] using hincoming
  · show ∃ replies, _ ∧ given = replies ++ node.incoming
    rw [hworks.incoming]
    exact h.given
  · have hgreetings : Session.greetings { s with node } = s.greetings := by
      unfold greetings hello
      dsimp only
      rw [hworks.config]
    rw [hgreetings]
    exact (history_of_works hworks).trans h.said

/-- What does not matter to the executor does not matter to its results. -/
theorem Took.beside {node : State} {main : Main} (h : s.Took given) (replies : List Message)
    (hbeside : Beside s.node node)
    (hidle : main ≠ .instructing → node.instructions = .looping ∧ node.handled = [])
    (hlength : replies.length = consumed { s with main, node })
    (hgiven : given = replies ++ node.incoming)
    (hsaid : node.history.filter (fun m => !m.isReport) = greetings { s with main, node }) :
    Took { s with main, node } given :=
  ⟨h.sound.beside hbeside, h.inOrder.beside hbeside, hidle, ⟨replies, hlength, hgiven⟩, hsaid⟩

theorem reported_sendHello (s : Session) : (s.node.sendMessage s.hello).reported = s.node.reported := by
  show List.filterMap _ (s.node.sendMessage _).history = _
  rw [State.history_sendMessage, List.filterMap_append]
  exact List.append_nil _

/-- The message that the registration takes. -/
theorem Took.reply {main : Main} {msg : Message} {recvMessageQueue : List Message} (h : s.Took given)
    (hawaiting : s.main = .awaiting) (hqueue : s.node.recvMessageQueue = msg :: recvMessageQueue)
    (hlength : consumed { s with main } = 1) (hgreetings : greetings { s with main } = [s.hello]) :
    Took { s with main, node := { s.node with recvMessageQueue } } given := by
  have hidle := h.idle (by rw [hawaiting]; exact Main.noConfusion)
  obtain ⟨replies, hnone, hgiven⟩ := h.given
  have hsaid := h.said
  simp only [consumed, hawaiting, List.length_eq_zero_iff] at hnone
  simp only [greetings, hawaiting] at hsaid
  refine h.beside [msg] (beside_instructions s.node s.node.instructions recvMessageQueue)
    (fun _ => hidle) hlength.symm ?_ (hsaid.trans hgreetings.symm)
  rw [hgiven, hnone]
  unfold State.incoming
  rw [hidle.1, hidle.2, hqueue]
  rfl

theorem Took.stepped {op : Op} (h : s.Took given) (hstep : Stepped s op s') (hown : op.isOwn) :
    s'.Took given := by
  cases hstep with
  | program hmain henabled hok => exact h.program hmain hok hown
  | greet hmain =>
    have hsaid := h.said
    obtain ⟨replies, hlength, hgiven⟩ := h.given
    simp only [consumed, hmain] at hlength
    simp only [greetings, hmain] at hsaid
    refine h.beside replies ?_ (fun _ => h.idle (by rw [hmain]; exact Main.noConfusion))
      hlength hgiven ?_
    · exact ⟨rfl, rfl, rfl, id, .inl rfl, reported_sendHello s, [], (List.append_nil _).symm,
        (List.append_nil _).symm⟩
    · rw [State.history_sendMessage, List.filter_append, hsaid]
      rfl
  | accept hmain hqueue hregisters => exact h.reply hmain hqueue rfl rfl
  | refuse hmain hqueue hregisters => exact h.reply hmain hqueue rfl rfl
  | giveUp hmain =>
    have hsaid := h.said
    obtain ⟨replies, hlength, hgiven⟩ := h.given
    simp only [consumed, hmain] at hlength
    simp only [greetings, hmain] at hsaid
    exact h.beside replies (beside_quit s.node) (fun hne => absurd rfl hne) hlength
      hgiven hsaid

/-! ## The results of a session -/

theorem receivedTasks_sublist (h : s.Took given) :
    s.node.receivedTasks.Sublist (tasksIn given) := by
  obtain ⟨replies, -, hgiven⟩ := h.given
  rw [hgiven, tasksIn_append, State.incoming, List.append_assoc, tasksIn_append]
  exact (List.sublist_append_left _ _).trans (List.sublist_append_right _ _)

/-- What was reported are results of tasks that have come, in the order in which they have come. -/
theorem Took.reports (h : s.Took given) :
    List.SublistForall₂ Reports (resultsIn s.node.history) (tasksIn given) := by
  have hreports : List.SublistForall₂ Reports s.node.reported s.node.receivedTasks := h.inOrder.sublist
  rw [List.sublistForall₂_iff] at hreports ⊢
  obtain ⟨tasks, hmatch, hsub⟩ := hreports
  exact ⟨tasks, hmatch, hsub.trans (receivedTasks_sublist h)⟩

end Session

end NodeProgram

end Bem
