import Bem.Node.Answers

/-!
# The thread of main

It registers the node, and then takes the instructions of the coordinator, also when the registration
has failed.  `receive_message` returns a null pointer once the node quits; only the second of its two
callers looks at it.
-/

namespace Bem

def HelloMessage.flagNone : UInt8 := 0

/-- What the coordinator sends to a node that is registered. -/
def Message.isInstruction : Message → Bool
  | .task _ => true
  | .taskNotify msg => msg.taskStatus == .tsQuestion || msg.taskStatus == .tsCancelled
  | _ => false

/-- The program ends at a null pointer or at an assert, and not by an exception. -/
def Fault.Breaks : Fault → Prop
  | .nullPointer | .assertFailed => True
  | _ => False

namespace NodeProgram

/-- A place of `register_to_coordinator`, or of `main` after it. -/
inductive Main
  | greeting
  | awaiting
  | rejected
  | instructing

/-- The program from the start of its threads.  `replied` is not a variable of the program: the
coordinator has sent its reply to the HELLO. -/
structure Session where
  protocolVersion : UInt8 := 0
  main : Main := .greeting
  replied : Bool := false
  node : State

namespace Session

def hello (s : Session) : Message :=
  .hello {
    protoVer := s.protocolVersion
    flag := HelloMessage.flagNone
    gamelist := s.node.config.gamelist }

/-- The step that the thread of `main` takes next. -/
def act (s : Session) : Except Fault Session :=
  match s.main with
  | .greeting => .ok { s with main := .awaiting, node := s.node.sendMessage s.hello }
  | .awaiting =>
    -- `receive_message` returns `nullptr`, and `msg->GetType()` is called
    if s.node.shouldQuit then .error .nullPointer
    else
      match s.node.recvMessageQueue with
      | [] => .ok s
      | msg :: recvMessageQueue =>
        if registerToCoordinator [msg] = some true then
          .ok { s with main := .instructing, node := { s.node with recvMessageQueue } }
        else .ok { s with main := .rejected, node := { s.node with recvMessageQueue } }
  | .rejected =>
    -- `terminate_program`, and on to the loop
    .ok { s with main := .instructing, node := { s.node with shouldQuit := true } }
  | .instructing => s.node.instruct.map fun node => { s with node }

/-- What a correct coordinator sends: pings at any time, one reply, instructions after it. -/
def maySend (s : Session) (msg : Message) : Bool :=
  if s.replied then msg.isInstruction else msg.isHello || msg == questionMessage

def canAct (s : Session) : Bool :=
  match s.main with
  | .awaiting => s.node.shouldQuit || !s.node.recvMessageQueue.isEmpty
  | .instructing => s.node.canInstruct
  | _ => true

def enabled (s : Session) : Op → Bool
  | .instruct => s.canAct
  | .deliver msg => s.maySend msg
  | op => s.node.enabled op

def step (s : Session) : Op → Except Fault Session
  | .instruct => s.act
  | .deliver msg =>
    .ok { s with
      replied := s.replied || msg.isHello
      node := { s.node with recvMessageQueue := s.node.recvMessageQueue ++ [msg] } }
  | op => (s.node.step op).map fun node => { s with node }

end Session

/-- `main`, from where the threads are started. -/
def startup : Machine Session Op Fault where
  enabled s op := s.enabled op
  step := Session.step

def start (protocolVersion : UInt8) (config : NodeConfig) : Session :=
  { protocolVersion, node := initial config }

instance (s : Session) (op : Op) : Decidable (startup.enabled s op) :=
  inferInstanceAs (Decidable (s.enabled op = true))

/-! ## The messages that are waited for -/

namespace State

/-- The instruction thread has nothing but instructions before it. -/
structure Heeds (s : State) : Prop where
  queued : ∀ msg ∈ s.recvMessageQueue, msg.isInstruction
  handled : ∀ msg, s.instructions = .handling msg → msg.isInstruction

/-- The instruction thread handles no further message. -/
structure Leaving (s : State) : Prop where
  quit : s.shouldQuit = true
  place : s.instructions = .looping ∨ s.instructions = .terminating ∨ s.instructions = .finished

variable {s s' : State}

/-- The only faults of the instruction thread are its asserts. -/
theorem handling_of_error {e : Fault} (h : s.instruct = .error e) :
    e = .assertFailed ∧ ∃ msg, s.instructions = .handling msg ∧ msg.isInstruction = false := by
  unfold instruct at h
  split at h
  case h_1 | h_6 => split at h <;> cases h
  case h_2 =>
    split at h
    · cases h
    · split at h <;> cases h
  case h_4 msg hplace =>
    split at h
    · cases h
    · split at h <;> cases h
    · next hother =>
      cases h
      refine ⟨rfl, _, hplace, ?_⟩
      cases hstatus : msg.taskStatus with
      | tsQuestion => exact absurd hstatus ‹_›
      | tsCancelled => exact absurd hstatus ‹_›
      | _ => simp [Message.isInstruction, hstatus]
  case h_5 msg htask hnotify hplace =>
    cases h
    refine ⟨rfl, msg, hplace, ?_⟩
    cases msg with
    | task m => exact absurd rfl (htask m)
    | taskNotify m => exact absurd rfl (hnotify m)
    | _ => rfl
  all_goals cases h

/-- What is queued stays, apart from the message that is taken. -/
theorem Heeds.instruct (h : s.Heeds) (hok : s.instruct = .ok s') : s'.Heeds := by
  have hsame {node : State} {place : Instructions} (hqueue : node.recvMessageQueue = s.recvMessageQueue)
      (hnode : node.instructions = place) (hplace : ∀ msg, place ≠ .handling msg) : node.Heeds := by
    constructor
    · rw [hqueue]
      exact h.queued
    · intro msg hmsg
      exact absurd (hnode.symm.trans hmsg) (hplace msg)
  unfold State.instruct at hok
  split at hok
  case h_1 | h_6 => split at hok <;> cases hok <;> exact hsame rfl rfl fun _ heq => by cases heq
  case h_2 =>
    split at hok
    · cases hok
      exact hsame rfl rfl fun _ heq => by cases heq
    split at hok <;> cases hok
    next => exact h
    next msg queue hqueue =>
      -- the thread takes a message of the queue up
      have hqueued := h.queued
      rw [hqueue, List.forall_mem_cons] at hqueued
      refine ⟨hqueued.2, fun other hother => ?_⟩
      cases hother
      exact hqueued.1
  case h_4 =>
    split at hok
    · cases hok
      exact hsame rfl rfl fun _ heq => by cases heq
    · split at hok <;> cases hok <;> exact hsame rfl rfl fun _ heq => by cases heq
    · cases hok
  case h_10 =>
    cases hok
    exact h
  case h_5 => cases hok
  all_goals
    cases hok
    exact hsame rfl rfl fun _ heq => by cases heq

theorem Leaving.instruct (h : s.Leaving) (hok : s.instruct = .ok s') : s'.Leaving := by
  rcases h with ⟨hquit, hlooping | hterminating | hfinished⟩
  · rw [State.instruct, hlooping] at hok
    dsimp only at hok
    rw [if_pos hquit] at hok
    cases hok
    exact ⟨hquit, .inr (.inl rfl)⟩
  · rw [State.instruct, hterminating] at hok
    cases hok
    exact ⟨rfl, .inr (.inr rfl)⟩
  · rw [State.instruct, hfinished] at hok
    cases hok
    exact ⟨hquit, .inr (.inr hfinished)⟩

theorem Leaving.not_handling (h : s.Leaving) (msg : Message) : s.instructions ≠ .handling msg := by
  intro hmsg
  have hplace := h.place
  rw [hmsg] at hplace
  rcases hplace with heq | heq | heq <;> cases heq

theorem Leaving.aside (h : s.Leaving) (haside : Aside s s') : s'.Leaving := by
  constructor
  · exact haside.quit h.quit
  · rw [haside.instructions]
    exact h.place

/-- All that can fail at the start of a task is a lookup. -/
theorem outOfRange_of_gameCommand {config : NodeConfig} {task : Task} {e : Fault}
    (h : gameCommand config task = .error e) : e = .outOfRange := by
  unfold gameCommand GameList.getGameName GameList.getAgentRelativePath at h
  cases hgame : config.gamelist.games.lookup task.gameId with
  | none =>
    rw [hgame] at h
    cases h
    rfl
  | some game =>
    rw [hgame] at h
    cases hagent1 : game.agents.lookup task.agent1 with
    | none =>
      simp only [hagent1] at h
      cases h
      rfl
    | some agent1 =>
      cases hagent2 : game.agents.lookup task.agent2 with
      | none =>
        simp only [hagent1, hagent2] at h
        cases h
        rfl
      | some agent2 =>
        simp only [hagent1, hagent2] at h
        cases h

/-- The executor has no assert, and no null pointer. -/
theorem outOfRange_of_error {e : Fault} (h : s.execute = .error e) : e = .outOfRange := by
  unfold execute at h
  split at h
  case h_4 task hplace =>
    split at h <;> cases h
    next hcommand => exact outOfRange_of_gameCommand hcommand
  all_goals
    repeat' split at h
    all_goals cases h

end State

/-! ## The messages of a correct coordinator -/

namespace Session

/-- At every place, no other message than the ones that are waited for can still come. -/
def Orderly (s : Session) : Prop :=
  match s.main with
  | .greeting | .awaiting =>
    s.node.instructions = .looping ∧ (s.replied = false → ∀ msg ∈ s.node.recvMessageQueue, msg.isHello = false) ∧
      s.node.recvMessageQueue.Pairwise fun msg later => msg.isHello → later.isInstruction
  | .rejected => s.node.instructions = .looping
  | .instructing => s.node.Leaving ∨ s.replied ∧ s.node.Heeds

variable {s s' : Session}

/-- Only a HELLO registers the node. -/
theorem isHello_of_registers {msg : Message} (h : registerToCoordinator [msg] = some true) :
    msg.isHello := by
  cases msg with
  | hello m => rfl
  | _ => exact absurd h (by simp [registerToCoordinator])

theorem orderly_act (h : s.Orderly) (hok : s.act = .ok s') : s'.Orderly := by
  unfold Orderly at h
  unfold act at hok
  split at hok
  case h_1 hplace =>
    rw [hplace] at h
    cases hok
    exact h
  case h_2 hplace =>
    rw [hplace] at h
    split at hok
    · cases hok
    split at hok
    · cases hok
      unfold Orderly
      rw [hplace]
      exact h
    next msg queue hqueue =>
      rw [hqueue] at h
      split at hok <;> cases hok
      next hregisters =>
        -- the reply was sent, so only instructions are behind it
        have hello := isHello_of_registers hregisters
        refine .inr ⟨?_, fun later hlater => ?_, fun other hother => ?_⟩
        · by_contra hreplied
          have hnone := h.2.1 (Bool.eq_false_iff.mpr hreplied) msg List.mem_cons_self
          exact Bool.noConfusion (hello.symm.trans hnone)
        · exact (List.pairwise_cons.mp h.2.2).1 later hlater hello
        · exact absurd (h.1.symm.trans hother) (fun heq => by cases heq)
      next => exact h.1
  case h_3 hplace =>
    rw [hplace] at h
    cases hok
    exact .inl ⟨rfl, .inl h⟩
  case h_4 hplace =>
    rw [hplace] at h
    rcases Except.map_eq_ok.mp hok with ⟨node, hnode, rfl⟩
    unfold Orderly
    rw [hplace]
    exact h.imp (fun hleaving => hleaving.instruct hnode) fun hheeds =>
      ⟨hheeds.1, hheeds.2.instruct hnode⟩

theorem orderly_deliver {msg : Message} (h : s.Orderly) (hsend : s.maySend msg)
    (hok : s.step (.deliver msg) = .ok s') : s'.Orderly := by
  cases hok
  unfold maySend at hsend
  unfold Orderly at h ⊢
  dsimp only
  split at h
  case h_3 => exact h
  case h_4 =>
    refine h.imp (fun hleaving => ⟨hleaving.quit, hleaving.place⟩) fun hheeds => ?_
    rw [if_pos hheeds.1] at hsend
    refine ⟨Bool.or_eq_true_iff.mpr (.inl hheeds.1), ?_, hheeds.2.handled⟩
    rw [List.forall_mem_append, List.forall_mem_singleton]
    exact ⟨hheeds.2.queued, hsend⟩
  all_goals
    refine ⟨h.1, fun hreplied => ?_, ?_⟩
    · rw [Bool.or_eq_false_iff] at hreplied
      rw [List.forall_mem_append, List.forall_mem_singleton]
      exact ⟨h.2.1 hreplied.1, hreplied.2⟩
    · rw [List.pairwise_append]
      refine ⟨h.2.2, List.pairwise_singleton _ _, fun earlier hearlier later hlater hhello => ?_⟩
      cases List.mem_singleton.mp hlater
      -- the reply is there, so it was sent
      have hreplied : s.replied = true := by
        by_contra hnone
        have hno := h.2.1 (Bool.eq_false_iff.mpr hnone) earlier hearlier
        exact Bool.noConfusion (hhello.symm.trans hno)
      rw [if_pos hreplied] at hsend
      exact hsend

theorem Orderly.aside {node : State} (h : s.Orderly) (haside : State.Aside s.node node)
    (hqueue : node.recvMessageQueue = s.node.recvMessageQueue) : Orderly { s with node } := by
  unfold Orderly at h ⊢
  dsimp only
  rw [hqueue, haside.instructions]
  split at h
  case h_4 =>
    refine h.imp (fun hleaving => hleaving.aside haside) fun hheeds => ⟨hheeds.1, ?_, ?_⟩
    · rw [hqueue]
      exact hheeds.2.queued
    · rw [haside.instructions]
      exact hheeds.2.handled
  all_goals exact h

theorem step_eq {op : Op} (hop : op ≠ .instruct) (hdeliver : ∀ msg, op ≠ .deliver msg) :
    startup.step s op = (s.node.step op).map fun node => { s with node } := by
  cases op with
  | instruct => exact absurd rfl hop
  | deliver msg => exact absurd rfl (hdeliver msg)
  | _ => rfl

theorem orderly_step {op : Op} (h : s.Orderly) (henabled : startup.enabled s op)
    (hok : startup.step s op = .ok s') : s'.Orderly := by
  by_cases hop : op = .instruct
  · subst hop
    exact orderly_act h hok
  by_cases hdeliver : ∃ msg, op = .deliver msg
  · rcases hdeliver with ⟨msg, rfl⟩
    exact orderly_deliver h henabled hok
  · rw [step_eq hop (not_exists.mp hdeliver)] at hok
    rcases Except.map_eq_ok.mp hok with ⟨node, hnode, rfl⟩
    have haside := State.aside_step hnode hop
    refine h.aside haside.1 (haside.2.resolve_right fun hsent => ?_)
    rcases hsent with ⟨msg, heq, -⟩
    exact hdeliver ⟨msg, heq⟩

theorem orderly_run {P : Session → Op → Prop} {protocolVersion : UInt8} {config : NodeConfig}
    {ops : List Op} (hrun : startup.Run P (start protocolVersion config) ops s) : s.Orderly :=
  hrun.invariant (fun _ _ _ hs henabled _ hok => orderly_step hs henabled hok)
    ⟨rfl, fun _ => List.forall_mem_nil _, .nil⟩

end Session

/-- The step takes the null pointer that `receive_message` returns for a message. -/
def Session.quitsUnregistered (s : Session) : Op → Bool
  | .instruct =>
    match s.main with
    | .awaiting => s.node.shouldQuit
    | _ => false
  | _ => false

namespace Session

variable {s : Session} {e : Fault}

theorem breaks_act (horder : s.Orderly) (h : s.act = .error e) : s.quitsUnregistered .instruct := by
  unfold quitsUnregistered
  unfold act at h
  split at h
  case h_1 | h_3 => cases h
  case h_2 hplace =>
    rw [hplace]
    split at h
    next hquit => exact hquit
    next =>
      split at h
      · cases h
      · split at h <;> cases h
  case h_4 hplace =>
    -- a message that is not an instruction is not handled
    obtain ⟨-, msg, hmsg, hother⟩ := State.handling_of_error (Except.map_eq_error.mp h)
    unfold Orderly at horder
    rw [hplace] at horder
    cases horder with
    | inl hleaving => exact absurd hmsg (hleaving.not_handling msg)
    | inr hheeds => exact Bool.noConfusion (hother.symm.trans (hheeds.2.handled msg hmsg))

theorem breaks_step {op : Op} (horder : s.Orderly) (h : startup.step s op = .error e)
    (hbreaks : e.Breaks) : s.quitsUnregistered op := by
  cases op with
  | instruct => exact breaks_act horder h
  | execute =>
    have hnode : s.node.execute = .error e := Except.map_eq_error.mp h
    rw [State.outOfRange_of_error hnode] at hbreaks
    exact hbreaks.elim
  | _ => cases h

theorem step_of_quitsUnregistered {op : Op} (h : s.quitsUnregistered op) :
    startup.step s op = .error .nullPointer := by
  unfold quitsUnregistered at h
  split at h
  · split at h
    next hplace =>
      show s.act = _
      unfold act
      rw [hplace]
      exact if_pos h
    next => cases h
  · cases h

end Session

/-- Whatever a correct coordinator sends and whenever the node quits, the next step breaks the program
exactly if the node quits while it waits for the reply to its HELLO. -/
theorem quits_safely_iff {protocolVersion : UInt8} {config : NodeConfig} {ops : List Op} {s : Session}
    (hrun : startup.FreeRun (start protocolVersion config) ops s) (op : Op) :
    (∀ e, startup.step s op = .error e → ¬ e.Breaks) ↔ ¬ s.quitsUnregistered op := by
  constructor
  · intro hsafe hquits
    exact hsafe _ (Session.step_of_quitsUnregistered hquits) trivial
  · intro hquits e herror hbreaks
    exact hquits (Session.breaks_step (Session.orderly_run hrun) herror hbreaks)

def acceptMessage : Message := .hello { flag := HelloMessage.flagAccept }

/-- The node is registered, and quits while it waits for the instruction after a ping. -/
theorem quits_safely_later : ¬ ∃ e, startup.step (startup.after (start 0 soloNode)
    [.instruct, .deliver acceptMessage, .instruct, .deliver questionMessage, .instruct, .instruct,
      .instruct, .instruct, .instruct, .instruct, .quit]) .instruct = .error e ∧ e.Breaks := by
  intro h
  obtain ⟨e, herror, hbreaks⟩ := h
  have hsafe := (quits_safely_iff (Machine.run_after (by decide +kernel)) .instruct).mpr
    (by decide +kernel) e herror
  exact hsafe hbreaks

/-- The node quits before the reply of the coordinator. -/
theorem null_message : ¬ ∀ (protocolVersion : UInt8) (config : NodeConfig) (ops : List Op)
    (s : Session) (op : Op) (e : Fault), startup.FreeRun (start protocolVersion config) ops s →
      startup.enabled s op → startup.step s op = .error e → ¬ e.Breaks := by
  intro h
  have hrun := Machine.run_after (show (startup.exec (fun _ _ => True) (start 0 soloNode)
    [.instruct, .quit]).isSome by decide +kernel)
  exact h _ _ _ _ .instruct .nullPointer hrun (by decide +kernel)
    (Session.step_of_quitsUnregistered (by decide +kernel)) trivial

end NodeProgram

end Bem
