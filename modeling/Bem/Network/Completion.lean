import Bem.Coordinator.Calm
import Bem.Network.Conversation
import Bem.Node.Diligence

/-!
# Nothing is left undone

Where nothing disturbs the system and it comes to rest, so that no message is under way and no thread can
go on, every group is done.
-/

namespace Bem

namespace NodeProgram

/-- A program that quits goes on quitting. -/
theorem Session.Stepped.quit {s s' : Session} {op : Op} (h : Stepped s op s')
    (hquit : s.node.shouldQuit = true) : s'.node.shouldQuit = true := by
  cases h with
  | program hmain henabled hok =>
    by_cases hop : op = .instruct
    · subst hop
      exact (beside_instruct hok).quit hquit
    · exact (State.aside_step hok hop).1.quit hquit
  | giveUp => rfl
  | _ => exact hquit

end NodeProgram

theorem isCancel_delivered (m : Message) : m.delivered.isCancel = m.isCancel := by
  cases m <;> rfl

namespace Network

variable {N N' : Network} {n : NodeId} {op : NetworkOp}

/-- No running group is cancelled, and no node that has running work is removed or given up for its
silence; and every command has a game for each of its nodes. -/
def calm (N : Network) : NetworkOp → Prop
  | .own op => N.coordinator.calm op
  | _ => True

instance (N : Network) (op : NetworkOp) : Decidable (N.calm op) :=
  match op with
  | .own op => inferInstanceAs (Decidable (N.coordinator.calm op))
  | .accept _ | .join _ _ | .write _ | .deliver _ | .act _ _ | .send _ | .read _ | .handle _ =>
    .isTrue trivial

/-- The sections of an undisturbed step are undisturbed: no program sends a message that ends its
connection. -/
theorem Stepped.calm (h : Stepped N op N') (hheard : N.Heard) (hcalm : N.calm op) :
    (N'.coordinator = N.coordinator ∧ N'.inbox.received = N.inbox.received) ∨
      ∃ op', N.coordinator.calm op' ∧ N.coordinator.step op' = .ok N'.coordinator ∧
        (N'.inbox.received = N.inbox.received ∨ ∃ now e, handlerSection now e = some op' ∧
          N'.inbox.received = N.inbox.received ++ [e]) := by
  cases h with
  | own hown henabled hok => exact .inr ⟨_, hcalm, hok, .inl rfl⟩
  | accept henabled hnew => exact .inr ⟨.accept _, trivial, rfl, .inl rfl⟩
  | join haccepting => exact .inr ⟨.insert, trivial, rfl, .inl rfl⟩
  | @write n node msg messageQueue hnode hqueue =>
    have hinbox (f : Link → Link) : (N.onLink n f).inbox = N.inbox := by
      unfold onLink
      split <;> rfl
    exact .inr ⟨.write _, trivial, rfl, .inl (by rw [hinbox])⟩
  | @handle now e rest op s hnext hsection hok =>
    refine .inr ⟨_, ?_, hok, .inr ⟨now, e, hsection, Channel.received_next hnext⟩⟩
    have he : e ∈ N.inbox.sent := by
      rw [N.inbox.sent_eq, hnext]
      exact List.mem_append_right _ List.mem_cons_self
    obtain ⟨l, m, hlink, hm, heq⟩ := hheard.exists_said he
    obtain ⟨k, message⟩ := e
    cases message with
    | invalid =>
      have hmessage := (hheard.traced.sound.custody k l hlink).took.report_or_hello hm
      cases m with
      | invalid => exact absurd hmessage (by simp [Message.isReport, NodeProgram.Session.hello])
      | _ => cases heq
    | task msg => cases hsection
    | _ =>
      cases hsection
      trivial
  | _ => exact .inl ⟨rfl, rfl⟩

/-- What holds as long as nothing disturbs the system. -/
structure Undisturbed (N : Network) : Prop where
  mannered : N.Mannered
  logged : N.coordinator.Logged
  calm : N.coordinator.Calm
  kept : ∀ n l, N.link? n = some l → ∀ m ∈ l.down.sent, ¬ m.isCancel
  diligent : ∀ n l, N.link? n = some l → l.session.node.shouldQuit = false → l.session.node.Diligent
  settled : ∀ n msg, (n, .result msg) ∈ N.inbox.received → N.coordinator.Settled msg.taskId

theorem undisturbed_initial (config : CoordinatorConfig) :
    Undisturbed { coordinator := initial config } where
  mannered := mannered_initial config
  logged _ hcall := absurd hcall List.not_mem_nil
  calm := State.calm_initial config
  kept n l hlink := by cases hlink
  diligent n l hlink := by cases hlink
  settled n msg hmsg := absurd hmsg List.not_mem_nil

/-- A task that has come has an id. -/
theorem Undisturbed.id_ne (h : N.Undisturbed) (hs : N.coordinator.Regular) {l : Link}
    (hlink : N.link? n = some l) {task : Task} (htask : task ∈ tasksIn l.down.received) :
    task.id ≠ taskIdNone := by
  have hsent : task ∈ tasksIn l.down.sent := ((l.down.inOrder.filterMap _).subset) htask
  obtain ⟨assigned, hassigned, rfl⟩ :=
    List.mem_map.mp ((h.mannered.heard.traced.sent n l hlink).subset hsent)
  obtain ⟨call, hcall, rfl⟩ := List.mem_map.mp hassigned
  obtain ⟨r, hr, horder⟩ := h.logged call (List.mem_filter.mp hcall).1
  have hne := hs.id_ne hr
  rwa [Task.congr_order Task.id (fun _ => rfl) horder] at hne

theorem Undisturbed.diligent_step (h : N.Undisturbed) (hs : N.coordinator.Regular)
    (hstep : Stepped N op N') {l' : Link} (hlink' : N'.link? n = some l')
    (hrun : l'.session.node.shouldQuit = false) : l'.session.node.Diligent := by
  cases hstep.link hlink' with
  | inl hnew =>
    obtain ⟨protocolVersion, config, -, -, rfl⟩ := hnew
    exact NodeProgram.State.diligent_initial config
  | inr hold =>
    obtain ⟨l, hlink, hlstep⟩ := hold
    have htook := (h.mannered.heard.traced.sound.custody n l hlink).took
    have hkept (m : Message) (hm : m ∈ l.down.received) : ¬ m.isCancel :=
      h.kept n l hlink m (l.down.inOrder.subset hm)
    have hids (task : Task) (htask : task ∈ tasksIn l.down.received) : task.id ≠ taskIdNone :=
      h.id_ne hs hlink htask
    have hl := h.diligent n l hlink
    cases hlstep with
    | deliver =>
      exact (hl hrun).beside (NodeProgram.beside_instructions _ _ _) rfl (hl hrun).instructions
    | act halive hown henabled hok =>
      have hnode := NodeProgram.Session.stepped henabled hok hown
      refine hnode.diligent htook hkept hids (hl ?_) hrun
      by_contra hquit
      cases hrun.symm.trans (hnode.quit (by simpa using hquit))
    | send =>
      refine (hl ?_).takeMessage
      by_contra hquit
      cases hrun.symm.trans ((NodeProgram.beside_takeMessage _).quit (by simpa using hquit))
    | _ => exact hl hrun

theorem Undisturbed.step (h : N.Undisturbed) (hs : N.coordinator.Regular) (hcalm : N.calm op)
    (hstep : Stepped N op N') (hs' : N'.coordinator.Regular) : N'.Undisturbed := by
  have hmannered := h.mannered.step hstep
  have hcalm' : N'.coordinator.Calm ∧ N'.coordinator.Logged ∧
      ∀ n msg, (n, .result msg) ∈ N'.inbox.received → N'.coordinator.Settled msg.taskId := by
    cases hstep.calm h.mannered.heard hcalm with
    | inl hsame =>
      rw [hsame.1, hsame.2]
      exact ⟨h.calm, h.logged, h.settled⟩
    | inr hsection =>
      obtain ⟨op', hcalm, hok, hreceived⟩ := hsection
      refine ⟨h.calm.step hs hcalm hok hs', State.logged_step hs.wellFormed h.logged hok,
        fun n msg hmsg => ?_⟩
      have hold (hin : (n, Message.result msg) ∈ N.inbox.received) :=
        (h.settled n msg hin).step hs.wellFormed hok
      cases hreceived with
      | inl hsame => exact hold (hsame ▸ hmsg)
      | inr hhandled =>
        obtain ⟨now, e, hsection, hmore⟩ := hhandled
        rw [hmore] at hmsg
        cases List.mem_append.mp hmsg with
        | inl hin => exact hold hin
        | inr hnew =>
          rw [List.mem_singleton] at hnew
          subst hnew
          cases hsection
          exact h.calm.settled hs.wellFormed hok
  refine ⟨hmannered, hcalm'.2.1, hcalm'.1, fun n l' hlink' => ?_,
    fun n l' hlink' hrun => h.diligent_step hs hstep hlink' hrun, hcalm'.2.2⟩
  cases hstep.down hlink' with
  | inl hnone =>
    rw [hnone]
    exact fun m hm => absurd hm List.not_mem_nil
  | inr hrest =>
    cases hrest with
    | inl hsame =>
      obtain ⟨l, hlink, hsent⟩ := hsame
      rw [hsent]
      exact h.kept n l hlink
    | inr hwritten =>
      obtain ⟨-, node, hnode⟩ := hwritten
      rw [(hmannered.heard.traced.sound.custody n l' hlink').written node hnode]
      intro m hm
      obtain ⟨m', hm', rfl⟩ := List.mem_map.mp hm
      rw [isCancel_delivered]
      exact hcalm'.1.kept n node.desk (State.ledger_desk hnode) m' (List.mem_append_left _ hm')

theorem undisturbed_run {config : CoordinatorConfig} {ops : List NetworkOp}
    (hrun : network.Run calm { coordinator := initial config } ops N)
    (hfew : N.coordinator.subTasks < 2 ^ 32) : N.Undisturbed ∧ N.coordinator.Regular := by
  have h := hrun.invariant (I := fun N => N.Sound ∧
      (N.coordinator.subTasks < 2 ^ 32 → N.Undisturbed ∧ N.coordinator.Regular))
    (fun N op N' h henabled hcalm hok => by
      have hstep := stepped henabled hok
      refine ⟨h.1.step hstep, fun hfew' => ?_⟩
      obtain ⟨hundisturbed, hs⟩ := h.2 ((hstep.subTasks_le h.1).trans_lt hfew')
      have hs' := hstep.regular hs hfew'
      exact ⟨hundisturbed.step hs hcalm hstep hs', hs'⟩)
    ⟨sound_initial config, fun _ => ⟨undisturbed_initial config, regular_initial config⟩⟩
  exact h.2 hfew

/-! ## Rest -/

/-- A step of a thread or of a game's process, which goes on by itself as long as no peer is gone. -/
def isInner : NetworkOp → Bool
  | .write _ | .deliver _ | .send _ | .read _ | .handle _ => true
  | .act _ .quit => false
  | .act _ _ => true
  | _ => false

/-- The step is one of the handler, or has to do with the node. -/
def isAt (n : NodeId) : NetworkOp → Bool
  | .write m | .deliver m | .act m _ | .send m | .read m => m = n
  | _ => true

/-- Nothing goes on by itself at the node and in the handler. -/
def restsAt (N : Network) (n : NodeId) : Prop :=
  ∀ op : NetworkOp, isInner op → isAt n op → ¬ network.enabled N op

/-- Nothing goes on by itself. -/
def atRest (N : Network) : Prop := ∀ op : NetworkOp, isInner op → ¬ network.enabled N op

/-- No program of a node that has a running task has ended or is about to. -/
def staffed (N : Network) : Prop := ∀ e ∈ N.coordinator.nodes.pointees,
  (∃ r ∈ e.2.tasks, (N.coordinator.taskHeap.get r).status = .tsRunning) →
    ∀ l ∈ N.link? e.1, l.dead = false ∧ l.session.node.shouldQuit = false

instance (N : Network) : Decidable N.staffed :=
  inferInstanceAs (Decidable (∀ e ∈ N.coordinator.nodes.pointees, (∃ r ∈ e.2.tasks, _) →
    ∀ l ∈ N.link? e.1, l.dead = false ∧ l.session.node.shouldQuit = false))

/-- The first message to a node is no task. -/
theorem head?_of_polite {messages : List Message} (h : Polite messages) (msg : TaskMessage) :
    messages.head? ≠ some (.task msg) := by
  intro hhead
  cases messages with
  | nil => cases hhead
  | cons m rest =>
    cases hhead
    have hfirst := @next_of_polite [] _ _ h
    cases hfirst

theorem received_of_rest {α : Type} {c : Channel α} (h : c.inFlight = []) : c.received = c.sent := by
  rw [c.sent_eq, h, List.append_nil]

/-- At rest, what a program reports has reached the handler. -/
theorem Undisturbed.handled_of_restsAt (h : N.Undisturbed) (hrest : N.restsAt n) {l : Link}
    (hlink : N.link? n = some l) (halive : l.dead = false) {msg : ResultMessage}
    (hmsg : msg ∈ resultsIn l.session.node.history) : (n, .result msg) ∈ N.inbox.received := by
  have hcustody := h.mannered.heard.traced.sound.custody n l hlink
  have hsent : l.session.node.sendMessageQueue = [] := by
    by_contra hqueue
    exact hrest (.send n) rfl (decide_eq_true rfl) ⟨l, hlink, by simp [halive], hqueue⟩
  have hup : l.up.inFlight = [] := by
    by_contra hflight
    exact hrest (.read n) rfl (decide_eq_true rfl) ⟨l, hlink, hflight⟩
  have hinbox : N.inbox.inFlight = [] := by
    by_contra hflight
    exact hrest (.handle 0) rfl rfl hflight
  have hwritten : Message.result msg ∈ l.session.node.written := by
    obtain ⟨m, hm, heq⟩ := List.mem_filterMap.mp hmsg
    unfold NodeProgram.State.history at hm
    rw [hsent, List.append_nil] at hm
    cases m <;> cases heq
    exact hm
  have htaken : Message.result msg ∈ N.takenFrom n := by
    rw [hcustody.taken, received_of_rest hup, hcustody.said]
    exact List.mem_map.mpr ⟨_, hwritten, rfl⟩
  obtain ⟨e, he, heq⟩ := List.mem_map.mp htaken
  obtain ⟨hin, hid⟩ := List.mem_filter.mp he
  obtain ⟨k, m⟩ := e
  obtain rfl : k = n := of_decide_eq_true hid
  obtain rfl : m = .result msg := heq
  rwa [received_of_rest hinbox]

/-- At rest the results of all tasks that were sent to a node have been handled. -/
theorem Undisturbed.settled_of_restsAt (h : N.Undisturbed) (hrest : N.restsAt n) {node : Node} {l : Link}
    (hnode : N.coordinator.node? n = some node) (hlink : N.link? n = some l) (halive : l.dead = false)
    (hrun : l.session.node.shouldQuit = false) {m : TaskMessage} (hm : .task m ∈ node.history) :
    N.coordinator.Settled m.task.id := by
  have hcustody := h.mannered.heard.traced.sound.custody n l hlink
  have hqueue : node.messageQueue = [] := by
    by_contra hqueue
    exact hrest (.write n) rfl (decide_eq_true rfl) ⟨node, hnode, hqueue⟩
  have hdown : l.down.inFlight = [] := by
    by_contra hflight
    exact hrest (.deliver n) rfl (decide_eq_true rfl) ⟨l, hlink, by simp [halive], hflight⟩
  have hsession : l.session.atRest := fun op hown hquit henabled => by
    refine hrest (.act n op) ?_ (decide_eq_true rfl) ⟨hown, l, hlink, by simp [halive], henabled⟩
    cases op with
    | quit => exact absurd rfl hquit
    | _ => rfl
  -- the task has come
  have hcome : m.task.received ∈ tasksIn l.down.received := by
    unfold Node.history at hm
    rw [hqueue, List.append_nil] at hm
    rw [received_of_rest hdown, hcustody.written node hnode]
    exact List.mem_filterMap.mpr ⟨_, List.mem_map.mpr ⟨_, hm, rfl⟩, rfl⟩
  -- and was reported
  have hpolite := h.mannered.polite n l hlink
  rw [← received_of_rest hdown] at hpolite
  have hreports := NodeProgram.Session.reports_of_atRest hsession hcustody.took
    (h.diligent n l hlink hrun) hrun (head?_of_polite hpolite)
  obtain ⟨msg, hmsg, hreport⟩ := NodeProgram.exists_of_sublistForall₂
    (List.sublistForall₂_iff.mpr ⟨_, hreports.flip, List.Sublist.refl _⟩) hcome
  have hsettled := h.settled n msg (h.handled_of_restsAt hrest hlink halive hmsg)
  rwa [hreport.taskId] at hsettled

/-- If nothing has disturbed the work, and the programs of all nodes that have running tasks are still there
and rest, then every group is done. -/
theorem Undisturbed.done_of_restsAt (h : N.Undisturbed) (hs : N.coordinator.Regular)
    (hstaffed : ∀ n node, N.coordinator.node? n = some node →
      (∃ r ∈ node.tasks, (N.coordinator.taskHeap.get r).status = .tsRunning) → ∀ l, N.link? n = some l →
        l.dead = false ∧ l.session.node.shouldQuit = false ∧ N.restsAt n)
    {g : TaskId} {G : TaskGroup} (hG : N.coordinator.group? g = some G) : G.status = .tsDone := by
  refine (h.calm.busy.group g G hG).resolve_left fun hbusy => ?_
  -- the group waits for a task that was sent to a node
  obtain ⟨r, n, node, hlt, hgroup, hrunning, hnode, hmem, m, hm, hid⟩ := h.calm.exists_task hs hG hbusy.1
  have htraced := h.mannered.heard.traced
  obtain ⟨l, hlink⟩ := Option.isSome_iff_exists.mp (htraced.sound.nodes n (by rw [hnode]; rfl))
  obtain ⟨halive, hgoesOn, hrest⟩ := hstaffed n node hnode ⟨r, hmem, hrunning⟩ l hlink
  -- its result has been handled
  obtain ⟨q, hq, hdone⟩ := h.settled_of_restsAt hrest hnode hlink halive hgoesOn hm
  rw [hid, (hs.task?_id hlt).1] at hq
  cases hq
  cases hdone with
  | inl hdone => cases hrunning.symm.trans hdone
  | inr hdone =>
    obtain ⟨G', hG', hdone⟩ := hdone
    rw [hgroup] at hG'
    cases hG.symm.trans hG'
    cases hbusy.1.symm.trans hdone

/-- The queues and channels are empty, and the threads of the programs wait. -/
structure Resting (N : Network) : Prop where
  nodes : ∀ e ∈ N.coordinator.nodes.pointees, e.2.messageQueue = []
  links : ∀ c ∈ N.connections, ∀ l ∈ N.link? c.nodeId, l.down.inFlight = [] ∧ l.up.inFlight = [] ∧
    l.session.node.sendMessageQueue = [] ∧ l.session.rests
  inbox : N.inbox.inFlight = []

instance (N : Network) : Decidable N.Resting :=
  decidable_of_iff (_ ∧ _ ∧ _) ⟨fun h => ⟨h.1, h.2.1, h.2.2⟩, fun h => ⟨h.nodes, h.links, h.inbox⟩⟩

theorem Resting.atRest (h : N.Resting) (hs : N.Sound) : N.atRest := by
  -- every link is one of the connections
  have hlinks {n : NodeId} {l : Link} (hlink : N.link? n = some l) : l.down.inFlight = [] ∧
      l.up.inFlight = [] ∧ l.session.node.sendMessageQueue = [] ∧ l.session.rests := by
    obtain ⟨c, hc, hid⟩ := (hs.linked n).mp (by rw [hlink]; rfl)
    exact h.links c hc l (by rw [hid]; exact hlink)
  intro op hop henabled
  cases op with
  | write n =>
    obtain ⟨node, hnode, hqueue⟩ := henabled
    exact hqueue (h.nodes (n, node) (KeyedMap.mem_pointees.mpr hnode))
  | deliver n =>
    obtain ⟨l, hlink, -, hflight⟩ := henabled
    exact hflight (hlinks hlink).1
  | act n op =>
    obtain ⟨hown, l, hlink, -, henabled⟩ := henabled
    refine NodeProgram.Session.atRest_of_rests (hlinks hlink).2.2.2 op hown (fun heq => ?_) henabled
    subst heq
    cases hop
  | send n =>
    obtain ⟨l, hlink, -, hqueue⟩ := henabled
    exact hqueue (hlinks hlink).2.2.1
  | read n =>
    obtain ⟨l, hlink, hflight⟩ := henabled
    exact hflight (hlinks hlink).2.1
  | handle now => exact henabled h.inbox
  | _ => cases hop

end Network

end Bem
