import Bem.Network.Conversation

/-!
# What brings the programs of the nodes down

A node that has read its games from a document is only sent tasks that it can look up, and only what it
waits for.  Its program falls when it quits before it has been accepted, and not otherwise.
-/

namespace Bem

namespace NodeProgram

variable {s s' : Session}

theorem Session.Stepped.config {op : Op} (h : Session.Stepped s op s') (hown : op.isOwn) :
    s'.node.config = s.node.config := by
  cases h with
  | program hmain henabled hok => exact (State.works_step hok hown).config
  | _ => rfl

/-- Only the start of a task can fail. -/
theorem preparing_of_error {node : State} {e : Fault} (h : node.execute = .error e) :
    ∃ task, node.executor = .preparing task ∧ gameCommand node.config task = .error e := by
  unfold State.execute at h
  split at h
  case h_4 task hplace =>
    split at h <;> cases h
    next hcommand => exact ⟨task, hplace, hcommand⟩
  all_goals
    repeat' split at h
    all_goals cases h

/-- A program that has come as far as it has, and can look up all tasks that it was given, falls only
when it quits unregistered. -/
theorem falls_iff {given : List Message} (horderly : s.Orderly) (htook : s.Took given)
    (hfound : ∀ task ∈ tasksIn given, s.node.config.gamelist.offers task) (op : Op) :
    (∃ e, startup.step s op = .error e) ↔ s.quitsUnregistered op := by
  constructor
  · intro h
    obtain ⟨e, herror⟩ := h
    cases op with
    | instruct => exact Session.breaks_act horderly herror
    | execute =>
      have hnode : s.node.execute = .error e := Except.map_eq_error.mp herror
      obtain ⟨task, hplace, hcommand⟩ := preparing_of_error hnode
      obtain ⟨given', hstarted, -⟩ := htook.inOrder.sent
      rw [hplace] at hstarted
      have hreceived : task ∈ s.node.receivedTasks := by
        rw [htook.inOrder.taken, hstarted]
        exact List.mem_append_left _ (List.mem_append_right _ (List.mem_singleton_self task))
      have hoffers := hfound task ((Session.receivedTasks_sublist htook).subset hreceived)
      obtain ⟨command, hok⟩ :=
        exists_gameCommand_of_offers hoffers s.node.config.gamesDir s.node.config.gameLauncher
      cases hok.symm.trans hcommand
    | _ => cases herror
  · intro h
    exact ⟨_, Session.step_of_quitsUnregistered h⟩

end NodeProgram

namespace Network

variable {N N' : Network} {n : NodeId}

/-- A new node has read its games from a document. -/
def loadsGames (_ : Network) : NetworkOp → Prop
  | .join _ config => ∃ document, GameList.fromJson {} document = .ok config.gamelist
  | _ => True

/-- The coordinator knows the games of each node, and sends it only tasks that can be found there. -/
structure Supplied (N : Network) : Prop where
  mannered : N.Mannered
  keyed : ∀ c ∈ N.connections, c.gamelist.KeyedById
  informed : Informed N.connections N.coordinator
  games : ∀ c ∈ N.connections, ∀ l, N.link? c.nodeId = some l →
    l.session.node.config.gamelist = c.gamelist
  tasks : ∀ n l, N.link? n = some l → ∀ task ∈ tasksIn l.down.sent,
    l.session.node.config.gamelist.offers task

theorem supplied_initial (config : CoordinatorConfig) : Supplied { coordinator := initial config } where
  mannered := mannered_initial config
  keyed _ hc := absurd hc List.not_mem_nil
  informed := ⟨fun _ _ hnode => (by cases hnode), fun _ hselection => (by cases hselection)⟩
  games _ hc := absurd hc List.not_mem_nil
  tasks n l hlink := by cases hlink

/-- The configuration of a program does not change. -/
theorem LinkStepped.config {op : NetworkOp} {l l' : Link} (h : LinkStepped op n l l') :
    l'.session.node.config = l.session.node.config := by
  cases h with
  | act halive hown henabled hok => exact (NodeProgram.Session.stepped henabled hok hown).config hown
  | send halive hqueue =>
    show l.session.node.takeMessage.config = _
    unfold NodeProgram.State.takeMessage
    split <;> rfl
  | _ => rfl

/-- The list that comes with a HELLO is the one of the node's configuration. -/
theorem Supplied.gamelist_of_hello (h : N.Supplied) {msg : HelloMessage}
    {rest : List (NodeId × Message)} (hnext : N.inbox.inFlight = (n, .hello msg) :: rest)
    {c : Connection} (hc : c ∈ N.connections) (hid : c.nodeId = n) : msg.gamelist = c.gamelist := by
  have hheard := h.mannered.heard
  have hin : (n, Message.hello msg) ∈ N.inbox.sent := by
    rw [N.inbox.sent_eq, hnext]
    exact List.mem_append_right _ List.mem_cons_self
  obtain ⟨l, m, hlink, hm, hdelivered⟩ := hheard.exists_said hin
  have hgames := h.games c hc l (hid ▸ hlink)
  have hkeyed := (GameList.rekeyed_eq_self_iff c.gamelist).mpr (h.keyed c hc)
  cases m with
  | hello m =>
    cases (hheard.traced.sound.custody n l hlink).took.report_or_hello hm with
    | inl hreport => cases hreport
    | inr hello =>
      cases hello
      cases hdelivered
      show l.session.node.config.gamelist.rekeyed = c.gamelist
      rw [hgames]
      exact hkeyed
  | _ => cases hdelivered

theorem connections_step {op : NetworkOp} (h : Stepped N op N') (hop : ∀ v config, op ≠ .join v config) :
    N'.connections = N.connections := by
  cases h with
  | join haccepting => exact absurd rfl (hop _ _)
  | write hnode hqueue =>
    show (N.onLink _ _).connections = _
    unfold onLink
    split <;> rfl
  | _ => rfl

/-- What the coordinator knows of its nodes it still knows after a step. -/
theorem Supplied.informed_step (h : N.Supplied) {op : NetworkOp} (hstep : Stepped N op N') :
    Informed N'.connections N'.coordinator := by
  have hsound := h.mannered.heard.traced.sound
  have hdistinct : ∀ c ∈ N.connections, ∀ c' ∈ N.connections, c.nodeId = c'.nodeId → c = c' :=
    fun c hc c' hc' => hsound.toldApart.eq_of_nodeId hc hc'
  have hquiet {op' : Op} {s : State} (hhandshake : ¬ op'.isHandshake)
      (hok : N.coordinator.step op' = .ok s) : Informed N.connections s :=
    h.informed.step hsound.wellFormed hdistinct hhandshake hok
  cases hstep with
  | @own op' s hown henabled hok =>
    refine hquiet (fun hhandshake => ?_) hok
    cases op' with
    | accept | insert | hello => cases hown
    | _ => cases hhandshake
  | @accept nodeSocket henabled hnew =>
    refine ⟨fun n node hnode => ?_, fun selection hselection => ?_⟩
    · rw [State.node?, State.nodes_acceptConnection] at hnode
      exact h.informed.node n node hnode
    · have hsame : (N.coordinator.acceptConnection nodeSocket).selection = N.coordinator.selection := by
        unfold State.acceptConnection
        split <;> rfl
      exact h.informed.selection selection (hsame ▸ hselection)
  | join haccepting => exact h.informed.insertNode haccepting
  | @write m node msg messageQueue hnode hqueue =>
    have hsame : (N.onLink m fun l => { l with down := l.down.put msg.delivered }).connections =
        N.connections := by
      unfold onLink
      split <;> rfl
    show Informed (N.onLink m _).connections _
    rw [hsame]
    exact hquiet (show ¬ (Op.write m).isHandshake by simp [Op.isHandshake]) rfl
  | @handle now e rest op' s hnext hsection hok =>
    obtain ⟨m, message⟩ := e
    cases message with
    | hello msg =>
      cases hsection
      exact h.informed.handleHelloMessage (fun c hc hid => h.gamelist_of_hello hnext hc hid) hok
    | task msg => cases hsection
    | _ =>
      cases hsection
      exact hquiet (by simp [Op.isHandshake]) hok
  | _ => exact h.informed

theorem Supplied.step (h : N.Supplied) {op : NetworkOp} (hloads : N.loadsGames op)
    (hstep : Stepped N op N') : N'.Supplied := by
  have hmannered := h.mannered.step hstep
  have hinformed := h.informed_step hstep
  have hsound := h.mannered.heard.traced.sound
  have hsound' := hmannered.heard.traced.sound
  -- the games of the connections, old and new
  have hgames : (∀ c ∈ N'.connections, c.gamelist.KeyedById) ∧ ∀ c ∈ N'.connections, ∀ l,
      N'.link? c.nodeId = some l → l.session.node.config.gamelist = c.gamelist := by
    have hkept (c : Connection) (hc : c ∈ N.connections) (l' : Link)
        (hlink' : N'.link? c.nodeId = some l') : l'.session.node.config.gamelist = c.gamelist := by
      cases hstep.link hlink' with
      | inl hnew =>
        obtain ⟨_, _, hid, -, -⟩ := hnew
        have hlinked := (hsound.linked c.nodeId).mpr ⟨c, hc, rfl⟩
        rw [hid, hsound.link?_nextNodeId] at hlinked
        cases hlinked
      | inr hold =>
        obtain ⟨l, hlink, hlstep⟩ := hold
        rw [hlstep.config]
        exact h.games c hc l hlink
    by_cases hjoin : ∃ v config, op = .join v config
    · obtain ⟨v, config, rfl⟩ := hjoin
      obtain ⟨document, hdocument⟩ := hloads
      cases hstep with
      | join haccepting =>
        refine ⟨?_, fun c hc l hlink => ?_⟩
        · exact List.forall_mem_append.mpr ⟨h.keyed, List.forall_mem_singleton.mpr
            (GameList.keyedById_of_fromJson hdocument)⟩
        · cases List.mem_append.mp hc with
          | inl hold => exact hkept c hold l hlink
          | inr hnew =>
            cases List.mem_singleton.mp hnew
            have heq := hlink.symm.trans (link?_setLink_self N _)
            cases heq
            rfl
    · have hsame := connections_step hstep fun v config heq => hjoin ⟨v, config, heq⟩
      rw [hsame]
      exact ⟨h.keyed, hkept⟩
  refine ⟨hmannered, hgames.1, hinformed, hgames.2, fun n l' hlink' task htask => ?_⟩
  cases hstep.down hlink' with
  | inl hnone =>
    rw [hnone] at htask
    exact absurd htask List.not_mem_nil
  | inr hrest =>
    cases hrest with
    | inl hsame =>
      obtain ⟨l, hlink, hsent⟩ := hsame
      rw [hsent] at htask
      have hfound := h.tasks n l hlink task htask
      cases hstep.link hlink' with
      | inl hnew =>
        obtain ⟨_, _, hid, -, -⟩ := hnew
        rw [hid, hsound.link?_nextNodeId] at hlink
        cases hlink
      | inr hold =>
        obtain ⟨l₁, hlink₁, hlstep⟩ := hold
        cases hlink.symm.trans hlink₁
        rwa [hlstep.config]
    | inr hwritten =>
      -- what is written to a live node are tasks that its connection has
      obtain ⟨-, node, hnode⟩ := hwritten
      obtain ⟨c, hc, hserves⟩ := hinformed.node n node hnode
      rw [hgames.2 c hc l' (hserves.nodeId ▸ hlink')]
      rw [(hsound'.custody n l' hlink').written node hnode, tasksIn_delivered] at htask
      obtain ⟨task', htask', rfl⟩ := List.mem_map.mp htask
      obtain ⟨m, hm, hmessage⟩ := List.mem_filterMap.mp htask'
      cases m with
      | task m =>
        cases hmessage
        exact hserves.tasks m (List.mem_append_left _ hm)
      | _ => cases hmessage

theorem supplied_run {config : CoordinatorConfig} {ops : List NetworkOp}
    (hrun : network.Run loadsGames { coordinator := initial config } ops N) : N.Supplied :=
  hrun.invariant (fun _ _ _ h henabled hloads hok => h.step hloads (stepped henabled hok))
    (supplied_initial config)

/-- A step of a program makes it fall exactly if the program has quit and waits for the reply to its HELLO. -/
theorem Supplied.falls_iff (h : N.Supplied) {l : Link} (hlink : N.link? n = some l) (op : NodeProgram.Op) :
    (∃ e, NodeProgram.startup.step l.session op = .error e) ↔ l.session.quitsUnregistered op := by
  obtain ⟨⟨protocolVersion, config, ops', hprogram⟩, -⟩ := h.mannered.heeded n l hlink
  have htook := (h.mannered.heard.traced.sound.custody n l hlink).took
  refine NodeProgram.falls_iff (NodeProgram.Session.orderly_run hprogram) htook (fun task htask => ?_) op
  exact h.tasks n l hlink task ((l.down.inOrder.filterMap _).subset htask)

end Network

end Bem
