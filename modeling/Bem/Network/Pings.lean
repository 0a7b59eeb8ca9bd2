import Bem.Coordinator.Pings
import Bem.Network.Conversation
import Bem.Node.Replies

/-!
# Where a ping is

A node is asked again when its answer has been handled, and not before.  So what the two time stamps of
a node call an open ping is one message, in a queue, on the connection or in the hand of a thread.
-/

namespace Bem

theorem countP_isQuestion_delivered (messages : List Message) :
    (messages.map Message.delivered).countP Message.isQuestion = messages.countP Message.isQuestion := by
  rw [List.countP_map]
  congr 1
  funext m
  cases m <;> rfl

theorem countP_isNotify_delivered (messages : List Message) :
    (messages.map Message.delivered).countP Message.isNotify = messages.countP Message.isNotify := by
  rw [List.countP_map]
  congr 1
  funext m
  cases m <;> rfl

namespace State

variable {s s' : State}

/-- No node is asked anything but whether it is there. -/
def Asks (s : State) : Prop :=
  ∀ n node, s.node? n = some node → ∀ m ∈ node.history, m.isQuestion → m = Node.ping

theorem asks_step {op : Op} (hs : s.WellFormed) (h : s.Asks) (hok : s.step op = .ok s') : s'.Asks := by
  intro n node' hnode' m hm hquestion
  cases history_cases hs hok hnode' hm with
  | inl hold =>
    obtain ⟨node, hnode, hm⟩ := hold
    exact h n node hnode m hm hquestion
  | inr hnew =>
    cases hnew with
    | inl hreply =>
      obtain ⟨msg, rfl⟩ := hreply
      cases hquestion
    | inr hposted =>
      obtain ⟨a, ha, hpost, hhello⟩ := hposted
      cases posted_cases ha hpost hhello with
      | inl hping => exact hping
      | inr hother =>
        cases hother with
        | inl htask =>
          obtain ⟨msg, rfl⟩ := htask
          cases hquestion
        | inr hcancelled =>
          obtain ⟨t, rfl⟩ := hcancelled
          cases hquestion

/-- All questions among the messages are pings. -/
theorem Asks.count_ping (h : s.Asks) {n : NodeId} {node : Node} (hnode : s.node? n = some node) :
    node.exchange.pings = node.history.countP Message.isQuestion := by
  show node.history.countP (· == Node.ping) = _
  refine List.countP_congr fun m hm => ⟨fun hping => ?_, fun hquestion => ?_⟩
  · rw [beq_iff_eq.mp hping]
    rfl
  · exact beq_iff_eq.mpr (h n node hnode m hm hquestion)

end State

namespace Network

variable {N N' : Network} {n : NodeId}

/-- The messages of a node that the handler has taken up. -/
def handledFrom (N : Network) (n : NodeId) : List Message :=
  (N.inbox.received.filter fun e => e.1 = n).map Prod.snd

/-- The messages of a node that wait for the handler. -/
def waitingFrom (N : Network) (n : NodeId) : List Message :=
  (N.inbox.inFlight.filter fun e => e.1 = n).map Prod.snd

theorem takenFrom_eq (N : Network) (n : NodeId) : N.takenFrom n = N.handledFrom n ++ N.waitingFrom n := by
  unfold takenFrom
  rw [N.inbox.sent_eq, List.filter_append, List.map_append]
  rfl

/-- The questions to a node that it is not done with, and its answers that have not been handled. -/
def pingsUnderWay (N : Network) (n : NodeId) (node : Node) (l : Link) : Nat :=
  node.messageQueue.countP Message.isQuestion + l.down.inFlight.countP Message.isQuestion +
  l.session.node.recvMessageQueue.countP Message.isQuestion +
  l.session.node.instructions.inHand.countP Message.isQuestion +
  l.session.node.sendMessageQueue.countP Message.isNotify + l.up.inFlight.countP Message.isNotify +
  (N.waitingFrom n).countP Message.isNotify

/-- The questions that the registration has taken for the reply to its HELLO. -/
def misread (l : Link) : Nat :=
  (l.down.received.take l.session.consumed).countP Message.isQuestion

theorem spoken_step (hsound : N.Sound) (h : ∀ n l, N.link? n = some l → l.session.Spoken) {op : NetworkOp}
    (hstep : Stepped N op N') (n : NodeId) (l' : Link) (hlink' : N'.link? n = some l') :
    l'.session.Spoken := by
  cases hstep.link hlink' with
  | inl hnew =>
    obtain ⟨protocolVersion, config, -, -, rfl⟩ := hnew
    exact NodeProgram.Session.spoken_start protocolVersion config
  | inr hold =>
    obtain ⟨l, hlink, hlstep⟩ := hold
    have hl := h n l hlink
    have htook := (hsound.custody n l hlink).took
    cases hlstep with
    | deliver => exact hl.receive _
    | act halive hown henabled hok =>
      exact hl.stepped htook (NodeProgram.Session.stepped henabled hok hown) hown
    | send => exact hl.takeMessage
    | _ => exact hl

/-- What is known of the questions and answers of the nodes. -/
structure Pinged (N : Network) : Prop where
  mannered : N.Mannered
  asks : N.coordinator.Asks
  spoken : ∀ n l, N.link? n = some l → l.session.Spoken
  told : ∀ n e, N.coordinator.exchange n = some e →
    e.pings = (N.handledFrom n).countP Message.isNotify + if e.responseTs < e.requestTs then 1 else 0

/-- Every question that was ever asked is at one place. -/
theorem balance (hsound : N.Sound) (hasks : N.coordinator.Asks) {node : Node} {l : Link}
    (hnode : N.coordinator.node? n = some node) (hlink : N.link? n = some l) (hspoken : l.session.Spoken) :
    node.exchange.pings =
      (N.handledFrom n).countP Message.isNotify + N.pingsUnderWay n node l + misread l := by
  have hcustody := hsound.custody n l hlink
  -- the way of the questions
  have hasked := hasks.count_ping hnode
  unfold Node.history at hasked
  rw [List.countP_append, ← countP_isQuestion_delivered, ← hcustody.written node hnode, l.down.sent_eq,
    List.countP_append] at hasked
  obtain ⟨replies, hlength, hgiven⟩ := hcustody.took.given
  have hmisread : misread l = replies.countP Message.isQuestion := by
    unfold misread
    rw [hgiven, ← hlength, List.take_left]
  rw [hgiven] at hasked
  unfold NodeProgram.State.incoming at hasked
  rw [List.countP_append, List.countP_append, List.countP_append] at hasked
  -- the way of the answers
  have hanswered := hspoken.replied.count
  unfold NodeProgram.State.history at hanswered
  rw [List.countP_append, ← countP_isNotify_delivered, ← hcustody.said, l.up.sent_eq,
    List.countP_append, ← hcustody.taken, takenFrom_eq, List.countP_append] at hanswered
  unfold pingsUnderWay
  omega

theorem pinged_initial (config : CoordinatorConfig) : Pinged { coordinator := initial config } where
  mannered := mannered_initial config
  asks _ _ h := by cases h
  spoken n l hlink := by cases hlink
  told n e h := by cases h

/-- The clock reads more at a tick than at the last answer of a node that is not awaited, and no less at
an answer than at the tick before it. -/
def readsForward (N : Network) : NetworkOp → Prop
  | .own (.maintain clock) => ∀ e ∈ N.coordinator.nodes.pointees,
    ¬ e.2.awaitingResponse → e.2.responseTs < clock e.1
  | .handle now => ∀ e ∈ N.inbox.inFlight.head?, e.2.isNotify →
    ∀ node ∈ N.coordinator.node? e.1, node.requestTs ≤ now
  | _ => True

instance (N : Network) (op : NetworkOp) : Decidable (N.readsForward op) :=
  match op with
  | .own (.maintain clock) => inferInstanceAs (Decidable (∀ e ∈ N.coordinator.nodes.pointees,
      ¬ e.2.awaitingResponse = true → e.2.responseTs < clock e.1))
  | .handle now => inferInstanceAs (Decidable (∀ e ∈ N.inbox.inFlight.head?, e.2.isNotify = true →
      ∀ node ∈ N.coordinator.node? e.1, node.requestTs ≤ now))
  | .own (.select _) | .own .assign | .own (.cancel _) | .own (.erase _) | .own .balance
  | .own (.accept _) | .own .insert | .own (.result _) | .own (.hello _ _) | .own (.notify _ _ _)
  | .own (.write _) | .own (.rehash _ _ _) | .accept _ | .join _ _ | .write _ | .deliver _ | .act _ _
  | .send _ | .read _ => .isTrue trivial

/-- Who answers has said HELLO before. -/
theorem Pinged.registered (h : N.Pinged) {msg : TaskNotifyMessage} {rest : List (NodeId × Message)}
    (hnext : N.inbox.inFlight = (n, .taskNotify msg) :: rest) {node : Node}
    (hnode : N.coordinator.node? n = some node) : node.isRegistered := by
  rw [h.mannered.greeted n node hnode]
  have hsound := h.mannered.heard.traced.sound
  obtain ⟨l, hlink⟩ := Option.isSome_iff_exists.mp (hsound.nodes n (by rw [hnode]; rfl))
  have hwaiting : ∃ waiting, N.waitingFrom n = .taskNotify msg :: waiting := by
    unfold waitingFrom
    rw [hnext, List.filter_cons_of_pos (by simp)]
    exact ⟨_, rfl⟩
  obtain ⟨waiting, hwaiting⟩ := hwaiting
  have hstart := hsound.prefix_takenFrom hlink
  rw [takenFrom_eq, hwaiting] at hstart
  have hhistory : l.session.node.written.map Message.delivered <+:
      l.session.node.history.map Message.delivered := (List.prefix_append _ _).map _
  have hall := hstart.trans hhistory
  cases (h.spoken n l hlink).opening with
  | inl hnone =>
    rw [hnone] at hall
    simp at hall
  | inr hopened =>
    obtain ⟨said, hsaid⟩ := hopened
    rw [hsaid, List.map_cons] at hall
    cases hhandled : N.handledFrom n with
    | nil =>
      rw [hhandled, List.nil_append, List.cons_prefix_cons] at hall
      cases hall.1
    | cons m handled =>
      rw [hhandled, List.cons_append, List.cons_prefix_cons] at hall
      have hm : m ∈ N.handledFrom n := hhandled ▸ List.mem_cons_self
      obtain ⟨e, he, rfl⟩ := List.mem_map.mp hm
      obtain ⟨hin, hid⟩ := List.mem_filter.mp he
      obtain ⟨k, m⟩ := e
      obtain rfl : k = n := of_decide_eq_true hid
      rw [show m = l.session.hello.delivered from hall.1] at hin
      exact ⟨_, hin⟩

section Step

variable {op : NetworkOp}

/-- A section that is neither a tick nor the handling of an answer has nothing to do with pings. -/
theorem Pinged.told_section (h : N.Pinged) {op' : Op} {s : State} (hok : N.coordinator.step op' = .ok s)
    (hmaintain : ∀ clock, op' ≠ .maintain clock) (hnotify : ∀ msg now, op' ≠ .notify n msg now)
    {e : Node.Exchange} (he : s.exchange n = some e) :
    e.pings = (N.handledFrom n).countP Message.isNotify + if e.responseTs < e.requestTs then 1 else 0 := by
  have hsound := h.mannered.heard.traced.sound
  cases hnode : N.coordinator.node? n with
  | some node =>
    have herase : op' ≠ .erase n := by
      intro heq
      subst heq
      rw [show s.exchange n = none from
        congrArg (Option.map Node.exchange) (State.node?_eraseNode hok)] at he
      cases he
    rw [State.exchange_step hok hnode herase hmaintain hnotify] at he
    exact h.told n e he
  | none =>
    obtain ⟨node', hnode', rfl⟩ := Option.map_eq_some_iff.mp he
    have hinsert : op' = .insert := by
      by_contra hne
      cases (State.absent_step hsound.wellFormed hok hne hnode).symm.trans hnode'
    subst hinsert
    have hnew : n = N.coordinator.nextNodeId := by
      by_contra hne
      have hsame := N.coordinator.node?_insertNode_ne hne
      rw [hnode, show N.coordinator.insertNode = s from Except.ok.inj hok] at hsame
      cases hsame.symm.trans hnode'
    -- nothing has come from a node that is not there yet
    have hnone : N.handledFrom n = [] := by
      unfold handledFrom
      rw [List.map_eq_nil_iff, List.filter_eq_nil_iff]
      intro e he heq
      have hlinked := hsound.inbox e (N.inbox.inOrder.subset he)
      rw [of_decide_eq_true heq, hnew, hsound.link?_nextNodeId] at hlinked
      cases hlinked
    cases haccepting : N.coordinator.accepting with
    | none =>
      have hsame : s = N.coordinator := by
        have hinserted := Except.ok.inj hok
        unfold State.insertNode at hinserted
        rw [haccepting] at hinserted
        exact hinserted.symm
      rw [hsame, show N.coordinator.nodes.at? n = none from hnode] at hnode'
      cases hnode'
    | some socket =>
      have hentered := congrFun (State.trait_insertNode (f := Node.exchange) haccepting
        (hnew ▸ hnode) hsound.wellFormed) n
      rw [show N.coordinator.insertNode = s from Except.ok.inj hok, hnew,
        Function.update_self, State.trait_of_node? (hnew ▸ hnode')] at hentered
      rw [Option.some.inj hentered, hnone]
      rfl

/-- A tick asks exactly the nodes that are not awaited. -/
theorem Pinged.told_maintain (h : N.Pinged) {clock : NodeId → TimePoint} {s : State}
    (hforward : N.readsForward (.own (.maintain clock)))
    (hok : N.coordinator.maintain clock = .ok s) {e : Node.Exchange} (he : s.exchange n = some e) :
    e.pings = (N.handledFrom n).countP Message.isNotify + if e.responseTs < e.requestTs then 1 else 0 := by
  have hwellFormed := h.mannered.heard.traced.sound.wellFormed
  have hstep : N.coordinator.step (.maintain clock) = .ok s := hok
  cases hnode : N.coordinator.node? n with
  | none =>
    have hnone := State.absent_step hwellFormed hstep (by simp) hnode
    rw [show s.exchange n = none from congrArg (Option.map Node.exchange) hnone] at he
    cases he
  | some node =>
    have htold := h.told n _ (congrArg (Option.map Node.exchange) hnode)
    cases State.exchange_maintain hwellFormed hok hnode with
    | inl hpinged =>
      obtain ⟨hidle, hafter⟩ := hpinged
      cases hafter.symm.trans he
      have hlater : node.responseTs < clock n :=
        hforward (n, node) (KeyedMap.mem_pointees.mpr hnode) hidle
      rw [if_neg (fun hlt => hidle (Node.awaitingResponse_iff.mpr hlt))] at htold
      dsimp only
      rw [if_pos hlater, htold]
    | inr hkept =>
      cases hkept.2.symm.trans he
      exact htold

/-- An answer that is handled is the one to the last ping. -/
theorem Pinged.told_notify (h : N.Pinged) {msg : TaskNotifyMessage} {now : TimePoint}
    {rest : List (NodeId × Message)} {s : State} (hnext : N.inbox.inFlight = (n, .taskNotify msg) :: rest)
    (hforward : N.readsForward (.handle now))
    (hok : N.coordinator.handleNotifyTaskMessage n msg now = .ok s) {e : Node.Exchange}
    (he : s.exchange n = some e) : e.pings = (N.handledFrom n).countP Message.isNotify + 1 +
      if e.responseTs < e.requestTs then 1 else 0 := by
  have hsound := h.mannered.heard.traced.sound
  have hstep : N.coordinator.step (.notify n msg now) = .ok s := hok
  cases hnode : N.coordinator.node? n with
  | none =>
    have hnone := State.absent_step hsound.wellFormed hstep (by simp) hnode
    rw [show s.exchange n = none from congrArg (Option.map Node.exchange) hnone] at he
    cases he
  | some node =>
    have hanswered := State.exchange_handleNotifyTaskMessage hok hnode (h.registered hnext hnode)
    cases hanswered.symm.trans he
    have htold := h.told n _ (congrArg (Option.map Node.exchange) hnode)
    -- the answer is one of a question that was asked
    obtain ⟨l, hlink⟩ := Option.isSome_iff_exists.mp (hsound.nodes n (by rw [hnode]; rfl))
    have hbalance := balance hsound h.asks hnode hlink (h.spoken n l hlink)
    have hwaiting : 0 < (N.waitingFrom n).countP Message.isNotify := by
      unfold waitingFrom
      rw [hnext, List.filter_cons_of_pos (by simp), List.map_cons, List.countP_cons_of_pos (by rfl)]
      exact Nat.succ_pos _
    unfold pingsUnderWay at hbalance
    have hlater : node.requestTs ≤ now := by
      refine hforward (n, .taskNotify msg) ?_ rfl node hnode
      rw [hnext]
      rfl
    have hnot : ¬ now < node.exchange.requestTs := not_lt.mpr hlater
    dsimp only
    rw [if_neg hnot]
    split at htold <;> omega

theorem Pinged.told_step (h : N.Pinged) (hforward : N.readsForward op) (hstep : Stepped N op N')
    {e : Node.Exchange} (he : N'.coordinator.exchange n = some e) :
    e.pings = (N'.handledFrom n).countP Message.isNotify + if e.responseTs < e.requestTs then 1 else 0 := by
  cases hstep with
  | @own op' s hown henabled hok =>
    by_cases hmaintain : ∃ clock, op' = .maintain clock
    · obtain ⟨clock, rfl⟩ := hmaintain
      exact h.told_maintain hforward hok he
    · refine h.told_section hok (fun clock heq => hmaintain ⟨clock, heq⟩) (fun msg now heq => ?_) he
      subst heq
      cases hown
  | @accept nodeSocket =>
    have hok : N.coordinator.step (.accept nodeSocket) = .ok _ := rfl
    exact h.told_section hok (by simp) (by simp) he
  | join haccepting =>
    have hok : N.coordinator.step .insert = .ok _ := rfl
    exact h.told_section hok (by simp) (by simp) he
  | @write m node msg =>
    have hok : N.coordinator.step (.write m) = .ok _ := rfl
    have hinbox (f : Link → Link) : (N.onLink m f).inbox = N.inbox := by
      unfold onLink
      split <;> rfl
    have htold := h.told_section hok (by simp) (by simp) he
    unfold handledFrom at htold ⊢
    rw [hinbox]
    exact htold
  | @handle now f rest op' s hnext hsection hok =>
    obtain ⟨m, message⟩ := f
    have hreceived : (N.inbox.next).received = N.inbox.received ++ [(m, message)] :=
      Channel.received_next hnext
    have hhandled : handledFrom { N with coordinator := s, inbox := N.inbox.next } n =
        N.handledFrom n ++ if m = n then [message] else [] := by
      unfold handledFrom
      rw [hreceived, List.filter_append, List.map_append]
      congr 1
      by_cases hm : m = n <;> simp [hm]
    by_cases hanswer : m = n ∧ message.isNotify
    · obtain ⟨rfl, hnotify⟩ := hanswer
      cases message with
      | taskNotify msg =>
        cases hsection
        rw [hhandled, if_pos rfl, List.countP_append]
        exact h.told_notify hnext hforward hok he
      | _ => cases hnotify
    · -- the message is not an answer, or not from this node
      have hsame : (handledFrom { N with coordinator := s, inbox := N.inbox.next } n).countP
          Message.isNotify = (N.handledFrom n).countP Message.isNotify := by
        rw [hhandled, List.countP_append]
        split
        next hm =>
          have hnot : ¬ message.isNotify := fun hnotify => hanswer ⟨hm, hnotify⟩
          rw [List.countP_singleton, if_neg hnot, Nat.add_zero]
        next => rfl
      rw [hsame]
      refine h.told_section hok (fun clock heq => ?_) (fun msg now' heq => ?_) he
      · subst heq
        cases message <;> cases hsection
      · subst heq
        cases message <;> cases hsection
        exact hanswer ⟨rfl, rfl⟩
  | _ => exact h.told n e he

theorem Pinged.step (h : N.Pinged) (hforward : N.readsForward op) (hstep : Stepped N op N') :
    N'.Pinged where
  mannered := h.mannered.step hstep
  asks := by
    cases hstep.coordinator with
    | inl hsame =>
      rw [hsame.1]
      exact h.asks
    | inr hsection =>
      obtain ⟨op', hok, -⟩ := hsection
      exact State.asks_step h.mannered.heard.traced.sound.wellFormed h.asks hok
  spoken := spoken_step h.mannered.heard.traced.sound h.spoken hstep
  told n e he := h.told_step hforward hstep he

end Step

/-- As long as the clock reads forward, the ping that the time stamps of a node call open is at exactly
one place, unless the node has taken it for the reply to its HELLO; and where none is open none is on
the way. -/
theorem one_ping_under_way {config : CoordinatorConfig} {ops : List NetworkOp}
    (hrun : network.Run readsForward { coordinator := initial config } ops N) {node : Node} {l : Link}
    (hnode : N.coordinator.node? n = some node) (hlink : N.link? n = some l) :
    N.pingsUnderWay n node l + misread l = if node.awaitingResponse then 1 else 0 := by
  have h := hrun.invariant (fun _ _ _ h henabled hforward hok => h.step hforward (stepped henabled hok))
    (pinged_initial config)
  have hbalance := balance h.mannered.heard.traced.sound h.asks hnode hlink (h.spoken n l hlink)
  have htold := h.told n _ (congrArg (Option.map Node.exchange) hnode)
  simp only [Node.awaitingResponse_iff]
  omega

end Network

end Bem
