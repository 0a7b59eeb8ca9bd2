import Bem.Coordinator.Courtesy
import Bem.Network.Survival

/-!
# What the programs of the nodes hear

The coordinator is one that sends what a node waits for: pings at any time, one reply to the HELLO and
instructions after it.  So what is known of a program in front of such a coordinator holds of each node.
-/

namespace Bem

/-! ## Conversations -/

/-- Pings, or pings, the reply to the HELLO and instructions. -/
def Polite (messages : List Message) : Prop := (∀ m ∈ messages, m = Node.ping) ∨ InTurn messages

section Polite

variable {messages received rest : List Message} {msg : Message}

theorem polite_of_isPrefix {l : List Message} (hstart : l <+: messages) (h : Polite messages) :
    Polite l := by
  cases h with
  | inl hpings => exact .inl fun m hm => hpings m (hstart.subset hm)
  | inr hturn =>
    obtain ⟨pings, reply, instructions, rfl, hpings, hreply, hrest⟩ := hturn
    by_cases hlength : l.length ≤ pings.length
    · have hin : l <+: pings := List.prefix_of_prefix_length_le hstart (List.prefix_append _ _) hlength
      exact .inl fun m hm => hpings m (hin.subset hm)
    · -- the reply is among the messages
      obtain ⟨k, hk⟩ : ∃ k, l.length = pings.length + 1 + k := ⟨l.length - pings.length - 1, by omega⟩
      refine .inr ⟨pings, reply, instructions.take k, ?_, hpings, hreply,
        fun m hm => hrest m (List.take_subset _ _ hm)⟩
      have htake := List.prefix_iff_eq_take.mp hstart
      rw [htake, hk, List.take_append, List.take_of_length_le (by omega)]
      congr 1
      rw [show pings.length + 1 + k - pings.length = k + 1 by omega]
      rfl

theorem polite_delivered (h : Polite messages) : Polite (messages.map Message.delivered) := by
  cases h with
  | inl hpings =>
    refine .inl fun m hm => ?_
    obtain ⟨m', hm', rfl⟩ := List.mem_map.mp hm
    rw [hpings m' hm']
    rfl
  | inr hturn =>
    obtain ⟨pings, reply, instructions, rfl, hpings, hreply, hrest⟩ := hturn
    refine .inr ⟨pings.map Message.delivered, reply.delivered, instructions.map Message.delivered,
      by rw [List.map_append]; rfl, fun m hm => ?_, ?_, fun m hm => ?_⟩
    · obtain ⟨m', hm', rfl⟩ := List.mem_map.mp hm
      rw [hpings m' hm']
      rfl
    · cases reply with
      | hello msg => rfl
      | _ => cases hreply
    · obtain ⟨m', hm', rfl⟩ := List.mem_map.mp hm
      have hinstruction := hrest m' hm'
      cases m' with
      | task msg => rfl
      | taskNotify msg => exact hinstruction
      | _ => cases hinstruction

/-- What comes next is what a node waits for. -/
theorem next_of_polite (h : Polite (received ++ msg :: rest)) :
    if received.any Message.isHello then msg.isInstruction
    else msg.isHello || msg == NodeProgram.questionMessage := by
  cases h with
  | inl hpings =>
    have hnone : received.any Message.isHello = false := by
      rw [List.any_eq_false]
      intro m hm
      rw [hpings m (List.mem_append_left _ hm)]
      exact Bool.noConfusion
    rw [hnone, hpings msg (List.mem_append_right _ List.mem_cons_self)]
    rfl
  | inr hturn =>
    obtain ⟨pings, reply, instructions, heq, hpings, hreply, hrest⟩ := hturn
    cases List.append_eq_append_iff.mp heq with
    | inl hlater =>
      -- the reply has not come yet
      obtain ⟨more, hsplit, htail⟩ := hlater
      have hnone : received.any Message.isHello = false := by
        rw [List.any_eq_false]
        intro m hm
        rw [hpings m (hsplit ▸ List.mem_append_left _ hm)]
        exact Bool.noConfusion
      rw [hnone]
      cases more with
      | nil =>
        cases htail
        rw [hreply]
        rfl
      | cons m more =>
        cases htail
        rw [hpings msg (hsplit ▸ List.mem_append_right _ List.mem_cons_self)]
        rfl
    | inr hearlier =>
      obtain ⟨more, hsplit, htail⟩ := hearlier
      cases more with
      | nil =>
        cases htail
        rw [List.append_nil] at hsplit
        have hnone : received.any Message.isHello = false := by
          rw [hsplit, List.any_eq_false]
          intro m hm
          rw [hpings m hm]
          exact Bool.noConfusion
        rw [hnone, hreply]
        rfl
      | cons m more =>
        cases htail
        have hcome : received.any Message.isHello = true := by
          rw [hsplit, List.any_eq_true]
          exact ⟨_, List.mem_append_right _ List.mem_cons_self, hreply⟩
        rw [hcome, if_pos rfl]
        exact hrest msg (List.mem_append_right _ List.mem_cons_self)

end Polite

/-- A program says HELLO once. -/
theorem NodeProgram.Session.Took.countP_isHello_le {s : Session} {given : List Message} (h : s.Took given) :
    s.node.history.countP Message.isHello ≤ 1 := by
  have hgreetings : s.greetings.length ≤ 1 := by
    unfold greetings
    split <;> simp
  calc s.node.history.countP Message.isHello
      ≤ s.node.history.countP fun m => !m.isReport := by
        apply List.countP_mono_left
        intro m _ hhello
        cases m with
        | hello msg => rfl
        | _ => cases hhello
    _ ≤ 1 := by
        rw [List.countP_eq_length_filter, h.said]
        exact hgreetings

/-- The program is one in front of a coordinator that sends what it waits for. -/
structure Link.Heeded (l : Link) : Prop where
  run : ∃ protocolVersion config ops,
    NodeProgram.startup.FreeRun (NodeProgram.start protocolVersion config) ops l.session
  replied : l.session.replied = l.down.received.any Message.isHello

namespace Network

variable {N N' : Network} {n : NodeId}

/-! ## The sections of the coordinator in a step -/

/-- A step of the network has at most one section of the coordinator, and the handler takes up the
message that it is about. -/
theorem Stepped.coordinator {op : NetworkOp} (h : Stepped N op N') :
    (N'.coordinator = N.coordinator ∧ N'.inbox.received = N.inbox.received) ∨
      ∃ op', N.coordinator.step op' = .ok N'.coordinator ∧
        (((∀ m msg, op' ≠ .hello m msg) ∧ (∀ m msg now, op' ≠ .notify m msg now) ∧
            N'.inbox.received = N.inbox.received) ∨
          ∃ now e rest, N.inbox.inFlight = e :: rest ∧ handlerSection now e = some op' ∧
            N'.inbox.received = N.inbox.received ++ [e]) := by
  cases h with
  | own hown henabled hok =>
    refine .inr ⟨_, hok, .inl ⟨fun m msg heq => ?_, fun m msg now heq => ?_, rfl⟩⟩
    · rw [heq] at hown
      cases hown
    · rw [heq] at hown
      cases hown
  | accept henabled hnew => exact .inr ⟨.accept _, rfl, .inl ⟨by simp, by simp, rfl⟩⟩
  | join haccepting => exact .inr ⟨.insert, rfl, .inl ⟨by simp, by simp, rfl⟩⟩
  | @write n node msg messageQueue hnode hqueue =>
    have hinbox (f : Link → Link) : (N.onLink n f).inbox = N.inbox := by
      unfold onLink
      split <;> rfl
    exact .inr ⟨.write _, rfl, .inl ⟨by simp, by simp, by rw [hinbox]⟩⟩
  | handle hnext hsection hok =>
    exact .inr ⟨_, hok, .inr ⟨_, _, _, hnext, hsection, Channel.received_next hnext⟩⟩
  | _ => exact .inl ⟨rfl, rfl⟩

/-! ## HELLOs -/

/-- The HELLO of the node has been handled. -/
def hasGreeted (N : Network) (n : NodeId) : Prop := ∃ msg, (n, .hello msg) ∈ N.inbox.received

theorem Sound.countP_isHello_le (h : N.Sound) (n : NodeId) :
    (N.takenFrom n).countP Message.isHello ≤ 1 := by
  cases hlink : N.link? n with
  | none =>
    have hnone : N.takenFrom n = [] := by
      unfold takenFrom
      rw [List.map_eq_nil_iff, List.filter_eq_nil_iff]
      intro e he heq
      have hlinked := h.inbox e he
      rw [of_decide_eq_true heq, hlink] at hlinked
      cases hlinked
    rw [hnone]
    exact Nat.zero_le 1
  | some l =>
    have hdelivered : (l.session.node.written.map Message.delivered).countP Message.isHello =
        l.session.node.written.countP Message.isHello := by
      rw [List.countP_map]
      congr 1
      funext m
      cases m <;> rfl
    calc (N.takenFrom n).countP Message.isHello
        ≤ (l.session.node.written.map Message.delivered).countP Message.isHello :=
          (h.prefix_takenFrom hlink).sublist.countP_le
      _ = l.session.node.written.countP Message.isHello := hdelivered
      _ ≤ l.session.node.history.countP Message.isHello := by
          unfold NodeProgram.State.history
          rw [List.countP_append]
          exact Nat.le_add_right _ _
      _ ≤ 1 := (h.custody n l hlink).took.countP_isHello_le

/-- No second HELLO comes after one that was handled. -/
theorem Sound.hello_once (h : N.Sound) {msg : HelloMessage} {rest : List (NodeId × Message)}
    (hnext : N.inbox.inFlight = (n, .hello msg) :: rest) : ¬ N.hasGreeted n := by
  intro hgreeted
  obtain ⟨first, hfirst⟩ := hgreeted
  have hle := h.countP_isHello_le n
  unfold takenFrom at hle
  rw [N.inbox.sent_eq, hnext, List.filter_append, List.map_append, List.countP_append] at hle
  have hearlier : 0 < ((N.inbox.received.filter fun e => e.1 = n).map Prod.snd).countP Message.isHello :=
    List.countP_pos_iff.mpr ⟨.hello first,
      List.mem_map.mpr ⟨_, List.mem_filter.mpr ⟨hfirst, decide_eq_true rfl⟩, rfl⟩, rfl⟩
  have hlater : 0 < ((((n, Message.hello msg) :: rest).filter fun e => e.1 = n).map Prod.snd).countP
      Message.isHello :=
    List.countP_pos_iff.mpr ⟨.hello msg,
      List.mem_map.mpr ⟨_, List.mem_filter.mpr ⟨List.mem_cons_self, decide_eq_true rfl⟩, rfl⟩, rfl⟩
  omega

/-! ## What holds of the conversations -/

structure Mannered (N : Network) : Prop where
  heard : N.Heard
  courteous : N.coordinator.Courteous
  greeted : ∀ n node, N.coordinator.node? n = some node → (node.isRegistered ↔ N.hasGreeted n)
  selected : ∀ selection ∈ N.coordinator.selection, ∀ n ∈ selection.nodeIds, (N.link? n).isSome
  polite : ∀ n l, N.link? n = some l → Polite l.down.sent
  heeded : ∀ n l, N.link? n = some l → l.Heeded

theorem mannered_initial (config : CoordinatorConfig) : Mannered { coordinator := initial config } where
  heard := heard_initial config
  courteous := State.courteous_initial config
  greeted _ _ h := by cases h
  selected _ h := by cases h
  polite n l hlink := by cases hlink
  heeded n l hlink := by cases hlink

section Step

variable {op : NetworkOp}

/-- Nobody says HELLO twice, and no id is given twice. -/
theorem Mannered.courteous_step (h : N.Mannered) (hstep : Stepped N op N') :
    N'.coordinator.Courteous := by
  cases hstep.coordinator with
  | inl hsame =>
    rw [hsame.1]
    exact h.courteous
  | inr hsection =>
    obtain ⟨op', hok, hinbox⟩ := hsection
    have hsound := h.heard.traced.sound
    refine State.courteous_step hsound.wellFormed h.courteous hok (fun n msg heq node hnode => ?_)
      fun heq selection hselection hmem => ?_
    · subst heq
      rw [h.greeted n node hnode]
      cases hinbox with
      | inl hother => exact absurd rfl (hother.1 n msg)
      | inr hhandled =>
        obtain ⟨now, e, rest, hnext, hsection, -⟩ := hhandled
        obtain ⟨m, message⟩ := e
        cases message with
        | hello msg' =>
          cases hsection
          exact hsound.hello_once hnext
        | _ => cases hsection
    · have hlinked := h.selected selection hselection _ hmem
      rw [hsound.link?_nextNodeId] at hlinked
      cases hlinked

theorem Mannered.greeted_step (h : N.Mannered) (hstep : Stepped N op N') (n : NodeId) (node' : Node)
    (hnode' : N'.coordinator.node? n = some node') : node'.isRegistered ↔ N'.hasGreeted n := by
  have hsound := h.heard.traced.sound
  cases hstep.coordinator with
  | inl hsame =>
    rw [hsame.1] at hnode'
    unfold hasGreeted
    rw [hsame.2]
    exact h.greeted n node' hnode'
  | inr hsection =>
    obtain ⟨op', hok, hinbox⟩ := hsection
    -- whether it has greeted changes with its HELLO only
    have hgreets (hhello : ∀ msg, op' ≠ .hello n msg) : N'.hasGreeted n ↔ N.hasGreeted n := by
      unfold hasGreeted
      cases hinbox with
      | inl hother => rw [hother.2.2]
      | inr hhandled =>
        obtain ⟨now, e, rest, -, hsection, hreceived⟩ := hhandled
        rw [hreceived]
        refine ⟨fun hmsg => ?_, fun hmsg => hmsg.imp fun _ hin => List.mem_append_left _ hin⟩
        obtain ⟨msg, hin⟩ := hmsg
        refine ⟨msg, (List.mem_append.mp hin).resolve_right fun heq => ?_⟩
        rw [List.mem_singleton] at heq
        subst heq
        cases hsection
        exact hhello msg rfl
    cases hnode : N.coordinator.node? n with
    | none =>
      have hinsert : op' = .insert := by
        by_contra hne
        cases (State.absent_step hsound.wellFormed hok hne hnode).symm.trans hnode'
      subst hinsert
      have huntouched := State.untouched_of_absent hsound.wellFormed hok hnode node' hnode'
      refine iff_of_false huntouched.registered fun hgreeted => ?_
      -- nothing can have come from a node that is not there yet
      obtain ⟨msg, hmsg⟩ := (hgreets fun _ heq => by cases heq).mp hgreeted
      have hlinked := hsound.inbox _ (N.inbox.inOrder.subset hmsg)
      have hid : n = N.coordinator.nextNodeId := by
        by_contra hne
        have hsame := N.coordinator.node?_insertNode_ne hne
        rw [hnode, show N.coordinator.insertNode = N'.coordinator from Except.ok.inj hok] at hsame
        cases hsame.symm.trans hnode'
      rw [hid, hsound.link?_nextNodeId] at hlinked
      cases hlinked
    | some node =>
      by_cases hhello : ∃ msg, op' = .hello n msg
      · obtain ⟨msg, rfl⟩ := hhello
        cases hinbox with
        | inl hother => exact absurd rfl (hother.1 n msg)
        | inr hhandled =>
          obtain ⟨now, e, rest, hnext, hsection, hreceived⟩ := hhandled
          obtain ⟨m, message⟩ := e
          cases message with
          | hello msg' =>
            cases hsection
            have hunregistered : ¬ node.isRegistered := by
              rw [h.greeted n node hnode]
              exact hsound.hello_once hnext
            refine iff_of_true (State.greeted_step h.courteous hok hnode hnode' hunregistered).1 ⟨msg, ?_⟩
            rw [hreceived]
            exact List.mem_append_right _ (List.mem_singleton_self _)
          | _ => cases hsection
      · have hhello := not_exists.mp hhello
        rw [hgreets hhello, State.isRegistered_step hsound.wellFormed hok hnode hnode' hhello]
        exact h.greeted n node hnode

theorem Mannered.selected_step (h : N.Mannered) (hstep : Stepped N op N') :
    ∀ selection ∈ N'.coordinator.selection, ∀ n ∈ selection.nodeIds, (N'.link? n).isSome := by
  intro selection hselection n hn
  apply hstep.isSome_link?
  have hold (hsome : N.coordinator.selection = some selection) : (N.link? n).isSome :=
    h.selected selection hsome n hn
  cases hstep.coordinator with
  | inl hsame => exact hold (hsame.1 ▸ hselection)
  | inr hsection =>
    obtain ⟨op', hok, -⟩ := hsection
    by_cases hassign : op' = .assign
    · subst hassign
      cases State.outline_assignShares hok with
      | inl hnone =>
        rw [hnone.2, hnone.1] at hselection
        cases hselection
      | inr hassigned =>
        obtain ⟨selected, -, houtline⟩ := hassigned
        have hnone : N'.coordinator.selection = none := congrArg Outline.selection houtline
        cases hnone.symm.trans hselection
    by_cases hselect : ∃ args, op' = .select args
    · obtain ⟨args, rfl⟩ := hselect
      cases State.selectNodes_cases hok with
      | inl hsame => exact hold (hsame ▸ hselection)
      | inr hselected =>
        obtain ⟨nodeIds, hnodeIds, -, hstate⟩ := hselected
        rw [hstate] at hselection
        cases hselection
        -- a node that is selected is live
        obtain ⟨node, hnode, -⟩ := State.eligible_of_getEligibleNodesForTask hnodeIds hn
        exact h.heard.traced.sound.nodes n (by rw [show N.coordinator.node? n = _ from hnode]; rfl)
    · exact hold ((selection_step hok (not_exists.mp hselect) hassign).symm.trans hselection)

theorem Mannered.step (h : N.Mannered) (hstep : Stepped N op N') : N'.Mannered := by
  have hheard := h.heard.step hstep
  have hcourteous := h.courteous_step hstep
  refine ⟨hheard, hcourteous, h.greeted_step hstep, h.selected_step hstep, fun n l' hlink' => ?_,
    fun n l' hlink' => ?_⟩
  · cases hstep.down hlink' with
    | inl hnone =>
      rw [hnone]
      exact .inl (List.forall_mem_nil _)
    | inr hrest =>
      cases hrest with
      | inl hsame =>
        obtain ⟨l, hlink, hsent⟩ := hsame
        rw [hsent]
        exact h.polite n l hlink
      | inr hwritten =>
        obtain ⟨-, node, hnode⟩ := hwritten
        have hhistory : Polite node.history := by
          by_cases hregistered : node.isRegistered
          · exact .inr (hcourteous.registered n node hnode hregistered)
          · exact .inl (hcourteous.unregistered n node hnode hregistered).2
        rw [(hheard.traced.sound.custody n l' hlink').written node hnode]
        exact polite_delivered (polite_of_isPrefix (List.prefix_append _ _) hhistory)
  · cases hstep.link hlink' with
    | inl hnew =>
      obtain ⟨protocolVersion, config, -, -, rfl⟩ := hnew
      exact ⟨⟨protocolVersion, config, [], .nil _⟩, rfl⟩
    | inr hold =>
      obtain ⟨l, hlink, hlstep⟩ := hold
      obtain ⟨⟨protocolVersion, config, ops, hrun⟩, hreplied⟩ := h.heeded n l hlink
      have hpolite := h.polite n l hlink
      cases hlstep with
      | @deliver msg rest halive hnext =>
        have hnextMessage : l.session.maySend msg := by
          rw [l.down.sent_eq, hnext] at hpolite
          unfold NodeProgram.Session.maySend
          rw [hreplied]
          have hmay := next_of_polite hpolite
          by_cases hcome : l.down.received.any Message.isHello
          · rw [if_pos hcome] at hmay ⊢
            exact hmay
          · rw [if_neg hcome] at hmay ⊢
            exact hmay
        have henabled : NodeProgram.startup.enabled l.session (.deliver msg) := hnextMessage
        refine ⟨⟨protocolVersion, config, ops ++ [.deliver msg],
          hrun.append (.cons henabled trivial rfl (.nil _))⟩, ?_⟩
        show (l.session.replied || msg.isHello) = l.down.next.received.any Message.isHello
        rw [Channel.received_next hnext, List.any_append, hreplied]
        simp
      | @act nodeOp session halive hown henabled hok =>
        refine ⟨⟨protocolVersion, config, ops ++ [nodeOp],
          hrun.append (.cons henabled trivial hok (.nil _))⟩, ?_⟩
        have hstepped := NodeProgram.Session.stepped henabled hok hown
        have hsame : session.replied = l.session.replied := by cases hstepped <;> rfl
        exact hsame.trans hreplied
      | send halive hqueue =>
        have henabled : NodeProgram.startup.enabled l.session .write := rfl
        exact ⟨⟨protocolVersion, config, ops ++ [.write],
          hrun.append (.cons henabled trivial rfl (.nil _))⟩, hreplied⟩
      | _ => exact ⟨⟨protocolVersion, config, ops, hrun⟩, hreplied⟩

end Step

end Network

end Bem
