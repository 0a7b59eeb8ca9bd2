import Bem.Coordinator.Handshake
import Bem.Coordinator.Lasting
import Bem.Node.Startup

/-!
# What a node hears

A node that has not been accepted hears pings only, and one that has been accepted instructions only,
as long as each node says HELLO once.
-/

namespace Bem

namespace Ledger

variable {L L' : Ledger} {a : Act} {n : NodeId} {d : Desk}

/-- A desk with no task on it hears nothing of tasks while none is put there. -/
theorem Step.idle (h : Step L a L') (hd : L.desk n = some d) (hlist : d.list = [])
    (hdrop : a ≠ .drop n) (hhand : ∀ r, a ≠ .hand n r) (hcreate : ∀ task, a ≠ .create n task) :
    ∃ d', L'.desk n = some d' ∧ d'.list = [] ∧
      (d'.sent = d.sent ∨ ∃ message, a = .note n message ∧ d'.sent = d.sent ++ [message]) := by
  have hsame (hdesk : L'.desk n = L.desk n) : ∃ d', L'.desk n = some d' ∧ d'.list = [] ∧
      (d'.sent = d.sent ∨ ∃ message, a = .note n message ∧ d'.sent = d.sent ++ [message]) :=
    ⟨d, hdesk.trans hd, hlist, .inl rfl⟩
  have hnone (heap : Heap Task) (t : TaskId) : d.lists heap t = false := by
    unfold Desk.lists
    rw [hlist]
    rfl
  cases h with
  | @join m hnew =>
    apply hsame
    apply Function.update_of_ne
    intro heq
    rw [heq, hnew] at hd
    cases hd
  | @drop m => exact hsame (Function.update_of_ne (fun heq => hdrop (by rw [heq])) _ _)
  | @note m d₀ message hdesk =>
    by_cases hm : n = m
    · subst hm
      cases hd.symm.trans hdesk
      exact ⟨_, Function.update_self _ _ _, hlist, .inr ⟨message, rfl, rfl⟩⟩
    · exact hsame (Function.update_of_ne hm _ _)
  | @hand m d₀ r => exact hsame (Function.update_of_ne (fun heq => hhand r (by rw [heq])) _ _)
  | @release m d₀ hdesk =>
    by_cases hm : n = m
    · subst hm
      cases hd.symm.trans hdesk
      -- there is nothing to give back
      refine ⟨_, Function.update_self _ _ _, ?_, .inl ?_⟩
      · show d.list.filter _ = []
        rw [hlist, List.filter_nil]
      · show d.sent ++ (d.list.filter _).map _ = d.sent
        rw [hlist, List.filter_nil, List.map_nil, List.append_nil]
    · exact hsame (Function.update_of_ne hm _ _)
  | openGroup => exact hsame (congrFun (desk_openGroup _ _ _) n)
  | @create m d₀ task => exact hsame (Function.update_of_ne (fun heq => hcreate task (by rw [heq])) _ _)
  | @withdraw t =>
    refine hsame ?_
    show (L.desk n).map (Desk.unassign L.heap t) = L.desk n
    rw [hd]
    exact congrArg some (Desk.unassign_of_not_lists (hnone L.heap t))
  | cancelGroup => exact hsame rfl
  | settle => exact hsame rfl

end Ledger

/-- Pings, the reply to the HELLO, and instructions after it. -/
def InTurn (history : List Message) : Prop :=
  ∃ pings reply instructions, history = pings ++ reply :: instructions ∧
    (∀ m ∈ pings, m = Node.ping) ∧ reply.isHello ∧ ∀ m ∈ instructions, m.isInstruction

namespace State

/-- Every node hears what it waits for. -/
structure Courteous (s : State) : Prop where
  unregistered : ∀ n node, s.node? n = some node → ¬ node.isRegistered →
    node.tasks = [] ∧ ∀ m ∈ node.history, m = Node.ping
  registered : ∀ n node, s.node? n = some node → node.isRegistered → InTurn node.history
  selection : ∀ selection ∈ s.selection, ∀ n ∈ selection.nodeIds, ∀ node ∈ s.node? n,
    node.isRegistered

theorem courteous_initial (config : CoordinatorConfig) : (initial config).Courteous where
  unregistered _ _ h := by cases h
  registered _ _ h := by cases h
  selection _ h := by cases h

variable {s s' : State} {n : NodeId} {node node' : Node}

/-- Where the messages of a node come from. -/
theorem history_cases {op : Op} {node' : Node} {m : Message} (hs : s.WellFormed) (hok : s.step op = .ok s')
    (hnode' : s'.node? n = some node') (hm : m ∈ node'.history) :
    (∃ node, s.node? n = some node ∧ m ∈ node.history) ∨ (∃ msg, m = helloReply s.config msg) ∨
      ∃ a, s.mayDo op a ∧ a.Posts n m ∧ ∀ k msg, op ≠ .hello k msg := by
  cases hnode : s.node? n with
  | none =>
    rw [(untouched_of_absent hs hok hnode node' hnode').history] at hm
    exact absurd hm List.not_mem_nil
  | some node =>
    by_cases herase : op = .erase n
    · subst herase
      cases (node?_eraseNode hok).symm.trans hnode'
    by_cases hhello : ∃ k msg, op = .hello k msg
    · obtain ⟨k, msg, rfl⟩ := hhello
      by_cases hk : n = k
      · subst hk
        rw [history_handleHelloMessage hok hnode hnode'] at hm
        cases List.mem_append.mp hm with
        | inl hold => exact .inl ⟨node, rfl, hold⟩
        | inr hnew =>
          exact .inr (.inl ⟨msg, List.mem_singleton.mp hnew⟩)
      · rw [node?_handleHelloMessage_ne hok hk] at hnode'
        exact .inl ⟨node', hnode.symm.trans hnode', hm⟩
    · obtain ⟨node'', more, hnode'', hhistory, hposts⟩ := history_step hs hok hnode herase
      cases hnode''.symm.trans hnode'
      rw [hhistory] at hm
      cases List.mem_append.mp hm with
      | inl hold => exact .inl ⟨node, rfl, hold⟩
      | inr hnew =>
        obtain ⟨a, ha, hpost⟩ := hposts m hnew
        exact .inr (.inr ⟨a, ha, hpost, fun k msg heq => hhello ⟨k, msg, heq⟩⟩)

/-- What is posted but for the replies. -/
theorem posted_cases {op : Op} {a : Act} {m : Message} (ha : s.mayDo op a) (hposts : a.Posts n m)
    (hhello : ∀ k msg, op ≠ .hello k msg) :
    m = Node.ping ∨ (∃ msg, m = .task msg) ∨ ∃ t, m = Node.cancelled t := by
  cases a with
  | note k message =>
    obtain ⟨-, rfl⟩ := hposts
    cases op with
    | maintain clock => exact .inl ha
    | hello k msg => exact absurd rfl (hhello k msg)
    | _ => exact ha.elim
  | hand | create => exact .inr (.inl hposts.2)
  | release => exact .inr (.inr hposts.2)
  | withdraw t => exact .inr (.inr ⟨t, hposts⟩)
  | _ => exact hposts.elim

/-- Only a HELLO registers a node. -/
theorem isRegistered_step {op : Op} (hs : s.WellFormed) (hok : s.step op = .ok s')
    (hnode : s.node? n = some node) (hnode' : s'.node? n = some node')
    (hhello : ∀ msg, op ≠ .hello n msg) : node'.isRegistered = node.isRegistered := by
  have hlasting : Node.Lasting Node.isRegistered := fun _ _ _ _ _ => rfl
  have htrait (h : s'.trait Node.isRegistered n = s.trait Node.isRegistered n) :
      node'.isRegistered = node.isRegistered := by
    rw [trait_of_node? hnode, trait_of_node? hnode'] at h
    exact Option.some.inj h
  cases op with
  | erase m =>
    have hkept := congrFun (trait_eraseNode (f := Node.isRegistered) hok) n
    by_cases hm : n = m
    · rw [hm, Function.update_self] at hkept
      rw [hm] at hnode'
      rw [trait_of_node? hnode'] at hkept
      cases hkept
    · rw [Function.update_of_ne hm] at hkept
      exact htrait hkept
  | hello m msg =>
    have hm : n ≠ m := fun heq => hhello msg (by rw [heq])
    cases hnode'.symm.trans ((node?_handleHelloMessage_ne hok hm).trans hnode)
    rfl
  | notify m msg now =>
    exact htrait (congrFun (trait_handleNotifyTaskMessage (fun _ _ => rfl) hok) n)
  | insert =>
    cases hok
    cases hnode'.symm.trans (s.node?_insertNode hnode)
    rfl
  | write m =>
    cases hok
    by_cases hm : n = m
    · subst hm
      have hkept := congrFun (trait_takeMessage (f := Node.isRegistered) hnode) n
      rw [Function.update_self, trait_of_node? hnode'] at hkept
      rw [Option.some.inj hkept]
      unfold Node.takeMessage
      split <;> rfl
    · refine htrait ?_
      show ((s.nodes.modify m Node.takeMessage).at? n).map _ = _
      rw [KeyedMap.at?_modify_ne hm]
      rfl
  | _ =>
    exact htrait (congrFun (trait_step hlasting hs hok (fun _ => by simp) (by simp)
      (fun _ _ => by simp) (fun _ _ _ => by simp) (fun _ => by simp)) n)

/-- A node that is not registered hears a ping at most. -/
theorem unregistered_step {op : Op} (hs : s.WellFormed) (h : s.Courteous) (hok : s.step op = .ok s')
    (hnode : s.node? n = some node) (hnode' : s'.node? n = some node')
    (hhello : ∀ msg, op ≠ .hello n msg) (hunregistered : ¬ node.isRegistered) :
    node'.tasks = [] ∧ ∀ m ∈ node'.history, m = Node.ping := by
  obtain ⟨htasks, hpings⟩ := h.unregistered n node hnode hunregistered
  have hineligible (task : Task) : ¬ node.eligible task := fun heligible =>
    hunregistered (Node.eligible_iff.mp heligible).registered
  have hkept (hsame : s'.nodes.at? n = some node) :
      node'.tasks = [] ∧ ∀ m ∈ node'.history, m = Node.ping := by
    cases hnode'.symm.trans hsame
    exact ⟨htasks, hpings⟩
  by_cases hbalance : op = .balance
  · subst hbalance
    exact hkept (at?_balanceTasks hok hnode hineligible)
  by_cases hassign : op = .assign
  · subst hassign
    cases hselection : s.selection with
    | none =>
      cases assignShares_cases hok with
      | inl hsame => exact hkept (hsame.2 ▸ hnode)
      | inr hassigned =>
        obtain ⟨selection, hsome, -⟩ := hassigned
        cases hselection.symm.trans hsome
    | some selection =>
      -- the selected nodes are registered
      refine hkept (at?_assignShares hok hselection hnode fun share hshare heq => hunregistered ?_)
      have hmem : share.1 ∈ selection.nodeIds := (List.of_mem_zip (List.mem_filter.mp hshare).1).1
      exact h.selection selection hselection n (heq ▸ hmem) node hnode
  have hrule := (follows_step hs hok).does.invariant
    (I := fun L => ∃ d, L.desk n = some d ∧ d.list = [] ∧ ∀ m ∈ d.sent, m = Node.ping)
    (by
      intro L a L' hL ha hstep
      obtain ⟨d, hd, hlist, hsent⟩ := hL
      have hkeeps := hstep.idle hd hlist
        (by
          rintro rfl
          cases op with
          | erase m =>
            cases (node?_eraseNode hok).symm.trans (show s'.node? m = _ from (show n = m from ha) ▸ hnode')
          | _ => exact ha)
        (by
          rintro r rfl
          cases op with
          | balance => exact hbalance rfl
          | _ => exact ha)
        (by
          rintro task rfl
          cases op with
          | assign => exact hassign rfl
          | _ => exact ha)
      obtain ⟨d', hd', hlist', hsent'⟩ := hkeeps
      refine ⟨d', hd', hlist', ?_⟩
      cases hsent' with
      | inl hsame =>
        rw [hsame]
        exact hsent
      | inr hnote =>
        obtain ⟨message, rfl, hsent'⟩ := hnote
        rw [hsent', List.forall_mem_append, List.forall_mem_singleton]
        refine ⟨hsent, ?_⟩
        cases op with
        | maintain clock => exact ha
        | hello m msg => exact absurd (by rw [show n = m from ha]) (hhello msg)
        | _ => exact ha.elim)
    ⟨node.desk, ledger_desk hnode, htasks, hpings⟩
  obtain ⟨d, hd, hlist, hsent⟩ := hrule
  cases hd.symm.trans (ledger_desk hnode')
  exact ⟨hlist, hsent⟩

/-- What an accepted node is sent are instructions. -/
theorem registered_step {op : Op} (hs : s.WellFormed) (h : s.Courteous) (hok : s.step op = .ok s')
    (hnode : s.node? n = some node) (hnode' : s'.node? n = some node')
    (hhello : ∀ msg, op ≠ .hello n msg) (hregistered : node.isRegistered) :
    InTurn node'.history := by
  have herase : op ≠ .erase n := fun heq => by
    subst heq
    cases (node?_eraseNode hok).symm.trans hnode'
  obtain ⟨node₁, more, hnode₁, hhistory, hposts⟩ := history_step hs hok hnode herase
  cases hnode'.symm.trans hnode₁
  obtain ⟨pings, reply, instructions, hturn, hpings, hreply, hrest⟩ := h.registered n node hnode hregistered
  refine ⟨pings, reply, instructions ++ more, ?_, hpings, hreply, ?_⟩
  · rw [hhistory, hturn, List.append_assoc]
    rfl
  · rw [List.forall_mem_append]
    refine ⟨hrest, fun m hm => ?_⟩
    obtain ⟨a, ha, hpost⟩ := hposts m hm
    cases a with
    | hand n' r =>
      obtain ⟨-, msg, rfl⟩ := hpost
      rfl
    | create n' task =>
      obtain ⟨-, msg, rfl⟩ := hpost
      rfl
    | note n' message =>
      cases op with
      | maintain clock =>
        have hping : m = Node.ping := hpost.2.symm.trans ha
        rw [hping]
        rfl
      | hello n₁ msg =>
        have hsame : n = n₁ := hpost.1.symm.trans ha
        exact absurd (by rw [hsame]) (hhello msg)
      | _ => exact ha.elim
    | release n' =>
      obtain ⟨-, t, rfl⟩ := hpost
      rfl
    | withdraw t =>
      rw [show m = Node.cancelled t from hpost]
      rfl
    | _ => exact hpost.elim

/-- The HELLO of a node that has not been accepted. -/
theorem greeted_step {msg : HelloMessage} (h : s.Courteous)
    (hok : s.handleHelloMessage n msg = .ok s') (hnode : s.node? n = some node)
    (hnode' : s'.node? n = some node') (hunregistered : ¬ node.isRegistered) :
    node'.isRegistered ∧ InTurn node'.history := by
  cases handleHelloMessage_cases hok with
  | inl hsame => exact absurd (KeyedMap.mem_of_at? hnode) hsame.1
  | inr hgreeted =>
    obtain ⟨other, hother, rfl⟩ := hgreeted
    cases hnode.symm.trans hother
    cases hnode'.symm.trans (KeyedMap.at?_store_self hother)
    refine ⟨rfl, node.history, helloReply s.config msg, [], ?_, ?_, rfl, List.forall_mem_nil _⟩
    · exact Node.history_send _ _
    · exact (h.unregistered n node hnode hunregistered).2

/-- Each section keeps the order, if nobody says HELLO twice and no id is given twice. -/
theorem courteous_step {op : Op} (hs : s.WellFormed) (h : s.Courteous) (hok : s.step op = .ok s')
    (hfirst : ∀ n msg, op = .hello n msg → ∀ node ∈ s.node? n, ¬ node.isRegistered)
    (hnew : op = .insert → ∀ selection ∈ s.selection, s.nextNodeId ∉ selection.nodeIds) :
    s'.Courteous := by
  refine ⟨fun n node' hnode' hunregistered => ?_, fun n node' hnode' hregistered => ?_,
    fun selection hselection n hn node' hnode' => ?_⟩
  · cases hnode : s.node? n with
    | none =>
      have huntouched := untouched_of_absent hs hok hnode node' hnode'
      refine ⟨huntouched.tasks, ?_⟩
      rw [huntouched.history]
      exact List.forall_mem_nil _
    | some node =>
      by_cases hhello : ∃ msg, op = .hello n msg
      · obtain ⟨msg, rfl⟩ := hhello
        exact absurd (greeted_step h hok hnode hnode' (hfirst n msg rfl node hnode)).1 hunregistered
      · have hhello := not_exists.mp hhello
        rw [isRegistered_step hs hok hnode hnode' hhello] at hunregistered
        exact unregistered_step hs h hok hnode hnode' hhello hunregistered
  · cases hnode : s.node? n with
    | none => exact absurd hregistered (untouched_of_absent hs hok hnode node' hnode').registered
    | some node =>
      by_cases hhello : ∃ msg, op = .hello n msg
      · obtain ⟨msg, rfl⟩ := hhello
        exact (greeted_step h hok hnode hnode' (hfirst n msg rfl node hnode)).2
      · have hhello := not_exists.mp hhello
        rw [isRegistered_step hs hok hnode hnode' hhello] at hregistered
        exact registered_step hs h hok hnode hnode' hhello hregistered
  · -- the nodes of a selection were registered when it was made
    have hold (hsome : s.selection = some selection) : node'.isRegistered := by
      cases hnode : s.node? n with
      | none =>
        have hinsert : op = .insert := by
          by_contra hne
          cases (absent_step hs hok hne hnode).symm.trans hnode'
        subst hinsert
        refine absurd hn ?_
        have hid : n = s.nextNodeId := by
          by_contra hne
          cases hok
          cases (s.node?_insertNode_ne hne ▸ hnode).symm.trans hnode'
        rw [hid]
        exact hnew rfl selection hsome
      | some node =>
        have hregistered := h.selection selection hsome n hn node hnode
        by_cases hhello : ∃ msg, op = .hello n msg
        · obtain ⟨msg, rfl⟩ := hhello
          exact absurd hregistered (hfirst n msg rfl node hnode)
        · rw [isRegistered_step hs hok hnode hnode' (not_exists.mp hhello)]
          exact hregistered
    by_cases hassign : op = .assign
    · subst hassign
      cases outline_assignShares hok with
      | inl hnone =>
        rw [hnone.2, hnone.1] at hselection
        cases hselection
      | inr hassigned =>
        obtain ⟨selected, -, houtline⟩ := hassigned
        have hnone : s'.selection = none := congrArg Outline.selection houtline
        cases hnone.symm.trans hselection
    by_cases hselect : ∃ args, op = .select args
    · obtain ⟨args, rfl⟩ := hselect
      cases selectNodes_cases hok with
      | inl hsame => exact hold (hsame ▸ hselection)
      | inr hselected =>
        obtain ⟨nodeIds, hnodeIds, -, rfl⟩ := hselected
        cases hselection
        obtain ⟨node, hnode, heligible⟩ := eligible_of_getEligibleNodesForTask hnodeIds hn
        cases hnode'.symm.trans hnode
        exact (Node.eligible_iff.mp heligible).registered
    · exact hold ((selection_step hok (not_exists.mp hselect) hassign).symm.trans hselection)

end State

end Bem
