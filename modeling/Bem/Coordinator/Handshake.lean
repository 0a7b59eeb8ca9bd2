import Bem.Coordinator.Posting
import Bem.Node.Protocol

/-!
# The handshake

A node that connects waits for the reply to its HELLO, and gives up on any other message.  The
maintenance loop sees the node as soon as it is entered, and may send it a ping before that.
-/

namespace Bem

/-- The reply to a HELLO of the coordinator's own version. -/
def acceptReply (config : CoordinatorConfig) : Message :=
  .hello {
    protoVer := config.protocolVersion
    flag := HelloMessage.flagAccept
    gamelist := {} }

theorem helloReply_of_eq {config : CoordinatorConfig} {msg : HelloMessage}
    (h : msg.protoVer = config.protocolVersion) :
    State.helloReply config msg = acceptReply config := by
  unfold State.helloReply acceptReply
  rw [if_neg (not_not.mpr h)]

theorem registers_of_head {config : CoordinatorConfig} {msgs : List Message}
    (h : msgs.head? = some (acceptReply config)) :
    NodeProgram.registerToCoordinator msgs = some true := by
  cases msgs with
  | nil => cases h
  | cons msg msgs =>
    cases h
    rfl

/-- Nothing was sent to the node, and it has not said HELLO. -/
structure Node.Untouched (node : Node) : Prop where
  tasks : node.tasks = []
  history : node.history = []
  registered : ¬ node.isRegistered

namespace State

variable {s s' : State} {n : NodeId} {node : Node}

/-- If anything was sent to the node, then first of all that it is accepted, and so it registers. -/
def Greeted (n : NodeId) (s : State) : Prop :=
  ∀ node ∈ s.node? n, node.history ≠ [] → node.history.head? = some (acceptReply s.config) ∧
    NodeProgram.registerToCoordinator node.history = some true

/-- What the node says HELLO with is the version of the coordinator. -/
def speaksVersion (n : NodeId) (s : State) : Op → Prop
  | .hello m msg => m = n → msg.protoVer = s.config.protocolVersion
  | _ => True

/-- The node is not pinged, and gets no task, while nothing was sent to it. -/
def greetsFirst (n : NodeId) (s : State) : Op → Prop
  | .maintain _ => ∀ node ∈ s.node? n, node.history ≠ [] ∨ node.awaitingResponse
  | .assign => ∀ selection ∈ s.selection, ∀ share ∈ selection.used, share.1 = n →
    ∀ node ∈ s.node? n, node.history ≠ []
  | _ => True

instance (s : State) (op : Op) : Decidable (s.speaksVersion n op) :=
  match op with
  | .hello m msg => inferInstanceAs (Decidable (m = n → msg.protoVer = s.config.protocolVersion))
  | .select _ | .assign | .cancel _ | .erase _ | .balance | .maintain _ | .accept _ | .insert
  | .result _ | .notify _ _ _ | .write _ | .rehash _ _ _ => .isTrue trivial

instance (s : State) (op : Op) : Decidable (s.greetsFirst n op) :=
  match op with
  | .maintain _ =>
    inferInstanceAs (Decidable (∀ node ∈ s.node? n, node.history ≠ [] ∨ node.awaitingResponse = true))
  | .assign => inferInstanceAs (Decidable (∀ selection ∈ s.selection, ∀ share ∈ selection.used,
    share.1 = n → ∀ node ∈ s.node? n, node.history ≠ []))
  | .select _ | .cancel _ | .erase _ | .balance | .accept _ | .insert | .result _ | .hello _ _
  | .notify _ _ _ | .write _ | .rehash _ _ _ => .isTrue trivial

/-! ## A node to which nothing was sent -/

theorem desk_of_untouched (h : node.Untouched) : node.desk = {} := by
  unfold Node.desk
  rw [h.tasks, h.history]

end State

namespace Ledger

variable {L L' : Ledger} {a : Act} {n : NodeId}

/-- An empty desk stays empty but for a message or a task put there. -/
theorem Step.empty (h : Step L a L') (hd : L.desk n = some {}) (hdrop : a ≠ .drop n)
    (hnote : ∀ message, a ≠ .note n message) (hhand : ∀ r, a ≠ .hand n r)
    (hcreate : ∀ task, a ≠ .create n task) : L'.desk n = some {} := by
  have hother {n' : NodeId} {e : Option Desk} (hne : n' ≠ n) :
      Function.update L.desk n' e n = some {} := by
    rw [Function.update_of_ne hne.symm]
    exact hd
  cases h with
  | join hnew => exact hother fun heq => by rw [heq, hd] at hnew; cases hnew
  | drop => exact hother fun heq => hdrop (by rw [heq])
  | @note _ _ message => exact hother fun heq => hnote message (by rw [heq])
  | @hand _ _ r => exact hother fun heq => hhand r (by rw [heq])
  | @release n' d hdesk =>
    by_cases heq : n' = n
    · subst heq
      cases hd.symm.trans hdesk
      exact Function.update_self _ _ _
    · exact hother heq
  | openGroup => rwa [desk_openGroup]
  | @create _ _ task => exact hother fun heq => hcreate task (by rw [heq])
  | withdraw =>
    show (L.desk n).map _ = _
    rw [hd]
    rfl
  | cancelGroup => exact hd
  | settle => exact hd

theorem Step.absent (h : Step L a L') (hd : L.desk n = none) (hjoin : a ≠ .join n) :
    L'.desk n = none := by
  have hother {n' : NodeId} {d : Desk} {e : Option Desk} (hdesk : L.desk n' = some d) :
      Function.update L.desk n' e n = none := by
    rw [Function.update_of_ne]
    · exact hd
    · intro heq
      rw [heq, hdesk] at hd
      cases hd
  cases h with
  | join => exact (Function.update_of_ne (fun heq => hjoin (by rw [heq])) _ _).trans hd
  | @drop n' =>
    by_cases heq : n = n'
    · rw [heq]
      exact Function.update_self _ _ _
    · exact (Function.update_of_ne heq _ _).trans hd
  | note hdesk => exact hother hdesk
  | hand hdesk => exact hother hdesk
  | release hdesk => exact hother hdesk
  | openGroup => rwa [desk_openGroup]
  | create hdesk => exact hother hdesk
  | withdraw =>
    show (L.desk n).map _ = _
    rw [hd]
    rfl
  | cancelGroup => exact hd
  | settle => exact hd

end Ledger

namespace State

variable {s s' : State} {n : NodeId} {node : Node}

theorem absent_step {op : Op} (hs : s.WellFormed) (hok : s.step op = .ok s')
    (hinsert : op ≠ .insert) (habsent : s.node? n = none) : s'.node? n = none := by
  have hdesk : s.ledger.desk n = none := congrArg (Option.map Node.desk) habsent
  have hrule := (follows_step hs hok).does.invariant (I := fun L => L.desk n = none)
    (fun L a L' hL ha hstep => hstep.absent hL fun heq => by
      subst heq
      cases op with
      | insert => exact hinsert rfl
      | _ => exact ha)
    hdesk
  exact Option.map_eq_none_iff.mp hrule

/-- Only `acceptConnections` enters a node, and nothing was sent to it. -/
theorem untouched_of_absent {op : Op} (hs : s.WellFormed) (hok : s.step op = .ok s')
    (habsent : s.node? n = none) : ∀ node ∈ s'.node? n, node.Untouched := by
  intro node hnode
  by_cases hinsert : op = .insert
  · subst hinsert
    cases hok
    unfold insertNode at hnode
    split at hnode
    · cases habsent.symm.trans hnode
    · change KeyedMap.at? _ n = some node at hnode
      rw [KeyedMap.at?_emplace] at hnode
      split at hnode
      · cases hnode
        exact ⟨rfl, rfl, Bool.noConfusion⟩
      · cases habsent.symm.trans hnode
  · cases hnode.symm.trans (absent_step hs hok hinsert habsent)

/-- The desk of an untouched node stays empty in most sections. -/
theorem empty_step {op : Op} (hs : s.WellFormed) (hok : s.step op = .ok s')
    (hnode : s.node? n = some node) (huntouched : node.Untouched) (herase : op ≠ .erase n)
    (hhello : ∀ msg, op ≠ .hello n msg) (hmaintain : ∀ clock, op ≠ .maintain clock)
    (hbalance : op ≠ .balance) (hassign : op ≠ .assign) : ∃ node', s'.node? n = some node' ∧
      node'.Untouched := by
  have hdesk : s.ledger.desk n = some {} := by
    rw [ledger_desk hnode, desk_of_untouched huntouched]
  have hrule := (follows_step hs hok).does.invariant (I := fun L => L.desk n = some {})
    (by
      intro L a L' hL ha hstep
      apply hstep.empty hL
      -- of the four acts that could touch the desk none belongs to this section
      · rintro rfl
        cases op with
        | erase m => exact herase (by rw [show n = m from ha])
        | _ => exact ha
      · rintro message rfl
        cases op with
        | hello m msg => exact hhello msg (by rw [show n = m from ha])
        | maintain clock => exact hmaintain clock rfl
        | _ => exact ha
      · rintro r rfl
        cases op with
        | balance => exact hbalance rfl
        | _ => exact ha
      · rintro task rfl
        cases op with
        | assign => exact hassign rfl
        | _ => exact ha)
    hdesk
  obtain ⟨node', hnode', hempty⟩ := ledger_desk_iff.mp hrule
  refine ⟨node', hnode', congrArg Desk.list hempty, congrArg Desk.sent hempty, ?_⟩
  have hprofile := profile_step hok hnode herase hhello hmaintain
  have hflags := Option.some.inj ((profile_of_at? hnode').symm.trans hprofile)
  intro hregistered
  exact huntouched.registered
    ((congrArg (fun p : Node.Profile => p.flags.registered) hflags).symm.trans hregistered)

/-- A tick pings the node, unless it waits for an answer already. -/
theorem maintain_untouched {clock : NodeId → TimePoint} (hs : s.WellFormed)
    (hok : s.maintain clock = .ok s') (hnode : s.node? n = some node)
    (huntouched : node.Untouched) : ∃ node', s'.node? n = some node' ∧
      ((node.awaitingResponse ∧ node'.Untouched) ∨
        (¬ node.awaitingResponse ∧ node'.history = [Node.ping])) := by
  obtain ⟨t, -, -, htnode, hafter⟩ := node?_maintain hs hok hnode
  rw [hafter]
  rcases maintainNode_cases t clock (n, node) with
    ⟨hawait, b, heq⟩ | ⟨hsilent, node', marked, b, hnode', hmarked, heq⟩ | ⟨hawait, -, heq⟩
  · rw [heq]
    refine ⟨_, KeyedMap.at?_store_self htnode, Or.inr ⟨hawait, ?_⟩⟩
    show node.written ++ (node.messageQueue ++ [Node.ping]) = [Node.ping]
    rw [← List.append_assoc]
    exact congrArg (· ++ [Node.ping]) huntouched.history
  · -- there is no task to give back
    rw [hnode', huntouched.tasks] at hmarked
    rw [heq, hmarked]
    refine ⟨_, KeyedMap.at?_store_self htnode, Or.inl ⟨hsilent.1, ?_⟩⟩
    rw [hnode']
    exact ⟨huntouched.tasks, huntouched.history, huntouched.registered⟩
  · rw [heq]
    exact ⟨node, htnode, Or.inl ⟨hawait, huntouched⟩⟩

/-- A node that gets the first share gets a task first. -/
theorem assign_untouched {selection : Selection} {share : NodeId × UInt32}
    (hok : s.assignShares = .ok s') (hselection : s.selection = some selection)
    (hshare : share ∈ selection.used) (hnode : s.node? share.1 = some node)
    (huntouched : node.Untouched) : ∃ node' m, s'.node? share.1 = some node' ∧
      node'.history.head? = some (.task m) := by
  rcases assignShares_cases hok with ⟨hnone, -⟩ | ⟨selection', hselection', hloop⟩
  · cases hselection.symm.trans hnone
  cases hselection.symm.trans hselection'
  -- until its share comes nothing is sent to the node, and then a task
  let I (l : List (NodeId × UInt32)) (t : State) : Prop := ∃ node', t.node? share.1 = some node' ∧
    ((share ∈ l ∧ node'.Untouched) ∨ ∃ m, node'.history.head? = some (.task m))
  have hused := List.mem_filter.mp hshare
  have hI : I [] s' := by
    apply Except.foldlM_rest (I := I) _ _ hloop
    · intro first l t t' ht hstep
      obtain ⟨node', hnode', hstate⟩ := ht
      rcases assignShare_cases hstep with ⟨hzero, rfl⟩ | ⟨-, other, tt, heap, hother, htt, -, rfl⟩
      · refine ⟨node', hnode', hstate.imp_left fun hfirst => ⟨?_, hfirst.2⟩⟩
        refine (List.mem_cons.mp hfirst.1).resolve_left ?_
        rintro rfl
        simp [hzero] at hused
      by_cases hn : share.1 = first.1
      · rw [← hn] at hother
        cases (show some node' = some other from hnode'.symm.trans hother)
        refine ⟨node'.assignTask heap t.taskHeap.next, ?_, Or.inr ?_⟩
        · show KeyedMap.at? _ share.1 = _
          rw [← hn]
          exact KeyedMap.at?_store_self hother
        · rcases hstate with ⟨-, hempty⟩ | ⟨m, hm⟩
          · -- a node to which nothing was sent has no task that could stand in the way
            have hlists : node'.lists heap (heap.get t.taskHeap.next).id = false := by
              unfold Node.lists
              rw [hempty.tasks]
              rfl
            unfold Node.assignTask
            rw [if_neg (by rw [hlists]; decide), Node.history_send]
            exact ⟨_, congrArg (fun l : List Message => (l ++ _).head?) hempty.history⟩
          · refine ⟨m, ?_⟩
            obtain ⟨more, hsent, -⟩ := Ledger.sent_assign heap t.taskHeap.next node'.desk
            rw [← Node.desk_assignTask] at hsent
            change _ = node'.history ++ more at hsent
            show (node'.assignTask heap t.taskHeap.next).desk.sent.head? = _
            rw [hsent, List.head?_append_of_ne_nil _ (by rintro hnil; rw [hnil] at hm; cases hm)]
            exact hm
      · refine ⟨node', ?_, ?_⟩
        · show KeyedMap.at? _ share.1 = _
          rw [KeyedMap.at?_store_of_at? hother, Function.update_of_ne hn]
          exact hnode'
        · refine hstate.imp_left fun hfirst => ⟨?_, hfirst.2⟩
          exact (List.mem_cons.mp hfirst.1).resolve_left fun heq => hn (by rw [heq])
    · exact ⟨node, hnode, Or.inl ⟨hused.1, huntouched⟩⟩
  obtain ⟨node', hnode', hstate⟩ := hI
  rcases hstate with ⟨hmem, -⟩ | ⟨m, hm⟩
  · exact absurd hmem List.not_mem_nil
  · exact ⟨node', m, hnode', hm⟩

/-! ## Steps -/

/-- Where nothing was sent to the node, it has not registered either. -/
def Fresh (n : NodeId) (s : State) : Prop :=
  ∀ node ∈ s.node? n, node.history = [] → node.Untouched

theorem greeted_of_untouched (h : ∀ node ∈ s.node? n, node.Untouched) :
    s.Greeted n ∧ s.Fresh n :=
  ⟨fun node hnode hsome => absurd (h node hnode).history hsome, fun node hnode _ => h node hnode⟩

/-- The reply to the game list is the first message. -/
theorem hello_untouched {msg : HelloMessage} (hok : s.handleHelloMessage n msg = .ok s')
    (hnode : s.node? n = some node) (hsent : node.history = [])
    (hversion : msg.protoVer = s.config.protocolVersion) : s'.Greeted n ∧ s'.Fresh n := by
  rcases handleHelloMessage_cases hok with ⟨hnot, -⟩ | ⟨other, hother, rfl⟩
  · exact absurd (KeyedMap.mem_of_at? hnode) hnot
  · cases (show some node = some other from hnode.symm.trans hother)
    have hhistory (node' : Node) (hnode' : KeyedMap.at? (s.nodes.store n
        ({ node.markRegistered with gamelist := msg.gamelist }.send
          (helloReply s.config msg))) n = some node') :
        node'.history = [acceptReply s.config] := by
      rw [KeyedMap.at?_store_self hother] at hnode'
      cases hnode'
      rw [Node.history_send, helloReply_of_eq hversion]
      exact congrArg (· ++ [acceptReply s.config]) hsent
    constructor
    · intro node' hnode' _
      rw [hhistory node' hnode']
      exact ⟨rfl, registers_of_head rfl⟩
    · intro node' hnode' hnil
      rw [hhistory node' hnode'] at hnil
      cases hnil

/-- The first message stays the first. -/
theorem greeted_of_sent {op : Op} (hs : s.WellFormed) (hok : s.step op = .ok s')
    (hnode : s.node? n = some node) (hsent : node.history ≠ []) (hgreeted : s.Greeted n) :
    s'.Greeted n ∧ s'.Fresh n := by
  by_cases herase : op = .erase n
  · subst herase
    apply greeted_of_untouched
    intro node' hnode'
    cases hnode'.symm.trans (node?_eraseNode hok)
  obtain ⟨node', more, hnode', hmore, -⟩ := history_step hs hok hnode herase
  have hfirst := hgreeted node hnode hsent
  have hhead : node'.history.head? = some (acceptReply s'.config) := by
    rw [hmore, List.head?_append_of_ne_nil _ hsent, config_step hok]
    exact hfirst.1
  constructor
  · intro other hother _
    cases hnode'.symm.trans hother
    exact ⟨hhead, registers_of_head hhead⟩
  · intro other hother hnil
    cases hnode'.symm.trans hother
    rw [hnil] at hhead
    cases hhead

theorem not_greeted {message : Message} (hnode : s.node? n = some node)
    (hhead : node.history.head? = some message) (hne : ∀ msg, message ≠ .hello msg) :
    ¬ s.Greeted n := by
  intro hgreeted
  have hsent : node.history ≠ [] := by
    intro hnil
    rw [hnil] at hhead
    cases hhead
  exact hne _ (Option.some.inj (hhead.symm.trans (hgreeted node hnode hsent).1))

theorem greeted_of_stays (h : ∃ node, s.node? n = some node ∧ node.Untouched) :
    s.Greeted n ∧ s.Fresh n := by
  obtain ⟨node, hnode, huntouched⟩ := h
  apply greeted_of_untouched
  intro other hother
  cases hnode.symm.trans hother
  exact huntouched

section Conditions

variable {P : Prop}

theorem greeted_iff_of_good (hnext : s.Greeted n ∧ s.Fresh n) (hP : P) :
    (s.Greeted n ↔ P) ∧ (P → s.Fresh n) := ⟨iff_of_true hnext.1 hP, fun _ => hnext.2⟩

theorem greeted_iff_of_bad (hnot : ¬ s.Greeted n) (hP : ¬ P) :
    (s.Greeted n ↔ P) ∧ (P → s.Fresh n) := ⟨iff_of_false hnot hP, fun h => absurd h hP⟩

end Conditions

/-- A tick pings a node that it is not waiting for. -/
theorem greeted_maintain_iff {clock : NodeId → TimePoint} (hs : s.WellFormed)
    (hok : s.maintain clock = .ok s') (hnode : s.node? n = some node) (hsent : node.history = [])
    (huntouched : node.Untouched) : (s'.Greeted n ↔ s.greetsFirst n (.maintain clock)) ∧
      (s.greetsFirst n (.maintain clock) → s'.Fresh n) := by
  obtain ⟨node', hnode', hcase⟩ := maintain_untouched hs hok hnode huntouched
  cases hcase with
  | inl hwaiting =>
    apply greeted_iff_of_good (greeted_of_stays ⟨node', hnode', hwaiting.2⟩)
    intro other hother
    cases hnode.symm.trans hother
    exact Or.inr hwaiting.1
  | inr hpinged =>
    apply greeted_iff_of_bad
    · have hhead : node'.history.head? = some Node.ping := by rw [hpinged.2]; rfl
      exact not_greeted hnode' hhead nofun
    · intro hop
      cases hop node hnode with
      | inl hne => exact hne hsent
      | inr hwaits => exact hpinged.1 hwaits

/-- A task is the first message of a selected node. -/
theorem greeted_assign_iff (hok : s.assignShares = .ok s') (hnode : s.node? n = some node)
    (hsent : node.history = []) (huntouched : node.Untouched) :
    (s'.Greeted n ↔ s.greetsFirst n .assign) ∧ (s.greetsFirst n .assign → s'.Fresh n) := by
  cases hselection : s.selection with
  | none =>
    rcases assignShares_cases hok with ⟨-, rfl⟩ | ⟨selection, hselection', -⟩
    · apply greeted_iff_of_good (greeted_of_stays ⟨node, hnode, huntouched⟩)
      intro selection hselection'
      cases hselection.symm.trans hselection'
    · cases hselection.symm.trans hselection'
  | some selection =>
    by_cases hshare : ∃ share ∈ selection.used, share.1 = n
    · obtain ⟨share, hshare, rfl⟩ := hshare
      obtain ⟨node', m, hnode', hm⟩ := assign_untouched hok hselection hshare hnode huntouched
      apply greeted_iff_of_bad (not_greeted hnode' hm nofun)
      intro hop
      exact hop selection hselection share hshare rfl node hnode hsent
    · have hunused : ∀ share ∈ selection.used, share.1 ≠ n :=
        fun share hmem heq => hshare ⟨share, hmem, heq⟩
      have hstays := at?_assignShares hok hselection hnode hunused
      apply greeted_iff_of_good (greeted_of_stays ⟨node, hstays, huntouched⟩)
      intro selection' hselection' share hmem heq
      cases hselection.symm.trans hselection'
      exact absurd heq (hunused share hmem)

theorem greeted_step_iff {op : Op} (hs : s.WellFormed) (hfresh : s.Fresh n)
    (hgreeted : s.Greeted n) (hversion : s.speaksVersion n op) (hok : s.step op = .ok s') :
    (s'.Greeted n ↔ s.greetsFirst n op) ∧ (s.greetsFirst n op → s'.Fresh n) := by
  cases hnode : s.node? n with
  | none =>
    -- a node that joins has been sent nothing
    apply greeted_iff_of_good (greeted_of_untouched (untouched_of_absent hs hok hnode))
    cases op with
    | maintain clock =>
      intro node hsome
      cases hnode.symm.trans hsome
    | assign =>
      intro selection _ share _ _ node hsome
      cases hnode.symm.trans hsome
    | _ => trivial
  | some node =>
    by_cases hsent : node.history = []
    -- nothing was sent yet: the step may send the first message
    · have huntouched := hfresh node hnode hsent
      cases op with
      | erase m =>
        by_cases hm : n = m
        · subst hm
          refine greeted_iff_of_good (greeted_of_untouched fun node' hnode' => ?_) trivial
          cases hnode'.symm.trans (node?_eraseNode hok)
        · have hstays := empty_step hs hok hnode huntouched (fun heq => hm (by cases heq; rfl))
            nofun nofun nofun nofun
          exact greeted_iff_of_good (greeted_of_stays hstays) trivial
      | hello m msg =>
        by_cases hm : n = m
        · subst hm
          exact greeted_iff_of_good (hello_untouched hok hnode hsent (hversion rfl)) trivial
        · have hstays := empty_step hs hok hnode huntouched nofun
            (fun msg' heq => hm (by cases heq; rfl)) nofun nofun nofun
          exact greeted_iff_of_good (greeted_of_stays hstays) trivial
      | maintain clock => exact greeted_maintain_iff hs hok hnode hsent huntouched
      | balance =>
        have hstays := at?_balanceTasks hok hnode fun task heligible =>
          huntouched.registered (Node.eligible_iff.mp heligible).registered
        exact greeted_iff_of_good (greeted_of_stays ⟨node, hstays, huntouched⟩) trivial
      | assign => exact greeted_assign_iff hok hnode hsent huntouched
      | _ =>
        have hstays := empty_step hs hok hnode huntouched nofun nofun nofun nofun nofun
        exact greeted_iff_of_good (greeted_of_stays hstays) trivial
    -- the first message has been sent, and was the reply
    · apply greeted_iff_of_good (greeted_of_sent hs hok hnode hsent hgreeted)
      cases op with
      | maintain clock =>
        intro other hother
        cases hnode.symm.trans hother
        exact Or.inl hsent
      | assign =>
        intro selection _ share _ _ other hother
        cases hnode.symm.trans hother
        exact hsent
      | _ => trivial

/-! ## The acceptor -/

/-- Only the acceptor has to do with new connections. -/
theorem accepting_step {op : Op} (hok : s.step op = .ok s')
    (haccept : ∀ nodeSocket, op ≠ .accept nodeSocket) (hinsert : op ≠ .insert) :
    s'.accepting = s.accepting ∧ s'.nextNodeId = s.nextNodeId := by
  have hsame (houtline : s'.outline = s.outline) :
      s'.accepting = s.accepting ∧ s'.nextNodeId = s.nextNodeId :=
    ⟨congrArg Outline.accepting houtline, congrArg Outline.nextNodeId houtline⟩
  cases op with
  | select args =>
    rcases selectNodes_cases hok with rfl | ⟨nodeIds, -, -, rfl⟩
    · exact ⟨rfl, rfl⟩
    · exact ⟨rfl, rfl⟩
  | assign =>
    rcases outline_assignShares hok with ⟨-, rfl⟩ | ⟨selection, -, houtline⟩
    · exact ⟨rfl, rfl⟩
    · exact ⟨congrArg Outline.accepting houtline, congrArg Outline.nextNodeId houtline⟩
  | cancel g => exact hsame (outline_commandCancel hok)
  | erase m =>
    have houtline := outline_eraseNode hok
    exact ⟨congrArg Outline.accepting houtline, congrArg Outline.nextNodeId houtline⟩
  | balance => exact hsame (outline_balanceTasks hok)
  | maintain clock =>
    obtain ⟨profile, houtline, -⟩ := outline_maintain hok
    exact ⟨congrArg Outline.accepting houtline, congrArg Outline.nextNodeId houtline⟩
  | accept nodeSocket => exact absurd rfl (haccept nodeSocket)
  | insert => exact absurd rfl hinsert
  | result msg => exact hsame (outline_handleResultMessage hok)
  | hello m msg =>
    rcases handleHelloMessage_cases hok with ⟨-, rfl⟩ | ⟨node, -, rfl⟩
    · exact ⟨rfl, rfl⟩
    · exact ⟨rfl, rfl⟩
  | notify m msg now => exact hsame (outline_handleNotifyTaskMessage hok)
  | write m =>
    cases hok
    exact ⟨rfl, rfl⟩
  | rehash nodes groups tasks =>
    cases hok
    exact ⟨rfl, rfl⟩

/-- No node has the id that is given next while the acceptor is about to give it. -/
def Vacant (s : State) : Prop := s.accepting.isSome → s.node? s.nextNodeId = none

theorem vacant_step {op : Op} (hs : s.WellFormed) (hok : s.step op = .ok s') (h : s.Vacant) :
    s'.Vacant := by
  intro haccepting
  by_cases haccept : ∃ nodeSocket, op = .accept nodeSocket
  · obtain ⟨nodeSocket, rfl⟩ := haccept
    cases hok
    unfold acceptConnection at haccepting ⊢
    split at haccepting
    next hexists => rw [if_pos hexists]; exact h haccepting
    next hnew =>
      rw [if_neg hnew]
      apply KeyedMap.at?_eq_none_of_notMem
      simpa [nodeExists] using hnew
  by_cases hinsert : op = .insert
  · subst hinsert
    cases hok
    unfold insertNode at haccepting
    split at haccepting
    next hnone => rw [hnone] at haccepting; cases haccepting
    next => cases haccepting
  obtain ⟨hkept, hid⟩ :=
    accepting_step hok (fun nodeSocket heq => haccept ⟨nodeSocket, heq⟩) hinsert
  rw [hkept] at haccepting
  rw [hid]
  exact absent_step hs hok hinsert (h haccepting)

end State

/-- From the entering of a node on, the reply to its HELLO is the first message that is sent to it,
exactly when no tick sees it while nothing was sent to it and no share of a task waits for its id. -/
theorem greeted_throughout_iff {config : CoordinatorConfig} {ops₀ ops : List Op} {s₀ s₁ s : State}
    {n : NodeId} (hrun₀ : coordinator.FreeRun (initial config) ops₀ s₀) (hid : s₀.nextNodeId = n)
    (hinsert : coordinator.FreeRun s₀ [.insert] s₁)
    (hrun : coordinator.Run (State.speaksVersion n) s₁ ops s) :
    coordinator.Throughout (State.Greeted n) s₁ ops s ↔
      coordinator.Run (State.greetsFirst n) s₁ ops s := by
  subst hid
  have hs₀ := hrun₀.invariant (I := fun s => s.WellFormed ∧ s.Vacant)
    (fun s op s' hs _ _ hok =>
      ⟨(State.follows_step hs.1 hok).wellFormed, State.vacant_step hs.1 hok hs.2⟩)
    ⟨wellFormed_initial config, nofun⟩
  obtain ⟨henabled, -, hok⟩ := hinsert.step_eq_ok
  change s₀.step .insert = .ok s₁ at hok
  have hs₁ := (State.follows_step hs₀.1 hok).wellFormed
  have hstart := State.greeted_of_untouched
    (State.untouched_of_absent hs₀.1 hok (hs₀.2 henabled))
  have hwellFormed := hrun.along (K := State.WellFormed)
    (fun s op s' hs _ _ hok => (State.follows_step hs hok).wellFormed) hs₁
  exact Machine.throughout_iff_of (J := State.Fresh s₀.nextNodeId) (K := State.WellFormed)
    (fun s op s' hs hfresh hgreeted hversion _ hok _ =>
      (State.greeted_step_iff hs hfresh hgreeted hversion hok).1)
    (fun s op s' hs hfresh hgreeted hversion hop hok _ =>
      (State.greeted_step_iff hs hfresh hgreeted hversion hok).2 hop)
    hwellFormed.1 hwellFormed.2 hstart.2 hstart.1

/-- A second node connects while the first one works, and is pinged after its HELLO only. -/
theorem greeted_throughout_second :
    let before := joining 1 5 ++ [.accept 6] ++ [.insert]
    let ops := tasking 2 ++ [.hello 2 { protoVer := 1, gamelist := soloGames }] ++ silence
    coordinator.Throughout (State.Greeted 2) (after soloConfig before) ops
      (after soloConfig (before ++ ops)) :=
  (greeted_throughout_iff
    (run_after (show (coordinator.exec (fun _ _ => True) (initial soloConfig)
      (joining 1 5 ++ [.accept 6])).isSome by decide +kernel))
    (by decide +kernel)
    (run_from (by decide +kernel) (by decide +kernel))
    (run_from (by decide +kernel) (by decide +kernel))).mpr
      (run_from (by decide +kernel) (by decide +kernel))

instance (n : NodeId) (s : State) : Decidable (s.Greeted n) :=
  inferInstanceAs (Decidable (∀ node ∈ s.node? n, _))

/-- The maintenance loop pings the node before its HELLO is handled. -/
theorem pinged_before_reply : ¬ ∀ (config : CoordinatorConfig) (ops₀ ops : List Op)
    (s₀ s₁ s : State) (n : NodeId), coordinator.FreeRun (initial config) ops₀ s₀ →
    s₀.nextNodeId = n → coordinator.FreeRun s₀ [.insert] s₁ →
    coordinator.Run (State.speaksVersion n) s₁ ops s → s.Greeted n := by
  intro h
  have hgreeted := h soloConfig [.accept 5]
    [.maintain fun _ => 1, .hello 1 { protoVer := 1, gamelist := soloGames }] _ _ _ 1
    (run_after (by decide +kernel)) (by decide +kernel)
    (run_from (by decide +kernel) (by decide +kernel))
    (run_from (by decide +kernel) (by decide +kernel))
  revert hgreeted
  decide +kernel

end Bem
