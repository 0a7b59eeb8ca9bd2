import Bem.Network.Carrying
import Bem.Network.Effort
import Bem.Network.Pings
import Bem.Network.Totals
import Bem.Network.Working

/-!
# The whole system, with the bytes

What is known of the messages holds of the bytes, as long as each `write` of a node takes its message in
full.
-/

namespace Bem

namespace WiredNetwork

variable {lib : BsonLibrary} {W W' : WiredNetwork} {N : Network} {n : NodeId}

theorem Follows.takenFrom (h : Follows lib W N) (n : NodeId) : W.view.takenFrom n = N.takenFrom n := by
  unfold view Network.takenFrom
  rw [h.inbox]

theorem Follows.link?_view (h : Follows lib W N) {l : Link} (hlink : N.link? n = some l) :
    ∃ l', W.view.link? n = some l' ∧ l'.session = l.session := by
  obtain ⟨w, hw, hfollows⟩ := h.exists_wire hlink
  refine ⟨{ session := w.session, dead := w.dead }, ?_, hfollows.session⟩
  show (W.link? n).map _ = _
  rw [hw]
  rfl

/-! ## Results -/

/-- In every run of the coordinator with its nodes, the results that come over a connection are those of
whole sub-tasks that were assigned to this node, each of them once at most and in the order of the
assignments. -/
theorem wired_results_assigned (hlib : lib.Faithful) {config : CoordinatorConfig} {ops : List WiredOp}
    (hrun : (wired lib).Run (fun _ op => op.writesWhole) { coordinator := initial config } ops W)
    (n : NodeId) :
    List.SublistForall₂ NodeProgram.Reports (resultsIn (W.view.takenFrom n)) (W.coordinator.calls n) ∧
      ∀ msg ∈ resultsIn (W.view.takenFrom n), (W.coordinator.tasks.at? msg.taskId).isSome := by
  obtain ⟨-, N, -, -, hfollows, hacquainted⟩ := run_followed hlib (Q := fun _ _ => True)
    (fun _ _ _ _ _ _ => trivial) (hrun.imp fun _ _ => meets_of_writesWhole)
  have htraced := hacquainted.mannered.heard.traced
  rw [hfollows.takenFrom, hfollows.coordinator]
  exact ⟨htraced.results n, fun msg hmsg => htraced.known hmsg⟩

/-- The node connects, gets a task and reports its result. -/
def reporting : List NetworkOp := Network.greeting ++ Network.commanding ++ Network.answering

theorem wired_results_assigned_solo : ∃ (ops : List WiredOp) (W : WiredNetwork),
    ops.flatMap WiredOp.shown = reporting ∧ resultsIn (W.view.takenFrom 1) = [soloReport] ∧
      List.SublistForall₂ NodeProgram.Reports (resultsIn (W.view.takenFrom 1)) (W.coordinator.calls 1) ∧
      ∀ msg ∈ resultsIn (W.view.takenFrom 1), (W.coordinator.tasks.at? msg.taskId).isSome := by
  obtain ⟨ops, W, hops, hrun, hkeeps⟩ := run_carried_solo (Q := fun _ _ => True) (fun _ _ _ _ _ => id) reporting 1
    rfl (by decide +kernel)
  refine ⟨ops, W, hops, ?_, wired_results_assigned soloLibrary_faithful (hrun.imp fun _ _ hop => hop.1) 1⟩
  rw [hkeeps.carries.follows.takenFrom]
  decide +kernel

theorem opensFresh_of_coordinator {V N : Network} (hsame : V.coordinator = N.coordinator) {op : NetworkOp}
    (h : N.opensFresh op) : V.opensFresh op := by
  cases op with
  | own op =>
    show V.coordinator.opensFresh op
    rw [hsame]
    exact h
  | _ => trivial

/-- In every run whose commands find the ids of their groups free, a group that is done shows the exact sums
of one result for each of its sub-tasks, and each of these results is the count of all games of the sub-task
by the program of a node that it was assigned to. -/
theorem wired_group_adds_up (hlib : lib.Faithful) {config : CoordinatorConfig} {ops : List WiredOp}
    (hrun : (wired lib).Run (meets Network.opensFresh) { coordinator := initial config } ops W)
    (hfew : W.coordinator.subTasks < 2 ^ 32) {g : TaskId} {G : TaskGroup}
    (hG : W.coordinator.group? g = some G) (hdone : G.status = .tsDone) :
    ∃ results : TaskId → Result,
      (∀ t ∈ W.coordinator.groupTaskIds g, ∃ n,
        { taskId := t, result := results t } ∈ resultsIn (W.view.takenFrom n) ∧
        ∃ call ∈ W.coordinator.assignCalls, call.nodeId = n ∧
          NodeProgram.Reports { taskId := t, result := results t } call.task) ∧
      G.aggregateResult.Totals ((W.coordinator.groupTaskIds g).map results) ∧
      G.aggregateResult.Consistent := by
  obtain ⟨ops', N, -, hrun', hfollows, -⟩ :=
    run_followed hlib (Q := Network.opensFresh)
      (fun V N op hsame _ hop => opensFresh_of_coordinator hsame.symm hop) hrun
  simp only [hfollows.takenFrom]
  rw [hfollows.coordinator] at hfew hG ⊢
  exact Network.group_adds_up hrun' hfew hG hdone

theorem wired_group_adds_up_solo : ∃ (ops : List WiredOp) (W : WiredNetwork),
    ops.flatMap WiredOp.shown = reporting ∧ W.coordinator.groupTaskIds 1 = [1] ∧
      ∃ results : TaskId → Result,
        (∀ t ∈ W.coordinator.groupTaskIds 1, ∃ n,
          { taskId := t, result := results t } ∈ resultsIn (W.view.takenFrom n) ∧
          ∃ call ∈ W.coordinator.assignCalls, call.nodeId = n ∧
            NodeProgram.Reports { taskId := t, result := results t } call.task) ∧
        soloGroup.aggregateResult.Totals ((W.coordinator.groupTaskIds 1).map results) ∧
        soloGroup.aggregateResult.Consistent := by
  obtain ⟨ops, W, hops, hrun, hkeeps⟩ := run_carried_solo (Q := Network.opensFresh)
    (fun V N op hsame _ => opensFresh_of_coordinator hsame) reporting 1 rfl (by decide +kernel)
  have hfresh := hrun.imp (Q := meets Network.opensFresh) fun _ _ hop => hop.imp fun _ h => h.1
  have hsame := hkeeps.carries.follows.coordinator
  have hgroup : W.coordinator.group? 1 = some soloGroup := by
    rw [hsame]
    decide +kernel
  refine ⟨ops, W, hops, ?_, wired_group_adds_up soloLibrary_faithful hfresh ?_ hgroup rfl⟩
  · rw [hsame]
    decide +kernel
  · rw [hsame]
    decide +kernel

/-! ## What the operator is shown -/

/-- Neither of the two lists makes an assert fail, each has a line for all that there is, and a line that
shows a node at work names a group in the other list, of which a task was assigned to the node and taken up
by its program. -/
theorem wired_nodes_shown (hlib : lib.Faithful) {config : CoordinatorConfig} {ops : List WiredOp}
    (hrun : (wired lib).Run (fun _ op => op.writesWhole) { coordinator := initial config } ops W)
    (hfew : W.coordinator.subTasks < 2 ^ 32) : ∃ nodeLines groupLines,
      W.coordinator.commandNodes = .ok nodeLines ∧ W.coordinator.commandTasks = .ok groupLines ∧
      nodeLines.map NodeLine.nodeId = W.coordinator.nodes.pointees.map Prod.fst ∧
      groupLines.map Prod.fst = W.coordinator.groups.pointees.map Prod.fst ∧
      ∀ line ∈ nodeLines, ∀ g ∈ line.running,
        g ∈ groupLines.map Prod.fst ∧ W.view.Engaged line.nodeId g := by
  obtain ⟨ops', N, -, hrun', hfollows, -⟩ := run_followed hlib (Q := fun _ _ => True)
    (fun _ _ _ _ _ _ => trivial) (hrun.imp fun _ _ => meets_of_writesWhole)
  rw [hfollows.coordinator] at hfew ⊢
  obtain ⟨nodeLines, groupLines, hnodes, hgroups, hnodeIds, hgroupIds, hshown⟩ := Network.nodes_shown hrun' hfew
  refine ⟨nodeLines, groupLines, hnodes, hgroups, hnodeIds, hgroupIds, fun line hline g hg => ?_⟩
  obtain ⟨hlisted, call, hcall, hid, hgroup, l, hlink, hstarted⟩ := hshown line hline g hg
  obtain ⟨l', hlink', hsession⟩ := hfollows.link?_view hlink
  refine ⟨hlisted, call, ?_, hid, hgroup, l', hlink', ?_⟩
  · show call ∈ W.coordinator.assignCalls
    rw [hfollows.coordinator]
    exact hcall
  · rw [hsession]
    exact hstarted

/-- The node is asked while it plays, and answers. -/
def working : List NetworkOp :=
  Network.greeting ++ Network.commanding ++
    ([.instruct, .instruct, .instruct, .execute, .execute, .execute] : List NodeProgram.Op).map (.act 1) ++
    [.own (.maintain fun _ => 1), .write 1, .deliver 1] ++
    ([.instruct, .instruct, .instruct, .instruct, .instruct] : List NodeProgram.Op).map (.act 1) ++
    [.send 1, .read 1, .handle 2]

theorem wired_nodes_shown_working : ∃ (ops : List WiredOp) (W : WiredNetwork),
    ops.flatMap WiredOp.shown = working ∧ (∃ node ∈ W.coordinator.node? 1, node.activeTaskGroup = 1) ∧
      ∃ nodeLines groupLines, W.coordinator.commandNodes = .ok nodeLines ∧
      W.coordinator.commandTasks = .ok groupLines ∧
      nodeLines.map NodeLine.nodeId = W.coordinator.nodes.pointees.map Prod.fst ∧
      groupLines.map Prod.fst = W.coordinator.groups.pointees.map Prod.fst ∧
      ∀ line ∈ nodeLines, ∀ g ∈ line.running,
        g ∈ groupLines.map Prod.fst ∧ W.view.Engaged line.nodeId g := by
  obtain ⟨ops, W, hops, hrun, hkeeps⟩ := run_carried_solo (Q := fun _ _ => True) (fun _ _ _ _ _ => id) working 1
    rfl (by decide +kernel)
  refine ⟨ops, W, hops, ?_, wired_nodes_shown soloLibrary_faithful (hrun.imp fun _ _ hop => hop.1) ?_⟩
  · rw [hkeeps.carries.follows.coordinator]
    decide +kernel
  · rw [hkeeps.carries.follows.coordinator]
    decide +kernel

/-! ## Questions -/

theorem readsForward_of_coordinator {V N : Network} (hsame : V.coordinator = N.coordinator)
    (hinbox : V.inbox = N.inbox) {op : NetworkOp} (h : N.readsForward op) : V.readsForward op := by
  cases op with
  | own op =>
    cases op with
    | maintain clock =>
      show ∀ e ∈ V.coordinator.nodes.pointees, ¬ e.2.awaitingResponse → e.2.responseTs < clock e.1
      rw [hsame]
      exact h
    | _ => trivial
  | handle now =>
    show ∀ e ∈ V.inbox.inFlight.head?, e.2.isNotify → ∀ node ∈ V.coordinator.node? e.1, node.requestTs ≤ now
    rw [hsame, hinbox]
    exact h
  | _ => trivial

/-- As long as the clock reads forward, the ping that the time stamps of a node call open is at exactly
one place, unless the node has taken it for the reply to its HELLO; and where none is open none is on
the way.  Of the bytes on the two directions of the connection, the messages that they convey count. -/
theorem wired_one_ping_under_way (hlib : lib.Faithful) {config : CoordinatorConfig} {ops : List WiredOp}
    (hrun : (wired lib).Run (meets Network.readsForward) { coordinator := initial config } ops W)
    {node : Node} {w : WiredLink} (hnode : W.coordinator.node? n = some node) (hlink : W.link? n = some w) :
    ∃ l : Link, l.session = w.session ∧ Wire.Conveys lib w.down l.down ∧ Wire.Conveys lib w.up l.up ∧
      W.view.pingsUnderWay n node l + Network.misread l = if node.awaitingResponse then 1 else 0 := by
  obtain ⟨ops', N, -, hrun', hfollows, -⟩ := run_followed hlib (Q := Network.readsForward)
    (fun V N op hsame hinbox hop => readsForward_of_coordinator hsame.symm hinbox.symm hop) hrun
  obtain ⟨l, hl, hprogram⟩ := hfollows.exists_link hlink
  rw [hfollows.coordinator] at hnode
  have hone := Network.one_ping_under_way hrun' hnode hl
  refine ⟨l, hprogram.session.symm, hprogram.down, hprogram.up, ?_⟩
  have hwaiting : W.view.waitingFrom n = N.waitingFrom n := by
    unfold view Network.waitingFrom
    rw [hfollows.inbox]
  unfold Network.pingsUnderWay at hone ⊢
  rw [hwaiting]
  exact hone

/-- A node that is accepted is asked, and its answer is on the way back. -/
def asking : List NetworkOp :=
  Network.greeting ++ [.own (.maintain fun _ => 1), .write 1, .deliver 1] ++
    ([.instruct, .instruct, .instruct, .instruct, .instruct] : List NodeProgram.Op).map (.act 1) ++ [.send 1]

theorem wired_one_ping_under_way_asking : ∃ (ops : List WiredOp) (W : WiredNetwork) (node : Node) (w : WiredLink),
    ops.flatMap WiredOp.shown = asking ∧ W.coordinator.node? 1 = some node ∧ node.awaitingResponse ∧
    W.link? 1 = some w ∧ ∃ l : Link, l.session = w.session ∧ Wire.Conveys soloLibrary w.down l.down ∧
      Wire.Conveys soloLibrary w.up l.up ∧
      W.view.pingsUnderWay 1 node l + Network.misread l = if node.awaitingResponse then 1 else 0 := by
  obtain ⟨ops, W, hops, hrun, hkeeps⟩ := run_carried_solo (Q := Network.readsForward)
    (fun V N op hsame hinbox => readsForward_of_coordinator hsame hinbox) asking 1 rfl (by decide +kernel)
  have hforward := hrun.imp (Q := meets Network.readsForward) fun _ _ hop => hop.imp fun _ h => h.1
  have hfollows := hkeeps.carries.follows
  have hlive : (W.coordinator.node? 1).isSome ∧ ∀ node ∈ W.coordinator.node? 1, node.awaitingResponse := by
    rw [hfollows.coordinator]
    decide +kernel
  have hlinked : ((Network.after soloConfig asking).link? 1).isSome := by decide +kernel
  obtain ⟨l, hl⟩ := Option.isSome_iff_exists.mp hlinked
  obtain ⟨w, hw, -⟩ := hfollows.exists_wire hl
  obtain ⟨node, hnode⟩ := Option.isSome_iff_exists.mp hlive.1
  exact ⟨ops, W, node, w, hops, hnode, hlive.2 node hnode, hw,
    wired_one_ping_under_way soloLibrary_faithful hforward hnode hw⟩

/-! ## Rest -/

/-- A step of the network that goes on by itself, or one of a reader or a writer on the wire. -/
def isInner : WiredOp → Bool
  | .net op => Network.isInner op
  | .cut _ _ | .fillNode _ _ | .fillCoordinator _ _ => true

/-- Nothing goes on by itself. -/
def atRest (lib : BsonLibrary) (W : WiredNetwork) : Prop :=
  ∀ op : WiredOp, isInner op → ¬ (wired lib).enabled W op

/-- Where no byte is left to read, no message is under way. -/
theorem inFlight_eq_nil_of_atRest {w : Wire} {c : Channel Message} (h : Wire.Conveys lib w c)
    (hlib : lib.Faithful) (hsmall : ∀ m ∈ w.written, m.Small lib) (hready : w.ready = [])
    (hfull : ¬ w.canFill 1) : c.inFlight = [] := by
  by_contra hnext
  have hunderWay : w.underWay = [] := by
    by_contra hmore
    exact hfull ⟨hready, le_rfl, by decide, List.length_pos_iff.mpr hmore⟩
  exact h.ready_ne_nil hlib hsmall hunderWay hnext hready

/-- Rest on the wire is rest of the messages, at every node whose program goes on. -/
theorem Follows.restsAt (h : Follows lib W N) (hlib : lib.Faithful) (hempty : lib.WritesEmpty)
    (hacquainted : N.Acquainted) (hgreets : N.Greets (Message.Small lib)) (hrest : W.atRest lib) {w : WiredLink}
    (hlink : W.link? n = some w) (halive : ¬ w.dead = true) : N.restsAt n := by
  obtain ⟨l, hl, hfollows⟩ := h.exists_link hlink
  intro op hinner hat henabled
  cases op with
  | write m =>
    refine hrest (.net (.write m)) rfl ?_
    show ∃ node ∈ W.coordinator.node? m, node.messageQueue ≠ []
    rw [h.coordinator]
    exact henabled
  | deliver m =>
    obtain rfl : m = n := of_decide_eq_true hat
    obtain ⟨l', hl', -, hnext⟩ := henabled
    cases hl.symm.trans hl'
    have hready : w.down.ready = [] := by
      by_contra hready
      exact hrest (.net (.deliver m)) rfl ⟨w, hlink, halive, hready⟩
    exact hnext (inFlight_eq_nil_of_atRest hfollows.down hlib (h.small_down hempty hlink) hready
      fun hcan => hrest (.fillNode m 1) rfl ⟨w, hlink, halive, hcan⟩)
  | read m =>
    obtain rfl : m = n := of_decide_eq_true hat
    obtain ⟨l', hl', hnext⟩ := henabled
    cases hl.symm.trans hl'
    have hready : w.up.ready = [] := by
      by_contra hready
      exact hrest (.net (.read m)) rfl ⟨w, hlink, hready⟩
    exact hnext (inFlight_eq_nil_of_atRest hfollows.up hlib (h.small_up hacquainted hgreets hlink) hready
      fun hcan => hrest (.fillCoordinator m 1) rfl ⟨w, hlink, hcan⟩)
  | act m op =>
    obtain rfl : m = n := of_decide_eq_true hat
    obtain ⟨hown, l', hl', -, hacts⟩ := henabled
    cases hl.symm.trans hl'
    exact hrest (.net (.act m op)) hinner ⟨hown, w, hlink, halive, hfollows.session.symm ▸ hacts⟩
  | send m =>
    obtain rfl : m = n := of_decide_eq_true hat
    obtain ⟨l', hl', -, hqueue⟩ := henabled
    cases hl.symm.trans hl'
    exact hrest (.net (.send m)) rfl ⟨w, hlink, halive, hfollows.session.symm ▸ hqueue⟩
  | handle now =>
    refine hrest (.net (.handle now)) rfl ?_
    show W.inbox.inFlight ≠ []
    rw [h.inbox]
    exact henabled
  | _ => cases hinner

theorem calm_of_coordinator {V N : Network} (hsame : V.coordinator = N.coordinator) {op : NetworkOp}
    (h : N.calm op) : V.calm op := by
  cases op with
  | own op =>
    show V.coordinator.calm op
    rw [hsame]
    exact h
  | _ => trivial

/-- If nothing disturbs the work, and the system comes to rest with the programs of all nodes that have
running tasks still there, then every group is done. -/
theorem wired_done_at_rest (hlib : lib.Faithful) (hempty : lib.WritesEmpty) {config : CoordinatorConfig}
    {ops : List WiredOp} (hrun : (wired lib).Run
      (meets fun N op => N.calm op ∧ N.startsGreeting (Message.Small lib) op) { coordinator := initial config } ops W)
    (hfew : W.coordinator.subTasks < 2 ^ 32) (hrest : W.atRest lib) (hstaffed : W.view.staffed) {g : TaskId}
    {G : TaskGroup} (hG : W.coordinator.group? g = some G) : G.status = .tsDone := by
  obtain ⟨ops', N, -, hrun', hfollows, hacquainted⟩ := run_followed hlib
    (Q := fun N op => N.calm op ∧ N.startsGreeting (Message.Small lib) op)
    (fun V N op hsame _ hop => ⟨calm_of_coordinator hsame.symm hop.1, hop.2.imp fun _ => id⟩) hrun
  have hgreets := Network.greets_run (hrun'.imp fun _ _ hop => hop.2)
  rw [hfollows.coordinator] at hfew hG
  obtain ⟨h, hs⟩ := Network.undisturbed_run (hrun'.imp fun _ _ hop => hop.1) hfew
  refine h.done_of_restsAt hs (fun n node hnode hrunning l hlink => ?_) hG
  obtain ⟨w, hw, hprogram⟩ := hfollows.exists_wire hlink
  have hview : W.view.link? n = some { session := w.session, dead := w.dead } := by
    show (W.link? n).map _ = _
    rw [hw]
    rfl
  obtain ⟨halive, hgoesOn⟩ := hstaffed (n, node) (by
    show (n, node) ∈ W.coordinator.nodes.pointees
    rw [hfollows.coordinator]
    exact KeyedMap.mem_pointees.mpr hnode) (by
    show ∃ r ∈ node.tasks, (W.coordinator.taskHeap.get r).status = .tsRunning
    rw [hfollows.coordinator]
    exact hrunning) _ hview
  have halive' : ¬ w.dead = true := by
    intro hdead
    cases halive.symm.trans hdead
  refine ⟨by simpa using hprogram.alive halive', hprogram.session ▸ hgoesOn, ?_⟩
  exact hfollows.restsAt hlib hempty hacquainted hgreets hrest hw halive'

/-- Where the messages rest, so do their bytes. -/
theorem Follows.atRest (h : Follows lib W N) (hlib : lib.Faithful) (hempty : lib.WritesEmpty)
    (hacquainted : N.Acquainted) (hgreets : N.Greets (Message.Small lib)) (hrest : N.atRest) : W.atRest lib := by
  intro op hinner henabled
  cases op with
  | cut m ret =>
    obtain ⟨w, hw, halive, hcan⟩ := henabled
    obtain ⟨l, hl, hfollows⟩ := h.exists_link hw
    exact hrest (.send m) rfl ⟨l, hl, hfollows.alive halive,
      hfollows.session ▸ WiredLink.ne_nil_of_canCut hcan⟩
  | fillNode m len =>
    obtain ⟨w, hw, halive, hcan⟩ := henabled
    obtain ⟨l, hl, hfollows⟩ := h.exists_link hw
    refine hrest (.deliver m) rfl ⟨l, hl, hfollows.alive halive, fun hnone => ?_⟩
    have hread := (hfollows.down.underWay_eq_nil hlib (h.small_down hempty hw) hnone).2
    obtain ⟨-, hpos, -, hlen⟩ := hcan
    rw [hread, List.length_nil] at hlen
    omega
  | fillCoordinator m len =>
    obtain ⟨w, hw, hcan⟩ := henabled
    obtain ⟨l, hl, hfollows⟩ := h.exists_link hw
    refine hrest (.read m) rfl ⟨l, hl, fun hnone => ?_⟩
    have hread := (hfollows.up.underWay_eq_nil hlib (h.small_up hacquainted hgreets hw) hnone).2
    obtain ⟨-, hpos, -, hlen⟩ := hcan
    rw [hread, List.length_nil] at hlen
    omega
  | net op =>
    cases op with
    | write m =>
      refine hrest (.write m) rfl ?_
      show ∃ node ∈ N.coordinator.node? m, node.messageQueue ≠ []
      rw [← h.coordinator]
      exact henabled
    | deliver m =>
      obtain ⟨w, hw, halive, hready⟩ := henabled
      obtain ⟨l, hl, hfollows⟩ := h.exists_link hw
      refine hrest (.deliver m) rfl ⟨l, hl, hfollows.alive halive, fun hnone => hready ?_⟩
      exact (hfollows.down.underWay_eq_nil hlib (h.small_down hempty hw) hnone).1
    | act m op =>
      obtain ⟨hown, w, hw, halive, hacts⟩ := henabled
      obtain ⟨l, hl, hfollows⟩ := h.exists_link hw
      exact hrest (.act m op) hinner ⟨hown, l, hl, hfollows.alive halive, hfollows.session ▸ hacts⟩
    | send m =>
      obtain ⟨w, hw, halive, hqueue⟩ := henabled
      obtain ⟨l, hl, hfollows⟩ := h.exists_link hw
      exact hrest (.send m) rfl ⟨l, hl, hfollows.alive halive, hfollows.session ▸ hqueue⟩
    | read m =>
      obtain ⟨w, hw, hready⟩ := henabled
      obtain ⟨l, hl, hfollows⟩ := h.exists_link hw
      refine hrest (.read m) rfl ⟨l, hl, fun hnone => hready ?_⟩
      exact (hfollows.up.underWay_eq_nil hlib (h.small_up hacquainted hgreets hw) hnone).1
    | handle now =>
      refine hrest (.handle now) rfl ?_
      show N.inbox.inFlight ≠ []
      rw [← h.inbox]
      exact henabled
    | _ => cases hinner

/-- The node answers, and both its threads wait again. -/
def settling : List NetworkOp := reporting ++ [.act 1 .execute, .act 1 .instruct]

theorem wired_done_at_rest_settling : ∃ (ops : List WiredOp) (W : WiredNetwork),
    ops.flatMap WiredOp.shown = settling ∧ ∃ G, W.coordinator.group? 1 = some G ∧ G.status = .tsDone := by
  obtain ⟨ops, W, hops, hrun, hkeeps⟩ := run_carried_solo (Q := Network.calm)
    (fun V N op hsame _ => calm_of_coordinator hsame) settling 1 rfl (by decide +kernel)
  have hcalm := hrun.imp (Q := meets fun N op => N.calm op ∧ N.startsGreeting (Message.Small soloLibrary) op)
    fun _ _ hop => hop.imp fun _ h => ⟨h.1, h.2.imp fun _ hm => hm.1⟩
  have hfollows := hkeeps.carries.follows
  have hresting : (Network.after soloConfig settling).Resting := by decide +kernel
  have hrest := hfollows.atRest soloLibrary_faithful soloLibrary_writesEmpty hkeeps.acquainted
    (fun m l hl => (hkeeps.greets m l hl).1) (hresting.atRest hkeeps.acquainted.mannered.heard.traced.sound)
  have hknown : ((Network.after soloConfig settling).coordinator.group? 1).isSome := by decide +kernel
  obtain ⟨G, hG⟩ := Option.isSome_iff_exists.mp hknown
  rw [← hfollows.coordinator] at hG
  refine ⟨ops, W, hops, G, hG, wired_done_at_rest soloLibrary_faithful soloLibrary_writesEmpty hcalm ?_ hrest ?_ hG⟩
  · rw [hfollows.coordinator]
    decide +kernel
  · -- no task is running any more
    show ∀ e ∈ W.coordinator.nodes.pointees, (∃ r ∈ e.2.tasks, (W.coordinator.taskHeap.get r).status = .tsRunning) →
      ∀ l ∈ W.view.link? e.1, l.dead = false ∧ l.session.node.shouldQuit = false
    have hidle : ∀ e ∈ (Network.after soloConfig settling).coordinator.nodes.pointees, ¬ ∃ r ∈ e.2.tasks,
        ((Network.after soloConfig settling).coordinator.taskHeap.get r).status = .tsRunning := by decide +kernel
    rw [hfollows.coordinator]
    exact fun e he hrunning => absurd hrunning (hidle e he)

/-! ## Coming to rest -/

end WiredNetwork

end Bem
