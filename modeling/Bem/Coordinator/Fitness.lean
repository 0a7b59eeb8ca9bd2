import Bem.Coordinator.Counters

/-!
# Fit nodes

A task should only be assigned to a node that is fit for it.  `balanceTasks` looks for the node in the
section that assigns the task; `command_task` looks in one section and assigns in another, and what
happens to its nodes in between goes unnoticed.
-/

namespace Bem

/-- The list has the game and both agents of the task. -/
def GameList.offers (gamelist : GameList) (task : Task) : Bool :=
  gamelist.containsGame task.gameId && gamelist.containsAgent task.gameId task.agent1 &&
    gamelist.containsAgent task.gameId task.agent2

/-- The node is registered, its connection is not broken, and it has the game and both agents. -/
structure Node.Profile.FitFor (p : Node.Profile) (task : Task) : Prop where
  registered : p.flags.registered
  connected : ¬ p.flags.connBroken
  offers : p.gamelist.offers task

theorem Node.eligible_iff {node : Node} {task : Task} :
    node.eligible task ↔ node.profile.FitFor task := by
  have hfit : node.profile.FitFor task ↔ node.flags.registered = true ∧
      ¬ node.flags.connBroken = true ∧ node.gamelist.offers task = true :=
    ⟨fun h => ⟨h.registered, h.connected, h.offers⟩, fun h => ⟨h.1, h.2.1, h.2.2⟩⟩
  rw [hfit]
  unfold Node.eligible Node.isRegistered GameList.offers
  cases node.flags.registered <;> cases node.flags.connBroken <;> simp [and_assoc]

/-- The node under the key of the call was fit for the task. -/
def AssignCall.Fits (call : AssignCall) : Prop := call.node.profile.FitFor call.task

/-- Every node that a pending selection has games for is live and fit for the task. -/
def Outline.StillFit (F : Outline) : Prop :=
  ∀ selection ∈ F.selection, ∀ share ∈ selection.used,
    ∃ p ∈ F.profile share.1, p.FitFor selection.task

namespace State

variable {s s' : State}

/-- Were a thread to go on with the assigning section of `command_task` or with `balanceTasks`, it would
not follow a null pointer, and every call of `AssignTask` up to its end would be for a fit node. -/
structure AssignsFit (s : State) : Prop where
  commandTask : ∃ s', s.assignShares = .ok s' ∧ ∀ call ∈ s'.assignCalls, call.Fits
  balanceTasks : ∃ s', s.balanceTasks = .ok s' ∧ ∀ call ∈ s'.assignCalls, call.Fits

/-- No node that a pending selection has games for is removed, found silent, or says HELLO without the
game or an agent. -/
def sparesSelected (s : State) : Op → Prop
  | .erase n => ∀ selection ∈ s.selection, ∀ share ∈ selection.used, share.1 ≠ n
  | .maintain clock => ∀ selection ∈ s.selection, ∀ share ∈ selection.used,
    ∀ node ∈ s.node? share.1, ¬ s.isSilent clock (share.1, node)
  | .hello n msg => ∀ selection ∈ s.selection, ∀ share ∈ selection.used, share.1 = n →
    msg.gamelist.offers selection.task
  | _ => True

-- the shares are run through, not all pairs of numbers
instance (selection : Selection) (p : NodeId × UInt32 → Prop) [DecidablePred p] :
    Decidable (∀ share ∈ selection.used, p share) := List.decidableBAll p selection.used

instance (s : State) (op : Op) : Decidable (s.sparesSelected op) :=
  match op with
  | .erase n => inferInstanceAs (Decidable (∀ selection ∈ s.selection, ∀ share ∈ selection.used,
    share.1 ≠ n))
  | .maintain clock => inferInstanceAs (Decidable (∀ selection ∈ s.selection,
    ∀ share ∈ selection.used, ∀ node ∈ s.node? share.1, ¬ s.isSilent clock (share.1, node)))
  | .hello n msg => inferInstanceAs (Decidable (∀ selection ∈ s.selection,
    ∀ share ∈ selection.used, share.1 = n → msg.gamelist.offers selection.task = true))
  | .select _ | .assign | .cancel _ | .balance | .accept _ | .insert | .result _ | .notify _ _ _
  | .write _ | .rehash _ _ _ => .isTrue trivial

/-! ## Assigning -/

theorem assignShare_ok (task : Task) {share : NodeId × UInt32} {node : Node} (hne : share.2 ≠ 0)
    (hnode : s.nodes.at? share.1 = some node) :
    ∃ s' call, assignShare task s share = .ok s' ∧ s'.outline = s.outline ∧
      s'.assignCalls = s.assignCalls ++ [call] ∧ call.node = node ∧
      call.task = subTask task s.nextTaskId share.2 := by
  have hok : ∃ s', assignShare task s share = .ok s' := by
    unfold assignShare
    rw [if_neg hne]
    exact assignTask_ok hnode
  rcases hok with ⟨s', hok⟩
  have houtline := outline_assignShare hok
  rcases assignShare_cases hok with ⟨hzero, -⟩ | ⟨-, node', tt, heap, hnode', htt, -, rfl⟩
  · exact absurd hzero hne
  · cases hnode.symm.trans hnode'
    exact ⟨_, _, hok, houtline, rfl, rfl, htt⟩

theorem assignShare_none (task : Task) {share : NodeId × UInt32} (hne : share.2 ≠ 0)
    (hnode : s.nodes.at? share.1 = none) : assignShare task s share = .error .nullPointer := by
  unfold assignShare assignTask
  rw [if_neg hne]
  dsimp only
  rw [KeyedMap.index_of_at?_none hnode]

/-- The loop of `command_task` assigns fit nodes exactly when every node with games is live and fit at
its start. -/
theorem foldlM_assignShare_iff {task : Task} {l : List (NodeId × UInt32)} :
    (∃ s', l.foldlM (assignShare task) s = .ok s' ∧ ∀ call ∈ s'.assignCalls, call.Fits) ↔
      (∀ call ∈ s.assignCalls, call.Fits) ∧ ∀ share ∈ l.filter fun share => share.2 ≠ 0,
        ∃ p ∈ s.outline.profile share.1, p.FitFor task := by
  induction l generalizing s with
  | nil =>
    constructor
    · intro h
      rcases h with ⟨s', hok, hfits⟩
      cases hok
      exact ⟨hfits, nofun⟩
    · intro h
      exact ⟨s, rfl, h.1⟩
  | cons share l ih =>
    by_cases hzero : share.2 = 0
    · -- an empty share is skipped
      have hskip : assignShare task s share = .ok s := by
        unfold assignShare
        rw [if_pos hzero]
      rw [List.filter_cons_of_neg (by simpa using hzero), ← ih]
      simp only [Except.foldlM_cons_eq_ok, hskip]
      simp
    · rw [List.filter_cons_of_pos (by simpa using hzero), List.forall_mem_cons]
      cases hnode : s.nodes.at? share.1 with
      | none =>
        have hprofile : s.outline.profile share.1 = none := congrArg (Option.map Node.profile) hnode
        -- a null pointer is dereferenced for a node that is gone
        have hfault := assignShare_none task hzero hnode
        refine iff_of_false (fun h => ?_) fun h => ?_
        · rcases h with ⟨s', hok, -⟩
          rcases Except.foldlM_cons_eq_ok.mp hok with ⟨s₁, hfirst, -⟩
          rw [hfault] at hfirst
          cases hfirst
        · rcases h.2.1 with ⟨p, hp, -⟩
          rw [hprofile] at hp
          cases hp
      | some node =>
        have hprofile := profile_of_at? hnode
        rcases assignShare_ok task hzero hnode with
          ⟨s₁, call, hfirst, houtline, hcalls, hcallNode, hcallTask⟩
        have hcall : call.Fits ↔ node.profile.FitFor task := by
          unfold AssignCall.Fits
          rw [hcallNode, hcallTask]
          exact ⟨fun h => ⟨h.1, h.2, h.3⟩, fun h => ⟨h.1, h.2, h.3⟩⟩
        have hhead : (∃ p ∈ s.outline.profile share.1, p.FitFor task) ↔ call.Fits := by
          rw [hprofile, hcall]
          simp
        have hloop : (∃ s', (share :: l).foldlM (assignShare task) s = .ok s' ∧
            ∀ call ∈ s'.assignCalls, call.Fits) ↔
            ∃ s', l.foldlM (assignShare task) s₁ = .ok s' ∧ ∀ call ∈ s'.assignCalls, call.Fits := by
          simp only [Except.foldlM_cons_eq_ok, hfirst]
          simp
        rw [hloop, ih, houtline, hcalls, hhead, List.forall_mem_append, List.forall_mem_singleton,
          and_assoc]

/-- Balancing only assigns nodes that it has just found fit. -/
theorem balanceTasks_fits (hs : s.WellFormed) (hcalls : ∀ call ∈ s.assignCalls, call.Fits) :
    ∃ s', s.balanceTasks = .ok s' ∧ ∀ call ∈ s'.assignCalls, call.Fits := by
  have hrule := balanceTasks_rule (I := fun t : State => ∀ call ∈ t.assignCalls, call.Fits) hs.nodes
    hs.tasks
    (by
      intro t r t' ht hok
      rcases balanceTask_cases hok with rfl | ⟨n, node, hnode, heligible, -, rfl⟩
      · exact ht
      · rw [List.forall_mem_append, List.forall_mem_singleton]
        exact ⟨ht, Node.eligible_iff.mp heligible⟩)
    hcalls
  rcases hrule with ⟨s₁, hok, hfits⟩
  exact ⟨_, hok, hfits⟩

theorem assignsFit_iff (hs : s.WellFormed) :
    s.AssignsFit ↔ (∀ call ∈ s.assignCalls, call.Fits) ∧ s.outline.StillFit := by
  have hcommand : (∃ s', s.assignShares = .ok s' ∧ ∀ call ∈ s'.assignCalls, call.Fits) ↔
      (∀ call ∈ s.assignCalls, call.Fits) ∧ s.outline.StillFit := by
    unfold assignShares
    cases hselection : s.selection with
    | none =>
      constructor
      · intro h
        rcases h with ⟨s', hok, hfits⟩
        cases hok
        refine ⟨hfits, fun selection hsome => ?_⟩
        cases hselection.symm.trans hsome
      · exact fun h => ⟨s, rfl, h.1⟩
    | some selection =>
      dsimp only
      rw [foldlM_assignShare_iff]
      apply and_congr_right
      intro _
      -- the groups are not looked at, and neither is the task's
      have hfit {p : Node.Profile} :
          p.FitFor { selection.task with groupId := s.nextGroupId } ↔ p.FitFor selection.task :=
        ⟨fun h => ⟨h.1, h.2, h.3⟩, fun h => ⟨h.1, h.2, h.3⟩⟩
      simp only [hfit]
      constructor
      · intro h selection' hselection'
        cases hselection.symm.trans hselection'
        exact h
      · exact fun h => h selection hselection
  constructor
  · exact fun h => hcommand.mp h.commandTask
  · exact fun h => ⟨hcommand.mpr h, balanceTasks_fits hs h.1⟩

/-! ## Sections -/

/-- Only `command_task` and balancing call `AssignTask`. -/
theorem assignCalls_step {op : Op} (hok : s.step op = .ok s') (hassign : op ≠ .assign)
    (hbalance : op ≠ .balance) : s'.assignCalls = s.assignCalls := by
  cases op with
  | select args =>
    rcases selectNodes_cases hok with rfl | ⟨nodeIds, -, -, rfl⟩
    · rfl
    · rfl
  | assign => exact absurd rfl hassign
  | cancel g =>
    rcases commandCancel_cases hok with ⟨-, rfl⟩ | ⟨G, -, -, hloop⟩
    · rfl
    -- tasks are only taken off the lists
    · apply Except.foldlM_rest (I := fun _ t => t.assignCalls = s.assignCalls) _ rfl hloop
      intro e l t t' ht hstep
      rcases cancelTask_cases hstep with ⟨-, rfl⟩ | ⟨-, -, rfl⟩
      · exact ht
      · exact ht
  | erase n =>
    rcases eraseNode_cases hok with ⟨-, rfl⟩ | ⟨node, -, rfl⟩
    · rfl
    · rfl
  | balance => exact absurd rfl hbalance
  | maintain clock =>
    -- tasks are given back, but not handed out
    apply maintain_keeps (I := fun t => t.assignCalls = s.assignCalls) _ hok rfl
    intro t e ht
    rcases maintainNode_cases t clock e with ⟨-, b, heq⟩ | ⟨-, _, _, b, _, _, heq⟩ | ⟨-, -, heq⟩
    · rwa [heq]
    · rwa [heq]
    · rwa [heq]
  | accept nodeSocket =>
    cases hok
    unfold acceptConnection
    split
    · rfl
    · rfl
  | insert =>
    cases hok
    unfold insertNode
    split
    · rfl
    · rfl
  | result msg =>
    rcases handleResultMessage_cases hok with ⟨r, -, ⟨-, rfl⟩ | ⟨G, -, -, ⟨-, rfl⟩ | ⟨-, rfl⟩⟩⟩
    · rfl
    · rfl
    · rfl
  | hello n msg =>
    rcases handleHelloMessage_cases hok with ⟨-, rfl⟩ | ⟨node, -, rfl⟩
    · rfl
    · rfl
  | notify n msg now =>
    rcases handleNotifyTaskMessage_cases hok with rfl | ⟨node, g, -, rfl⟩
    · rfl
    · rfl
  | write n =>
    cases hok
    rfl
  | rehash nodes groups tasks =>
    cases hok
    rfl

end State

/-- The selection is the same, and the nodes it has games for have the same profiles. -/
theorem Outline.StillFit.of_profiles {F F' : Outline} (h : F.StillFit)
    (hselection : F'.selection = F.selection)
    (hprofile : ∀ n p, F.profile n = some p → F'.profile n = some p) : F'.StillFit := by
  intro selection hsel share hshare
  rw [hselection] at hsel
  rcases h selection hsel share hshare with ⟨p, hp, hfit⟩
  exact ⟨p, hprofile _ p hp, hfit⟩

namespace State

variable {s s' : State}

theorem stillFit_eraseNode_iff {n : NodeId} (h : s.outline.StillFit)
    (hok : s.eraseNode n = .ok s') : s'.outline.StillFit ↔ s.sparesSelected (.erase n) := by
  rw [outline_eraseNode hok]
  constructor
  · intro h' selection hselection share hshare heq
    rcases h' selection hselection share hshare with ⟨p, hp, -⟩
    change Function.update s.outline.profile n none share.1 = some p at hp
    rw [heq, Function.update_self] at hp
    cases hp
  · intro hspares selection hselection share hshare
    rcases h selection hselection share hshare with ⟨p, hp, hfit⟩
    refine ⟨p, ?_, hfit⟩
    exact (Function.update_of_ne (hspares selection hselection share hshare) _ _).trans hp

/-- A tick takes a selected node exactly when it finds the node silent. -/
theorem stillFit_maintain_iff {clock : NodeId → TimePoint} (h : s.outline.StillFit)
    (hok : s.maintain clock = .ok s') :
    s'.outline.StillFit ↔ s.sparesSelected (.maintain clock) := by
  rcases outline_maintain hok with ⟨profile, houtline, -, hsome⟩
  rw [houtline]
  -- a node that was fit is broken after the tick exactly when it is found silent
  have hnode (selection : Selection) (hselection : s.selection = some selection)
      (share : NodeId × UInt32) (hshare : share ∈ selection.used) :
      (∃ p ∈ profile share.1, p.FitFor selection.task) ↔
        ∀ node ∈ s.node? share.1, ¬ s.isSilent clock (share.1, node) := by
    rcases h selection hselection share hshare with ⟨p, hp, hfit⟩
    rcases Option.map_eq_some_iff.mp hp with ⟨node, hnode, rfl⟩
    rcases hsome share.1 node hnode with ⟨broken, hbroken, hprofile⟩
    have hafter : s.brokenAfter clock (share.1, node) ↔ s.isSilent clock (share.1, node) :=
      ⟨fun hb => hb.2.resolve_right hfit.connected, fun hb => ⟨hb.1, Or.inl hb⟩⟩
    rw [hafter] at hbroken
    rw [hprofile]
    constructor
    · intro hp' node' hnode'
      rcases hp' with ⟨p', hp', hfit'⟩
      cases hp'
      cases hnode.symm.trans hnode'
      exact fun hsilent => hfit'.connected (hbroken.mpr hsilent)
    · intro hnot
      refine ⟨_, rfl, hfit.registered, ?_, hfit.offers⟩
      exact fun hb => hnot node hnode (hbroken.mp hb)
  constructor
  · intro h' selection hselection share hshare
    exact (hnode selection hselection share hshare).mp (h' selection hselection share hshare)
  · intro hspares selection hselection share hshare
    exact (hnode selection hselection share hshare).mpr (hspares selection hselection share hshare)

/-- A list of games takes a selected node exactly when the task's game is not on it. -/
theorem stillFit_handleHelloMessage_iff {n : NodeId} {msg : HelloMessage} (h : s.outline.StillFit)
    (hok : s.handleHelloMessage n msg = .ok s') :
    s'.outline.StillFit ↔ s.sparesSelected (.hello n msg) := by
  rcases outline_handleHelloMessage hok with ⟨hnone, rfl⟩ | ⟨p, hp, houtline⟩
  · refine iff_of_true h fun selection hselection share hshare heq => ?_
    rcases h selection hselection share hshare with ⟨p, hp, -⟩
    rw [heq] at hp
    cases hnone.symm.trans hp
  · rw [houtline]
    constructor
    · intro h' selection hselection share hshare heq
      rcases h' selection hselection share hshare with ⟨q, hq, hfit⟩
      change Function.update s.outline.profile n _ share.1 = some q at hq
      rw [heq, Function.update_self] at hq
      cases hq
      exact hfit.offers
    · intro hspares selection hselection share hshare
      rcases h selection hselection share hshare with ⟨q, hq, hfit⟩
      by_cases heq : share.1 = n
      · rw [heq] at hq ⊢
        cases hp.symm.trans hq
        exact ⟨_, Function.update_self _ _ _, rfl, hfit.connected,
          hspares selection hselection share hshare heq⟩
      · exact ⟨q, (Function.update_of_ne heq _ _).trans hq, hfit⟩

/-- A section keeps the selected nodes fit exactly when it spares them. -/
theorem stillFit_step_iff {op : Op} (henabled : s.enabled op) (h : s.outline.StillFit)
    (hok : s.step op = .ok s') : s'.outline.StillFit ↔ s.sparesSelected op := by
  have hsame (houtline : s'.outline = s.outline) : s'.outline.StillFit := by rwa [houtline]
  cases op with
  | select args =>
    refine iff_of_true ?_ trivial
    rcases selectNodes_cases hok with rfl | ⟨nodeIds, hnodeIds, -, rfl⟩
    · exact h
    · -- the nodes have just been found fit
      intro selection hselection share hshare
      cases hselection
      have hmem : share.1 ∈ nodeIds := (List.of_mem_zip (List.mem_filter.mp hshare).1).1
      rcases eligible_of_getEligibleNodesForTask hnodeIds hmem with ⟨node, hnode, heligible⟩
      exact ⟨node.profile, profile_of_at? hnode, Node.eligible_iff.mp heligible⟩
  | assign =>
    refine iff_of_true ?_ trivial
    rcases outline_assignShares hok with ⟨-, rfl⟩ | ⟨selection, -, houtline⟩
    · exact h
    · -- nothing is selected any more
      rw [houtline]
      exact nofun
  | cancel g => exact iff_of_true (hsame (outline_commandCancel hok)) trivial
  -- these three may take a selected node away or make it unfit
  | erase n => exact stillFit_eraseNode_iff h hok
  | balance => exact iff_of_true (hsame (outline_balanceTasks hok)) trivial
  | maintain clock => exact stillFit_maintain_iff h hok
  | accept nodeSocket =>
    cases hok
    refine iff_of_true ?_ trivial
    unfold acceptConnection
    split
    · exact h
    · exact h
  | insert =>
    cases hok
    refine iff_of_true (Outline.StillFit.of_profiles h ?_ ?_) trivial
    · unfold insertNode
      split
      · rfl
      · rfl
    · intro n p hp
      rcases Option.map_eq_some_iff.mp hp with ⟨node, hnode, rfl⟩
      exact profile_of_at? (s.node?_insertNode hnode)
  | result msg => exact iff_of_true (hsame (outline_handleResultMessage hok)) trivial
  | hello n msg => exact stillFit_handleHelloMessage_iff h hok
  | notify n msg now =>
    exact iff_of_true (hsame (outline_handleNotifyTaskMessage hok)) trivial
  | write n =>
    cases hok
    exact iff_of_true (hsame (outline_takeMessage n)) trivial
  | rehash nodes groups tasks =>
    cases hok
    refine iff_of_true (h.of_profiles rfl fun n p hp => ?_) trivial
    change ((s.nodes.reorder nodes).at? n).map Node.profile = some p
    rw [KeyedMap.at?_reorder]
    exact hp

/-- The calls of a section that can be taken are those that were looked ahead to. -/
theorem AssignsFit.calls_step {op : Op} (h : s.AssignsFit) (hs : s.WellFormed)
    (hok : s.step op = .ok s') : ∀ call ∈ s'.assignCalls, call.Fits := by
  by_cases hassign : op = .assign
  · subst hassign
    rcases h.commandTask with ⟨t, hok', hfits⟩
    cases hok.symm.trans hok'
    exact hfits
  · by_cases hbalance : op = .balance
    · subst hbalance
      rcases h.balanceTasks with ⟨t, hok', hfits⟩
      cases hok.symm.trans hok'
      exact hfits
    · rw [assignCalls_step hok hassign hbalance]
      exact ((assignsFit_iff hs).mp h).1

end State

/-- In every state of a run the threads would assign tasks to fit nodes only exactly when, while
`command_task` is between its sections, no step strikes a node it has games for. -/
theorem assigns_fit_throughout_iff {config : CoordinatorConfig} {ops : List Op} {s : State}
    (hrun : coordinator.FreeRun (initial config) ops s) :
    coordinator.Throughout State.AssignsFit (initial config) ops s ↔
      coordinator.Run State.sparesSelected (initial config) ops s := by
  have hwellFormed := wellFormed_throughout hrun (wellFormed_initial config)
  have hinitial : (initial config).AssignsFit := by
    rw [State.assignsFit_iff (wellFormed_initial config)]
    exact ⟨nofun, nofun⟩
  apply Machine.throughout_iff (K := State.WellFormed) (J := fun _ => True) _
    (fun _ _ _ _ _ _ _ _ _ => trivial) hwellFormed.1 hwellFormed.2 trivial hinitial
  intro s op s' hs _ hfit henabled hok hs'
  rw [State.assignsFit_iff hs', ← State.stillFit_step_iff henabled
    ((State.assignsFit_iff hs).mp hfit).2 hok]
  exact and_iff_right (hfit.calls_step hs hok)

/-- The node that is removed in between has not said HELLO, so it was not selected. -/
theorem assigns_fit_throughout_unregistered :
    coordinator.Throughout State.AssignsFit (initial soloConfig)
      (joining 1 5 ++ [.accept 6, .insert] ++ (tasking 1).take 1 ++ [.erase 2, .balance, .assign])
      (after soloConfig (joining 1 5 ++ [.accept 6, .insert] ++ (tasking 1).take 1 ++
        [.erase 2, .balance, .assign])) := by
  have hrun := run_after (show (coordinator.exec State.sparesSelected (initial soloConfig)
    (joining 1 5 ++ [.accept 6, .insert] ++ (tasking 1).take 1 ++
      [.erase 2, .balance, .assign])).isSome by decide +kernel)
  exact (assigns_fit_throughout_iff hrun.free).mpr hrun

/-- The node is found silent between the sections, and gets the task although its connection is taken
for broken. -/
theorem assigned_to_broken : ¬ ∀ (config : CoordinatorConfig) (ops : List Op) (s : State),
    coordinator.FreeRun (initial config) ops s → ∀ call ∈ s.assignCalls, call.Fits := by
  intro h
  have hrun := run_after (show (coordinator.exec (fun _ _ => True) (initial soloConfig)
    (joining 1 5 ++ [.maintain fun _ => 1] ++ (tasking 1).take 1 ++
      [.maintain fun _ => 11000000001, .assign])).isSome by decide +kernel)
  have hfits := h _ _ _ hrun
  have hbroken : ∃ call ∈ (after soloConfig (joining 1 5 ++ [.maintain fun _ => 1] ++
      (tasking 1).take 1 ++ [.maintain fun _ => 11000000001, .assign])).assignCalls,
      call.node.profile.flags.connBroken := by decide +kernel
  rcases hbroken with ⟨call, hcall, hbroken⟩
  exact (hfits call hcall).connected hbroken

end Bem
