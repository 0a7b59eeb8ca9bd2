import Bem.Coordinator.Listing
import Bem.Coordinator.Totals
import Bem.Network.Conversation

/-!
# What a node is shown to work on

`command_nodes` shows the group of the last answer of a node.  An answer may be old when it comes, but it
is never made up: what is shown was assigned to the node, and its program has started on it.
-/

namespace Bem

namespace State

variable {s s' : State} {n : NodeId}

/-- What an answer can make of the active group. -/
theorem activeTaskGroup_handleNotifyTaskMessage {msg : TaskNotifyMessage} {now : TimePoint} {node' : Node}
    (h : s.handleNotifyTaskMessage n msg now = .ok s') (hnode' : s'.node? n = some node') :
    (∃ node, s.node? n = some node ∧ node'.activeTaskGroup = node.activeTaskGroup) ∨
    node'.activeTaskGroup = taskIdNone ∨ msg.taskStatus = .tsRunning ∧
      ∃ r, s.tasks.at? msg.taskId = some r ∧ node'.activeTaskGroup = (s.taskHeap.get r).groupId := by
  unfold handleNotifyTaskMessage nodeExists at h
  cases hnode : s.nodes.at? n with
  | none =>
    rw [KeyedMap.index_of_at?_none hnode] at h
    split at h <;> cases h
    cases (show s.node? n = none from hnode).symm.trans hnode'
  | some node =>
    rw [KeyedMap.index_of_at? hnode, if_pos (by simpa using KeyedMap.mem_of_at? hnode)] at h
    dsimp only at h
    split at h
    next =>
      split at h
      next hrunning =>
        right; right
        cases htask : s.tasks.at? msg.taskId with
        | none =>
          rw [KeyedMap.index_of_at?_none htask] at h
          cases h
        | some r =>
          rw [KeyedMap.index_of_at? htask] at h
          cases h
          cases hnode'.symm.trans (KeyedMap.at?_store_self hnode)
          exact ⟨hrunning, r, rfl, rfl⟩
      next =>
        cases h
        cases hnode'.symm.trans (KeyedMap.at?_store_self hnode)
        exact .inr (.inl rfl)
    next =>
      cases h
      exact .inl ⟨node', hnode', rfl⟩

end State

namespace Network

variable {N N' : Network} {n : NodeId} {g : TaskId}

/-- A task of the group was assigned to the node, and its program has taken it up. -/
def Engaged (N : Network) (n : NodeId) (g : TaskId) : Prop :=
  ∃ call ∈ N.coordinator.assignCalls, call.nodeId = n ∧ call.task.groupId = g ∧
    ∃ l ∈ N.link? n, ∃ task ∈ l.session.node.started, task.id = call.task.id

theorem Engaged.step (h : N.Engaged n g) (htraced : N.Traced) {op : NetworkOp} (hstep : Stepped N op N') :
    N'.Engaged n g := by
  obtain ⟨call, hcall, hid, hg, l, hlink, task, htask, hsame⟩ := h
  obtain ⟨-, calls, hcalls⟩ := hstep.dealt htraced.sound htraced.dealt
  refine ⟨call, by rw [hcalls]; exact List.mem_append_left _ hcall, hid, hg, ?_⟩
  obtain ⟨l', hlink'⟩ := Option.isSome_iff_exists.mp (hstep.isSome_link? (n := n) (by rw [hlink]; rfl))
  refine ⟨l', hlink', task, ?_, hsame⟩
  cases hstep.link hlink' with
  | inl hnew =>
    obtain ⟨_, _, hnext, -, -⟩ := hnew
    rw [hnext, htraced.sound.link?_nextNodeId] at hlink
    cases hlink
  | inr hold =>
    obtain ⟨l₁, hlink₁, hlstep⟩ := hold
    cases hlink.symm.trans hlink₁
    cases hlstep with
    | act halive hown henabled hok =>
      exact (NodeProgram.Session.stepped henabled hok hown).started task htask
    | send =>
      have hok : l.session.node.step .write = .ok l.session.node.takeMessage := rfl
      exact NodeProgram.State.started_step hok task htask
    | _ => exact htask

/-- A node that says that a task is running names one that was assigned to it, and that it has taken up. -/
theorem Heard.engaged (h : N.Heard) (hs : N.coordinator.Regular) (hlogged : N.coordinator.Logged)
    {msg : TaskNotifyMessage} (he : (n, .taskNotify msg) ∈ N.inbox.sent)
    (hrunning : msg.taskStatus = .tsRunning) {r : Ref} (hr : N.coordinator.tasks.at? msg.taskId = some r) :
    N.Engaged n (N.coordinator.taskHeap.get r).groupId := by
  obtain ⟨l, m, hlink, hm, heq⟩ := h.exists_said he
  have hsame : m = .taskNotify msg := by cases m <;> cases heq; rfl
  subst hsame
  cases (h.credible n l hlink).answers msg hm hrunning with
  | inl hnone =>
    obtain ⟨hbound, hid⟩ := hs.wellFormed.sound.index _ _ hr
    exact absurd (hid.trans hnone) (hs.id_ne hbound)
  | inr hstarted =>
    obtain ⟨task, htask, hid⟩ := hstarted
    obtain ⟨assigned, hassigned, rfl⟩ := h.exists_call hlink htask
    obtain ⟨call, hcall, rfl⟩ := List.mem_map.mp hassigned
    obtain ⟨hcall, hnode⟩ := List.mem_filter.mp hcall
    obtain ⟨q, hq, horder⟩ := hlogged call hcall
    have hindex := (hs.task?_id hq).1
    rw [Task.congr_order Task.id (fun _ => rfl) horder,
      show call.task.id = msg.taskId from hid, hr] at hindex
    obtain rfl : r = q := Option.some.inj hindex
    exact ⟨call, hcall, of_decide_eq_true hnode,
      (Task.congr_order Task.groupId (fun _ => rfl) horder).symm, l, hlink, _, htask, rfl⟩

/-- What is shown of the nodes. -/
structure Shown (N : Network) : Prop where
  heard : N.Heard
  logged : N.coordinator.Logged
  active : ∀ n node, N.coordinator.node? n = some node →
    node.activeTaskGroup = taskIdNone ∨ N.Engaged n node.activeTaskGroup

theorem shown_initial (config : CoordinatorConfig) : Shown { coordinator := initial config } where
  heard := heard_initial config
  logged _ hcall := absurd hcall List.not_mem_nil
  active _ _ h := by cases h

theorem Shown.step (h : N.Shown) {op : NetworkOp} (hs : N.coordinator.Regular) (hstep : Stepped N op N') :
    N'.Shown := by
  have hheard := h.heard.step hstep
  have hsound := h.heard.traced.sound
  have hengaged {n : NodeId} {node : Node} (hnode : N.coordinator.node? n = some node) :
      node.activeTaskGroup = taskIdNone ∨ N'.Engaged n node.activeTaskGroup :=
    (h.active n node hnode).imp_right fun hold => hold.step h.heard.traced hstep
  cases hstep.coordinator with
  | inl hsame =>
    refine ⟨hheard, ?_, fun n node hnode => hengaged (by rw [← hsame.1]; exact hnode)⟩
    rw [hsame.1]
    exact h.logged
  | inr hsection =>
    obtain ⟨op', hok, hinbox⟩ := hsection
    refine ⟨hheard, State.logged_step hsound.wellFormed h.logged hok, fun n node' hnode' => ?_⟩
    by_cases hnotify : ∃ msg now, op' = .notify n msg now
    · -- the answer that is handled has come from the node
      obtain ⟨msg, now, rfl⟩ := hnotify
      have he : (n, Message.taskNotify msg) ∈ N.inbox.sent := by
        cases hinbox with
        | inl hother => exact absurd rfl (hother.2.1 n msg now)
        | inr hhandled =>
          obtain ⟨_, e, rest, hnext, hsection, -⟩ := hhandled
          rw [N.inbox.sent_eq, hnext]
          obtain ⟨m, message⟩ := e
          cases message <;> cases hsection
          exact List.mem_append_right _ List.mem_cons_self
      cases State.activeTaskGroup_handleNotifyTaskMessage hok hnode' with
      | inl hkept =>
        obtain ⟨node, hnode, hsame⟩ := hkept
        rw [hsame]
        exact hengaged hnode
      | inr hset =>
        refine hset.imp_right fun hgroup => ?_
        obtain ⟨hrunning, r, hr, hgroup⟩ := hgroup
        rw [hgroup]
        exact (h.heard.engaged hs h.logged he hrunning hr).step h.heard.traced hstep
    · by_cases hinsert : op' = .insert
      · subst hinsert
        rw [← show N.coordinator.insertNode = N'.coordinator from Except.ok.inj hok] at hnode'
        cases haccepting : N.coordinator.accepting with
        | none =>
          refine hengaged ?_
          rw [← hnode']
          unfold State.insertNode
          rw [haccepting]
        | some socket =>
          have hentered := congrFun (State.trait_insertNode (f := Node.activeTaskGroup) haccepting
            hsound.node?_nextNodeId hsound.wellFormed) n
          rw [State.trait_of_node? hnode'] at hentered
          by_cases hid : n = N.coordinator.nextNodeId
          · rw [hid, Function.update_self] at hentered
            exact .inl (Option.some.inj hentered)
          · rw [Function.update_of_ne hid] at hentered
            obtain ⟨node, hnode, hsame⟩ := Option.map_eq_some_iff.mp hentered.symm
            rw [← hsame]
            exact hengaged hnode
      · obtain ⟨node, hnode, hsame⟩ := State.kept_step (f := Node.activeTaskGroup)
          (fun _ _ _ _ _ => rfl) (fun _ _ _ => rfl)
          (fun msg now heq => absurd ⟨msg, now, heq⟩ hnotify) (fun _ node => by
            unfold Node.takeMessage
            split <;> rfl) hsound.wellFormed hok hinsert hnode'
        rw [hsame]
        exact hengaged hnode

/-- Neither of the two lists makes an assert fail, each has a line for all that there is, and a line that
shows a node at work names a group in the other list, of which a task was assigned to the node and taken up
by its program. -/
theorem nodes_shown {config : CoordinatorConfig} {ops : List NetworkOp}
    (hrun : network.FreeRun { coordinator := initial config } ops N)
    (hfew : N.coordinator.subTasks < 2 ^ 32) : ∃ nodeLines groupLines,
      N.coordinator.commandNodes = .ok nodeLines ∧ N.coordinator.commandTasks = .ok groupLines ∧
      nodeLines.map NodeLine.nodeId = N.coordinator.nodes.pointees.map Prod.fst ∧
      groupLines.map Prod.fst = N.coordinator.groups.pointees.map Prod.fst ∧
      ∀ line ∈ nodeLines, ∀ g ∈ line.running,
        g ∈ groupLines.map Prod.fst ∧ N.Engaged line.nodeId g := by
  obtain ⟨hregular, hlast⟩ := regular_along hrun (sound_initial config) (regular_initial config) hfew
  have hshown := hregular.invariant (I := Shown)
    (fun _ _ _ h henabled hP hok => h.step hP.1 (stepped henabled hok)) (shown_initial config)
  have hs := hlast.wellFormed
  refine ⟨_, _, State.commandNodes_eq hs, State.commandTasks_eq hs, ?_, ?_, fun line hline g hg => ?_⟩
  · rw [List.map_map]
    rfl
  · rw [List.map_map]
    rfl
  · obtain ⟨e, he, rfl⟩ := List.mem_map.mp hline
    obtain ⟨rfl, hne⟩ := State.running_line.mp hg
    have hengaged := (hshown.active e.1 e.2 (KeyedMap.mem_pointees.mp he)).resolve_left hne
    refine ⟨?_, hengaged⟩
    -- the group of an assigned task is in the table
    obtain ⟨call, hcall, -, hgroup, -⟩ := hengaged
    obtain ⟨r, hr, horder⟩ := hshown.logged call hcall
    have hknown := hs.sound.group r hr
    rw [← hgroup, ← Task.congr_order Task.groupId (fun _ => rfl) horder, List.map_map]
    obtain ⟨G, hG⟩ := Option.ne_none_iff_exists'.mp hknown
    exact List.mem_map.mpr ⟨(_, G), KeyedMap.mem_pointees.mpr hG, rfl⟩

end Network

end Bem
