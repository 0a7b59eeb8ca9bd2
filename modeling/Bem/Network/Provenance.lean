import Bem.Coordinator.Dealing
import Bem.Network.Custody

/-!
# Where results come from

A result that the coordinator takes off a connection is the count of all games of a sub-task that it has
assigned to that very node.
-/

namespace Bem

theorem tasksIn_delivered (messages : List Message) :
    tasksIn (messages.map Message.delivered) = (tasksIn messages).map Task.received := by
  unfold tasksIn
  rw [List.filterMap_map, List.map_filterMap]
  congr 1
  funext m
  cases m <;> rfl

theorem resultsIn_delivered (messages : List Message) :
    resultsIn (messages.map Message.delivered) = resultsIn messages := by
  unfold resultsIn
  rw [List.filterMap_map]
  congr 1
  funext m
  cases m <;> rfl

/-- Only some of the reports are looked at. -/
theorem sublistForall₂_of_isPrefix {α β : Type*} {R : α → β → Prop} {l₁ l₁' : List α} {l₂ : List β}
    (hstart : l₁ <+: l₁') (h : List.SublistForall₂ R l₁' l₂) : List.SublistForall₂ R l₁ l₂ := by
  rw [List.sublistForall₂_iff] at h ⊢
  obtain ⟨l, hmatch, hsub⟩ := h
  obtain ⟨rest, rfl⟩ := hstart
  refine ⟨l.take l₁.length, ?_, (List.take_sublist _ _).trans hsub⟩
  have htake := List.forall₂_take l₁.length hmatch
  rwa [List.take_left] at htake

/-- Group and status of a task do not matter to a report. -/
theorem NodeProgram.reports_received {msg : ResultMessage} {task : Task}
    (h : Reports msg task.received) : Reports msg task :=
  ⟨h.taskId, h.games, h.consistent⟩

namespace Network

variable {N N' : Network} {n : NodeId}

/-- What has come from a node and what was sent to it, as the coordinator knows it. -/
structure Traced (N : Network) : Prop where
  sound : N.Sound
  dealt : N.coordinator.Dealt
  sent : ∀ n l, N.link? n = some l →
    (tasksIn l.down.sent).Sublist ((N.coordinator.calls n).map Task.received)

theorem traced_initial (config : CoordinatorConfig) : Traced { coordinator := initial config } where
  sound := sound_initial config
  dealt := State.dealt_initial config
  sent n l hlink := by cases hlink

/-- What holds of a live node after a section that may have sent something to it. -/
theorem Sound.sent_of_live (h : N.Sound) (hdealt : N.coordinator.Dealt) {l : Link} {node : Node}
    (hlink : N.link? n = some l) (hnode : N.coordinator.node? n = some node) :
    (tasksIn l.down.sent).Sublist ((N.coordinator.calls n).map Task.received) := by
  rw [(h.custody n l hlink).written node hnode, tasksIn_delivered]
  have hhistory : (tasksIn node.written).Sublist (tasksIn node.history) := by
    unfold Node.history
    rw [tasksIn_append]
    exact List.sublist_append_left _ _
  exact (hhistory.trans (hdealt.sent n node hnode)).map Task.received

/-- Where nothing was written nothing more was sent. -/
theorem Stepped.down {op : NetworkOp} {l' : Link} (h : Stepped N op N') (hlink' : N'.link? n = some l') :
    l'.down.sent = [] ∨ (∃ l, N.link? n = some l ∧ l'.down.sent = l.down.sent) ∨
      op = .write n ∧ ∃ node, N'.coordinator.node? n = some node := by
  cases h.link hlink' with
  | inl hnew =>
    obtain ⟨_, _, -, -, rfl⟩ := hnew
    exact .inl rfl
  | inr hold =>
    obtain ⟨l, hlink, hstep⟩ := hold
    cases hstep with
    | write msg hop =>
      subst hop
      cases h with
      | @write n node msg messageQueue hnode hqueue =>
        refine .inr (.inr ⟨rfl, node.takeMessage, ?_⟩)
        show (N.coordinator.nodes.modify n Node.takeMessage).at? n = _
        rw [KeyedMap.at?_modify_self, show N.coordinator.nodes.at? n = some node from hnode]
        rfl
    | _ => exact .inr (.inl ⟨_, hlink, rfl⟩)

/-- The sections of a step only add to the calls, and send only what was assigned. -/
theorem Stepped.dealt {op : NetworkOp} (h : Stepped N op N') (hs : N.Sound)
    (hdealt : N.coordinator.Dealt) : N'.coordinator.Dealt ∧
      ∃ calls, N'.coordinator.assignCalls = N.coordinator.assignCalls ++ calls := by
  have hall := h.sections.invariant (I := fun s => s.WellFormed ∧ s.Dealt ∧
      ∃ calls, s.assignCalls = N.coordinator.assignCalls ++ calls)
    (fun s op s' hI _ _ hok => by
      obtain ⟨calls, hcalls⟩ := hI.2.2
      obtain ⟨more, hmore⟩ := State.prefix_calls hok
      exact ⟨(State.follows_step hI.1 hok).wellFormed, State.dealt_step hI.1 hI.2.1 hok,
        calls ++ more, by rw [hmore, hcalls, List.append_assoc]⟩)
    ⟨hs.wellFormed, hdealt, [], (List.append_nil _).symm⟩
  exact hall.2

theorem Traced.step (h : N.Traced) {op : NetworkOp} (hstep : Stepped N op N') : N'.Traced := by
  have hsound := h.sound.step hstep
  obtain ⟨hdealt, calls, hcalls⟩ := hstep.dealt h.sound h.dealt
  refine ⟨hsound, hdealt, fun n l' hlink' => ?_⟩
  cases hstep.down hlink' with
  | inl hnone =>
    rw [hnone]
    exact List.nil_sublist _
  | inr hrest =>
    cases hrest with
    | inl hsame =>
      obtain ⟨l, hlink, hsent⟩ := hsame
      rw [hsent, State.calls_append hcalls, List.map_append]
      exact (h.sent n l hlink).trans (List.sublist_append_left _ _)
    | inr hwritten =>
      obtain ⟨-, node, hnode⟩ := hwritten
      exact hsound.sent_of_live hdealt hlink' hnode

/-- What comes from a node is what its program has said. -/
theorem Sound.prefix_takenFrom (h : N.Sound) {l : Link} (hlink : N.link? n = some l) :
    N.takenFrom n <+: (l.session.node.written.map Message.delivered) := by
  have hcustody := h.custody n l hlink
  rw [hcustody.taken, ← hcustody.said]
  exact l.up.inOrder

theorem Traced.results (h : N.Traced) (n : NodeId) :
    List.SublistForall₂ NodeProgram.Reports (resultsIn (N.takenFrom n)) (N.coordinator.calls n) := by
  cases hlink : N.link? n with
  | none =>
    have hnone : N.takenFrom n = [] := by
      unfold takenFrom
      rw [List.map_eq_nil_iff, List.filter_eq_nil_iff]
      intro e he heq
      have hlinked := h.sound.inbox e he
      rw [of_decide_eq_true heq, hlink] at hlinked
      cases hlinked
    rw [hnone]
    exact .nil
  | some l =>
    have hcustody := h.sound.custody n l hlink
    -- the results taken off are the first ones that the program has reported
    have hstart : resultsIn (N.takenFrom n) <+: resultsIn l.session.node.history := by
      have hwritten := resultsIn_of_isPrefix (h.sound.prefix_takenFrom hlink)
      rw [resultsIn_delivered] at hwritten
      have hhistory : resultsIn l.session.node.written <+: resultsIn l.session.node.history := by
        unfold NodeProgram.State.history
        rw [resultsIn_append]
        exact List.prefix_append _ _
      exact hwritten.trans hhistory
    have hreports := sublistForall₂_of_isPrefix hstart hcustody.took.reports
    -- the tasks that have come are the first ones that were sent
    have hgiven : (tasksIn l.down.received).Sublist ((N.coordinator.calls n).map Task.received) :=
      ((l.down.inOrder.filterMap _).sublist).trans (h.sent n l hlink)
    rw [List.sublistForall₂_iff] at hreports ⊢
    obtain ⟨tasks, hmatch, hsub⟩ := hreports
    obtain ⟨calls, hcalls, rfl⟩ := List.sublist_map_iff.mp (hsub.trans hgiven)
    refine ⟨calls, ?_, hcalls⟩
    rw [List.forall₂_map_right_iff] at hmatch
    exact hmatch.imp fun _ _ => NodeProgram.reports_received

/-- A result that has come names a sub-task of the table. -/
theorem Traced.known (h : N.Traced) {msg : ResultMessage} (hmsg : msg ∈ resultsIn (N.takenFrom n)) :
    (N.coordinator.tasks.at? msg.taskId).isSome := by
  obtain ⟨task, htask, hreports⟩ := NodeProgram.exists_of_sublistForall₂ (h.results n) hmsg
  obtain ⟨call, hcall, rfl⟩ := List.mem_map.mp htask
  rw [hreports.taskId]
  exact h.dealt.known call (List.mem_filter.mp hcall).1

end Network

end Bem
