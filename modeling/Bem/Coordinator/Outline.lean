import Bem.Coordinator.Refinement

/-!
# What the sections leave alone

`State.outline` is what only a few sections change: the counters, what the main thread and the
acceptor are in the middle of, which groups exist, and what is known of the nodes apart from their
work.
-/

namespace Bem

structure Outline where
  config : CoordinatorConfig
  nextGroupId : TaskId
  nextNodeId : NodeId
  selection : Option Selection
  accepting : Option Int
  hasGroup : TaskId → Bool
  profile : NodeId → Option Node.Profile

namespace State

def outline (s : State) : Outline where
  config := s.config
  nextGroupId := s.nextGroupId
  nextNodeId := s.nextNodeId
  selection := s.selection
  accepting := s.accepting
  hasGroup g := (s.groups.at? g).isSome
  profile n := (s.nodes.at? n).map Node.profile

variable {s s' : State}

theorem profile_of_at? {n : NodeId} {node : Node} (h : s.nodes.at? n = some node) :
    s.outline.profile n = some node.profile :=
  congrArg (Option.map Node.profile) h

theorem profile_of_notMem {n : NodeId} (h : n ∉ s.nodes) : s.outline.profile n = none :=
  congrArg (Option.map Node.profile) (KeyedMap.at?_eq_none_of_notMem h)

/-! ## Single steps of the loops -/

theorem outline_balanceTask {r : Ref} (h : s.balanceTask r = .ok s') : s'.outline = s.outline := by
  rcases balanceTask_cases h with rfl | ⟨n, node, hnode, -, -, rfl⟩
  · rfl
  · unfold outline
    rw [KeyedMap.map_at?_store_same hnode (Node.profile_assignTask _ _ _)]

theorem outline_assignShare {task : Task} {share : NodeId × UInt32}
    (h : assignShare task s share = .ok s') : s'.outline = s.outline := by
  rcases assignShare_cases h with ⟨-, rfl⟩ | ⟨-, node, tt, heap, hnode, -, -, rfl⟩
  · rfl
  · unfold outline
    rw [KeyedMap.map_at?_store_same hnode (Node.profile_assignTask _ _ _)]

theorem outline_cancelTask {g : TaskId} {e : TaskId × Ref} (h : cancelTask g s e = .ok s') :
    s'.outline = s.outline := by
  rcases cancelTask_cases h with ⟨-, rfl⟩ | ⟨-, -, rfl⟩
  · rfl
  · unfold outline
    congr 1
    funext n
    rw [KeyedMap.at?_mapPointees, Option.map_map]
    congr 1
    funext node
    exact Node.profile_unassignTask _ _ _

/-- A loop leaves alone what its body does. -/
theorem outline_foldlM {α : Type} {f : State → α → Except Fault State} {l : List α}
    (hbody : ∀ t a t', f t a = .ok t' → t'.outline = t.outline) (h : l.foldlM f s = .ok s') :
    s'.outline = s.outline := by
  apply Except.foldlM_rest (I := fun _ t => t.outline = s.outline) _ rfl h
  intro a l t t' ht hstep
  rw [hbody t a t' hstep, ht]

/-! ## Sections -/

/-- What `result` and `cancel` do to the map of groups. -/
theorem isSome_at?_store {groups : KeyedMap TaskId (Option TaskGroup)} {g : TaskId}
    {G G' : TaskGroup} (h : groups.at? g = some G) :
    (fun g' => ((groups.store g G').at? g').isSome) = fun g' => (groups.at? g').isSome := by
  funext g'
  rw [KeyedMap.at?_store_of_at? h, Function.update_apply]
  split
  next heq =>
    rw [heq, h]
    rfl
  next => rfl

theorem outline_eraseNode {n : NodeId} (h : s.eraseNode n = .ok s') :
    s'.outline = { s.outline with profile := Function.update s.outline.profile n none } := by
  rcases eraseNode_cases h with ⟨hnot, rfl⟩ | ⟨node, -, rfl⟩
  · rw [Function.update_eq_self_iff.mpr (profile_of_notMem hnot).symm]
  · unfold outline
    congr 1
    funext m
    by_cases hm : m = n
    · rw [hm, KeyedMap.at?_erase_self, Function.update_self]
      rfl
    · rw [KeyedMap.at?_erase_ne hm, Function.update_of_ne hm]

theorem outline_handleHelloMessage {n : NodeId} {msg : HelloMessage}
    (h : s.handleHelloMessage n msg = .ok s') :
    (s.outline.profile n = none ∧ s' = s) ∨ ∃ p, s.outline.profile n = some p ∧
      s'.outline = { s.outline with
        profile := Function.update s.outline.profile n (some { p with
          gamelist := msg.gamelist, flags := { p.flags with registered := true } }) } := by
  rcases handleHelloMessage_cases h with ⟨hnot, rfl⟩ | ⟨node, hnode, rfl⟩
  · exact Or.inl ⟨profile_of_notMem hnot, rfl⟩
  · refine Or.inr ⟨node.profile, profile_of_at? hnode, ?_⟩
    unfold outline
    congr 1
    exact KeyedMap.map_at?_store hnode

theorem outline_balanceTasks (h : s.balanceTasks = .ok s') : s'.outline = s.outline := by
  rcases balanceTasks_eq_ok h with ⟨s₁, hloop, rfl⟩
  have houtline : s₁.outline = s.outline := outline_foldlM (fun _ _ _ => outline_balanceTask) hloop
  exact houtline

theorem outline_commandCancel {g : TaskId} (h : s.commandCancel g = .ok s') :
    s'.outline = s.outline := by
  rcases commandCancel_cases h with ⟨-, rfl⟩ | ⟨G, hG, -, hloop⟩
  · rfl
  · rw [outline_foldlM (fun _ _ _ => outline_cancelTask) hloop]
    unfold outline
    rw [isSome_at?_store hG]

theorem outline_handleResultMessage {msg : ResultMessage} (h : s.handleResultMessage msg = .ok s') :
    s'.outline = s.outline := by
  rcases handleResultMessage_cases h with
    ⟨r, -, ⟨-, rfl⟩ | ⟨G, hG, -, ⟨-, rfl⟩ | ⟨-, rfl⟩⟩⟩
  · rfl
  · rfl
  · unfold outline
    rw [isSome_at?_store hG]

theorem outline_handleNotifyTaskMessage {n : NodeId} {msg : TaskNotifyMessage} {now : TimePoint}
    (h : s.handleNotifyTaskMessage n msg now = .ok s') : s'.outline = s.outline := by
  rcases handleNotifyTaskMessage_cases h with rfl | ⟨node, g, hnode, rfl⟩
  · rfl
  · unfold outline
    congr 1
    exact KeyedMap.map_at?_store_same hnode rfl

theorem outline_takeMessage (n : NodeId) : (s.takeMessage n).outline = s.outline := by
  unfold outline takeMessage
  congr 1
  funext m
  by_cases hm : m = n
  · rw [hm, KeyedMap.at?_modify_self, Option.map_map]
    congr 1
    funext node
    exact Node.profile_takeMessage node
  · rw [KeyedMap.at?_modify_ne hm]

theorem outline_assignShares (h : s.assignShares = .ok s') :
    (s.selection = none ∧ s' = s) ∨ ∃ selection, s.selection = some selection ∧
      s'.outline = (s.openGroup selection.nodeIds.length).outline := by
  rcases assignShares_cases h with hnone | ⟨selection, hselection, hloop⟩
  · exact Or.inl hnone
  · exact Or.inr ⟨selection, hselection, outline_foldlM (fun _ _ _ => outline_assignShare) hloop⟩

/-- The flag after a tick. -/
def brokenAfter (s : State) (clock : NodeId → TimePoint) (e : NodeId × Node) : Prop :=
  e.2.awaitingResponse ∧ (s.isSilent clock e ∨ e.2.flags.connBroken)

theorem profile_maintainNode (clock : NodeId → TimePoint) {n : NodeId} {node : Node}
    (hnode : s.nodes.at? n = some node) :
    ∃ broken, (broken = true ↔ s.brokenAfter clock (n, node)) ∧
      (maintainNode clock s (n, node)).outline = { s.outline with
        profile := Function.update s.outline.profile n
          (some { node.profile with flags := { node.flags with connBroken := broken } }) } := by
  rcases maintainNode_cases s clock (n, node) with
    ⟨hawait, b, heq⟩ | ⟨hsilent, node', marked, b, hnode', -, heq⟩ | ⟨hawait, hsilent, heq⟩
  -- the node is pinged, given up, or left alone
  · refine ⟨false, ⟨nofun, fun h => (hawait h.1).elim⟩, ?_⟩
    rw [heq]
    unfold outline
    congr 1
    exact KeyedMap.map_at?_store hnode
  · refine ⟨true, ⟨fun _ => ⟨hsilent.1, Or.inl hsilent⟩, fun _ => rfl⟩, ?_⟩
    rw [heq]
    unfold outline
    congr 1
    rw [KeyedMap.map_at?_store hnode, Node.profile_foldl_unassignTask, hnode']
    rfl
  · refine ⟨node.flags.connBroken, ⟨fun h => ⟨hawait, Or.inr h⟩, fun h => ?_⟩, ?_⟩
    · exact h.2.resolve_left hsilent
    · rw [heq]
      unfold outline
      congr 1
      symm
      apply Function.update_eq_self_iff.mpr
      change _ = (s.nodes.at? n).map Node.profile
      rw [hnode]
      rfl

/-- A tick changes the `connBroken` flags only. -/
theorem outline_maintain {clock : NodeId → TimePoint} (h : s.maintain clock = .ok s') :
    ∃ profile, s'.outline = { s.outline with profile } ∧
      (∀ n, s.nodes.at? n = none → profile n = none) ∧
      ∀ n node, s.nodes.at? n = some node → ∃ broken,
        (broken = true ↔ s.brokenAfter clock (n, node)) ∧ profile n =
          some { node.profile with flags := { node.flags with connBroken := broken } } := by
  -- the nodes still to come have not changed since the start
  have hloop : ∀ (l : List (NodeId × Node)) (t : State), (l.map Prod.fst).Nodup →
      (∀ e ∈ l, t.nodes.at? e.1 = some e.2) → t.config = s.config →
      ∃ profile, (l.foldl (maintainNode clock) t).outline = { t.outline with profile } ∧
        (∀ n ∉ l.map Prod.fst, profile n = t.outline.profile n) ∧
        ∀ e ∈ l, ∃ broken, (broken = true ↔ s.brokenAfter clock e) ∧ profile e.1 =
          some { e.2.profile with flags := { e.2.flags with connBroken := broken } } := by
    intro l
    induction l with
    | nil => exact fun t _ _ _ => ⟨t.outline.profile, rfl, fun _ _ => rfl, nofun⟩
    | cons e l ih =>
      intro t hnodup hat hconfig
      rw [List.map_cons, List.nodup_cons] at hnodup
      rcases profile_maintainNode clock (hat e List.mem_cons_self) with ⟨broken, hbroken, houtline⟩
      have hat' : ∀ e' ∈ l, (maintainNode clock t e).nodes.at? e'.1 = some e'.2 := by
        intro e' he'
        have hne : e'.1 ≠ e.1 := fun heq => hnodup.1 (heq ▸ List.mem_map_of_mem he')
        rw [nodes_maintainNode_ne hne]
        exact hat e' (List.mem_cons_of_mem e he')
      rcases ih (maintainNode clock t e) hnodup.2 hat'
        ((config_maintainNode clock e).trans hconfig) with ⟨profile, hrest, hkept, hdone⟩
      have hfirst : (maintainNode clock t e).outline.profile = Function.update t.outline.profile e.1
          (some { e.2.profile with flags := { e.2.flags with connBroken := broken } }) :=
        congrArg Outline.profile houtline
      refine ⟨profile, ?_, ?_, ?_⟩
      · rw [List.foldl_cons, hrest, houtline]
      · intro n hn
        rw [List.map_cons, List.mem_cons, not_or] at hn
        rw [hkept n hn.2, hfirst, Function.update_of_ne hn.1]
      · intro e' he'
        rcases List.mem_cons.mp he' with rfl | he'
        · refine ⟨broken, ?_, ?_⟩
          · rw [hbroken]
            unfold brokenAfter isSilent
            rw [hconfig]
          · rw [hkept e'.1 hnodup.1, hfirst, Function.update_self]
        · exact hdone e' he'
  rw [maintain_eq_ok h]
  rcases hloop _ s s.nodes.nodup_pointees (fun e he => KeyedMap.mem_pointees.mp he) rfl with
    ⟨profile, houtline, hkept, hdone⟩
  refine ⟨profile, houtline, fun n hn => ?_, fun n node hnode => ?_⟩
  · have hnot : n ∉ s.nodes.pointees.map Prod.fst := by
      intro hmem
      rcases List.mem_map.mp hmem with ⟨e, he, rfl⟩
      cases hn.symm.trans (KeyedMap.mem_pointees.mp he)
    rw [hkept n hnot]
    exact congrArg (Option.map Node.profile) hn
  · exact hdone (n, node) (KeyedMap.mem_pointees.mpr hnode)

end State

end Bem
