import Bem.Coordinator.Outline
import Mathlib.Algebra.BigOperators.Group.List.Basic
import Mathlib.Data.List.Perm.Subperm
import Mathlib.Tactic.Linarith
import Mathlib.Tactic.Ring

/-!
# How many nodes and groups there are

Live nodes have different sockets, so there are at most `2 ^ 31`, and group ids are handed out in
order.
-/

namespace Bem

/-- There are `2 ^ 31` sockets. -/
theorem length_le_of_sockets {l : List Int} (hnodup : l.Nodup)
    (hrange : ∀ i ∈ l, 0 ≤ i ∧ i < 2 ^ 31) : l.length ≤ 2 ^ 31 := by
  have hsub : l ⊆ (List.range (2 ^ 31)).map Nat.cast := by
    intro i hi
    have hbounds := hrange i hi
    exact List.mem_map.mpr ⟨i.toNat, List.mem_range.mpr (by omega), by omega⟩
  have hle := (List.subperm_of_subset hnodup hsub).length_le
  rwa [List.length_map, List.length_range] at hle

/-! ## Nodes -/

/-- Nodes have valid sockets of their own, and so has a connection that is being accepted; a
selection has nodes, but not more than there can be. -/
structure Outline.Populated (F : Outline) : Prop where
  socket : ∀ n p, F.profile n = some p → 0 ≤ p.socket ∧ p.socket < 2 ^ 31
  apart : ∀ n m p q, F.profile n = some p → F.profile m = some q → p.socket = q.socket → n = m
  accepting : ∀ nodeSocket, F.accepting = some nodeSocket → 0 ≤ nodeSocket ∧
    nodeSocket < 2 ^ 31 ∧ ∀ n p, F.profile n = some p → p.socket ≠ nodeSocket
  selection : ∀ selection, F.selection = some selection →
    selection.nodeIds ≠ [] ∧ selection.nodeIds.length ≤ 2 ^ 31

namespace State

variable {s s' : State}

theorem length_pointees_le (h : s.outline.Populated) : s.nodes.pointees.length ≤ 2 ^ 31 := by
  have hat (e : NodeId × Node) (he : e ∈ s.nodes.pointees) :
      s.outline.profile e.1 = some e.2.profile := profile_of_at? (KeyedMap.mem_pointees.mp he)
  rw [← List.length_map fun e : NodeId × Node => e.2.socket]
  apply length_le_of_sockets
  · apply List.Nodup.map_on _ (List.Nodup.of_map _ s.nodes.nodup_pointees)
    intro e he e' he' hsocket
    have hkey := h.apart _ _ _ _ (hat e he) (hat e' he') hsocket
    exact List.inj_on_of_nodup_map s.nodes.nodup_pointees he he' hkey
  · intro i hi
    rcases List.mem_map.mp hi with ⟨e, he, rfl⟩
    exact h.socket _ _ (hat e he)

end State

/-- Other sockets than these are the same. -/
theorem Outline.Populated.of_sockets {F F' : Outline} (h : F.Populated)
    (hprofile : ∀ n p, F'.profile n = some p → ∃ q, F.profile n = some q ∧ q.socket = p.socket)
    (haccepting : F'.accepting = F.accepting) (hselection : F'.selection = F.selection) :
    F'.Populated where
  socket n p hp := by
    rcases hprofile n p hp with ⟨q, hq, hsocket⟩
    rw [← hsocket]
    exact h.socket n q hq
  apart n m p p' hp hp' heq := by
    rcases hprofile n p hp with ⟨q, hq, hsocket⟩
    rcases hprofile m p' hp' with ⟨q', hq', hsocket'⟩
    exact h.apart n m q q' hq hq' (by rw [hsocket, hsocket', heq])
  accepting nodeSocket hnodeSocket := by
    rw [haccepting] at hnodeSocket
    rcases h.accepting nodeSocket hnodeSocket with ⟨hlo, hhi, hfresh⟩
    refine ⟨hlo, hhi, fun n p hp => ?_⟩
    rcases hprofile n p hp with ⟨q, hq, hsocket⟩
    rw [← hsocket]
    exact hfresh n q hq
  selection selection hsel := by
    rw [hselection] at hsel
    exact h.selection selection hsel

/-- The socket of a new node is the one that was accepted. -/
theorem populated_insertNode {s : State} (h : s.outline.Populated) :
    s.insertNode.outline.Populated := by
  unfold State.insertNode
  split
  · exact h
  next nodeSocket haccepting =>
    have hfresh := h.accepting nodeSocket haccepting
    -- a profile of the new state is an old one or the new node's
    have hcases : ∀ n p, ((s.nodes.emplace s.nextNodeId
        (some { socket := nodeSocket, id := s.nextNodeId })).at? n).map Node.profile = some p →
        (n = s.nextNodeId ∧ p.socket = nodeSocket) ∨ s.outline.profile n = some p := by
      intro n p hp
      rw [KeyedMap.at?_emplace] at hp
      split at hp
      next heq =>
        cases hp
        exact Or.inl ⟨heq.1, rfl⟩
      next => exact Or.inr hp
    refine ⟨fun n p hp => ?_, fun n m p q hp hq heq => ?_, fun _ hnone => ?_, h.selection⟩
    · rcases hcases n p hp with ⟨-, hsocket⟩ | hp
      · rw [hsocket]
        exact ⟨hfresh.1, hfresh.2.1⟩
      · exact h.socket n p hp
    · rcases hcases n p hp with ⟨hn, hsocket⟩ | hp
      · rcases hcases m q hq with ⟨hm, -⟩ | hq
        · rw [hn, hm]
        · exact absurd (heq.symm.trans hsocket) (hfresh.2.2 m q hq)
      · rcases hcases m q hq with ⟨-, hsocket⟩ | hq
        · exact absurd (heq.trans hsocket) (hfresh.2.2 n p hp)
        · exact h.apart n m p q hp hq heq
    · cases hnone

theorem populated_step {s s' : State} {op : Op} (h : s.outline.Populated) (henabled : s.enabled op)
    (hok : s.step op = .ok s') : s'.outline.Populated := by
  cases op with
  | select args =>
    rcases State.selectNodes_cases hok with rfl | ⟨nodeIds, hnodeIds, hne, rfl⟩
    · exact h
    · refine { h with selection := fun selection hselection => ?_ }
      cases hselection
      refine ⟨hne, ?_⟩
      -- the selected nodes are some of those that are there
      rw [State.getEligibleNodesForTask_eq_ok hnodeIds, List.length_map]
      exact (List.length_filter_le _ _).trans (State.length_pointees_le h)
  | assign =>
    rcases State.outline_assignShares hok with ⟨-, rfl⟩ | ⟨selection, -, houtline⟩
    · exact h
    · rw [houtline]
      exact { h with selection := fun _ hnone => by cases hnone }
  | cancel g => rwa [State.outline_commandCancel hok]
  | erase n =>
    rcases State.eraseNode_cases hok with ⟨-, rfl⟩ | ⟨node, -, rfl⟩
    · exact h
    · refine h.of_sockets (fun m p hp => ⟨p, ?_, rfl⟩) rfl rfl
      rcases Option.map_eq_some_iff.mp hp with ⟨node, hnode, rfl⟩
      exact State.profile_of_at? (KeyedMap.at?_erase_some hnode).2
  | balance => rwa [State.outline_balanceTasks hok]
  | maintain clock =>
    rcases State.outline_maintain hok with ⟨profile, houtline, hnone, hsome⟩
    rw [houtline]
    refine h.of_sockets (fun n p hp => ?_) rfl rfl
    cases hnode : s.nodes.at? n with
    | none => cases (hnone n hnode).symm.trans hp
    | some node =>
      rcases hsome n node hnode with ⟨broken, -, heq⟩
      cases heq.symm.trans hp
      exact ⟨node.profile, State.profile_of_at? hnode, rfl⟩
  | accept nodeSocket =>
    cases hok
    unfold State.acceptConnection
    split
    · exact h
    · -- `accept` returns a descriptor that no node has open
      refine { h with accepting := fun other hother => ?_ }
      cases hother
      refine ⟨henabled.2.1, henabled.2.2.1, fun n p hp => ?_⟩
      rcases Option.map_eq_some_iff.mp hp with ⟨node, hnode, rfl⟩
      exact henabled.2.2.2 (n, node) (KeyedMap.mem_pointees.mpr hnode)
  | insert =>
    cases hok
    exact populated_insertNode h
  | result msg => rwa [State.outline_handleResultMessage hok]
  | hello n msg =>
    rcases State.handleHelloMessage_cases hok with ⟨-, rfl⟩ | ⟨node, hnode, rfl⟩
    · exact h
    · -- the node that registers keeps its socket
      refine h.of_sockets (fun m p hp => ?_) rfl rfl
      rcases Option.map_eq_some_iff.mp hp with ⟨other, hother, rfl⟩
      rw [KeyedMap.at?_store_of_at? hnode] at hother
      rcases Ledger.update_eq_some.mp hother with ⟨rfl, rfl⟩ | ⟨-, hother⟩
      · exact ⟨node.profile, State.profile_of_at? hnode, rfl⟩
      · exact ⟨other.profile, State.profile_of_at? hother, rfl⟩
  | notify n msg now => rwa [State.outline_handleNotifyTaskMessage hok]
  | write n =>
    cases hok
    rwa [State.outline_takeMessage]
  | rehash nodes groups tasks =>
    cases hok
    refine h.of_sockets (fun n p hp => ⟨p, ?_, rfl⟩) rfl rfl
    rcases Option.map_eq_some_iff.mp hp with ⟨node, hnode, rfl⟩
    rw [KeyedMap.at?_reorder] at hnode
    exact State.profile_of_at? hnode

/-! ## Groups -/

/-- The ids `1`, ..., `k` have been given to groups. -/
structure Outline.Numbered (F : Outline) (k : Nat) : Prop where
  next : F.nextGroupId = UInt32.ofNat (k + 1)
  known : ∀ g, F.hasGroup g → ∃ j < k, g = UInt32.ofNat (j + 1)

theorem Outline.Numbered.fresh {F : Outline} {k : Nat} (h : F.Numbered k) (hk : k < 2 ^ 32) :
    F.hasGroup F.nextGroupId = false := by
  by_contra hknown
  rcases h.known _ (by simpa using hknown) with ⟨j, hj, heq⟩
  rw [h.next] at heq
  exact Nat.ne_of_gt hj (Ledger.ofNat_succ_inj hk (hj.trans hk) heq)

/-- Only `command_task` makes groups. -/
theorem outline_step {s s' : State} {op : Op} (hok : s.step op = .ok s')
    (hop : op = .assign → s.selection = none) :
    s'.outline = { s'.outline with
      config := s.config
      nextGroupId := s.nextGroupId
      hasGroup := s.outline.hasGroup } := by
  cases op with
  | select args =>
    rcases State.selectNodes_cases hok with rfl | ⟨nodeIds, -, -, rfl⟩
    · rfl
    · rfl
  -- groups are only opened here, for a selection
  | assign =>
    rcases State.outline_assignShares hok with ⟨-, rfl⟩ | ⟨selection, hselection, -⟩
    · rfl
    · cases hselection.symm.trans (hop rfl)
  | cancel g =>
    rw [State.outline_commandCancel hok]
    rfl
  | erase n =>
    rcases State.eraseNode_cases hok with ⟨-, rfl⟩ | ⟨node, -, rfl⟩
    · rfl
    · rfl
  | balance =>
    rw [State.outline_balanceTasks hok]
    rfl
  | maintain clock =>
    rcases State.outline_maintain hok with ⟨profile, houtline, -⟩
    rw [houtline]
    rfl
  | accept nodeSocket =>
    cases hok
    unfold State.acceptConnection
    split
    · rfl
    · rfl
  | insert =>
    cases hok
    unfold State.insertNode
    split
    · rfl
    · rfl
  | result msg =>
    rw [State.outline_handleResultMessage hok]
    rfl
  | hello n msg =>
    rcases State.handleHelloMessage_cases hok with ⟨-, rfl⟩ | ⟨node, -, rfl⟩
    · rfl
    · rfl
  | notify n msg now =>
    rw [State.outline_handleNotifyTaskMessage hok]
    rfl
  | write n =>
    cases hok
    rw [State.outline_takeMessage]
    rfl
  | rehash nodes groups tasks =>
    cases hok
    unfold State.outline
    congr 1
    funext g
    dsimp only
    rw [KeyedMap.at?_reorder]

/-- Only `command_task` selects nodes. -/
theorem selection_step {s s' : State} {op : Op} (hok : s.step op = .ok s')
    (hselect : ∀ args, op ≠ .select args) (hassign : op ≠ .assign) :
    s'.selection = s.selection := by
  cases op with
  | select args => exact absurd rfl (hselect args)
  | assign => exact absurd rfl hassign
  | cancel g => exact congrArg Outline.selection (State.outline_commandCancel hok)
  | erase n =>
    rcases State.eraseNode_cases hok with ⟨-, rfl⟩ | ⟨node, -, rfl⟩
    · rfl
    · rfl
  | balance => exact congrArg Outline.selection (State.outline_balanceTasks hok)
  | maintain clock =>
    rcases State.outline_maintain hok with ⟨profile, houtline, -⟩
    exact congrArg Outline.selection houtline
  | accept nodeSocket =>
    cases hok
    unfold State.acceptConnection
    split
    · rfl
    · rfl
  | insert =>
    cases hok
    unfold State.insertNode
    split
    · rfl
    · rfl
  | result msg => exact congrArg Outline.selection (State.outline_handleResultMessage hok)
  | hello n msg =>
    rcases State.handleHelloMessage_cases hok with ⟨-, rfl⟩ | ⟨node, -, rfl⟩
    · rfl
    · rfl
  | notify n msg now =>
    exact congrArg Outline.selection (State.outline_handleNotifyTaskMessage hok)
  | write n =>
    cases hok
    rfl
  | rehash nodes groups tasks =>
    cases hok
    rfl

theorem numbered_step {s s' : State} {op : Op} {k : Nat} (h : s.outline.Numbered k)
    (hok : s.step op = .ok s') (hop : op = .assign → s.selection = none) :
    s'.outline.Numbered k := by
  rw [outline_step hok hop]
  exact ⟨h.next, h.known⟩

theorem numbered_assign {s s' : State} {selection : Selection} {k : Nat}
    (h : s.outline.Numbered k) (hselection : s.selection = some selection)
    (hok : s.step .assign = .ok s') : s'.outline.Numbered (k + 1) := by
  rcases State.outline_assignShares hok with ⟨hnone, -⟩ | ⟨selection', -, houtline⟩
  · cases hselection.symm.trans hnone
  · have hnext : s.nextGroupId = UInt32.ofNat (k + 1) := h.next
    rw [houtline]
    refine ⟨?_, fun g hg => ?_⟩
    · change s.nextGroupId + 1 = _
      rw [hnext]
      exact (UInt32.ofNat_add _ 1).symm
    · change ((s.groups.emplace s.nextGroupId _).at? g).isSome at hg
      rw [KeyedMap.at?_emplace] at hg
      split at hg
      next heq => exact ⟨k, Nat.lt_succ_self k, heq.1.trans hnext⟩
      next =>
        rcases h.known g hg with ⟨j, hj, heq⟩
        exact ⟨j, hj.trans (Nat.lt_succ_self k), heq⟩

/-! ## Shares of the games -/

/-- The shares that are not empty. -/
def Selection.used (selection : Selection) : List (NodeId × UInt32) :=
  (State.Selection.shares selection).filter fun share => share.2 ≠ 0

theorem nGames_succ (games : UInt32) (m : Nat) : State.nGames games (m + 1) =
    UInt32.ofNat ((games.toNat + m) / (m + 1)) ::
      List.replicate m (UInt32.ofNat (games.toNat / (m + 1))) := rfl

private theorem ofNat_ne_zero_iff {i : Nat} (hi : i < 2 ^ 32) : UInt32.ofNat i ≠ 0 ↔ i ≠ 0 := by
  rw [not_iff_not, ← UInt32.toNat_inj, UInt32.toNat_ofNat_of_lt' hi]
  rfl

/-- Rounding up leaves the first node without games only when there are none, rounding down the
others when there are fewer games than nodes. -/
theorem countP_nGames (games : UInt32) (m : Nat) :
    (State.nGames games (m + 1)).countP (fun share => share ≠ 0) =
      (if games.toNat = 0 then 0 else 1) + if m + 1 ≤ games.toNat then m else 0 := by
  have hgames : games.toNat < 2 ^ 32 := games.toNat_lt
  have hfirst : UInt32.ofNat ((games.toNat + m) / (m + 1)) ≠ 0 ↔ games.toNat ≠ 0 := by
    have hle : (games.toNat + m) / (m + 1) ≤ games.toNat := by
      rw [← Nat.lt_succ_iff, Nat.div_lt_iff_lt_mul (Nat.succ_pos m)]
      nlinarith
    rw [ofNat_ne_zero_iff (hle.trans_lt hgames), Nat.div_ne_zero_iff]
    omega
  have hothers : UInt32.ofNat (games.toNat / (m + 1)) ≠ 0 ↔ m + 1 ≤ games.toNat := by
    rw [ofNat_ne_zero_iff ((Nat.div_le_self _ _).trans_lt hgames), Nat.div_ne_zero_iff]
    omega
  rw [nGames_succ, List.countP_cons, List.countP_replicate, Nat.add_comm]
  simp only [decide_eq_true_eq, hfirst, hothers, ite_not]

theorem length_used (selection : Selection) : selection.used.length =
    (State.nGames selection.task.games selection.nodeIds.length).countP fun share => share ≠ 0 := by
  have hlength : (State.nGames selection.task.games selection.nodeIds.length).length =
      selection.nodeIds.length := by
    rw [State.nGames, List.length_set, List.length_replicate]
  unfold Selection.used
  rw [← List.countP_eq_length_filter]
  conv_rhs => rw [← List.map_snd_zip hlength.le]
  rw [List.countP_map]
  rfl

theorem length_used_le (selection : Selection) :
    selection.used.length ≤ selection.nodeIds.length := by
  refine (List.length_filter_le _ _).trans ?_
  unfold State.Selection.shares
  rw [List.length_zip]
  exact Nat.min_le_left _ _

/-- Every selected node gets a sub-task exactly when there are enough games. -/
theorem length_used_eq_iff {selection : Selection} (hne : selection.nodeIds ≠ []) :
    selection.used.length = selection.nodeIds.length ↔
      selection.nodeIds.length ≤ selection.task.games.toNat := by
  rcases List.exists_cons_of_ne_nil hne with ⟨n, nodeIds, heq⟩
  rw [length_used, heq, List.length_cons, countP_nGames]
  split <;> split <;> omega

theorem length_used_pos {selection : Selection} (hne : selection.nodeIds ≠ [])
    (hgames : selection.task.games ≠ 0) : 0 < selection.used.length := by
  rcases List.exists_cons_of_ne_nil hne with ⟨n, nodeIds, heq⟩
  have htoNat : selection.task.games.toNat ≠ 0 := fun h => hgames (UInt32.toNat_inj.mp h)
  rw [length_used, heq, List.length_cons, countP_nGames, if_neg htoNat]
  omega

theorem div_round_up (g m : Nat) :
    (g + m) / (m + 1) = g / (m + 1) + if g % (m + 1) = 0 then 0 else 1 := by
  have hsplit := Nat.div_add_mod g (m + 1)
  have hlt : g % (m + 1) < m + 1 := Nat.mod_lt _ (Nat.succ_pos m)
  have hrest : (g % (m + 1) + m) / (m + 1) = if g % (m + 1) = 0 then 0 else 1 := by
    split
    next hzero =>
      rw [hzero, Nat.zero_add]
      exact Nat.div_eq_of_lt (Nat.lt_succ_self m)
    next hne =>
      apply Nat.div_eq_of_lt_le
      · omega
      · omega
  calc (g + m) / (m + 1) = (g % (m + 1) + m + (m + 1) * (g / (m + 1))) / (m + 1) := by
        congr 1
        omega
    _ = (g % (m + 1) + m) / (m + 1) + g / (m + 1) := Nat.add_mul_div_left _ _ (Nat.succ_pos m)
    _ = _ := by rw [hrest, Nat.add_comm]

/-- The shares add up to a multiple of the number of nodes, or to one more. -/
theorem sum_nGames (games : UInt32) {n : Nat} (hn : n ≠ 0) :
    ((State.nGames games n).map UInt32.toNat).sum =
      n * (games.toNat / n) + if games.toNat % n = 0 then 0 else 1 := by
  obtain ⟨m, rfl⟩ := Nat.exists_eq_succ_of_ne_zero hn
  have hgames := games.toNat_lt
  have hsplit := Nat.div_add_mod games.toNat (m + 1)
  have hfirst := div_round_up games.toNat m
  have hmul : (m + 1) * (games.toNat / (m + 1)) =
      games.toNat / (m + 1) + m * (games.toNat / (m + 1)) := by ring
  have hrest : (UInt32.ofNat (games.toNat / (m + 1))).toNat = games.toNat / (m + 1) :=
    UInt32.toNat_ofNat_of_lt' ((Nat.div_le_self _ _).trans_lt hgames)
  have hround : (UInt32.ofNat ((games.toNat + m) / (m + 1))).toNat =
      (games.toNat + m) / (m + 1) := by
    apply UInt32.toNat_ofNat_of_lt'
    show (games.toNat + m) / (m + 1) < 2 ^ 32
    rw [hfirst]
    split
    · omega
    · omega
  rw [Nat.succ_eq_add_one, nGames_succ, List.map_cons, List.map_replicate, List.sum_cons,
    List.sum_replicate, hrest, hround, Nat.nsmul_eq_mul, hfirst]
  omega

/-- Skipping the empty shares loses nothing. -/
theorem sum_used {selection : Selection} (hne : selection.nodeIds ≠ []) :
    (selection.used.map fun share => share.2.toNat).sum =
      selection.nodeIds.length * (selection.task.games.toNat / selection.nodeIds.length) +
        if selection.task.games.toNat % selection.nodeIds.length = 0 then 0 else 1 := by
  have hlength : selection.nodeIds.length ≠ 0 := fun h => hne (List.length_eq_zero_iff.mp h)
  have hskip (l : List (NodeId × UInt32)) :
      ((l.filter fun share => share.2 ≠ 0).map fun share => share.2.toNat).sum =
        (l.map fun share => share.2.toNat).sum := by
    induction l with
    | nil => rfl
    | cons share l ih =>
      rw [List.filter_cons]
      split
      next => rw [List.map_cons, List.map_cons, List.sum_cons, List.sum_cons, ih]
      next hzero =>
        have heq : share.2 = 0 := by simpa using hzero
        rw [ih, List.map_cons, List.sum_cons, heq]
        exact (Nat.zero_add _).symm
  have hshares : (State.nGames selection.task.games selection.nodeIds.length).length ≤
      selection.nodeIds.length := by
    rw [State.nGames, List.length_set, List.length_replicate]
  unfold Selection.used
  rw [hskip, ← sum_nGames _ hlength]
  conv_rhs => rw [← List.map_snd_zip hshares]
  rw [List.map_map]
  rfl

end Bem
