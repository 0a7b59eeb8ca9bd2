import Bem.Coordinator.Fitness

/-!
# Long runs

A coordinator with a single node can be given any number of commands.  Its counters are 32 bits
wide and unchecked, so that enough commands bring them round.
-/

namespace Bem

namespace State

variable {s s' : State} {config : CoordinatorConfig} {args : TaskArgs} {n : NodeId} {node : Node}

/-- The only node, with the main thread and the acceptor idle. -/
structure Alone (config : CoordinatorConfig) (n : NodeId) (node : Node) (s : State) : Prop where
  config : s.config = config
  nodes : s.nodes.entries = [⟨n, some node⟩]
  nextNodeId : s.nextNodeId = n + 1
  selection : s.selection = none
  accepting : s.accepting = none

/-- One node gets all the games. -/
theorem nGames_one (games : UInt32) : nGames games 1 = [games] := by
  show [UInt32.ofNat ((games.toNat + 1 - 1) / 1)] = [games]
  rw [Nat.add_sub_cancel, Nat.div_one, UInt32.ofNat_toNat]

/-- What was there before `k` commands is there after them. -/
structure KeptBy (s s' : State) (k : Nat) : Prop where
  nextGroupId : s'.nextGroupId = s.nextGroupId + UInt32.ofNat k
  groups : ∀ g G, s.groups.at? g = some G → s'.groups.at? g = some G
  tasks : ∀ t r, s.tasks.at? t = some r → s'.tasks.at? t = some r
  heap : ∀ r < s.subTasks, s'.taskHeap.get r = s.taskHeap.get r

namespace Alone

theorem pointees (h : s.Alone config n node) : s.nodes.pointees = [(n, node)] := by
  unfold KeyedMap.pointees
  rw [h.nodes]
  rfl

theorem at? (h : s.Alone config n node) : s.nodes.at? n = some node := by
  rw [← KeyedMap.mem_pointees, h.pointees]
  exact List.mem_singleton_self _

theorem select (h : s.Alone config n node) (hknown : config.gamelist.offers (template args))
    (hfit : node.eligible (template args)) : s.selectNodes args =
      .ok { s with selection := some { task := template args, nodeIds := [n] } } := by
  have hall : s.nodes.pointees? = some [(n, node)] := by
    unfold KeyedMap.pointees?
    rw [h.pointees, h.nodes]
    rfl
  have heligible : s.getEligibleNodesForTask (template args) = .ok [n] := by
    unfold getEligibleNodesForTask
    rw [hall]
    simp [hfit]
  unfold GameList.offers at hknown
  simp only [template, Bool.and_eq_true] at hknown
  unfold selectNodes
  rw [h.config, heligible, if_neg (not_not.mpr hknown.1.1), if_neg (not_not.mpr hknown.1.2),
    if_neg (not_not.mpr hknown.2)]
  rfl

/-- The node gets all the games in one sub-task, if there are any. -/
theorem command (h : s.Alone config n node) (hknown : config.gamelist.offers (template args))
    (hfit : node.eligible (template args)) :
    ∃ s', coordinator.FreeRun s [.select args, .assign] s' ∧
      s'.nextGroupId = s.nextGroupId + 1 ∧
      s'.groups = s.groups.emplace s.nextGroupId (some (newGroup s.nextGroupId 1)) ∧
      ((args.games = 0 ∧ s'.Alone config n node ∧ s'.taskHeap = s.taskHeap ∧ s'.tasks = s.tasks) ∨
        (args.games ≠ 0 ∧ s'.Alone config n (node.assignTask s'.taskHeap s.taskHeap.next) ∧
          s'.taskHeap = s.taskHeap.alloc (subTask { template args with groupId := s.nextGroupId }
            s.nextTaskId args.games) ∧
          s'.tasks = s.tasks.emplace s.nextTaskId (some s.taskHeap.next))) := by
  have hidle : s.enabled (.select args) := h.selection
  have hfirst := run_step hidle (h.select hknown hfit)
  let selection : Selection := { task := template args, nodeIds := [n] }
  let t : State := { s with selection := some selection }
  have hassign : t.assignShares = assignShare { selection.task with groupId := s.nextGroupId }
      (t.openGroup 1) (n, args.games) := by
    show (Selection.shares selection).foldlM _ _ = _
    -- the one node has all the games for its share
    have hshares : Selection.shares selection = [(n, args.games)] := by
      show [n].zip (nGames args.games 1) = [(n, args.games)]
      rw [nGames_one]
      rfl
    rw [hshares]
    exact bind_pure _
  by_cases hzero : args.games = 0
  · have hstep : t.step .assign = .ok (t.openGroup 1) := hassign.trans (if_pos hzero)
    exact ⟨_, hfirst.append (run_step rfl hstep), rfl, rfl, Or.inl ⟨hzero, ⟨h.config, h.nodes,
      h.nextNodeId, rfl, h.accepting⟩, rfl, rfl⟩⟩
  · let tt := subTask { selection.task with groupId := s.nextGroupId } s.nextTaskId args.games
    let u : State := { t.openGroup 1 with
      nextTaskId := s.nextTaskId + 1
      taskHeap := s.taskHeap.alloc tt
      tasks := s.tasks.emplace tt.id (some s.taskHeap.next) }
    obtain ⟨s', hs'⟩ : ∃ s', u.assignTask n s.taskHeap.next = .ok s' := assignTask_ok h.at?
    have hstep : t.step .assign = .ok s' := by
      refine hassign.trans (Eq.trans ?_ hs')
      exact if_neg hzero
    obtain ⟨node', hnode', rfl⟩ := assignTask_eq_ok hs'
    cases (show some node = some node' from h.at?.symm.trans hnode')
    refine ⟨_, hfirst.append (run_step rfl hstep), rfl, rfl, Or.inr ⟨hzero, ⟨h.config, ?_,
      h.nextNodeId, rfl, h.accepting⟩, rfl, rfl⟩⟩
    show s.nodes.entries.map _ = _
    rw [h.nodes]
    simp [u]

/-- Commands for no games leave the tasks alone. -/
theorem idle (h : s.Alone config n node) (hknown : config.gamelist.offers (template args))
    (hfit : node.eligible (template args)) (hgames : args.games = 0) (k : Nat) :
    ∃ ops s', coordinator.FreeRun s ops s' ∧ s'.Alone config n node ∧
      s'.nextGroupId = s.nextGroupId + UInt32.ofNat k ∧
      s'.taskHeap = s.taskHeap ∧ s'.tasks = s.tasks ∧
      (∀ g G, s.groups.at? g = some G → s'.groups.at? g = some G) ∧
      ∀ op ∈ ops, op = .select args ∨ op = .assign := by
  induction k with
  | zero => exact ⟨[], s, .nil s, h, (UInt32.add_zero _).symm, rfl, rfl, fun _ _ hG => hG,
      fun _ hop => absurd hop List.not_mem_nil⟩
  | succ k ih =>
    obtain ⟨ops, s₁, hrun, h₁, hgroup, hheap, htasks, hgroups, hops⟩ := ih
    obtain ⟨s', hrun', hgroup', hgroups', hcase⟩ := h₁.command hknown hfit
    rcases hcase with ⟨-, h', hheap', htasks'⟩ | ⟨hne, -⟩
    · refine ⟨_, s', hrun.append hrun', h', ?_, hheap'.trans hheap, htasks'.trans htasks,
        fun g G hG => ?_, fun op hop => ?_⟩
      · rw [hgroup', hgroup, UInt32.add_assoc, ← UInt32.ofNat_one, ← UInt32.ofNat_add]
      · rw [hgroups', KeyedMap.at?_emplace, if_neg]
        · exact hgroups g G hG
        · rintro ⟨rfl, hnot⟩
          exact hnot (KeyedMap.mem_of_at? (hgroups _ _ hG))
      · rcases List.mem_append.mp hop with hop | hop
        · exact hops op hop
        · simpa using hop
    · exact absurd hgames hne

/-- Commands for some games make a sub-task each. -/
theorem load (h : s.Alone config n node) (hknown : config.gamelist.offers (template args))
    (hfit : node.eligible (template args)) (hgames : args.games ≠ 0) (k : Nat) :
    ∃ ops s' node', coordinator.FreeRun s ops s' ∧ s'.Alone config n node' ∧
      node'.profile = node.profile ∧ s'.subTasks = s.subTasks + k ∧ s.KeptBy s' k := by
  induction k with
  | zero => exact ⟨[], s, node, .nil s, h, rfl, rfl, (UInt32.add_zero _).symm, fun _ _ hG => hG,
      fun _ _ hr => hr, fun _ _ => rfl⟩
  | succ k ih =>
    obtain ⟨ops, s₁, node₁, hrun, h₁, hprofile, hnext, hkept⟩ := ih
    have hfit₁ : node₁.eligible (template args) := by
      rw [Node.eligible_congr hprofile]
      exact hfit
    obtain ⟨s', hrun', hgroup', hgroups', hcase⟩ := h₁.command hknown hfit₁
    rcases hcase with ⟨hzero, -⟩ | ⟨-, h', hheap, htasks'⟩
    · exact absurd hzero hgames
    · refine ⟨_, s', _, hrun.append hrun', h', (Node.profile_assignTask _ _ _).trans hprofile, ?_,
        ?_, fun g G hG => ?_, fun t r hr => ?_, fun r hr => ?_⟩
      · show s'.taskHeap.next = _
        rw [hheap, Heap.next_alloc, ← Nat.add_assoc]
        exact congrArg (· + 1) hnext
      · rw [hgroup', hkept.nextGroupId, UInt32.add_assoc, ← UInt32.ofNat_one, ← UInt32.ofNat_add]
      · rw [hgroups']
        exact KeyedMap.at?_emplace_of_at? (hkept.groups g G hG)
      · rw [htasks']
        exact KeyedMap.at?_emplace_of_at? (hkept.tasks t r hr)
      · have hlt : r < s₁.subTasks := by omega
        rw [hheap, Heap.get_alloc_ne (Nat.ne_of_lt hlt)]
        exact hkept.heap r hr

end Alone

end State

/-! ## A node and its successor -/

/-- The arguments of `tasking`. -/
def soloArgs (games : UInt32) : TaskArgs where
  gid := 1
  ag1 := 1
  ag2 := 1
  boardSize := 8
  moveLimitMs := 20000
  games := games

/-- A node that has said HELLO. -/
def newcomer (nodeId : NodeId) (nodeSocket : Int) : Node where
  socket := nodeSocket
  gamelist := soloGames
  id := nodeId
  flags := { registered := true }
  messageQueue := [State.helloReply soloConfig { protoVer := 1, gamelist := soloGames }]

/-- Node `1` leaves and node `2` takes its place. -/
theorem State.Alone.succeeded {s : State} {node : Node} (h : s.Alone soloConfig 1 node) :
    ∃ s', coordinator.FreeRun s ([.erase 1] ++ joining 2 6) s' ∧
      s'.Alone soloConfig 2 (newcomer 2 6) ∧ s'.taskHeap = s.taskHeap ∧ s'.tasks = s.tasks ∧
      s'.groups = s.groups ∧ s'.nextGroupId = s.nextGroupId := by
  obtain ⟨config, nodes, groups, tasks, heap, flag, taskId, groupId, nodeId, selection, accepting,
    calls⟩ := s
  obtain ⟨entries, hnodup⟩ := nodes
  obtain ⟨rfl, hentries, hnodeId, rfl, rfl⟩ := h
  cases hentries
  cases hnodeId
  refine ⟨_, .cons trivial trivial rfl (.cons ⟨rfl, ?_⟩ trivial rfl (.cons rfl trivial rfl
    (.cons trivial trivial rfl (.nil _)))), ⟨rfl, rfl, rfl, rfl, rfl⟩, rfl, rfl,
    rfl, rfl⟩
  exact ⟨by decide, by decide, fun e he => absurd he List.not_mem_nil⟩

/-- Node `2` is pinged, and node `3` joins it. -/
theorem State.Alone.joined {s : State} {r : Ref} {queue : List Message} (h : s.Alone soloConfig 2
    { newcomer 2 6 with tasks := [r], messageQueue := queue }) :
    ∃ s', coordinator.FreeRun s ([.maintain fun _ => 1] ++ joining 3 7) s' ∧
      s'.config = soloConfig ∧ s'.nodes.pointees =
        [(2, { newcomer 2 6 with
          tasks := [r], messageQueue := queue ++ [Node.ping], requestTs := 1 }),
          (3, newcomer 3 7)] ∧
      s'.taskHeap = s.taskHeap ∧ s'.tasks = s.tasks := by
  obtain ⟨config, nodes, groups, tasks, heap, flag, taskId, groupId, nodeId, selection, accepting,
    calls⟩ := s
  obtain ⟨entries, hnodup⟩ := nodes
  obtain ⟨rfl, hentries, hnodeId, rfl, rfl⟩ := h
  cases hentries
  cases hnodeId
  refine ⟨_, .cons trivial trivial rfl (.cons ⟨rfl, ?_⟩ trivial rfl (.cons rfl trivial rfl
    (.cons trivial trivial rfl (.nil _)))), rfl, rfl, rfl, rfl⟩
  refine ⟨by decide, by decide, fun e he => ?_⟩
  cases List.mem_singleton.mp he
  exact (by decide : (6 : Int) ≠ 7)

end Bem
