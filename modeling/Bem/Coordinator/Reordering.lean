import Bem.Coordinator.Booking
import Bem.Coordinator.LongRuns

/-!
# The order of the results

Two results for different tasks can be handled in either order, unless the first of them makes the group
done while the other task is still to come.  As long as every group is opened for its own tasks only,
that does not happen.
-/

namespace Bem

theorem Result.merge_right_comm (r a b : Result) : (r.merge a).merge b = (r.merge b).merge a := by
  simp only [merge, UInt32.add_assoc, UInt32.add_comm a.games, UInt32.add_comm a.failedGames,
    UInt32.add_comm a.winAgent1, UInt32.add_comm a.winAgent2, UInt32.add_comm a.timeoutAgent1,
    UInt32.add_comm a.timeoutAgent2]

namespace State

variable {s s' : State} {r q : Ref} {g : TaskId}

/-! ## One result -/

/-- A result for the task counts. -/
def takes (s : State) (r : Ref) : Prop :=
  (s.taskHeap.get r).status = .tsRunning ∧
    ∃ G, s.groups.at? (s.taskHeap.get r).groupId = some G ∧ G.status ≠ .tsDone

/-- A result that counts. -/
def settled (s : State) (r : Ref) (result : Result) : State :=
  { s with
    groups := s.groups.modify (s.taskHeap.get r).groupId fun G => acceptResult G result
    taskHeap := setStatus s.taskHeap r .tsDone }

theorem handleResultMessage_of_takes {msg : ResultMessage} (hr : s.tasks.at? msg.taskId = some r)
    (h : s.takes r) : s.handleResultMessage msg = .ok (s.settled r msg.result) := by
  obtain ⟨hrunning, G, hG, hopen⟩ := h
  have hstore : s.groups.store (s.taskHeap.get r).groupId (acceptResult G msg.result) =
      s.groups.modify (s.taskHeap.get r).groupId fun G => acceptResult G msg.result := by
    apply KeyedMap.mapPointees_congr
    intro g G' hG'
    split
    next hg =>
      rw [hg, hG] at hG'
      rw [Option.some.inj hG']
    next => rfl
  unfold handleResultMessage
  rw [KeyedMap.index_of_at? hr]
  dsimp only
  rw [if_pos hrunning, KeyedMap.index_of_at? hG]
  dsimp only
  rw [if_neg hopen, hstore]
  rfl

theorem handleResultMessage_of_not_takes {msg : ResultMessage} (hs : s.WellFormed)
    (hr : s.tasks.at? msg.taskId = some r) (h : ¬ s.takes r) : s.handleResultMessage msg = .ok s := by
  have hlt := (hs.sound.index _ r hr).1
  obtain ⟨G, hG⟩ := Option.ne_none_iff_exists'.mp (hs.sound.group r hlt)
  have hG : s.groups.at? (s.taskHeap.get r).groupId = some G := hG
  unfold handleResultMessage
  rw [KeyedMap.index_of_at? hr]
  dsimp only
  split
  next hrunning =>
    rw [KeyedMap.index_of_at? hG]
    dsimp only
    rw [if_pos (not_not.mp fun hopen => h ⟨hrunning, G, hG, hopen⟩)]
  next => rfl

/-! ## Two results -/

/-- The group of two running tasks stays open for a second result. -/
def Spacious (s : State) (q r : Ref) : Prop :=
  (s.taskHeap.get q).groupId = (s.taskHeap.get r).groupId →
    (s.taskHeap.get q).status = .tsRunning → (s.taskHeap.get r).status = .tsRunning →
    ∀ G, s.groups.at? (s.taskHeap.get r).groupId = some G → G.remainingTasks - 1 ≠ 0

theorem Spacious.symm (h : s.Spacious q r) : s.Spacious r q := by
  intro hg hr hq G hG
  rw [← hg] at hG
  exact h hg.symm hq hr G hG

theorem acceptResult_comm {G : TaskGroup} (hspace : G.remainingTasks - 1 ≠ 0) (a b : Result) :
    acceptResult (acceptResult G a) b = acceptResult (acceptResult G b) a := by
  have hfirst (result : Result) : acceptResult G result = { G with
      remainingTasks := G.remainingTasks - 1
      aggregateResult := G.aggregateResult.merge result } := if_neg hspace
  rw [hfirst, hfirst]
  unfold acceptResult
  dsimp only
  rw [Result.merge_right_comm]

/-- A result does not change what becomes of one for another task. -/
theorem takes_settled (hne : q ≠ r) (hspace : s.Spacious q r) (hr : s.takes r) (result : Result) :
    (s.settled r result).takes q ↔ s.takes q := by
  have hget : (s.settled r result).taskHeap.get q = s.taskHeap.get q := by
    show (setStatus s.taskHeap r .tsDone).get q = _
    rw [get_setStatus, if_neg hne]
  have hat (g : TaskId) : (s.settled r result).groups.at? g = (s.groups.at? g).map fun G =>
      if g = (s.taskHeap.get r).groupId then acceptResult G result else G :=
    KeyedMap.at?_mapPointees _ _ _
  unfold takes
  rw [hget, hat]
  apply and_congr_right
  intro hrunning
  by_cases hg : (s.taskHeap.get q).groupId = (s.taskHeap.get r).groupId
  · -- both tasks are of one group, which is not done before nor after
    obtain ⟨hrunning', G, hG, hopen⟩ := hr
    have hroom : G.remainingTasks - 1 ≠ 0 := hspace hg hrunning hrunning' G hG
    simp only [hg, if_true]
    rw [hG]
    refine iff_of_true ⟨_, rfl, ?_⟩ ⟨G, rfl, hopen⟩
    rw [status_acceptResult, if_neg hroom]
    exact hopen
  · simp only [if_neg hg, Option.map_id']

/-- Two results that count, one after the other and the other way round. -/
theorem settled_comm (hne : q ≠ r) (hspace : s.Spacious q r) (hq : s.takes q) (hr : s.takes r)
    (a b : Result) : (s.settled r a).settled q b = (s.settled q b).settled r a := by
  have hgroup (p p' : Ref) : ((setStatus s.taskHeap p' .tsDone).get p).groupId =
      (s.taskHeap.get p).groupId := groupId_setStatus _ _ _ _
  have hheap : setStatus (setStatus s.taskHeap r .tsDone) q .tsDone =
      setStatus (setStatus s.taskHeap q .tsDone) r .tsDone := by
    have hfirst : (setStatus s.taskHeap r .tsDone).get q = s.taskHeap.get q := by
      rw [get_setStatus, if_neg hne]
    have hsecond : (setStatus s.taskHeap q .tsDone).get r = s.taskHeap.get r := by
      rw [get_setStatus, if_neg hne.symm]
    unfold setStatus Heap.set at hfirst hsecond ⊢
    rw [hfirst, hsecond]
    dsimp only
    rw [Function.update_comm hne.symm]
  have hgroups : (s.groups.modify (s.taskHeap.get r).groupId fun G => acceptResult G a).modify
        (s.taskHeap.get q).groupId (fun G => acceptResult G b) =
      (s.groups.modify (s.taskHeap.get q).groupId fun G => acceptResult G b).modify
        (s.taskHeap.get r).groupId fun G => acceptResult G a := by
    unfold KeyedMap.modify
    rw [KeyedMap.mapPointees_mapPointees, KeyedMap.mapPointees_mapPointees]
    apply KeyedMap.mapPointees_congr
    intro g G hG
    -- the two results only meet in a group that both tasks belong to
    by_cases hgr : g = (s.taskHeap.get r).groupId
    · by_cases hgq : g = (s.taskHeap.get q).groupId
      · rw [if_pos hgr, if_pos hgq, if_pos hgr, if_pos hgq]
        exact acceptResult_comm (hspace (hgq.symm.trans hgr) hq.1 hr.1 G (hgr ▸ hG)) a b
      · rw [if_pos hgr, if_neg hgq, if_pos hgr, if_neg hgq]
    · rw [if_neg hgr, if_neg hgr]
  show ({ s with groups := _, taskHeap := _ } : State) = { s with groups := _, taskHeap := _ }
  unfold settled
  dsimp only
  rw [hgroup, hgroup, hheap, hgroups]

/-- A result, whether it counts or not, leaves the state well formed with the same map of tasks. -/
theorem wellFormed_handleResultMessage {msg : ResultMessage} (hs : s.WellFormed)
    (hok : s.handleResultMessage msg = .ok s') : s'.WellFormed ∧ s'.tasks = s.tasks := by
  have hstep : s.step (.result msg) = .ok s' := hok
  refine ⟨(follows_step hs hstep).wellFormed, ?_⟩
  obtain ⟨r, -, ⟨-, rfl⟩ | ⟨G, -, -, ⟨-, rfl⟩ | ⟨-, rfl⟩⟩⟩ := handleResultMessage_cases hok
  · rfl
  · rfl
  · rfl

theorem handleResultMessage_comm {a b : ResultMessage} (hs : s.WellFormed)
    (hr : s.tasks.at? a.taskId = some r) (hq : s.tasks.at? b.taskId = some q) (hne : q ≠ r)
    (hspace : s.Spacious q r) :
    (s.handleResultMessage a >>= fun t => t.handleResultMessage b) =
      s.handleResultMessage b >>= fun t => t.handleResultMessage a := by
  -- a result that is not taken changes nothing, and whether one is does not depend on the other
  by_cases htr : s.takes r
  · have hfirst := handleResultMessage_of_takes hr htr
    have hwellFormed := (wellFormed_handleResultMessage hs hfirst).1
    have hqafter := takes_settled hne hspace htr a.result
    have hqat : (s.settled r a.result).tasks.at? b.taskId = some q := hq
    by_cases htq : s.takes q
    · have hsecond := handleResultMessage_of_takes hq htq
      have hrafter := (takes_settled hne.symm hspace.symm htq b.result).mpr htr
      have hrat : (s.settled q b.result).tasks.at? a.taskId = some r := hr
      rw [hfirst, hsecond]
      show (s.settled r a.result).handleResultMessage b = (s.settled q b.result).handleResultMessage a
      rw [handleResultMessage_of_takes hqat (hqafter.mpr htq),
        handleResultMessage_of_takes hrat hrafter, settled_comm hne hspace htq htr]
    · rw [hfirst, handleResultMessage_of_not_takes hs hq htq]
      show (s.settled r a.result).handleResultMessage b = s.handleResultMessage a
      rw [hfirst]
      exact handleResultMessage_of_not_takes hwellFormed hqat fun h => htq (hqafter.mp h)
  · rw [handleResultMessage_of_not_takes hs hr htr]
    by_cases htq : s.takes q
    · have hsecond := handleResultMessage_of_takes hq htq
      have hwellFormed := (wellFormed_handleResultMessage hs hsecond).1
      have hrafter := takes_settled hne.symm hspace.symm htq b.result
      rw [hsecond]
      show s.handleResultMessage b = (s.settled q b.result).handleResultMessage a
      rw [hsecond]
      exact (handleResultMessage_of_not_takes hwellFormed hr fun h => htr (hrafter.mp h)).symm
    · rw [handleResultMessage_of_not_takes hs hq htq]
      show s.handleResultMessage b = s.handleResultMessage a
      rw [handleResultMessage_of_not_takes hs hq htq, handleResultMessage_of_not_takes hs hr htr]

/-! ## Accounts of all groups -/

/-- Every group keeps an account. -/
def AllBooked (s : State) : Prop :=
  ∀ g, s.groups.at? g ≠ none → ∃ nNodes log, s.ledger.Booked g nNodes log

theorem AllBooked.step {op : Op} (h : s.AllBooked) (hs : s.WellFormed)
    (hpopulated : s.outline.Populated) (hfresh : s.opensFresh op) (hok : s.step op = .ok s') :
    s'.AllBooked := by
  have hold (g : TaskId) (hg : s.groups.at? g ≠ none) :
      ∃ nNodes log, s'.ledger.Booked g nNodes log := by
    obtain ⟨nNodes, log, hbooked⟩ := h g hg
    exact ⟨nNodes, _, booked_step hs hbooked hfresh hok⟩
  intro g hg
  by_cases hop : op = .assign → s.selection = none
  · have hsame := congrArg Outline.hasGroup (outline_step hok hop)
    apply hold g
    have hboth : (s'.groups.at? g).isSome = (s.groups.at? g).isSome := congrFun hsame g
    rw [← Option.isSome_iff_ne_none, hboth, Option.isSome_iff_ne_none] at hg
    exact hg
  · obtain ⟨rfl, hselected⟩ := Classical.not_imp.mp hop
    obtain ⟨selection, hselection⟩ := Option.ne_none_iff_exists'.mp hselected
    have hnew := hfresh hselected
    by_cases hgroup : g = s.nextGroupId
    · rw [hgroup]
      exact ⟨_, _, booked_assignShares hs hpopulated hnew hselection hok⟩
    · apply hold g
      rcases outline_assignShares hok with ⟨hnone, -⟩ | ⟨_, -, houtline⟩
      · exact absurd hnone hselected
      · have hboth : (s'.groups.at? g).isSome = ((s.groups.emplace s.nextGroupId _).at? g).isSome :=
          congrFun (congrArg Outline.hasGroup houtline) g
        rw [KeyedMap.at?_emplace, if_neg fun hand => hgroup hand.1] at hboth
        rw [← Option.isSome_iff_ne_none, hboth, Option.isSome_iff_ne_none] at hg
        exact hg

/-- A group with an account waits for at least as many results as it has tasks that are not done. -/
theorem AllBooked.spacious (h : s.AllBooked) (hs : s.WellFormed) {t t' : TaskId}
    (hr : s.tasks.at? t = some r) (hq : s.tasks.at? t' = some q) (hne : q ≠ r) :
    s.Spacious q r := by
  intro hg hqrunning hrrunning G hG
  obtain ⟨nNodes, log, hbooked⟩ := h (s.taskHeap.get r).groupId (by rw [hG]; exact Option.some_ne_none G)
  obtain ⟨G', hG', hremaining, -⟩ := hbooked.group
  have heq : G' = G := Option.some.inj (hG'.symm.trans hG)
  have hnot {p : Ref} (hp : (s.taskHeap.get p).status = .tsRunning) :
      (s.taskHeap.get p).status ≠ .tsDone := by
    rw [hp]
    decide
  have hpair : ∀ p ∈ ({q, r} : Finset Ref), (∃ t, s.ledger.index t = some p) ∧
      (s.ledger.heap.get p).groupId = (s.taskHeap.get r).groupId ∧
      (s.ledger.heap.get p).status ≠ .tsDone := by
    intro p hp
    rw [Finset.mem_insert, Finset.mem_singleton] at hp
    rcases hp with rfl | rfl
    · exact ⟨⟨t', hq⟩, hg, hnot hqrunning⟩
    · exact ⟨⟨t, hr⟩, rfl, hnot hrrunning⟩
  have htwo := hbooked.length_add_card_le hs.sound hpair
  rw [Finset.card_pair hne] at htwo
  rw [heq] at hremaining
  have hcount : (G.remainingTasks - 1).toNat = G.remainingTasks.toNat - 1 :=
    toNat_sub_one (by omega)
  intro hzero
  rw [hzero, show (0 : UInt32).toNat = 0 from rfl] at hcount
  omega

/-! ## Any number of results -/

/-- What a coordinator knows at the end: the statuses of the tasks, and the groups with their results. -/
def SameOutcome (s s' : State) : Prop :=
  (∀ t, (s.task? t).map Task.status = (s'.task? t).map Task.status) ∧
  ∀ g, (s.group? g).map (fun G => (G.remainingTasks, G.status, G.aggregateResult)) =
    (s'.group? g).map fun G => (G.remainingTasks, G.status, G.aggregateResult)

/-- Results for different tasks that the coordinator knows can be handled in any order. -/
def OrderIrrelevant (s : State) : Prop :=
  ∀ msgs msgs' : List ResultMessage, msgs.Perm msgs' → (msgs.map fun msg => msg.taskId).Nodup →
    (∀ msg ∈ msgs, msg.taskId ∈ s.tasks) →
    ∃ s₁ s₂, msgs.foldlM handleResultMessage s = .ok s₁ ∧
      msgs'.foldlM handleResultMessage s = .ok s₂ ∧ s₁.SameOutcome s₂

/-- What lets the order of the results be. -/
structure Orderly (s : State) : Prop where
  wellFormed : s.WellFormed
  populated : s.outline.Populated
  booked : s.AllBooked

theorem Orderly.step {op : Op} (h : s.Orderly) (henabled : s.enabled op) (hfresh : s.opensFresh op)
    (hok : s.step op = .ok s') : s'.Orderly where
  wellFormed := (follows_step h.wellFormed hok).wellFormed
  populated := populated_step h.populated henabled hok
  booked := h.booked.step h.wellFormed h.populated hfresh hok

theorem Orderly.orderIrrelevant (h : s.Orderly) : s.OrderIrrelevant := by
  intro msgs msgs' hperm hnodup hknown
  have hkeep : ∀ t (msg : ResultMessage) t', State.Orderly t → msg.taskId ∈ t.tasks →
      t.handleResultMessage msg = .ok t' →
      State.Orderly t' ∧ ∀ msg' : ResultMessage, msg'.taskId ∈ t.tasks → msg'.taskId ∈ t'.tasks := by
    intro t msg t' ht _ hok
    have hstep : t.step (.result msg) = .ok t' := hok
    have henabled : t.enabled (.result msg) := trivial
    have htasks := (wellFormed_handleResultMessage ht.wellFormed hok).2
    exact ⟨ht.step henabled trivial hstep, fun msg' hmsg' => htasks ▸ hmsg'⟩
  -- results of different tasks commute, and so all orders come to the same
  have hsame : msgs.foldlM handleResultMessage s = msgs'.foldlM handleResultMessage s := by
    apply Except.foldlM_perm (K := State.Orderly) (C := fun t msg => msg.taskId ∈ t.tasks)
      (R := fun a b => a.taskId ≠ b.taskId) hkeep _ (fun _ _ => Ne.symm) hperm h hknown
    · exact List.pairwise_map.mp hnodup
    · intro t a b ht ha hb hne
      obtain ⟨r, hr⟩ := ht.wellFormed.tasks _ ha
      obtain ⟨q, hq⟩ := ht.wellFormed.tasks _ hb
      have hrefs : q ≠ r := by
        intro heq
        apply hne
        rw [← (ht.wellFormed.sound.index _ _ hr).2, ← (ht.wellFormed.sound.index _ _ hq).2, heq]
      exact handleResultMessage_comm ht.wellFormed hr hq hrefs
        (ht.booked.spacious ht.wellFormed hr hq hrefs)
  obtain ⟨s', hok, -⟩ : ∃ s', msgs.foldlM handleResultMessage s = .ok s' ∧
      (s'.WellFormed ∧ s'.tasks = s.tasks) := by
    apply Except.foldlM_ok (I := fun t : State => t.WellFormed ∧ t.tasks = s.tasks) _
      ⟨h.wellFormed, rfl⟩
    intro t msg hmsg ht
    have hmem : msg.taskId ∈ t.tasks := ht.2 ▸ hknown msg hmsg
    obtain ⟨r, hr⟩ := ht.1.tasks _ hmem
    obtain ⟨t', hok⟩ : ∃ t', t.handleResultMessage msg = .ok t' := by
      by_cases htakes : t.takes r
      · exact ⟨_, handleResultMessage_of_takes hr htakes⟩
      · exact ⟨_, handleResultMessage_of_not_takes ht.1 hr htakes⟩
    obtain ⟨hwellFormed, htasks⟩ := wellFormed_handleResultMessage ht.1 hok
    exact ⟨t', hok, hwellFormed, htasks.trans ht.2⟩
  exact ⟨s', s', hok, hsame ▸ hok, fun _ => rfl, fun _ => rfl⟩

end State

/-- While every command opens a group that is not there yet, the order of results does not matter in any
state. -/
theorem order_irrelevant {config : CoordinatorConfig} {ops : List Op} {s : State}
    (hrun : coordinator.Run State.opensFresh (initial config) ops s) : s.OrderIrrelevant := by
  have hinitial : (initial config).Orderly :=
    ⟨wellFormed_initial config, (regular_initial config).populated, fun _ hg => absurd rfl hg⟩
  have hend := hrun.invariant (I := State.Orderly)
    (fun _ _ _ h henabled hfresh hok => h.step henabled hfresh hok) hinitial
  exact hend.orderIrrelevant

/-- Two tasks of one group, and two of two others. -/
theorem order_irrelevant_shared : (after soloConfig
    (joining 1 5 ++ joining 2 6 ++ tasking 2 ++ tasking 1 ++ tasking 1)).OrderIrrelevant :=
  order_irrelevant (run_after (by decide +kernel))

/-! ## A group with too many tasks -/

namespace State

variable {s : State} {r q : Ref} {t t' : TaskId} {G : TaskGroup}

/-- The last result for which the group waits makes it done. -/
theorem not_takes_settled_last (hne : q ≠ r)
    (hg : (s.taskHeap.get q).groupId = (s.taskHeap.get r).groupId)
    (hG : s.groups.at? (s.taskHeap.get r).groupId = some G) (hone : G.remainingTasks = 1)
    (result : Result) : ¬ (s.settled r result).takes q := by
  rintro ⟨-, G', hG', hopen⟩
  have hget : (setStatus s.taskHeap r .tsDone).get q = s.taskHeap.get q := by
    rw [get_setStatus, if_neg hne]
  have hat : (s.groups.modify (s.taskHeap.get r).groupId fun G => acceptResult G result).at?
      ((setStatus s.taskHeap r .tsDone).get q).groupId = some G' := hG'
  rw [hget, hg, KeyedMap.at?_modify_self, hG] at hat
  apply hopen
  rw [← Option.some.inj hat, status_acceptResult, hone]
  rfl

/-- Of two tasks the one that is reported first is done, and the other one never. -/
theorem not_orderIrrelevant (hs : s.WellFormed) (hindex : s.tasks.at? t = some r)
    (hindex' : s.tasks.at? t' = some q) (hne : q ≠ r) (hr : s.takes r) (hq : s.takes q)
    (hg : (s.taskHeap.get q).groupId = (s.taskHeap.get r).groupId)
    (hG : s.groups.at? (s.taskHeap.get r).groupId = some G) (hone : G.remainingTasks = 1) :
    ¬ s.OrderIrrelevant := by
  intro h
  have hids : t ≠ t' := by
    rintro rfl
    exact hne (Option.some.inj (hindex'.symm.trans hindex))
  have hknown : ∀ msg ∈ [({ taskId := t, result := {} } : ResultMessage),
      { taskId := t', result := {} }], msg.taskId ∈ s.tasks := by
    simp only [List.mem_cons, List.not_mem_nil, or_false, forall_eq_or_imp, forall_eq]
    exact ⟨KeyedMap.mem_of_at? hindex, KeyedMap.mem_of_at? hindex'⟩
  obtain ⟨s₁, s₂, hok₁, hok₂, htasks, -⟩ := h [{ taskId := t, result := {} },
    { taskId := t', result := {} }] _ (List.Perm.swap _ _ []) (by simpa using hids) hknown
  -- the second result comes too late, whichever it is
  have hfirst (a b : ResultMessage) {p p' : Ref} (ha : s.tasks.at? a.taskId = some p)
      (hb : s.tasks.at? b.taskId = some p') (htakes : s.takes p) (hlate : ∀ result,
        ¬ (s.settled p result).takes p') {s' : State}
      (hok : [a, b].foldlM handleResultMessage s = .ok s') : s' = s.settled p a.result := by
    have hone := handleResultMessage_of_takes ha htakes
    have htwo : (s.settled p a.result).handleResultMessage b = .ok (s.settled p a.result) :=
      handleResultMessage_of_not_takes (wellFormed_handleResultMessage hs hone).1 hb (hlate _)
    rw [List.foldlM_cons, hone] at hok
    have hok : ((s.settled p a.result).handleResultMessage b >>= fun u => .ok u) = .ok s' := hok
    rw [htwo] at hok
    exact (Except.ok.inj hok).symm
  have hlast := not_takes_settled_last hne hg hG hone
  have hlast' := not_takes_settled_last hne.symm hg.symm (hg ▸ hG) hone
  have heq₁ := hfirst _ _ hindex hindex' hr hlast hok₁
  have heq₂ := hfirst _ _ hindex' hindex hq hlast' hok₂
  have hstatus := htasks t'
  rw [heq₁, heq₂] at hstatus
  have hboth : ((s.tasks.at? t').map (setStatus s.taskHeap r .tsDone).get).map Task.status =
      ((s.tasks.at? t').map (setStatus s.taskHeap q .tsDone).get).map Task.status := hstatus
  rw [hindex'] at hboth
  have hsame : ((setStatus s.taskHeap r .tsDone).get q).status =
      ((setStatus s.taskHeap q .tsDone).get q).status := Option.some.inj hboth
  rw [status_setStatus, status_setStatus, if_neg hne, if_pos rfl, hq.1] at hsame
  cases hsame

end State

/-- Commands for no games bring the numbers of the groups round, and the next command adds a task to a
group that waits for one result only. -/
theorem order_matters : ¬ ∀ (config : CoordinatorConfig) (ops : List Op) (s : State),
    coordinator.FreeRun (initial config) ops s → s.OrderIrrelevant := by
  intro hall
  obtain ⟨ops₀, s₀, node₀, hrun₀, halone₀, hfit₀, hindex₀, hget₀, hgroup₀, hnext₀, hgroupId₀⟩ :
      ∃ ops s node, coordinator.FreeRun (initial soloConfig) ops s ∧ s.Alone soloConfig 1 node ∧
        node.eligible (State.template (soloArgs 1)) ∧ s.tasks.at? 1 = some 0 ∧
        s.taskHeap.get 0 = State.subTask { State.template (soloArgs 1) with groupId := 1 } 1 1 ∧
        s.groups.at? 1 = some (State.newGroup 1 1) ∧ s.subTasks = 1 ∧ s.nextGroupId = 2 :=
    ⟨joining 1 5 ++ tasking 1, _, _, run_after (by decide +kernel), ⟨rfl, rfl, rfl, rfl, rfl⟩, rfl,
      by decide +kernel, by decide +kernel, by decide +kernel, by decide +kernel, by decide +kernel⟩
  have hknown₀ : soloConfig.gamelist.offers (State.template (soloArgs 0)) := by decide
  have hknown₁ : soloConfig.gamelist.offers (State.template (soloArgs 1)) := by decide
  -- commands for no games use up the ids of groups, until the first one comes round again
  obtain ⟨ops₁, s₁, hrun₁, halone₁, hgroupId₁, hheap₁, htasks₁, hgroups₁, -⟩ :=
    halone₀.idle hknown₀ hfit₀ rfl (2 ^ 32 - 1)
  obtain ⟨s₂, hrun₂, -, hgroups₂, hcase⟩ := halone₁.command hknown₁ hfit₀
  rcases hcase with ⟨hzero, -⟩ | ⟨-, -, hheap₂, htasks₂⟩
  · cases hzero
  have hrun := (hrun₀.append hrun₁).append hrun₂
  have hwellFormed₁ := (wellFormed_throughout (hrun₀.append hrun₁) (wellFormed_initial soloConfig)).2
  have hwellFormed₂ := (wellFormed_throughout hrun (wellFormed_initial soloConfig)).2
  have hnext : s₁.taskHeap.next = 1 := by
    rw [hheap₁]
    exact hnext₀
  have hid : s₁.nextTaskId = 2 := by
    rw [hwellFormed₁.nextTaskId, hnext]
    rfl
  have hgroupId : s₁.nextGroupId = 1 := by
    rw [hgroupId₁, hgroupId₀]
    rfl
  have hgroup : s₂.groups.at? 1 = some (State.newGroup 1 1) := by
    rw [hgroups₂]
    exact KeyedMap.at?_emplace_of_at? (hgroups₁ 1 _ hgroup₀)
  have hfirst : s₂.taskHeap.get 0 =
      State.subTask { State.template (soloArgs 1) with groupId := 1 } 1 1 := by
    rw [hheap₂, Heap.get_alloc_ne (by rw [hnext]; decide), hheap₁, hget₀]
  have hsecond : s₂.taskHeap.get 1 =
      State.subTask { State.template (soloArgs 1) with groupId := 1 } 2 1 := by
    rw [hheap₂, ← hnext, Heap.get_alloc_self, hid, hgroupId]
    rfl
  have hindex : s₂.tasks.at? 1 = some 0 := by
    rw [htasks₂, htasks₁]
    exact KeyedMap.at?_emplace_of_at? hindex₀
  have hindex' : s₂.tasks.at? 2 = some 1 := by
    have hnew : (2 : TaskId) ∉ s₁.tasks := by
      intro hmem
      obtain ⟨r, hr⟩ := hwellFormed₁.tasks 2 hmem
      have hsound := hwellFormed₁.sound.index 2 r hr
      have hlt : r < s₁.taskHeap.next := hsound.1
      rw [hnext, Nat.lt_one_iff] at hlt
      have hone : (s₁.taskHeap.get r).id = 2 := hsound.2
      rw [hlt, hheap₁, hget₀] at hone
      cases hone
    rw [htasks₂, hid, hnext]
    exact KeyedMap.at?_emplace_self hnew
  -- two tasks run in a group that counts on one
  refine State.not_orderIrrelevant hwellFormed₂ hindex hindex' (by decide) ?_ ?_ ?_ (G :=
    State.newGroup 1 1) ?_ rfl (hall soloConfig _ s₂ hrun)
  · refine ⟨by rw [hfirst]; rfl, State.newGroup 1 1, ?_, by decide⟩
    rw [hfirst]
    exact hgroup
  · refine ⟨by rw [hsecond]; rfl, State.newGroup 1 1, ?_, by decide⟩
    rw [hsecond]
    exact hgroup
  · rw [hfirst, hsecond]
    rfl
  · rw [hfirst]
    exact hgroup

end Bem
