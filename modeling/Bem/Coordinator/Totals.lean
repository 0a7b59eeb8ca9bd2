import Bem.Coordinator.Booking
import Bem.Coordinator.LongRuns
import Bem.Node.Reports
import Mathlib.Algebra.BigOperators.Group.Finset.Basic
import Mathlib.Algebra.Order.BigOperators.Group.List

/-!
# The total of a group

What the nodes report are counters of whole tasks.  The tasks of a group share out the games of its
command, so that the counters of its results can be added up without a wrap.
-/

namespace Bem

/-! ## Sums of results -/

namespace Result

/-- The counters of a result. -/
def counters : List (Result → UInt32) :=
  [games, failedGames, winAgent1, winAgent2, timeoutAgent1, timeoutAgent2]

/-- The counters are the sums of those of the results, as natural numbers. -/
def Totals (r : Result) (rs : List Result) : Prop :=
  ∀ f ∈ counters, (f r).toNat = (rs.map fun r => (f r).toNat).sum

theorem toNat_sum {l : List UInt32} (h : (l.map UInt32.toNat).sum < 2 ^ 32) :
    l.sum.toNat = (l.map UInt32.toNat).sum := by
  induction l with
  | nil => rfl
  | cons i l ih =>
    rw [List.map_cons, List.sum_cons] at h
    rw [List.sum_cons, List.map_cons, List.sum_cons, UInt32.toNat_add, ih (by omega)]
    exact Nat.mod_eq_of_lt h

theorem Consistent.counter_le {r : Result} (h : r.Consistent) {f : Result → UInt32}
    (hf : f ∈ counters) : (f r).toNat ≤ r.games.toNat := by
  obtain ⟨hsum, htimeout1, htimeout2⟩ := h
  simp only [counters, List.mem_cons, List.not_mem_nil, or_false] at hf
  rcases hf with rfl | rfl | rfl | rfl | rfl | rfl <;> omega

theorem counter_sum {f : Result → UInt32} (hf : f ∈ counters) (rs : List Result) :
    f (sum rs) = (rs.map f).sum := by
  simp only [counters, List.mem_cons, List.not_mem_nil, or_false] at hf
  rcases hf with rfl | rfl | rfl | rfl | rfl | rfl <;> rfl

section Sum

variable {rs : List Result} (hall : ∀ r ∈ rs, r.Consistent)
  (hfew : (rs.map fun r => r.games.toNat).sum < 2 ^ 32)

include hall hfew

theorem totals_sum : (sum rs).Totals rs := by
  intro f hf
  have hle : (rs.map fun r => (f r).toNat).sum ≤ (rs.map fun r => r.games.toNat).sum :=
    List.sum_le_sum fun r hr => (hall r hr).counter_le hf
  rw [counter_sum hf, toNat_sum]
  · rw [List.map_map]
    rfl
  · rw [List.map_map]
    exact hle.trans_lt hfew

theorem consistent_sum : (sum rs).Consistent := by
  have htotals := totals_sum hall hfew
  have hgames := htotals games (by simp [counters])
  have hfailed := htotals failedGames (by simp [counters])
  have hwin1 := htotals winAgent1 (by simp [counters])
  have hwin2 := htotals winAgent2 (by simp [counters])
  have htime1 := htotals timeoutAgent1 (by simp [counters])
  have htime2 := htotals timeoutAgent2 (by simp [counters])
  constructor
  · rw [hgames, hfailed, hwin1, hwin2, ← List.sum_map_add, ← List.sum_map_add]
    exact List.sum_le_sum fun r hr => (hall r hr).games
  · rw [htime1, hwin2]
    exact List.sum_le_sum fun r hr => (hall r hr).timeout1
  · rw [htime2, hwin1]
    exact List.sum_le_sum fun r hr => (hall r hr).timeout2

end Sum

end Result

/-! ## Shares of the games -/

theorem sum_used_le {selection : Selection} (hne : selection.nodeIds ≠ []) :
    (selection.used.map fun share => share.2.toNat).sum ≤ selection.task.games.toNat := by
  have hsplit := Nat.div_add_mod selection.task.games.toNat selection.nodeIds.length
  rw [sum_used hne]
  split
  · omega
  · omega

/-- What does not depend on the status is the same for tasks that differ in it only. -/
theorem Task.congr_order {α : Type*} {task task' : Task} (f : Task → α)
    (hf : ∀ task, f task.order = f task) (h : task.order = task'.order) : f task = f task' := by
  rw [← hf task, h, hf]

namespace Ledger

variable {L L' : Ledger} {a : Act} {g : TaskId} {nNodes requested : Nat}
  {log : List (TaskId × Result)}

/-- The games of the tasks of a group. -/
def games (L : Ledger) (g : TaskId) : Nat := ∑ r ∈ L.members g, (L.heap.get r).games.toNat

theorem Step.task_games (h : Step L a L') {r : Ref} (hr : r < L.heap.next) :
    (L'.heap.get r).games = (L.heap.get r).games :=
  Task.congr_order Task.games (fun _ => rfl) (h.order hr)

theorem Step.games (h : Step L a L') (ha : ∀ n task, a = .create n task → task.groupId ≠ g) :
    L'.games g = L.games g := by
  unfold Ledger.games
  rw [h.members ha]
  refine Finset.sum_congr rfl fun r hr => ?_
  rw [h.task_games (mem_members.mp hr).1]

theorem games_create {n : NodeId} {d : Desk} {task : Task} (hg : task.groupId = g) :
    (L.create n d task).games g = task.games.toNat + L.games g := by
  unfold Ledger.games
  rw [members_create hg, Finset.sum_insert notMem_members_next, heap_create, Heap.get_alloc_self]
  congr 1
  refine Finset.sum_congr rfl fun r hr => ?_
  rw [Heap.get_alloc_ne (Nat.ne_of_lt (mem_members.mp hr).1)]

/-- The tasks of the group share out the games asked for, and each result in the log is that of a
whole task. -/
structure Whole (L : Ledger) (g : TaskId) (requested : Nat) (log : List (TaskId × Result)) :
    Prop where
  games : L.games g ≤ requested
  results : ∀ e ∈ log, ∃ r, L.index e.1 = some r ∧ (L.heap.get r).groupId = g ∧
    e.2.games = (L.heap.get r).games ∧ e.2.Consistent

theorem Whole.step (hL : L.Whole g requested log) (hsound : L.Sound) (h : Step L a L')
    (hcreate : ∀ n task, a = .create n task → task.groupId ≠ g) : L'.Whole g requested log where
  games := (h.games hcreate).le.trans hL.games
  results e he := by
    obtain ⟨r, hindex, hg, hgames, hconsistent⟩ := hL.results e he
    have hr := (hsound.index _ _ hindex).1
    exact ⟨r, h.index_eq hindex, (h.get hr).2.trans hg, hgames.trans (h.task_games hr).symm,
      hconsistent⟩

/-- Once the group is done every task of it has its result in the log. -/
theorem Whole.sum_games (hL : L.Whole g requested log) (hbooked : L.Booked g nNodes log)
    (hsound : L.Sound) {G : TaskGroup} (hG : L.group g = some G) (hdone : G.status = .tsDone) :
    ((log.map Prod.snd).map fun result => result.games.toNat).sum = L.games g := by
  let ref (t : TaskId) : Ref := (L.index t).getD 0
  have hat (e : TaskId × Result) (he : e ∈ log) : ref e.1 ∈ L.members g ∧
      (L.heap.get (ref e.1)).id = e.1 ∧ e.2.games = (L.heap.get (ref e.1)).games := by
    obtain ⟨r, hindex, hg, hgames, -⟩ := hL.results e he
    have href : ref e.1 = r := by
      show (L.index e.1).getD 0 = r
      rw [hindex]
      rfl
    obtain ⟨hr, hid⟩ := hsound.index _ _ hindex
    rw [href]
    exact ⟨mem_members.mpr ⟨hr, hg⟩, hid, hgames⟩
  -- no task is in the log twice, since its id is not
  have hnodup : (log.map fun e => ref e.1).Nodup := by
    have hfst : (log.map fun e => ref e.1) = (log.map Prod.fst).map ref := by
      rw [List.map_map]
      rfl
    rw [hfst]
    refine List.Nodup.map_on (fun t ht t' ht' heq => ?_) hbooked.nodup
    obtain ⟨e, he, rfl⟩ := List.mem_map.mp ht
    obtain ⟨e', he', rfl⟩ := List.mem_map.mp ht'
    rw [← (hat e he).2.1, ← (hat e' he').2.1, heq]
  -- the group is done when as many results have come as it has tasks
  have hall : (log.map fun e => ref e.1).toFinset = L.members g := by
    obtain ⟨G', hG', hremaining, -, hfinished⟩ := hbooked.group
    cases (show some G = some G' from hG.symm.trans hG')
    refine Finset.eq_of_subset_of_card_le (fun r hr => ?_) ?_
    · obtain ⟨e, he, rfl⟩ := List.mem_map.mp (List.mem_toFinset.mp hr)
      exact (hat e he).1
    · rw [List.toFinset_card_of_nodup hnodup, List.length_map]
      rw [hfinished hdone, show (0 : UInt32).toNat = 0 from rfl, Nat.zero_add] at hremaining
      exact hbooked.room.trans hremaining.ge
  calc ((log.map Prod.snd).map fun result => result.games.toNat).sum
      = (log.map fun e => (L.heap.get (ref e.1)).games.toNat).sum := by
        rw [List.map_map]
        congr 1
        refine List.map_congr_left fun e he => ?_
        show e.2.games.toNat = _
        rw [(hat e he).2.2]
    _ = ((log.map fun e => ref e.1).map fun r => (L.heap.get r).games.toNat).sum := by
        rw [List.map_map]
        rfl
    _ = L.games g := by
        unfold Ledger.games
        rw [← List.sum_toFinset _ hnodup, hall]

end Ledger

namespace State

variable {s s' : State} {g : TaskId} {requested : Nat} {log : List (TaskId × Result)}

/-! ## What the nodes are given and what they report -/

/-- Every task that was given out is on the heap. -/
def Logged (s : State) : Prop :=
  ∀ call ∈ s.assignCalls, ∃ r < s.taskHeap.next, (s.taskHeap.get r).order = call.task.order

theorem order_step {op : Op} {r : Ref} (hs : s.WellFormed) (hok : s.step op = .ok s')
    (hr : r < s.taskHeap.next) :
    r < s'.taskHeap.next ∧ (s'.taskHeap.get r).order = (s.taskHeap.get r).order := by
  have hrule := (follows_step hs hok).does.invariant
    (I := fun L => r < L.heap.next ∧ (L.heap.get r).order = (s.taskHeap.get r).order)
    (fun L a L' hL _ hstep =>
      ⟨hL.1.trans_le hstep.next_le, (hstep.order hL.1).trans hL.2⟩) ⟨hr, rfl⟩
  exact hrule

theorem Logged.assignShare {task : Task} {share : NodeId × UInt32} (h : s.Logged)
    (hok : assignShare task s share = .ok s') : s'.Logged := by
  rcases assignShare_cases hok with ⟨-, rfl⟩ | ⟨-, node, tt, heap, -, -, rfl, rfl⟩
  · exact h
  · intro call hcall
    rcases List.mem_append.mp hcall with hold | hnew
    · obtain ⟨r, hr, horder⟩ := h call hold
      refine ⟨r, Nat.lt_succ_of_lt hr, ?_⟩
      rw [Heap.get_alloc_ne (Nat.ne_of_lt hr), horder]
    · cases List.mem_singleton.mp hnew
      exact ⟨s.taskHeap.next, Nat.lt_succ_self _, by rw [Heap.get_alloc_self]⟩

theorem Logged.balanceTask {r : Ref} (h : s.Logged) (hr : r < s.taskHeap.next)
    (hok : s.balanceTask r = .ok s') : s'.Logged ∧ s'.taskHeap.next = s.taskHeap.next := by
  rcases balanceTask_cases hok with rfl | ⟨n, node, -, -, -, rfl⟩
  · exact ⟨h, rfl⟩
  · refine ⟨fun call hcall => ?_, rfl⟩
    rcases List.mem_append.mp hcall with hold | hnew
    · obtain ⟨q, hq, horder⟩ := h call hold
      exact ⟨q, hq, (order_setStatus _ _ _ _).trans horder⟩
    · cases List.mem_singleton.mp hnew
      exact ⟨r, hr, order_setStatus _ _ _ _⟩

theorem logged_step {op : Op} (hs : s.WellFormed) (h : s.Logged) (hok : s.step op = .ok s') :
    s'.Logged := by
  have hother (hcalls : s'.assignCalls = s.assignCalls) : s'.Logged := by
    intro call hcall
    rw [hcalls] at hcall
    obtain ⟨r, hr, horder⟩ := h call hcall
    have hkept := order_step hs hok hr
    exact ⟨r, hkept.1, hkept.2.trans horder⟩
  by_cases hassign : op = .assign
  · subst hassign
    rcases assignShares_cases hok with ⟨-, rfl⟩ | ⟨selection, -, hloop⟩
    · exact h
    · exact Except.foldlM_rest (I := fun _ t => t.Logged)
        (fun share _ t t' ht hstep => Logged.assignShare ht hstep) h hloop
  by_cases hbalance : op = .balance
  · subst hbalance
    obtain ⟨s₁, hloop, rfl⟩ := balanceTasks_eq_ok hok
    let I (l : List Ref) (t : State) : Prop := (∀ r ∈ l, r < t.taskHeap.next) ∧ t.Logged
    have hI : I [] s₁ := by
      apply Except.foldlM_rest (I := I) _ _ hloop
      · intro r l t t' ht hstep
        have hnext := ht.2.balanceTask (ht.1 r List.mem_cons_self) hstep
        exact ⟨fun q hq => hnext.2 ▸ ht.1 q (List.mem_cons_of_mem r hq), hnext.1⟩
      · refine ⟨fun r hr => ?_, h⟩
        obtain ⟨e, he, rfl⟩ := List.mem_map.mp hr
        exact (hs.sound.index e.1 e.2 (KeyedMap.mem_pointees.mp he)).1
    exact hI.2
  · exact hother (assignCalls_step hok hassign hbalance)

/-- The program of a node sends the message, when the tasks it has received were given out. -/
def Reported (s : State) (msg : ResultMessage) : Prop :=
  ∃ config ops node, NodeProgram.program.FreeRun (NodeProgram.initial config) ops node ∧
    msg ∈ node.reported ∧ ∀ task ∈ node.receivedTasks, ∃ call ∈ s.assignCalls, call.task = task

/-- Only the programs of nodes send results. -/
def reportsPlayed (s : State) : Op → Prop
  | .result msg => s.Reported msg
  | _ => True

/-- What is reported is the result of the whole task. -/
theorem Reported.whole {msg : ResultMessage} {r : Ref} (h : s.Reported msg) (hs : s.Regular)
    (hlogged : s.Logged) (hr : s.tasks.at? msg.taskId = some r) :
    msg.result.games = (s.taskHeap.get r).games ∧ msg.result.Consistent := by
  obtain ⟨config, ops, node, hrun, hmsg, hgiven⟩ := h
  have hsublist := (NodeProgram.inOrder_run hrun).2.sublist
  obtain ⟨task, htask, hreports⟩ := NodeProgram.exists_of_sublistForall₂ hsublist hmsg
  obtain ⟨call, hcall, rfl⟩ := hgiven task htask
  obtain ⟨q, hq, horder⟩ := hlogged call hcall
  have hid : (s.taskHeap.get q).id = call.task.id := 
    Task.congr_order Task.id (fun _ => rfl) horder
  have hsame : q = r := by
    have hindex := (hs.task?_id hq).1
    rw [hid, ← hreports.taskId, hr] at hindex
    exact (Option.some.inj hindex).symm
  have hgames : (s.taskHeap.get q).games = call.task.games :=
    Task.congr_order Task.games (fun _ => rfl) horder
  rw [hreports.games, ← hgames, hsame]
  exact ⟨rfl, hreports.consistent⟩

/-! ## The account and the games -/

theorem at?_step {op : Op} {t : TaskId} {r : Ref} (hs : s.WellFormed) (hok : s.step op = .ok s')
    (hr : s.tasks.at? t = some r) : s'.tasks.at? t = some r :=
  (follows_step hs hok).does.invariant (I := fun L => L.index t = some r)
    (fun _ _ _ hL _ hstep => hstep.index_eq hL) hr

theorem whole_step {op : Op} (hs : s.Regular) (hlogged : s.Logged)
    (hwhole : s.ledger.Whole g requested log) (hknown : s.group? g ≠ none)
    (hplayed : s.reportsPlayed op) (hfresh : s.opensFresh op) (hok : s.step op = .ok s') :
    s'.ledger.Whole g requested (log ++ s.accepted g op) := by
  have hother (hcreate : ∀ n task, s.mayDo op (.create n task) → task.groupId ≠ g) :
      s'.ledger.Whole g requested log := by
    have hboth : s'.ledger.Sound ∧ s'.ledger.Whole g requested log := by
      apply (follows_step hs.wellFormed hok).does.invariant
        (I := fun L => L.Sound ∧ L.Whole g requested log) _ ⟨hs.wellFormed.sound, hwhole⟩
      intro L a L' hL hQ hstep
      exact ⟨hL.1.step hstep, hL.2.step hL.1 hstep fun n task ha => hcreate n task (ha ▸ hQ)⟩
    exact hboth.2
  cases op with
  | result msg =>
    have hkept := hother fun _ _ h => h.elim
    refine ⟨hkept.games, fun e he => ?_⟩
    rcases List.mem_append.mp he with hold | hnew
    · exact hkept.results e hold
    · -- the result of a task of the group, as a node has reported it
      have haccepts : s.accepts g msg ∧ e = (msg.taskId, msg.result) := by
        change e ∈ (if s.accepts g msg then [(msg.taskId, msg.result)] else []) at hnew
        split at hnew
        next h => exact ⟨h, List.mem_singleton.mp hnew⟩
        next => exact absurd hnew List.not_mem_nil
      obtain ⟨⟨task, htask, hg, -⟩, rfl⟩ := haccepts
      obtain ⟨r, hr, rfl⟩ := task?_eq_some.mp htask
      have hnext := (hs.wellFormed.sound.index _ _ hr).1
      have horder := (order_step hs.wellFormed hok hnext).2
      obtain ⟨hgames, hconsistent⟩ := Reported.whole hplayed hs hlogged hr
      refine ⟨r, at?_step hs.wellFormed hok hr, ?_, ?_, hconsistent⟩
      · exact (Task.congr_order Task.groupId (fun _ => rfl) horder).trans hg
      · exact hgames.trans (Task.congr_order Task.games (fun _ => rfl) horder).symm
  | assign =>
    change s'.ledger.Whole g requested (log ++ [])
    rw [List.append_nil]
    rcases assignShares_cases hok with ⟨-, rfl⟩ | ⟨selection, hselection, -⟩
    · exact hwhole
    · apply hother
      intro n task hgroup hg
      -- the group that is opened is not the one of the account
      have hnone := hfresh (by rw [hselection]; exact Option.some_ne_none _)
      rw [← show task.groupId = s.nextGroupId from hgroup, hg] at hnone
      exact hknown hnone
  | _ =>
    change s'.ledger.Whole g requested (log ++ [])
    rw [List.append_nil]
    exact hother fun _ _ h => h.elim

/-- The tasks of a new group share out the games of the command. -/
theorem whole_assignShares {selection : Selection} (hs : s.Regular)
    (hfresh : s.groups.at? s.nextGroupId = none) (hselection : s.selection = some selection)
    (hok : s.assignShares = .ok s') :
    s'.ledger.Whole s.nextGroupId selection.task.games.toNat [] := by
  have hne := (hs.populated.selection selection hselection).1
  let I (l : List (NodeId × UInt32)) (L : Ledger) : Prop :=
    L.games s.nextGroupId + (l.map fun share => share.2.toNat).sum ≤ selection.task.games.toNat
  have hI : I [] s'.ledger := by
    apply assignShares_rule_used (I := I) hs.wellFormed hselection _ _ hok
    · have hempty : (s.ledger.openGroup s.nextGroupId selection.nodeIds.length).games
          s.nextGroupId = 0 := by
        rw [Ledger.Step.games .openGroup fun _ _ h => by cases h]
        unfold Ledger.games
        rw [Ledger.members_eq_empty hs.wellFormed.sound hfresh, Finset.sum_empty]
      show _ + _ ≤ _
      rw [hempty, Nat.zero_add]
      exact sum_used_le hne
    · intro share l L task L' _ hL hgroup hgames hstep
      cases hstep with
      | create =>
        change L.games s.nextGroupId + ((share :: l).map fun share => share.2.toNat).sum ≤ _ at hL
        rw [List.map_cons, List.sum_cons] at hL
        show _ + _ ≤ _
        rw [Ledger.games_create hgroup, hgames]
        omega
  exact ⟨hI, fun e he => absurd he List.not_mem_nil⟩

/-- The games of the tasks of a group. -/
def groupGames (s : State) (g : TaskId) : Nat :=
  ((s.tasks.pointees.filter fun e => (s.taskHeap.get e.2).groupId = g).map fun e =>
    (s.taskHeap.get e.2).games.toNat).sum

theorem Regular.groupGames_eq (hs : s.Regular) (g : TaskId) :
    s.groupGames g = s.ledger.games g := by
  have hrefs : s.groupGames g = (((s.tasks.pointees.map Prod.snd).filter fun r =>
      (s.taskHeap.get r).groupId = g).map fun r => (s.taskHeap.get r).games.toNat).sum := by
    rw [List.filter_map, List.map_map]
    rfl
  rw [hrefs, ← List.sum_toFinset _ (hs.wellFormed.nodup_refs.filter _)]
  refine Finset.sum_congr ?_ fun _ _ => rfl
  ext r
  rw [List.mem_toFinset, List.mem_filter, hs.mem_refs, Ledger.mem_members, decide_eq_true_eq]
  rfl

/-- The aggregate result of a group, for a command that asked for so many games. -/
structure AddsUp (s : State) (g : TaskId) (requested : UInt32) (results : List Result)
    (aggregate : Result) : Prop where
  totals : aggregate.Totals results
  games : aggregate.games.toNat = s.groupGames g
  requested : s.groupGames g ≤ requested.toNat
  consistent : aggregate.Consistent

theorem addsUp {requested : UInt32} {nNodes : Nat} {G : TaskGroup} (hs : s.Regular)
    (hbooked : s.ledger.Booked g nNodes log) (hwhole : s.ledger.Whole g requested.toNat log)
    (hG : s.group? g = some G) (hdone : G.status = .tsDone) :
    s.AddsUp g requested (log.map Prod.snd) G.aggregateResult := by
  have hgames := hwhole.sum_games hbooked hs.wellFormed.sound hG hdone
  have hle := hs.groupGames_eq g ▸ hwhole.games
  have hfew : ((log.map Prod.snd).map fun result => result.games.toNat).sum < 2 ^ 32 := by
    rw [hgames]
    exact hwhole.games.trans_lt requested.toNat_lt
  have hall : ∀ result ∈ log.map Prod.snd, result.Consistent := by
    intro result hresult
    obtain ⟨e, he, rfl⟩ := List.mem_map.mp hresult
    obtain ⟨-, -, -, -, hconsistent⟩ := hwhole.results e he
    exact hconsistent
  have hsum : G.aggregateResult = Result.sum (log.map Prod.snd) := by
    obtain ⟨G', hG', -, hsum, -⟩ := hbooked.group
    cases (show some G = some G' from hG.symm.trans hG')
    exact hsum
  have htotals := Result.totals_sum hall hfew
  rw [hsum]
  refine ⟨htotals, ?_, hle, Result.consistent_sum hall hfew⟩
  rw [htotals Result.games List.mem_cons_self, hgames, hs.groupGames_eq]

/-! ## Runs -/

/-- Only a command with a selection opens a group. -/
theorem group?_step {op : Op} (hs : s.WellFormed) (hok : s.step op = .ok s')
    (hnone : s.group? g = none) (hsome : s'.group? g ≠ none) :
    op = .assign ∧ ∃ selection, s.selection = some selection ∧ s.nextGroupId = g := by
  by_contra hnot
  apply hsome
  apply (follows_step hs hok).does.invariant (I := fun L => L.group g = none) _ hnone
  intro L a L' hL hQ hstep
  refine hstep.group_eq_none hL fun nNodes ha => hnot ?_
  subst ha
  cases op with
  | assign =>
    obtain ⟨hg, selection, hselection, -⟩ := hQ
    exact ⟨rfl, selection, hselection, hg.symm⟩
  | _ => exact hQ.elim

end State

section Runs

variable {P : State → Op → Prop} {config : CoordinatorConfig} {ops : List Op} {s s' : State}
  {g : TaskId}

/-- Where a group has come from. -/
theorem opened_of_run (hrun : coordinator.Run P s ops s') (hs : s.WellFormed)
    (hnone : s.group? g = none) (hsome : s'.group? g ≠ none) :
    ∃ ops₁ s₀ selection ops₂, ops = ops₁ ++ .assign :: ops₂ ∧ coordinator.Run P s ops₁ s₀ ∧
      s₀.selection = some selection ∧ s₀.nextGroupId = g ∧ s₀.group? g = none ∧
      coordinator.Run P s₀ (.assign :: ops₂) s' := by
  induction hrun with
  | nil => exact absurd hnone hsome
  | @cons s s₁ s' op ops henabled hP hok hrest ih =>
    by_cases hopened : s₁.group? g = none
    · obtain ⟨ops₁, s₀, selection, ops₂, rfl, hfirst, hopening⟩ :=
        ih (State.follows_step hs hok).wellFormed hopened hsome
      exact ⟨op :: ops₁, s₀, selection, ops₂, rfl, .cons henabled hP hok hfirst, hopening⟩
    · obtain ⟨rfl, selection, hselection, hg⟩ := State.group?_step hs hok hnone hopened
      exact ⟨[], s, selection, ops, rfl, .nil s, hselection, hg, hnone,
        .cons henabled hP hok hrest⟩

/-- The results of a group that is done add up to the games of its tasks, for the command that has
opened it, as long as no command finds the id of its group taken. -/
theorem results_add_up
    (hrun : coordinator.Run (fun s op => s.reportsPlayed op ∧ s.opensFresh op) (initial config) ops s)
    (hfew : s.subTasks < 2 ^ 32) {G : TaskGroup} (hG : s.group? g = some G)
    (hdone : G.status = .tsDone) :
    ∃ ops₁ s₀ selection ops₂, ops = ops₁ ++ .assign :: ops₂ ∧
      coordinator.FreeRun (initial config) ops₁ s₀ ∧ s₀.selection = some selection ∧
      s₀.nextGroupId = g ∧ s.AddsUp g selection.task.games
        ((coordinator.outputs (State.accepted g) s₀ (.assign :: ops₂)).map Prod.snd)
        G.aggregateResult := by
  obtain ⟨ops₁, s₀, selection, ops₂, rfl, hrun₁, hselection, rfl, hnone, hrun₂⟩ :=
    opened_of_run hrun (wellFormed_initial config) rfl (by rw [hG]; exact Option.some_ne_none G)
  refine ⟨ops₁, s₀, selection, ops₂, rfl, hrun₁.free, hselection, rfl, ?_⟩
  have hwellFormed := wellFormed_run hrun₁ (wellFormed_initial config)
  have hle := subTasks_le_of_run hrun₂ hwellFormed
  have hs₀ := (regular_throughout hrun₁ (regular_initial config) (hle.trans_lt hfew)).2
  have hlogged₀ := hrun₁.invariant (I := fun t => t.WellFormed ∧ t.Logged)
    (fun t op t' ht _ _ hok => ⟨(State.follows_step ht.1 hok).wellFormed,
      State.logged_step ht.1 ht.2 hok⟩)
    ⟨wellFormed_initial config, fun call hcall => absurd hcall List.not_mem_nil⟩
  cases hrun₂ with
  | @cons _ s₁ _ _ _ henabled _ hok hrest =>
    have hassign : s₀.step .assign = .ok s₁ := hok
    have hwellFormed₁ := (State.follows_step hwellFormed hassign).wellFormed
    have hready : s₀.enabled .assign := henabled
    have hs₁ := hs₀.step hready hassign
      ((subTasks_le_of_run hrest hwellFormed₁).trans_lt hfew)
    have hregular := regular_throughout hrest hs₁ hfew
    rw [Machine.outputs, hok]
    -- the account is opened by the command, and kept up to date from there
    have hend := (hrest.and hregular.1).outputs_invariant (State.accepted s₀.nextGroupId)
      (I := fun t log => t.Logged ∧
        t.ledger.Booked s₀.nextGroupId selection.nodeIds.length log ∧
        t.ledger.Whole s₀.nextGroupId selection.task.games.toNat log)
      (by
        intro t op t' log ht _ hP hok
        obtain ⟨hlogged, hbooked, hwhole⟩ := ht
        obtain ⟨⟨hplayed, hfresh⟩, ht⟩ := hP
        have hstep : t.step op = .ok t' := hok
        have hknown : t.group? s₀.nextGroupId ≠ none := by
          obtain ⟨G, hG, -⟩ := hbooked.group
          rw [show t.group? s₀.nextGroupId = some G from hG]
          exact Option.some_ne_none G
        exact ⟨State.logged_step ht.wellFormed hlogged hstep,
          State.booked_step ht.wellFormed hbooked hfresh hstep,
          State.whole_step ht hlogged hwhole hknown hplayed hfresh hstep⟩)
      ⟨State.logged_step hwellFormed hlogged₀.2 hassign,
        State.booked_assignShares hs₀.wellFormed hs₀.populated hnone hselection hassign,
        State.whole_assignShares hs₀ hnone hselection hassign⟩
    exact State.addsUp hregular.2 hend.2.1 hend.2.2 hG hdone

end Runs

/-! ## A group of one game -/

/-- The first sub-task of `tasking 1`. -/
def soloTask : Task := State.subTask { State.template (soloArgs 1) with groupId := 1 } 1 1

/-- What a node reports when it has played it and nobody has won. -/
def soloReport : ResultMessage where
  taskId := 1
  result := { games := 1 }

/-- What the coordinator makes of the group then. -/
def soloGroup : TaskGroup where
  id := 1
  remainingTasks := 0
  status := .tsDone
  aggregateResult := { games := 1 }

def soloReporting : List Op := joining 1 5 ++ tasking 1 ++ [.result soloReport]

theorem soloReport_reported : (after soloConfig (joining 1 5 ++ tasking 1)).Reported soloReport := by
  let ops : List NodeProgram.Op := NodeProgram.receiving (.task { task := soloTask }) ++ [.instruct] ++
    NodeProgram.starting ++ NodeProgram.playing ++ NodeProgram.reporting
  have hrun : NodeProgram.program.FreeRun (NodeProgram.initial NodeProgram.soloNode) ops _ :=
    Machine.run_after (by decide +kernel)
  refine ⟨_, _, _, hrun, by decide +kernel, fun task htask => ?_⟩
  have hreceived : (NodeProgram.program.after (NodeProgram.initial NodeProgram.soloNode)
      ops).receivedTasks = [soloTask] := by decide +kernel
  rw [hreceived] at htask
  rw [List.mem_singleton.mp htask]
  decide +kernel

theorem run_soloReporting : coordinator.Run (fun s op => s.reportsPlayed op ∧ s.opensFresh op)
    (initial soloConfig) soloReporting (after soloConfig soloReporting) := by
  have hfirst : coordinator.Run State.opensFresh (initial soloConfig) (joining 1 5 ++ tasking 1)
      (after soloConfig (joining 1 5 ++ tasking 1)) := run_after (by decide +kernel)
  have hplayed : ∀ op ∈ joining 1 5 ++ tasking 1, ∀ s : State, s.opensFresh op →
      s.reportsPlayed op ∧ s.opensFresh op := by
    intro op hop s hfresh
    refine ⟨?_, hfresh⟩
    simp only [joining, tasking, List.cons_append, List.nil_append, List.mem_cons,
      List.not_mem_nil, or_false] at hop
    rcases hop with rfl | rfl | rfl | rfl | rfl <;> trivial
  have hlast : coordinator.Run (fun s op => s.reportsPlayed op ∧ s.opensFresh op)
      (after soloConfig (joining 1 5 ++ tasking 1)) [.result soloReport]
      (after soloConfig soloReporting) := by
    have hstep : coordinator.FreeRun (after soloConfig (joining 1 5 ++ tasking 1))
        [.result soloReport] (after soloConfig soloReporting) :=
      run_from (by decide +kernel) (by decide +kernel)
    obtain ⟨henabled, -, hok⟩ := hstep.step_eq_ok
    exact .cons henabled ⟨soloReport_reported, trivial⟩ hok (.nil _)
  exact (hfirst.imp_mem hplayed).append hlast

/-- The single game of the group is reported. -/
theorem results_add_up_single : ∃ G, (after soloConfig soloReporting).group? 1 = some G ∧
    G.status = .tsDone ∧ ∃ ops₁ s₀ selection ops₂, soloReporting = ops₁ ++ .assign :: ops₂ ∧
      coordinator.FreeRun (initial soloConfig) ops₁ s₀ ∧ s₀.selection = some selection ∧
      s₀.nextGroupId = 1 ∧ (after soloConfig soloReporting).AddsUp 1 selection.task.games
        ((coordinator.outputs (State.accepted 1) s₀ (.assign :: ops₂)).map Prod.snd)
        G.aggregateResult := by
  have hG : (after soloConfig soloReporting).group? 1 = some soloGroup := by decide +kernel
  exact ⟨_, hG, rfl, results_add_up run_soloReporting (by decide +kernel) hG rfl⟩

/-- Commands for no games bring the numbers of the groups round, and the next command adds a task to a
group that is done. -/
theorem reopened_after_done : ¬ ∀ (config : CoordinatorConfig) (ops : List Op) (s : State)
    (g : TaskId) (G : TaskGroup), coordinator.Run State.reportsPlayed (initial config) ops s →
    s.subTasks < 2 ^ 32 → s.group? g = some G → G.status = .tsDone →
    G.aggregateResult.games.toNat = s.groupGames g := by
  intro hall
  let s₀ := after soloConfig soloReporting
  have hrun₀ : coordinator.Run State.reportsPlayed (initial soloConfig) soloReporting s₀ :=
    run_soloReporting.imp fun _ _ h => h.1
  have hwellFormed : s₀.WellFormed := wellFormed_run hrun₀ (wellFormed_initial soloConfig)
  have hG₀ : s₀.groups.at? 1 = some soloGroup := by decide +kernel
  obtain ⟨node, halone₀, hfit⟩ : ∃ node, s₀.Alone soloConfig 1 node ∧
      node.eligible (State.template (soloArgs 0)) := ⟨_, ⟨rfl, rfl, rfl, rfl, rfl⟩, rfl⟩
  have hknown : soloConfig.gamelist.offers (State.template (soloArgs 0)) := by decide
  -- commands for no games take a group number each, and no task
  obtain ⟨ops₁, s₁, hrun₁, halone₁, hgroup₁, hheap₁, htasks₁, hgroups₁, hops₁⟩ :=
    halone₀.idle hknown hfit rfl (2 ^ 32 - 1)
  have hid₁ : s₁.nextGroupId = 1 := by
    rw [hgroup₁, show s₀.nextGroupId = 2 by decide +kernel]
    rfl
  have hwellFormed₁ : s₁.WellFormed :=
    wellFormed_run (hrun₀.free.append hrun₁) (wellFormed_initial soloConfig)
  have htaskId₁ : s₁.nextTaskId = 2 := by
    rw [hwellFormed₁.nextTaskId, hheap₁]
    decide +kernel
  have hknown' : soloConfig.gamelist.offers (State.template (soloArgs 1)) := by decide
  -- the next command meets the number of the first group again
  obtain ⟨s₂, hrun₂, -, hgroups₂, hcase⟩ := halone₁.command hknown' hfit
  rcases hcase with ⟨hzero, -⟩ | ⟨-, -, hheap₂, htasks₂⟩
  · cases hzero
  have hplayed : ∀ op ∈ ops₁ ++ [.select (soloArgs 1), .assign], ∀ s : State, True →
      s.reportsPlayed op := by
    intro op hop s _
    rcases List.mem_append.mp hop with hop | hop
    · rcases hops₁ op hop with rfl | rfl <;> trivial
    · simp only [List.mem_cons, List.not_mem_nil, or_false] at hop
      rcases hop with rfl | rfl <;> trivial
  have hrun := hrun₀.append ((hrun₁.append hrun₂).imp_mem hplayed)
  have hG₂ : s₂.group? 1 = some soloGroup := by
    show s₂.groups.at? 1 = _
    have hG₁ := hgroups₁ 1 soloGroup hG₀
    rw [hgroups₂, hid₁, KeyedMap.emplace_of_mem (KeyedMap.mem_of_at? hG₁), hG₁]
  have hnext : s₁.taskHeap.next = 1 := by
    rw [hheap₁]
    decide +kernel
  have hfew : s₂.subTasks < 2 ^ 32 := by
    show s₂.taskHeap.next < 2 ^ 32
    rw [hheap₂, Heap.next_alloc, hnext]
    decide
  have htotal := hall soloConfig _ s₂ 1 soloGroup hrun hfew hG₂ rfl
  have hgames : s₂.groupGames 1 = 2 := by
    unfold State.groupGames
    rw [hheap₂, htasks₂, hnext, hid₁, htaskId₁, hheap₁, htasks₁]
    decide +kernel
  rw [hgames] at htotal
  exact absurd htotal (by decide)

end Bem
