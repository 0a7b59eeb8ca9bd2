import Bem.Coordinator.Counters
import Bem.Lib.Alternating

/-!
# Exclusive assignment

A task lies on one desk at most, never while it waits to be handed out, and the messages about it
tell its desk when it comes and goes.
-/

namespace Bem

/-! ## Messages about a task -/

namespace Message

/-- The task that a message is about. -/
def concerns (t : TaskId) : Message → Bool
  | .task m => m.task.id == t
  | .result m => m.taskId == t
  | .taskNotify m => m.taskId == t
  | .hello _ => false
  | .invalid => false

theorem concerns_task {t : TaskId} {m : TaskMessage} : concerns t (.task m) ↔ m.task.id = t :=
  beq_iff_eq

theorem concerns_cancelled {t t' : TaskId} : concerns t (Node.cancelled t') ↔ t' = t := beq_iff_eq

/-- `TASK(t)`. -/
def Assigns (t : TaskId) (message : Message) : Prop :=
  ∃ m : TaskMessage, message = .task m ∧ m.task.id = t

/-- `CANCELLED(t)`. -/
def Cancels (t : TaskId) (message : Message) : Prop := message = Node.cancelled t

theorem not_cancels_of_assigns {t : TaskId} {message : Message} (h : message.Assigns t) :
    ¬ message.Cancels t := by
  rcases h with ⟨m, rfl, -⟩
  exact nofun

theorem not_concerns_of_isQuiet {t : TaskId} {message : Message} (h : message.IsQuiet)
    (ht : t ≠ taskIdNone) : message.concerns t = false := by
  cases message with
  | taskNotify m =>
    change (m.taskId == t) = false
    rw [show m.taskId = taskIdNone from h, beq_eq_false_iff_ne]
    exact ht.symm
  | hello m => rfl
  | _ => exact h.elim

end Message

/-- The messages about a task that were put in the queue of a node. -/
def Node.about (t : TaskId) (node : Node) : List Message :=
  node.history.filter (Message.concerns t)

namespace Desk

variable {heap : Heap Task} {d : Desk} {r : Ref} {t t' : TaskId}

def about (t : TaskId) (d : Desk) : List Message := d.sent.filter (Message.concerns t)

/-- The messages about every task alternate, and the task lies on the desk exactly when there is an
odd number of them. -/
def Consistent (heap : Heap Task) (d : Desk) : Prop :=
  ∀ t, t ≠ taskIdNone → Alternates (Message.Assigns t) (Message.Cancels t) (d.about t) ∧
    (d.lists heap t ↔ (d.about t).length % 2 = 1)

theorem about_concat (list : List Ref) (message : Message) :
    about t { list, sent := d.sent ++ [message] } =
      d.about t ++ if message.concerns t then [message] else [] := by
  unfold about
  rw [List.filter_append, List.filter_singleton]
  cases message.concerns t
  · rfl
  · rfl

theorem Consistent.of_ids {heap' : Heap Task} (hd : d.Consistent heap)
    (h : ∀ r ∈ d.list, (heap'.get r).id = (heap.get r).id) : d.Consistent heap' := by
  intro t ht
  refine ⟨(hd t ht).1, ?_⟩
  rw [← (hd t ht).2, lists_iff, lists_iff]
  constructor
  · rintro ⟨r, hr, hid⟩
    exact ⟨r, hr, by rw [← h r hr, hid]⟩
  · rintro ⟨r, hr, hid⟩
    exact ⟨r, hr, by rw [h r hr, hid]⟩

theorem Consistent.note {message : Message} (hd : d.Consistent heap) (hquiet : message.IsQuiet) :
    Consistent heap { d with sent := d.sent ++ [message] } := by
  intro t ht
  rw [about_concat, Message.not_concerns_of_isQuiet hquiet ht, if_neg (by decide), List.append_nil]
  exact hd t ht

theorem Consistent.assign (hd : d.Consistent heap) : (d.assign heap r).Consistent heap := by
  by_cases hl : d.lists heap (heap.get r).id
  · rwa [assign_of_lists hl]
  · have hnot : d.lists heap (heap.get r).id = false := by simpa using hl
    rw [assign_of_not_lists hnot]
    intro t ht
    rw [about_concat]
    have hlists : lists heap t { list := d.list ++ [r]
                                 sent := d.sent ++ [.task { task := heap.get r }] } ↔
        d.lists heap t ∨ (heap.get r).id = t := by
      rw [lists_iff, lists_iff]
      simp only [List.mem_append, List.mem_singleton]
      constructor
      · rintro ⟨q, hq | rfl, hid⟩
        · exact Or.inl ⟨q, hq, hid⟩
        · exact Or.inr hid
      · rintro (⟨q, hq, hid⟩ | hid)
        · exact ⟨q, Or.inl hq, hid⟩
        · exact ⟨r, Or.inr rfl, hid⟩
    have hconcerns : Message.concerns t (.task { task := heap.get r }) ↔ (heap.get r).id = t :=
      Message.concerns_task
    rw [hlists]
    by_cases hid : (heap.get r).id = t
    · rw [if_pos (hconcerns.mpr hid)]
      rw [hid] at hnot
      -- the task is not on the desk, so that the last notice has taken it off
      have heven : (d.about t).length % 2 = 0 := by
        have hiff := (hd t ht).2
        rw [hnot] at hiff
        have hne : ¬ (d.about t).length % 2 = 1 := fun h => by cases hiff.mpr h
        omega
      constructor
      · apply (hd t ht).1.concat
        rw [if_pos heven]
        exact ⟨_, rfl, hid⟩
      · rw [List.length_append, List.length_singleton]
        have hodd : ((d.about t).length + 1) % 2 = 1 := by omega
        exact ⟨fun _ => hodd, fun _ => Or.inr hid⟩
    · rw [if_neg (fun h => hid (hconcerns.mp h)), List.append_nil]
      exact ⟨(hd t ht).1, by rw [← (hd t ht).2]; simp [hid]⟩

theorem Consistent.unassign (hd : d.Consistent heap) (hdistinct : d.Distinct heap) :
    (d.unassign heap t').Consistent heap := by
  by_cases hl : d.lists heap t'
  · intro t ht
    have hlists : (d.unassign heap t').lists heap t ↔ d.lists heap t ∧ t ≠ t' := by
      rw [lists_iff, lists_iff]
      constructor
      · rintro ⟨q, hq, hid⟩
        rw [mem_list_unassign hdistinct, hid] at hq
        exact ⟨⟨q, hq.1, hid⟩, hq.2⟩
      · rintro ⟨⟨q, hq, hid⟩, hne⟩
        exact ⟨q, (mem_list_unassign hdistinct).mpr ⟨hq, by rwa [hid]⟩, hid⟩
    rw [hlists, unassign_of_lists hl, about_concat]
    by_cases hid : t' = t
    · rw [if_pos (Message.concerns_cancelled.mpr hid)]
      rw [hid] at hl
      have hodd := (hd t ht).2.mp hl
      constructor
      · apply (hd t ht).1.concat
        rw [if_neg (by omega)]
        exact congrArg Node.cancelled hid
      · rw [List.length_append, List.length_singleton]
        have heven : ¬ ((d.about t).length + 1) % 2 = 1 := by omega
        exact ⟨fun h => (h.2 hid.symm).elim, fun h => (heven h).elim⟩
    · rw [if_neg (fun h => hid (Message.concerns_cancelled.mp h)), List.append_nil]
      exact ⟨(hd t ht).1, by rw [← (hd t ht).2]; simp [Ne.symm hid]⟩
  · rwa [unassign_of_not_lists (by simpa using hl)]

theorem Consistent.release (hd : d.Consistent heap) (hdistinct : d.Distinct heap) :
    (d.release heap).Consistent heap := by
  -- a release is one unassignment after the other
  rw [← foldl_unassign_eq_release hdistinct]
  have hids : ∀ r, ((Node.markForDelete heap d.list).1.get r).id = (heap.get r).id := by
    intro r
    rw [markForDelete_eq (List.Nodup.of_map _ hdistinct)]
    exact id_giveBack _ _ _
  generalize (Node.markForDelete heap d.list).1 = heap' at hids
  suffices hloop : ∀ (ids : List TaskId) (d : Desk), d.Consistent heap' → d.Distinct heap' →
      (ids.foldl (fun d t => d.unassign heap' t) d).Consistent heap' from
    (hloop _ d (hd.of_ids fun r _ => hids r) (hdistinct.of_ids fun r _ => hids r)).of_ids
      fun r _ => (hids r).symm
  intro ids
  induction ids with
  | nil => exact fun d hd _ => hd
  | cons t ids ih => exact fun d hd hdistinct => ih _ (hd.unassign hdistinct) hdistinct.unassign

end Desk

namespace Ledger

variable {L L' : Ledger} {a : Act}

structure Exclusive (L : Ledger) : Prop where
  held : ∀ n d, L.desk n = some d → ∀ r ∈ d.list, (L.heap.get r).status ≠ .tsNone
  once : ∀ n m d e, L.desk n = some d → L.desk m = some e → ∀ r ∈ d.list, r ∈ e.list → n = m
  consistent : ∀ n d, L.desk n = some d → d.Consistent L.heap

namespace Exclusive

/-- A single desk changes, and gets no task that lies on another one. -/
private theorem update (hL : L.Exclusive) (hsound : L.Sound) {n : NodeId} {e : Desk}
    (hdesk : L'.desk = Function.update L.desk n (some e))
    (hid : ∀ r < L.heap.next, (L'.heap.get r).id = (L.heap.get r).id)
    (hheld : ∀ r ∈ e.list, (L'.heap.get r).status ≠ .tsNone)
    (hothers : ∀ m d, m ≠ n → L.desk m = some d → ∀ r ∈ d.list,
      r ∉ e.list ∧ (L'.heap.get r).status ≠ .tsNone)
    (hconsistent : e.Consistent L'.heap) : L'.Exclusive where
  held m d hd r hr := by
    rw [hdesk] at hd
    rcases update_eq_some.mp hd with ⟨-, rfl⟩ | ⟨hm, hd⟩
    · exact hheld r hr
    · exact (hothers m d hm hd r hr).2
  once m m' d d' hd hd' r hr hr' := by
    rw [hdesk] at hd hd'
    rcases update_eq_some.mp hd with ⟨hm, he⟩ | ⟨hm, hold⟩
    · rcases update_eq_some.mp hd' with ⟨hm', -⟩ | ⟨hm', hold'⟩
      · rw [hm, hm']
      · exact absurd (he ▸ hr) (hothers m' d' hm' hold' r hr').1
    · rcases update_eq_some.mp hd' with ⟨-, he⟩ | ⟨-, hold'⟩
      · exact absurd (he ▸ hr') (hothers m d hm hold r hr).1
      · exact hL.once m m' d d' hold hold' r hr hr'
  consistent m d hd := by
    rw [hdesk] at hd
    rcases update_eq_some.mp hd with ⟨-, rfl⟩ | ⟨-, hd⟩
    · exact hconsistent
    · exact (hL.consistent m d hd).of_ids fun r hr => hid r (hsound.list m d hd r hr)

theorem step (hL : L.Exclusive) (hsound : L.Sound) (h : Step L a L') : L'.Exclusive := by
  have hid (r : Ref) (hr : r < L.heap.next) := (h.get hr).1
  -- a task on another desk than the one that changes
  have hapart {n m : NodeId} {d d' : Desk} {r : Ref} (hd : L.desk n = some d) (hm : m ≠ n)
      (hd' : L.desk m = some d') (hr : r ∈ d'.list) : r ∉ d.list :=
    fun hr' => hm (hL.once m n d' d hd' hd r hr hr')
  cases h with
  | join =>
    apply hL.update hsound rfl hid
    · exact fun r hr => (List.not_mem_nil hr).elim
    · exact fun m d _ hd r hr => ⟨List.not_mem_nil, hL.held m d hd r hr⟩
    · exact fun t _ => ⟨.nil, by simp [Desk.lists, Desk.about]⟩
  | @drop n =>
    have hold {m : NodeId} {d : Desk} (hd : Function.update L.desk n none m = some d) :
        L.desk m = some d := by
      by_cases hm : m = n
      · rw [hm, Function.update_self] at hd
        cases hd
      · rwa [Function.update_of_ne hm] at hd
    exact ⟨fun m d hd => hL.held m d (hold hd),
      fun m m' d d' hd hd' => hL.once m m' d d' (hold hd) (hold hd'),
      fun m d hd => hL.consistent m d (hold hd)⟩
  | @note n d message hdesk hquiet =>
    apply hL.update hsound rfl hid
    · exact hL.held n d hdesk
    · exact fun m d' hm hd' r hr => ⟨hapart (d := d) hdesk hm hd' hr, hL.held m d' hd' r hr⟩
    · exact (hL.consistent n d hdesk).note hquiet
  | @hand n d r hdesk hindex hnone =>
    have hstatus {q : Ref} (hq : (L.heap.get q).status ≠ .tsNone) :
        ((setStatus L.heap r .tsRunning).get q).status ≠ .tsNone := by
      rw [status_setStatus]
      split
      · decide
      · exact hq
    apply hL.update hsound rfl hid
    · intro q hq
      rcases Desk.mem_list_assign hq with hq | rfl
      · exact hstatus (hL.held n d hdesk q hq)
      · rw [status_setStatus, if_pos rfl]
        decide
    · intro m d' hm hd' q hq
      refine ⟨fun hmem => ?_, hstatus (hL.held m d' hd' q hq)⟩
      rcases Desk.mem_list_assign hmem with hmem | rfl
      · exact hapart hdesk hm hd' hq hmem
      · exact hL.held m d' hd' q hq hnone
    · exact ((hL.consistent n d hdesk).assign).of_ids fun q _ => id_setStatus _ _ _ _
  | @release n d hdesk =>
    apply hL.update hsound rfl hid
    · intro q hq
      rw [Desk.mem_list_release] at hq
      rw [status_giveBack, if_neg (fun h => hq.2 h.2)]
      exact hL.held n d hdesk q hq.1
    · intro m d' hm hd' q hq
      have hnot := hapart hdesk hm hd' hq
      refine ⟨fun hmem => hnot (Desk.mem_list_release.mp hmem).1, ?_⟩
      rw [status_giveBack, if_neg (fun h => hnot h.1)]
      exact hL.held m d' hd' q hq
    · exact ((hL.consistent n d hdesk).release (hsound.distinct n d hdesk)).of_ids
        fun q _ => id_giveBack _ _ _
  | openGroup =>
    refine ⟨?_, ?_, ?_⟩
    · rw [desk_openGroup, heap_openGroup]
      exact hL.held
    · rw [desk_openGroup]
      exact hL.once
    · rw [desk_openGroup, heap_openGroup]
      exact hL.consistent
  | @create n d task hdesk _ hrunning =>
    have hold {q : Ref} (hq : q < L.heap.next) : (L.heap.alloc task).get q = L.heap.get q :=
      Heap.get_alloc_ne (Nat.ne_of_lt hq)
    apply hL.update hsound rfl hid
    · intro q hq
      rw [heap_create]
      rcases Desk.mem_list_assign hq with hq | rfl
      · rw [hold (hsound.list n d hdesk q hq)]
        exact hL.held n d hdesk q hq
      · rw [Heap.get_alloc_self, hrunning]
        decide
    · intro m d' hm hd' q hq
      have hlt := hsound.list m d' hd' q hq
      rw [heap_create, hold hlt]
      refine ⟨fun hmem => ?_, hL.held m d' hd' q hq⟩
      rcases Desk.mem_list_assign hmem with hmem | rfl
      · exact hapart hdesk hm hd' hq hmem
      · exact Nat.lt_irrefl _ hlt
    · exact ((hL.consistent n d hdesk).of_ids fun q hq =>
        congrArg Task.id (hold (hsound.list n d hdesk q hq))).assign
  | cancelGroup => exact ⟨hL.held, hL.once, hL.consistent⟩
  | @withdraw t =>
    have hold {m : NodeId} {d : Desk} (hd : (L.desk m).map (Desk.unassign L.heap t) = some d) :
        ∃ d', L.desk m = some d' ∧ d = d'.unassign L.heap t ∧ ∀ r ∈ d.list, r ∈ d'.list := by
      rcases Option.map_eq_some_iff.mp hd with ⟨d', hd', rfl⟩
      exact ⟨d', hd', rfl,
        fun r hr => ((Desk.mem_list_unassign (hsound.distinct m d' hd')).mp hr).1⟩
    refine ⟨fun m d hd r hr => ?_, fun m m' d d' hd hd' r hr hr' => ?_, fun m d hd => ?_⟩
    · rcases hold hd with ⟨e, he, -, hsub⟩
      exact hL.held m e he r (hsub r hr)
    · rcases hold hd with ⟨e, he, -, hsub⟩
      rcases hold hd' with ⟨e', he', -, hsub'⟩
      exact hL.once m m' e e' he he' r (hsub r hr) (hsub' r hr')
    · rcases hold hd with ⟨e, he, rfl, -⟩
      exact (hL.consistent m e he).unassign (hsound.distinct m e he)
  | @settle r =>
    refine ⟨fun m d hd q hq => ?_, hL.once, fun m d hd => ?_⟩
    · rw [status_setStatus]
      split
      · decide
      · exact hL.held m d hd q hq
    · exact (hL.consistent m d hd).of_ids fun q _ => id_setStatus _ _ _ _

end Exclusive

end Ledger

/-! ## Runs -/

namespace State

/-- What holds in every state of a run that makes fewer than `2 ^ 32` sub-tasks. -/
structure Regular (s : State) : Prop where
  wellFormed : s.WellFormed
  populated : s.outline.Populated
  few : s.subTasks < 2 ^ 32
  indexed : s.ledger.Indexed
  exclusive : s.ledger.Exclusive

variable {s s' : State}

theorem Regular.step {op : Op} (hs : s.Regular) (henabled : s.enabled op)
    (hok : s.step op = .ok s') (hfew : s'.subTasks < 2 ^ 32) : s'.Regular := by
  have hfollows := follows_step hs.wellFormed hok
  have hkept := does_indexed (fun L a L' hsound _ hL _ hstep _ _ => hL.step hsound hstep)
    hfollows.does hs.wellFormed.sound hs.indexed hs.exclusive (Nat.le_of_lt hfew)
  exact ⟨hfollows.wellFormed, populated_step hs.populated henabled hok, hfew, hkept.1, hkept.2⟩

/-- The task under an id, in terms of the ledger. -/
theorem Regular.lists_iff (hs : s.Regular) {t : TaskId} {r : Ref} (hr : s.tasks.at? t = some r)
    {n : NodeId} {node : Node} (hnode : s.node? n = some node) :
    node.lists s.taskHeap t ↔ r ∈ node.tasks := by
  have hindex := hs.wellFormed.sound.index t r hr
  rw [← hindex.2]
  exact hs.indexed.lists_iff (Nat.le_of_lt hs.few) hs.wellFormed.sound (ledger_desk hnode) hindex.1

/-- The index finds a task under its id. -/
theorem Regular.task?_id (hs : s.Regular) {r : Ref} (hr : r < s.taskHeap.next) :
    s.tasks.at? (s.taskHeap.get r).id = some r ∧
      s.task? (s.taskHeap.get r).id = some (s.taskHeap.get r) := by
  have hindex : s.tasks.at? (s.taskHeap.get r).id = some r := hs.indexed.index_id hr
  exact ⟨hindex, congrArg (Option.map s.taskHeap.get) hindex⟩

/-- The ids of the tasks begin with `1`. -/
theorem Regular.id_ne (hs : s.Regular) {r : Ref} (hr : r < s.taskHeap.next) :
    (s.taskHeap.get r).id ≠ taskIdNone := by
  intro hnone
  have hvalue := congrArg UInt32.toNat ((hs.indexed r hr).1.symm.trans hnone)
  have hfew : r + 1 < 2 ^ 32 := Nat.lt_of_le_of_lt hr hs.few
  rw [UInt32.toNat_ofNat_of_lt' hfew] at hvalue
  cases hvalue

end State

theorem regular_initial (config : CoordinatorConfig) : (initial config).Regular where
  wellFormed := wellFormed_initial config
  populated := ⟨nofun, nofun, nofun, nofun⟩
  few := Nat.two_pow_pos 32
  indexed := indexed_initial config
  exclusive := ⟨nofun, nofun, nofun⟩

section Runs

variable {P : State → Op → Prop} {config : CoordinatorConfig} {ops : List Op} {s s' : State}

theorem regular_throughout (hrun : coordinator.Run P s ops s') (hs : s.Regular)
    (hfew : s'.subTasks < 2 ^ 32) : coordinator.Throughout State.Regular s ops s' := by
  induction hrun with
  | nil => exact ⟨.nil _, hs⟩
  | @cons s s₁ s₂ op ops henabled _ hok hrest ih =>
    have hwellFormed := (State.follows_step hs.wellFormed hok).wellFormed
    have hle := subTasks_le_of_run hrest hwellFormed
    have hs₁ : s₁.Regular := hs.step henabled hok (hle.trans_lt hfew)
    have htail := ih hs₁ hfew
    exact ⟨.cons henabled hs hok htail.1, htail.2⟩

/-- Exclusive assignment, as seen on the wire and in the lists. -/
theorem assignment_exclusive (hrun : coordinator.FreeRun (initial config) ops s)
    (hfew : s.subTasks < 2 ^ 32) {t : TaskId} (ht : t ∈ s.tasks) :
    (∀ n node, s.node? n = some node →
      Alternates (Message.Assigns t) (Message.Cancels t) (node.about t) ∧
      (node.lists s.taskHeap t ↔
        ∃ message, (node.about t).getLast? = some message ∧ message.Assigns t)) ∧
    (∀ n m, s.Holds n t → s.Holds m t → n = m) ∧
    (∀ task, s.task? t = some task → task.status = .tsNone → ∀ n, ¬ s.Holds n t) := by
  have hs := (regular_throughout hrun (regular_initial config) hfew).2
  have hexclusive := hs.exclusive
  rcases hs.wellFormed.tasks t ht with ⟨r, hr⟩
  have hlists {n : NodeId} {node : Node} (hnode : s.node? n = some node) := hs.lists_iff hr hnode
  refine ⟨fun n node hnode => ?_, ?_, ?_⟩
  -- ids count up from one, and do not wrap in a run of few tasks
  · have hne : t ≠ taskIdNone := by
      have hindex := hs.wellFormed.sound.index t r hr
      have hlt : r + 1 < 2 ^ 32 := Nat.lt_of_le_of_lt hindex.1 hfew
      rw [← hindex.2, (hs.indexed r hindex.1).1]
      intro hzero
      have hnat := congrArg UInt32.toNat hzero
      rw [UInt32.toNat_ofNat_of_lt' hlt] at hnat
      exact Nat.succ_ne_zero r hnat
    have hconsistent := hexclusive.consistent n node.desk (State.ledger_desk hnode) t hne
    refine ⟨hconsistent.1, hconsistent.2.trans ?_⟩
    exact hconsistent.1.odd_iff fun _ => Message.not_cancels_of_assigns
  · rintro n m ⟨node, hnode, hn⟩ ⟨node', hnode', hm⟩
    exact hexclusive.once n m _ _ (State.ledger_desk hnode) (State.ledger_desk hnode') r
      ((hlists hnode).mp hn) ((hlists hnode').mp hm)
  · rintro task htask hnone n ⟨node, hnode, hn⟩
    have hget : s.taskHeap.get r = task := by
      have hsome : (s.tasks.at? t).map s.taskHeap.get = some task := htask
      rw [hr] at hsome
      exact Option.some.inj hsome
    apply hexclusive.held n _ (State.ledger_desk hnode) r ((hlists hnode).mp hn)
    change (s.taskHeap.get r).status = .tsNone
    rw [hget, hnone]

/-- A node falls silent with its task, and the task goes to the other one. -/
theorem assignment_exclusive_moved :
    let s := after soloConfig (joining 1 5 ++ tasking 1 ++ silence ++ joining 2 6 ++ [.balance])
    s.Holds 2 1 ∧ ∀ n, s.Holds n 1 → n = 2 := by
  have hrun := run_after (show (coordinator.exec (fun _ _ => True) (initial soloConfig)
    (joining 1 5 ++ tasking 1 ++ silence ++ joining 2 6 ++ [.balance])).isSome by decide +kernel)
  have hholds : (after soloConfig
    (joining 1 5 ++ tasking 1 ++ silence ++ joining 2 6 ++ [.balance])).Holds 2 1 := by decide +kernel
  have h := assignment_exclusive (t := 1) hrun (by decide +kernel) (by decide +kernel)
  exact ⟨hholds, fun n hn => h.2.1 n 2 hn hholds⟩

end Runs

end Bem
