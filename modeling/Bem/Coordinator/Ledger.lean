import Bem.Coordinator.Commands
import Bem.Coordinator.Handler
import Bem.Coordinator.Maintenance
import Bem.Lib.Trace

/-!
# The ledger

What the coordinator is about, without its threads: tasks and their status, groups, and for each
live node a desk with the tasks it has been given and the messages sent to it.  An `Act` is one
entry in the ledger, and `Ledger.Step` says when it may be made and what it changes.
-/

namespace Bem

structure Desk where
  list : List Ref := []
  sent : List Message := []

namespace Desk

def lists (heap : Heap Task) (taskId : TaskId) (d : Desk) : Bool :=
  d.list.any fun r => (heap.get r).id == taskId

/-- A task is put on the desk, unless one with its id lies there. -/
def assign (heap : Heap Task) (task : Ref) (d : Desk) : Desk :=
  if d.lists heap (heap.get task).id then d
  else { list := d.list ++ [task], sent := d.sent ++ [.task { task := heap.get task }] }

/-- A task is taken off the desk, if it lies there. -/
def unassign (heap : Heap Task) (taskId : TaskId) (d : Desk) : Desk :=
  if d.lists heap taskId then
    { list := d.list.eraseP fun r => (heap.get r).id == taskId
      sent := d.sent ++ [Node.cancelled taskId] }
  else d

def isRunning (heap : Heap Task) (r : Ref) : Bool := (heap.get r).status == .tsRunning

/-- All running tasks are taken off the desk. -/
def release (heap : Heap Task) (d : Desk) : Desk where
  list := d.list.filter fun r => ! isRunning heap r
  sent := d.sent ++ (d.list.filter (isRunning heap)).map fun r => Node.cancelled (heap.get r).id

end Desk

/-- `index` finds the tasks of the coordinator's map; `heap` also keeps those that never got into
it. -/
structure Ledger where
  heap : Heap Task
  index : TaskId → Option Ref
  group : TaskId → Option TaskGroup
  desk : NodeId → Option Desk

inductive Act
  | join (n : NodeId)
  | drop (n : NodeId)
  | note (n : NodeId) (message : Message)
  | hand (n : NodeId) (r : Ref)
  | release (n : NodeId)
  | openGroup (g : TaskId) (nNodes : Nat)
  | create (n : NodeId) (task : Task)
  | cancelGroup (g : TaskId)
  | withdraw (taskId : TaskId)
  | settle (r : Ref) (result : Result)

/-- The running tasks of a list are given back. -/
def giveBack (heap : Heap Task) (tasks : List Ref) : Heap Task :=
  tasks.foldl (fun heap r => if Desk.isRunning heap r then setStatus heap r .tsNone else heap) heap

/-- A message that does not concern any task: a ping or a reply to a HELLO. -/
def Message.IsQuiet : Message → Prop
  | .hello _ => True
  | .taskNotify m => m.taskId = taskIdNone
  | _ => False

namespace Ledger

/-- The group is not yet known, or nothing changes. -/
def openGroup (L : Ledger) (g : TaskId) (nNodes : Nat) : Ledger :=
  if (L.group g).isSome then L
  else { L with group := Function.update L.group g (some (State.newGroup g nNodes)) }

/-- A new task on the desk `d` of the node `n`. -/
def create (L : Ledger) (n : NodeId) (d : Desk) (task : Task) : Ledger where
  heap := L.heap.alloc task
  index :=
    if (L.index task.id).isSome then L.index
    else Function.update L.index task.id (some L.heap.next)
  group := L.group
  desk := Function.update L.desk n (some (d.assign (L.heap.alloc task) L.heap.next))

inductive Step : Ledger → Act → Ledger → Prop
  | join {L : Ledger} {n : NodeId} (hnew : L.desk n = none) :
      Step L (.join n) { L with desk := Function.update L.desk n (some {}) }
  | drop {L : Ledger} {n : NodeId} :
      Step L (.drop n) { L with desk := Function.update L.desk n none }
  | note {L : Ledger} {n : NodeId} {d : Desk} {message : Message} (hdesk : L.desk n = some d)
      (hquiet : message.IsQuiet) :
      Step L (.note n message) { L with
        desk := Function.update L.desk n (some { d with sent := d.sent ++ [message] }) }
  | hand {L : Ledger} {n : NodeId} {d : Desk} {r : Ref} (hdesk : L.desk n = some d)
      (hindex : L.index (L.heap.get r).id = some r) (hnone : (L.heap.get r).status = .tsNone) :
      Step L (.hand n r) { L with
        heap := setStatus L.heap r .tsRunning
        desk := Function.update L.desk n (some (d.assign L.heap r)) }
  | release {L : Ledger} {n : NodeId} {d : Desk} (hdesk : L.desk n = some d) :
      Step L (.release n) { L with
        heap := giveBack L.heap d.list
        desk := Function.update L.desk n (some (d.release L.heap)) }
  | openGroup {L : Ledger} {g : TaskId} {nNodes : Nat} :
      Step L (.openGroup g nNodes) (L.openGroup g nNodes)
  | create {L : Ledger} {n : NodeId} {d : Desk} {task : Task} (hdesk : L.desk n = some d)
      (hid : task.id = UInt32.ofNat (L.heap.next + 1)) (hrunning : task.status = .tsRunning)
      (hgroup : L.group task.groupId ≠ none) :
      Step L (.create n task) (L.create n d task)
  | cancelGroup {L : Ledger} {g : TaskId} {G : TaskGroup} (hG : L.group g = some G)
      (hrunning : G.status = .tsRunning) :
      Step L (.cancelGroup g) { L with
        group := Function.update L.group g (some { G with status := .tsCancelled }) }
  | withdraw {L : Ledger} {t : TaskId} {r : Ref} {G : TaskGroup} (hindex : L.index t = some r)
      (hrunning : (L.heap.get r).status = .tsRunning)
      (hG : L.group (L.heap.get r).groupId = some G) (hcancelled : G.status = .tsCancelled) :
      Step L (.withdraw t) { L with desk := fun n => (L.desk n).map (Desk.unassign L.heap t) }
  | settle {L : Ledger} {r : Ref} {G : TaskGroup} {result : Result}
      (hindex : L.index (L.heap.get r).id = some r)
      (hrunning : (L.heap.get r).status = .tsRunning)
      (hG : L.group (L.heap.get r).groupId = some G) (hopen : G.status ≠ .tsDone) :
      Step L (.settle r result) { L with
        heap := setStatus L.heap r .tsDone
        group := Function.update L.group (L.heap.get r).groupId
          (some (State.acceptResult G result)) }

end Ledger

/-! ## What the longer acts change -/

namespace Ledger

section Acts

variable (L : Ledger) (g : TaskId) (nNodes : Nat) (n : NodeId) (d : Desk) (task : Task)

@[simp] theorem heap_openGroup : (L.openGroup g nNodes).heap = L.heap := by
  unfold openGroup
  split
  · rfl
  · rfl

@[simp] theorem index_openGroup : (L.openGroup g nNodes).index = L.index := by
  unfold openGroup
  split
  · rfl
  · rfl

@[simp] theorem desk_openGroup : (L.openGroup g nNodes).desk = L.desk := by
  unfold openGroup
  split
  · rfl
  · rfl

theorem group_openGroup (g' : TaskId) : (L.openGroup g nNodes).group g' =
    if g' = g ∧ L.group g = none then some (State.newGroup g nNodes) else L.group g' := by
  unfold openGroup
  by_cases hg : (L.group g).isSome
  · rw [if_pos hg, if_neg]
    rintro ⟨-, hnone⟩
    rw [hnone] at hg
    cases hg
  · have hnone : L.group g = none := by simpa using hg
    rw [if_neg hg]
    by_cases heq : g' = g
    · rw [if_pos ⟨heq, hnone⟩, heq]
      exact Function.update_self _ _ _
    · rw [if_neg (fun h => heq h.1)]
      exact Function.update_of_ne heq _ _

@[simp] theorem heap_create : (L.create n d task).heap = L.heap.alloc task := rfl

theorem index_create (t : TaskId) : (L.create n d task).index t =
    if t = task.id ∧ L.index task.id = none then some L.heap.next else L.index t := by
  unfold create
  by_cases ht : (L.index task.id).isSome
  · rw [if_pos ht, if_neg]
    rintro ⟨-, hnone⟩
    rw [hnone] at ht
    cases ht
  · have hnone : L.index task.id = none := by simpa using ht
    rw [if_neg ht]
    by_cases heq : t = task.id
    · rw [if_pos ⟨heq, hnone⟩, heq]
      exact Function.update_self _ _ _
    · rw [if_neg (fun h => heq h.1)]
      exact Function.update_of_ne heq _ _

end Acts

theorem Step.eq_openGroup {L L' : Ledger} {g : TaskId} {nNodes : Nat}
    (h : Step L (.openGroup g nNodes) L') : L' = L.openGroup g nNodes := by
  cases h
  rfl

/-- The entry written is read back, and all others are left alone. -/
theorem update_eq_some {K V : Type} [DecidableEq K] {f : K → Option V} {k k' : K} {v w : V} :
    Function.update f k (some v) k' = some w ↔ k' = k ∧ v = w ∨ k' ≠ k ∧ f k' = some w := by
  by_cases h : k' = k
  · rw [h, Function.update_self]
    simp
  · rw [Function.update_of_ne h]
    simp [h]

end Ledger

/-! ## Desks -/

namespace Desk

variable {heap : Heap Task} {r : Ref} {t : TaskId} {d : Desk}

theorem lists_iff : d.lists heap t ↔ ∃ r ∈ d.list, (heap.get r).id = t := by
  simp only [lists, List.any_eq_true, beq_iff_eq]

theorem not_lists_iff : d.lists heap t = false ↔ ∀ r ∈ d.list, (heap.get r).id ≠ t := by
  simp only [lists, List.any_eq_false, beq_iff_eq]

theorem isRunning_iff : isRunning heap r ↔ (heap.get r).status = .tsRunning := by
  simp only [isRunning, beq_iff_eq]

theorem assign_of_lists (h : d.lists heap (heap.get r).id) : d.assign heap r = d := if_pos h

theorem assign_of_not_lists (h : d.lists heap (heap.get r).id = false) :
    d.assign heap r =
      { list := d.list ++ [r], sent := d.sent ++ [.task { task := heap.get r }] } := by
  rw [assign, if_neg (by rw [h]; decide)]

theorem unassign_of_lists (h : d.lists heap t) : d.unassign heap t =
    { list := d.list.eraseP fun r => (heap.get r).id == t, sent := d.sent ++ [Node.cancelled t] } :=
  if_pos h

theorem unassign_of_not_lists (h : d.lists heap t = false) : d.unassign heap t = d := by
  rw [unassign, if_neg (by rw [h]; decide)]

/-- No task lies on the desk twice. -/
def Distinct (heap : Heap Task) (d : Desk) : Prop := (d.list.map fun r => (heap.get r).id).Nodup

theorem mem_list_assign {q : Ref} (h : q ∈ (d.assign heap r).list) : q ∈ d.list ∨ q = r := by
  by_cases hl : d.lists heap (heap.get r).id
  · rw [assign_of_lists hl] at h
    exact Or.inl h
  · rw [assign_of_not_lists (by simpa using hl), List.mem_append, List.mem_singleton] at h
    exact h

private theorem eraseP_eq_filter {l : List Ref} (h : (l.map fun r => (heap.get r).id).Nodup) :
    (l.eraseP fun r => (heap.get r).id == t) = l.filter fun r => (heap.get r).id != t := by
  induction l with
  | nil => rfl
  | cons q l ih =>
    rw [List.map_cons, List.nodup_cons] at h
    by_cases hq : (heap.get q).id = t
    · rw [List.eraseP_cons_of_pos (by simpa using hq), List.filter_cons_of_neg (by simpa using hq)]
      symm
      apply List.filter_eq_self.mpr
      intro r hr
      rw [bne_iff_ne]
      intro hrt
      exact h.1 (List.mem_map.mpr ⟨r, hr, hrt.trans hq.symm⟩)
    · rw [List.eraseP_cons_of_neg (by simpa using hq), List.filter_cons_of_pos (by simpa using hq),
        ih h.2]

/-- The task with the id goes, and nothing else. -/
theorem list_unassign (hd : d.Distinct heap) :
    (d.unassign heap t).list = d.list.filter fun r => (heap.get r).id != t := by
  by_cases hl : d.lists heap t
  · rw [unassign_of_lists hl]
    exact eraseP_eq_filter hd
  · have hnot : d.lists heap t = false := by simpa using hl
    rw [unassign_of_not_lists hnot]
    symm
    apply List.filter_eq_self.mpr
    intro r hr
    rw [bne_iff_ne]
    exact not_lists_iff.mp hnot r hr

theorem mem_list_unassign (hd : d.Distinct heap) {q : Ref} :
    q ∈ (d.unassign heap t).list ↔ q ∈ d.list ∧ (heap.get q).id ≠ t := by
  rw [list_unassign hd, List.mem_filter, bne_iff_ne]

theorem mem_list_release {q : Ref} :
    q ∈ (d.release heap).list ↔ q ∈ d.list ∧ (heap.get q).status ≠ .tsRunning := by
  rw [release, List.mem_filter, Bool.not_eq_true', ← Bool.not_eq_true, isRunning_iff]

theorem Distinct.assign (hd : d.Distinct heap) : (d.assign heap r).Distinct heap := by
  by_cases hl : d.lists heap (heap.get r).id
  · rwa [assign_of_lists hl]
  · have hnot : d.lists heap (heap.get r).id = false := by simpa using hl
    rw [assign_of_not_lists hnot, Distinct, List.map_append, List.nodup_append]
    refine ⟨hd, List.nodup_singleton _, fun a ha b hb hab => ?_⟩
    rcases List.mem_map.mp ha with ⟨q, hq, rfl⟩
    rw [List.map_singleton, List.mem_singleton] at hb
    exact not_lists_iff.mp hnot q hq (hab.trans hb)

theorem Distinct.unassign (hd : d.Distinct heap) : (d.unassign heap t).Distinct heap := by
  by_cases hl : d.lists heap t
  · rw [unassign_of_lists hl]
    exact hd.sublist ((List.eraseP_sublist).map _)
  · rwa [unassign_of_not_lists (by simpa using hl)]

theorem Distinct.release (hd : d.Distinct heap) : (d.release heap).Distinct heap :=
  hd.sublist ((List.filter_sublist).map _)

/-- The ids are all that matters. -/
theorem Distinct.of_ids {heap' : Heap Task} (hd : d.Distinct heap)
    (h : ∀ r ∈ d.list, (heap'.get r).id = (heap.get r).id) : d.Distinct heap' := by
  unfold Distinct at hd ⊢
  rwa [List.map_congr_left h]

end Desk

/-! ## Giving tasks back -/

section GiveBack

variable (heap : Heap Task) (tasks : List Ref) (r : Ref)

theorem giveBack_cons (q : Ref) : giveBack heap (q :: tasks) =
    giveBack (if Desk.isRunning heap q then setStatus heap q .tsNone else heap) tasks := rfl

@[simp] theorem next_giveBack : (giveBack heap tasks).next = heap.next := by
  induction tasks generalizing heap with
  | nil => rfl
  | cons q tasks ih =>
    rw [giveBack_cons, ih]
    split
    · rfl
    · rfl

theorem get_giveBack : (giveBack heap tasks).get r =
    if r ∈ tasks ∧ (heap.get r).status = .tsRunning then { heap.get r with status := .tsNone }
    else heap.get r := by
  induction tasks generalizing heap with
  | nil => simp [giveBack]
  | cons q tasks ih =>
    rw [giveBack_cons, ih]
    -- a task that has been given back does not run any more, so that it is not given back again
    by_cases hq : Desk.isRunning heap q
    · rw [if_pos hq, get_setStatus]
      rw [Desk.isRunning_iff] at hq
      by_cases hr : r = q
      · subst hr
        simp [hq]
      · simp [hr]
    · rw [if_neg hq]
      rw [Desk.isRunning_iff] at hq
      by_cases hr : r = q
      · subst hr
        simp [hq]
      · simp [hr]

/-- What does not depend on the status is left alone. -/
theorem apply_giveBack {α : Type} {f : Task → α} (hf : ∀ task status, f { task with status } = f task) :
    f ((giveBack heap tasks).get r) = f (heap.get r) := by
  rw [get_giveBack]
  split
  · exact hf _ _
  · rfl

@[simp] theorem id_giveBack : ((giveBack heap tasks).get r).id = (heap.get r).id :=
  apply_giveBack heap tasks r fun _ _ => rfl

@[simp] theorem groupId_giveBack :
    ((giveBack heap tasks).get r).groupId = (heap.get r).groupId :=
  apply_giveBack heap tasks r fun _ _ => rfl

@[simp] theorem order_giveBack : ((giveBack heap tasks).get r).order = (heap.get r).order :=
  apply_giveBack heap tasks r fun _ _ => rfl

theorem status_giveBack : ((giveBack heap tasks).get r).status =
    if r ∈ tasks ∧ (heap.get r).status = .tsRunning then .tsNone else (heap.get r).status := by
  rw [get_giveBack]
  split
  · rfl
  · rfl

/-- Without a running task there is nothing to give back. -/
theorem giveBack_of_filter_nil (h : tasks.filter (Desk.isRunning heap) = []) :
    giveBack heap tasks = heap := by
  induction tasks with
  | nil => rfl
  | cons q tasks ih =>
    have hq : ¬ Desk.isRunning heap q := fun hq => by simp [List.filter_cons_of_pos hq] at h
    rw [List.filter_cons_of_neg hq] at h
    rw [giveBack_cons, if_neg hq, ih h]

end GiveBack

end Bem
