import Bem.Coordinator.Ledger

/-!
# What every ledger keeps

Ids and groups of tasks never change, the index finds tasks under their own ids, and no task lies
on one desk twice.  While fewer than `2 ^ 32` tasks have been made the ids have not wrapped, and the
index finds every task.
-/

namespace Bem

namespace Ledger

variable {L L' : Ledger} {a : Act}

/-! ## What one act leaves alone -/

theorem Step.next_le (h : Step L a L') : L.heap.next ≤ L'.heap.next := by
  cases h with
  | create => exact Nat.le_succ _
  | release => exact (next_giveBack _ _).ge
  | openGroup => rw [heap_openGroup]
  | _ => exact le_refl _

/-- Of a task only the status changes. -/
theorem Step.order (h : Step L a L') {r : Ref} (hr : r < L.heap.next) :
    (L'.heap.get r).order = (L.heap.get r).order := by
  cases h with
  | hand => exact order_setStatus _ _ _ _
  | release => exact order_giveBack _ _ _
  | openGroup => rw [heap_openGroup]
  | create => rw [heap_create, Heap.get_alloc_ne (Nat.ne_of_lt hr)]
  | settle => exact order_setStatus _ _ _ _
  | _ => rfl

/-- A task keeps its id and its group. -/
theorem Step.get (h : Step L a L') {r : Ref} (hr : r < L.heap.next) :
    (L'.heap.get r).id = (L.heap.get r).id ∧ (L'.heap.get r).groupId = (L.heap.get r).groupId := by
  have hid : (L'.heap.get r).order.id = (L.heap.get r).order.id := by rw [h.order hr]
  have hgroupId : (L'.heap.get r).order.groupId = (L.heap.get r).order.groupId := by
    rw [h.order hr]
  exact ⟨hid, hgroupId⟩

theorem Step.group_ne_none (h : Step L a L') {g : TaskId} (hg : L.group g ≠ none) :
    L'.group g ≠ none := by
  have hupdate (g' : TaskId) (G : TaskGroup) : Function.update L.group g' (some G) g ≠ none := by
    by_cases heq : g = g'
    · rw [heq, Function.update_self]
      exact Option.some_ne_none G
    · rwa [Function.update_of_ne heq]
  cases h with
  | openGroup =>
    rw [group_openGroup]
    split
    · exact Option.some_ne_none _
    · exact hg
  | cancelGroup => exact hupdate _ _
  | settle => exact hupdate _ _
  | _ => exact hg

/-- Only `openGroup` enters a group. -/
theorem Step.group_eq_none (h : Step L a L') {g : TaskId} (hg : L.group g = none)
    (ha : ∀ nNodes, a ≠ .openGroup g nNodes) : L'.group g = none := by
  have hupdate (g' : TaskId) (G G' : TaskGroup) (hG : L.group g' = some G) :
      Function.update L.group g' (some G') g = none := by
    rw [Function.update_of_ne, hg]
    intro heq
    rw [heq, hG] at hg
    cases hg
  cases h with
  | @openGroup _ nNodes =>
    rw [group_openGroup, if_neg, hg]
    rintro ⟨rfl, -⟩
    exact ha nNodes rfl
  | cancelGroup hG => exact hupdate _ _ _ hG
  | settle _ _ hG => exact hupdate _ _ _ hG
  | _ => exact hg

/-- Only a result makes a task done, and nothing makes it undone. -/
theorem Step.done_iff (h : Step L a L') {r : Ref} (hr : r < L.heap.next)
    (ha : ∀ result, a ≠ .settle r result) :
    (L'.heap.get r).status = .tsDone ↔ (L.heap.get r).status = .tsDone := by
  cases h with
  | hand _ _ hnone =>
    rw [status_setStatus]
    split
    next heq =>
      rw [heq, hnone]
      decide
    next => exact Iff.rfl
  | release =>
    rw [status_giveBack]
    split
    next hback =>
      rw [hback.2]
      decide
    next => exact Iff.rfl
  | openGroup => rw [heap_openGroup]
  | create => rw [heap_create, Heap.get_alloc_ne (Nat.ne_of_lt hr)]
  | @settle q _ result =>
    rw [status_setStatus, if_neg]
    intro heq
    exact ha result (by rw [heq])
  | _ => exact Iff.rfl

theorem Step.done (h : Step L a L') {r : Ref} (hr : r < L.heap.next)
    (hdone : (L.heap.get r).status = .tsDone) : (L'.heap.get r).status = .tsDone := by
  rw [h.done_iff hr]
  · exact hdone
  · intro result heq
    subst heq
    cases h with
    | settle _ hrunning =>
      rw [hdone] at hrunning
      cases hrunning

/-- A group is left alone, cancelled, or given a result. -/
theorem Step.group_cases (h : Step L a L') {g : TaskId} {G : TaskGroup} (hG : L.group g = some G) :
    L'.group g = some G ∨
    (a = .cancelGroup g ∧ G.status = .tsRunning ∧
      L'.group g = some { G with status := .tsCancelled }) ∨
    ∃ r result, a = .settle r result ∧ (L.heap.get r).groupId = g ∧
      (L.heap.get r).status = .tsRunning ∧ G.status ≠ .tsDone ∧
      L'.group g = some (State.acceptResult G result) := by
  cases h with
  | openGroup =>
    left
    rw [group_openGroup, if_neg, hG]
    intro hnew
    rw [hnew.1] at hG
    cases hG.symm.trans hnew.2
  | @cancelGroup g' G' hG' hrunning =>
    by_cases hg : g = g'
    · subst hg
      cases hG.symm.trans hG'
      exact Or.inr (Or.inl ⟨rfl, hrunning, Function.update_self _ _ _⟩)
    · exact Or.inl ((Function.update_of_ne hg _ _).trans hG)
  | @settle r G' result _ hrunning hG' hopen =>
    by_cases hg : g = (L.heap.get r).groupId
    · subst hg
      cases hG.symm.trans hG'
      exact Or.inr (Or.inr ⟨r, result, rfl, rfl, hrunning, hopen, Function.update_self _ _ _⟩)
    · exact Or.inl ((Function.update_of_ne hg _ _).trans hG)
  | _ => exact Or.inl hG

theorem Step.group_settle {r : Ref} {result : Result} (h : Step L (.settle r result) L')
    {g : TaskId} {G : TaskGroup} (hg : (L.heap.get r).groupId = g) (hG : L.group g = some G) :
    L'.group g = some (State.acceptResult G result) := by
  cases h with
  | settle _ _ hG' =>
    subst hg
    cases hG.symm.trans hG'
    exact Function.update_self _ _ _

/-- The index finds what it found, and a new task at most. -/
theorem Step.index_cases (h : Step L a L') {t : TaskId} {r : Ref} (ht : L'.index t = some r) :
    L.index t = some r ∨ ∃ n task, a = .create n task ∧ t = task.id ∧ r = L.heap.next ∧
      L'.heap = L.heap.alloc task := by
  cases h with
  | openGroup => exact Or.inl (by rwa [index_openGroup] at ht)
  | create =>
    rw [index_create] at ht
    split at ht
    next hnew => exact Or.inr ⟨_, _, rfl, hnew.1, (Option.some.inj ht).symm, rfl⟩
    next => exact Or.inl ht
  | _ => exact Or.inl ht

theorem Step.index_eq (h : Step L a L') {t : TaskId} {r : Ref} (ht : L.index t = some r) :
    L'.index t = some r := by
  cases h with
  | openGroup => rwa [index_openGroup]
  | create =>
    rw [index_create, if_neg, ht]
    intro hnew
    rw [← hnew.1, ht] at hnew
    cases hnew.2
  | _ => exact ht

/-! ## Soundness -/

structure Sound (L : Ledger) : Prop where
  index : ∀ t r, L.index t = some r → r < L.heap.next ∧ (L.heap.get r).id = t
  list : ∀ n d, L.desk n = some d → ∀ r ∈ d.list, r < L.heap.next
  distinct : ∀ n d, L.desk n = some d → d.Distinct L.heap
  group : ∀ r < L.heap.next, L.group (L.heap.get r).groupId ≠ none

namespace Sound

/-- A new desk whose tasks were all made before. -/
private theorem update_desk (hL : L.Sound) {heap : Heap Task} {n : NodeId} {e : Desk}
    (hnext : L.heap.next ≤ heap.next)
    (hid : ∀ r < L.heap.next, (heap.get r).id = (L.heap.get r).id)
    (hlist : ∀ r ∈ e.list, r < heap.next) (hdistinct : e.Distinct heap) (m : NodeId) (d : Desk)
    (hd : Function.update L.desk n (some e) m = some d) :
    (∀ r ∈ d.list, r < heap.next) ∧ d.Distinct heap := by
  rcases update_eq_some.mp hd with ⟨-, rfl⟩ | ⟨-, hd⟩
  · exact ⟨hlist, hdistinct⟩
  · exact ⟨fun r hr => (hL.list m d hd r hr).trans_le hnext,
      (hL.distinct m d hd).of_ids fun r hr => hid r (hL.list m d hd r hr)⟩

/-- The desks after an act. -/
private theorem desks (hL : L.Sound) (h : Step L a L') (m : NodeId) (d : Desk)
    (hd : L'.desk m = some d) : (∀ r ∈ d.list, r < L'.heap.next) ∧ d.Distinct L'.heap := by
  have hnext := h.next_le
  have hid (r : Ref) (hr : r < L.heap.next) := (h.get hr).1
  cases h with
  | join =>
    apply hL.update_desk hnext hid _ _ m d hd
    · exact fun r hr => (List.not_mem_nil hr).elim
    · exact List.nodup_nil
  | @drop n =>
    by_cases hm : m = n
    · rw [hm] at hd
      change Function.update L.desk n none n = some d at hd
      rw [Function.update_self] at hd
      cases hd
    · change Function.update L.desk n none m = some d at hd
      rw [Function.update_of_ne hm] at hd
      exact ⟨hL.list m d hd, hL.distinct m d hd⟩
  | @note n e _ hdesk =>
    apply hL.update_desk hnext hid _ _ m d hd
    · exact hL.list n e hdesk
    · exact hL.distinct n e hdesk
  | hand hdesk hindex =>
    apply hL.update_desk hnext hid _ _ m d hd
    · intro r hr
      rcases Desk.mem_list_assign hr with hr | rfl
      · exact hL.list _ _ hdesk r hr
      · -- what is handed out is found in the index, and so in the heap
        exact (hL.index _ _ hindex).1
    · exact (hL.distinct _ _ hdesk).assign.of_ids fun r _ => id_setStatus _ _ _ _
  | release hdesk =>
    apply hL.update_desk hnext hid _ _ m d hd
    · intro r hr
      rw [next_giveBack]
      exact hL.list _ _ hdesk r (Desk.mem_list_release.mp hr).1
    · exact (hL.distinct _ _ hdesk).release.of_ids fun r _ => id_giveBack _ _ _
  -- a group is not on any desk
  | openGroup =>
    rw [desk_openGroup] at hd
    rw [heap_openGroup]
    exact ⟨hL.list m d hd, hL.distinct m d hd⟩
  | create hdesk =>
    apply hL.update_desk hnext hid _ _ m d hd
    · intro r hr
      rw [heap_create, Heap.next_alloc]
      rcases Desk.mem_list_assign hr with hr | rfl
      · exact (hL.list _ _ hdesk r hr).trans (Nat.lt_succ_self _)
      · exact Nat.lt_succ_self _
    -- the ids on the desk are those of old tasks, which the new one leaves alone
    · exact ((hL.distinct _ _ hdesk).of_ids fun r hr => hid r (hL.list _ _ hdesk r hr)).assign
  | cancelGroup => exact ⟨hL.list m d hd, hL.distinct m d hd⟩
  | withdraw =>
    rcases Option.map_eq_some_iff.mp hd with ⟨d, hdesk, rfl⟩
    refine ⟨fun r hr => ?_, (hL.distinct m d hdesk).unassign⟩
    exact hL.list m d hdesk r ((Desk.mem_list_unassign (hL.distinct m d hdesk)).mp hr).1
  | settle =>
    exact ⟨hL.list m d hd, (hL.distinct m d hd).of_ids fun r _ => id_setStatus _ _ _ _⟩

theorem step (hL : L.Sound) (h : Step L a L') : L'.Sound where
  index t r ht := by
    rcases h.index_cases ht with ht | ⟨n, task, rfl, rfl, rfl, hheap⟩
    · have hr := hL.index t r ht
      exact ⟨hr.1.trans_le h.next_le, (h.get hr.1).1.trans hr.2⟩
    · rw [hheap, Heap.get_alloc_self]
      exact ⟨Nat.lt_succ_self _, rfl⟩
  list m d hd := (hL.desks h m d hd).1
  distinct m d hd := (hL.desks h m d hd).2
  group r hr := by
    by_cases hold : r < L.heap.next
    · rw [(h.get hold).2]
      exact h.group_ne_none (hL.group r hold)
    · cases h with
      | create _ _ _ hgroup =>
        rw [heap_create, Heap.next_alloc] at hr
        rw [heap_create, Nat.eq_of_lt_succ_of_not_lt hr hold, Heap.get_alloc_self]
        exact hgroup
      | release =>
        rw [next_giveBack] at hr
        exact absurd hr hold
      | openGroup =>
        rw [heap_openGroup] at hr
        exact absurd hr hold
      | _ => exact absurd hr hold

end Sound

/-! ## Ids that have not wrapped -/

/-- The index finds every task, under the number of its creation. -/
def Indexed (L : Ledger) : Prop :=
  ∀ r < L.heap.next, (L.heap.get r).id = UInt32.ofNat (r + 1) ∧
    L.index (UInt32.ofNat (r + 1)) = some r

theorem ofNat_succ_inj {r q : Nat} (hr : r < 2 ^ 32) (hq : q < 2 ^ 32)
    (h : UInt32.ofNat (r + 1) = UInt32.ofNat (q + 1)) : r = q := by
  have hmod := congrArg UInt32.toNat h
  rw [UInt32.toNat_ofNat', UInt32.toNat_ofNat'] at hmod
  omega

theorem Indexed.step (hsound : L.Sound) (hindexed : L.heap.next ≤ 2 ^ 32 → L.Indexed)
    (h : Step L a L') (hnext : L'.heap.next ≤ 2 ^ 32) : L'.Indexed := by
  intro r hr
  have hL := hindexed (h.next_le.trans hnext)
  by_cases hold : r < L.heap.next
  · rw [(h.get hold).1]
    exact ⟨(hL r hold).1, h.index_eq (hL r hold).2⟩
  · cases h with
    | @create _ _ task _ hid =>
      rw [heap_create, Heap.next_alloc] at hr hnext
      rw [heap_create, Nat.eq_of_lt_succ_of_not_lt hr hold, Heap.get_alloc_self, index_create,
        ← hid]
      refine ⟨rfl, if_pos ⟨rfl, ?_⟩⟩
      -- an older task with the id would be the `2 ^ 32`nd before
      by_contra hne
      rcases Option.ne_none_iff_exists'.mp hne with ⟨q, hq⟩
      have hq' := hsound.index _ _ hq
      have hqid := (hL q hq'.1).1
      rw [hq'.2, hid] at hqid
      have hlt : L.heap.next < 2 ^ 32 := hnext
      exact Nat.ne_of_gt hq'.1 (ofNat_succ_inj hlt (hq'.1.trans hlt) hqid)
    | release =>
      rw [next_giveBack] at hr
      exact absurd hr hold
    | openGroup =>
      rw [heap_openGroup] at hr
      exact absurd hr hold
    | _ => exact absurd hr hold

/-- Without a wrap a task is its id. -/
theorem Indexed.id_inj (hindexed : L.Indexed) (hnext : L.heap.next ≤ 2 ^ 32) {r q : Ref}
    (hr : r < L.heap.next) (hq : q < L.heap.next) (h : (L.heap.get r).id = (L.heap.get q).id) :
    r = q := by
  rw [(hindexed r hr).1, (hindexed q hq).1] at h
  exact ofNat_succ_inj (hr.trans_le hnext) (hq.trans_le hnext) h

theorem Indexed.index_id (hindexed : L.Indexed) {r : Ref} (hr : r < L.heap.next) :
    L.index (L.heap.get r).id = some r := by
  rw [(hindexed r hr).1]
  exact (hindexed r hr).2

/-- On a desk, only the task itself has its id. -/
theorem Indexed.lists_iff (hindexed : L.Indexed) (hnext : L.heap.next ≤ 2 ^ 32) (hL : L.Sound)
    {n : NodeId} {d : Desk} (hd : L.desk n = some d) {r : Ref} (hr : r < L.heap.next) :
    d.lists L.heap (L.heap.get r).id ↔ r ∈ d.list := by
  rw [Desk.lists_iff]
  constructor
  · rintro ⟨q, hq, hid⟩
    rwa [← hindexed.id_inj hnext (hL.list n d hd q hq) hr hid]
  · exact fun h => ⟨r, h, rfl⟩

end Ledger

end Bem
