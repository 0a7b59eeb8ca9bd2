import Mathlib.Data.List.AList
import Mathlib.Data.List.Sort
import Mathlib.Data.Finset.Dedup

/-!
# Keyed maps of pointers

`KeyedMap K V` is a finite map whose entries are listed in the order in which an iteration visits
them.  Mathlib's `AList` carries the uniqueness of the keys.  The order means nothing else, and
`reorder` changes it at will.

The second half is about maps of nullable pointers, `KeyedMap K (Option V)`: `at?` follows the
pointer stored under a key, and `index` is the subscript operator that stores a null pointer under
a key it does not find.
-/

universe u v w

abbrev KeyedMap (K : Type u) (V : Type v) := AList fun _ : K => V

namespace KeyedMap

variable {K : Type u} {V : Type v}

/-! ## Entries -/

section Entries

variable [DecidableEq K]

/-- Insertion that leaves an existing entry alone. -/
def emplace (m : KeyedMap K V) (k : K) (v : V) : KeyedMap K V :=
  if h : k ∈ m then m
  else
    { entries := m.entries ++ [⟨k, v⟩]
      nodupKeys := by
        have hm := m.nodupKeys
        have hk : k ∉ m.entries.keys := h
        rw [List.NodupKeys, List.keys, List.map_append, List.nodup_append]
        refine ⟨hm, List.nodup_singleton _, ?_⟩
        intro a ha b hb hab
        rw [List.map_singleton, List.mem_singleton] at hb
        exact hk (by rwa [hab, hb] at ha) }

theorem emplace_of_mem {m : KeyedMap K V} {k : K} {v : V} (h : k ∈ m) : m.emplace k v = m :=
  dif_pos h

theorem entries_emplace {m : KeyedMap K V} {k : K} {v : V} (h : k ∉ m) :
    (m.emplace k v).entries = m.entries ++ [⟨k, v⟩] := by
  rw [emplace, dif_neg h]

theorem mem_emplace {m : KeyedMap K V} {k k' : K} {v : V} :
    k' ∈ m.emplace k v ↔ k' = k ∨ k' ∈ m := by
  by_cases h : k ∈ m
  · rw [emplace_of_mem h]
    exact ⟨Or.inr, fun hor => hor.elim (fun he => he ▸ h) id⟩
  · rw [AList.mem_keys, AList.keys, entries_emplace h, List.keys, List.map_append, List.mem_append,
      List.map_singleton, List.mem_singleton]
    exact or_comm

theorem lookup_emplace_self {m : KeyedMap K V} {k : K} {v : V} (h : k ∉ m) :
    (m.emplace k v).lookup k = some v := by
  have hnone : m.entries.dlookup k = none := AList.lookup_eq_none.mpr h
  rw [AList.lookup, entries_emplace h, List.dlookup_append, hnone, List.dlookup_cons_eq]
  rfl

theorem lookup_emplace_ne {m : KeyedMap K V} {k k' : K} {v : V} (h : k' ≠ k) :
    (m.emplace k v).lookup k' = m.lookup k' := by
  by_cases hk : k ∈ m
  · rw [emplace_of_mem hk]
  · rw [AList.lookup, entries_emplace hk, List.dlookup_append, List.dlookup_cons_ne _ _ h,
      List.dlookup_nil, Option.or_none]
    rfl

/-- Insert every value of a list under the key `key` gives it: the first one with a key stays. -/
def emplaceAll (key : V → K) (m : KeyedMap K V) (l : List V) : KeyedMap K V :=
  l.foldl (fun m v => m.emplace (key v) v) m

/-- Every value stands under the key that `key` gives it. -/
def KeyedBy (key : V → K) (m : KeyedMap K V) : Prop := ∀ e ∈ m.entries, e.1 = key e.2

/-- What holds of the entries of a map and of the values inserted holds of every entry. -/
theorem forall_emplaceAll {key : V → K} {m : KeyedMap K V} {l : List V}
    {P : (Sigma fun _ : K => V) → Prop} (hm : ∀ e ∈ m.entries, P e) (hl : ∀ v ∈ l, P ⟨key v, v⟩) :
    ∀ e ∈ (m.emplaceAll key l).entries, P e := by
  induction l generalizing m with
  | nil => exact hm
  | cons v l ih =>
    apply ih _ fun v' hv' => hl v' (List.mem_cons_of_mem v hv')
    change ∀ e ∈ (m.emplace (key v) v).entries, P e
    by_cases h : key v ∈ m
    · rwa [emplace_of_mem h]
    · intro e he
      rw [entries_emplace h, List.mem_append, List.mem_singleton] at he
      rcases he with he | rfl
      · exact hm e he
      · exact hl v List.mem_cons_self

theorem keyedBy_emplaceAll_empty (key : V → K) (l : List V) :
    (emplaceAll key ∅ l).KeyedBy key :=
  forall_emplaceAll (fun _ he => (List.not_mem_nil he).elim) fun _ _ => rfl

private theorem entries_emplaceAll {key : V → K} (m m' : KeyedMap K V)
    (l : List (Sigma fun _ : K => V)) (hl : m'.entries = m.entries ++ l)
    (hkey : ∀ e ∈ l, e.1 = key e.2) :
    (m.emplaceAll key (l.map Sigma.snd)).entries = m'.entries := by
  induction l generalizing m with
  | nil =>
    rw [hl, List.append_nil]
    rfl
  | cons e l ih =>
    have hk : key e.2 = e.1 := (hkey e List.mem_cons_self).symm
    have hnot : e.1 ∉ m := by
      intro hmem
      have hnodup := m'.nodupKeys
      rw [hl, List.NodupKeys, List.keys, List.map_append, List.nodup_append] at hnodup
      exact hnodup.2.2 e.1 hmem e.1 (by simp) rfl
    have he := entries_emplace (v := e.2) hnot
    have hstep := ih (m.emplace e.1 e.2) (by rw [he, hl, List.append_assoc]; rfl)
      fun e' he' => hkey e' (List.mem_cons_of_mem _ he')
    rw [List.map_cons]
    change (emplaceAll key (m.emplace (key e.2) e.2) (l.map Sigma.snd)).entries = _
    rw [hk]
    exact hstep

/-- Inserting the values of a map into the empty map gives it back exactly when they stand under
their own keys. -/
theorem emplaceAll_values_iff {key : V → K} (m : KeyedMap K V) :
    emplaceAll key ∅ (m.entries.map Sigma.snd) = m ↔ m.KeyedBy key := by
  constructor
  · intro h
    rw [← h]
    exact keyedBy_emplaceAll_empty key _
  · intro h
    apply AList.ext
    exact entries_emplaceAll ∅ m m.entries (List.nil_append _).symm h

/-- What was there stays, and then the first value with a key is the one that is found. -/
theorem lookup_emplaceAll (key : V → K) (m : KeyedMap K V) (l : List V) (k : K) :
    (m.emplaceAll key l).lookup k = (m.lookup k).or (l.find? fun v => key v = k) := by
  induction l generalizing m with
  | nil => exact Option.or_none.symm
  | cons v l ih =>
    have hrest := ih (m.emplace (key v) v)
    change (m.emplaceAll key (v :: l)).lookup k = _ at hrest
    rw [hrest, List.find?_cons]
    by_cases heq : key v = k
    · subst heq
      by_cases hmem : key v ∈ m
      · obtain ⟨w, hw⟩ := Option.isSome_iff_exists.mp (AList.lookup_isSome.mpr hmem)
        rw [emplace_of_mem hmem, hw]
        rfl
      · rw [lookup_emplace_self hmem, AList.lookup_eq_none.mpr hmem, decide_eq_true rfl]
        rfl
    · rw [lookup_emplace_ne (Ne.symm heq), decide_eq_false heq]

/-- That everything stands under its own key does not depend on the order. -/
theorem keyedBy_iff_lookup {key : V → K} {m : KeyedMap K V} :
    m.KeyedBy key ↔ ∀ k v, m.lookup k = some v → k = key v := by
  constructor
  · intro h k v hv
    exact h ⟨k, v⟩ (AList.mem_lookup_iff.mp hv)
  · intro h e he
    exact h e.1 e.2 (AList.mem_lookup_iff.mpr he)

/-- The same entries in the order in which `order` lists their keys. -/
def reorder (order : List K) (m : KeyedMap K V) : KeyedMap K V where
  entries := m.entries.insertionSort fun a b => order.idxOf a.1 ≤ order.idxOf b.1
  nodupKeys := (List.perm_nodupKeys (List.perm_insertionSort _ _)).mpr m.nodupKeys

theorem reorder_perm (order : List K) (m : KeyedMap K V) :
    (m.reorder order).entries.Perm m.entries :=
  List.perm_insertionSort _ _

@[simp] theorem lookup_reorder (order : List K) (m : KeyedMap K V) (k : K) :
    (m.reorder order).lookup k = m.lookup k :=
  AList.perm_lookup (m.reorder_perm order)

@[simp] theorem mem_reorder {order : List K} {m : KeyedMap K V} {k : K} :
    k ∈ m.reorder order ↔ k ∈ m :=
  AList.mem_of_perm (m.reorder_perm order)

end Entries

/-! ## Pointers -/

section Pointers

variable [DecidableEq K]

/-- The object under `k`; `none` for an absent key and for a null pointer. -/
def at? (m : KeyedMap K (Option V)) (k : K) : Option V := (m.lookup k).join

/-- The subscript operator: an absent key is entered with a null pointer. -/
def index (m : KeyedMap K (Option V)) (k : K) : KeyedMap K (Option V) × Option V :=
  (m.emplace k none, m.at? k)

theorem mem_of_at? {m : KeyedMap K (Option V)} {k : K} {v : V} (h : m.at? k = some v) : k ∈ m := by
  rw [← AList.lookup_isSome]
  cases hl : m.lookup k with
  | none => simp [at?, hl] at h
  | some p => rfl

theorem index_of_at? {m : KeyedMap K (Option V)} {k : K} {v : V} (h : m.at? k = some v) :
    m.index k = (m, some v) := by
  rw [index, emplace_of_mem (mem_of_at? h), h]

theorem at?_eq_none_of_notMem {m : KeyedMap K (Option V)} {k : K} (h : k ∉ m) : m.at? k = none := by
  rw [at?, AList.lookup_eq_none.mpr h]
  rfl

theorem at?_emplace_self {m : KeyedMap K (Option V)} {k : K} {v : V} (h : k ∉ m) :
    (m.emplace k (some v)).at? k = some v := by
  rw [at?, lookup_emplace_self h]
  rfl

theorem at?_emplace_ne {m : KeyedMap K (Option V)} {k k' : K} {p : Option V} (h : k' ≠ k) :
    (m.emplace k p).at? k' = m.at? k' := by
  rw [at?, lookup_emplace_ne h]
  rfl

theorem at?_erase_self (m : KeyedMap K (Option V)) (k : K) :
    at? (AList.erase k m) k = none := by
  rw [at?, AList.lookup_erase]
  rfl

theorem at?_erase_ne {m : KeyedMap K (Option V)} {k k' : K} (h : k' ≠ k) :
    at? (AList.erase k m) k' = m.at? k' := by
  rw [at?, AList.lookup_erase_ne h]
  rfl

theorem at?_erase_some {m : KeyedMap K (Option V)} {k k' : K} {v : V}
    (h : at? (AList.erase k m) k' = some v) : k' ≠ k ∧ m.at? k' = some v := by
  by_cases hk : k' = k
  · rw [hk, at?_erase_self] at h
    cases h
  · exact ⟨hk, by rwa [at?_erase_ne hk] at h⟩

@[simp] theorem at?_reorder (order : List K) (m : KeyedMap K (Option V)) (k : K) :
    (m.reorder order).at? k = m.at? k := by
  rw [at?, lookup_reorder]
  rfl

theorem at?_emplace {m : KeyedMap K (Option V)} {k k' : K} {v : V} :
    (m.emplace k (some v)).at? k' = if k' = k ∧ k ∉ m then some v else m.at? k' := by
  by_cases hk : k ∈ m
  · rw [emplace_of_mem hk, if_neg (fun h => h.2 hk)]
  · by_cases heq : k' = k
    · rw [if_pos ⟨heq, hk⟩, heq, at?_emplace_self hk]
    · rw [if_neg (fun h => heq h.1), at?_emplace_ne heq]

theorem at?_emplace_of_at? {m : KeyedMap K (Option V)} {k k' : K} {v w : V}
    (h : m.at? k' = some v) : (m.emplace k (some w)).at? k' = some v := by
  rw [at?_emplace, if_neg, h]
  intro hk
  exact hk.2 (hk.1 ▸ mem_of_at? h)

theorem index_of_at?_none {m : KeyedMap K (Option V)} {k : K} (h : m.at? k = none) :
    m.index k = (m.emplace k none, none) := by
  rw [index, h]

/-- Every pointer of the map can be followed. -/
def NonNull (m : KeyedMap K (Option V)) : Prop := ∀ k ∈ m, ∃ v, m.at? k = some v

theorem nonNull_empty : (∅ : KeyedMap K (Option V)).NonNull :=
  fun k hk => (AList.notMem_empty k hk).elim

theorem NonNull.notMem_of_at? {m : KeyedMap K (Option V)} {k : K} (h : m.NonNull)
    (hk : m.at? k = none) : k ∉ m := by
  intro hmem
  rcases h k hmem with ⟨v, hv⟩
  rw [hk] at hv
  cases hv

theorem NonNull.emplace {m : KeyedMap K (Option V)} (h : m.NonNull) (k : K) (v : V) :
    (m.emplace k (some v)).NonNull := by
  intro k' hk'
  rw [at?_emplace]
  split
  · exact ⟨v, rfl⟩
  next hnew =>
    rcases mem_emplace.mp hk' with rfl | hmem
    · exact h k' (by_contra fun hk => hnew ⟨rfl, hk⟩)
    · exact h k' hmem

theorem NonNull.erase {m : KeyedMap K (Option V)} (h : m.NonNull) (k : K) :
    NonNull (AList.erase k m) := by
  intro k' hk'
  rw [AList.mem_erase] at hk'
  rw [at?_erase_ne hk'.1]
  exact h k' hk'.2

theorem NonNull.reorder {m : KeyedMap K (Option V)} (h : m.NonNull) (order : List K) :
    (m.reorder order).NonNull := by
  intro k hk
  rw [at?_reorder]
  exact h k (mem_reorder.mp hk)

end Pointers

/-! ## Updating the objects pointed to -/

section Update

/-- Update every object in place; keys, order and null pointers stay. -/
def mapPointees (f : K → V → V) (m : KeyedMap K (Option V)) : KeyedMap K (Option V) where
  entries := m.entries.map fun e => ⟨e.1, e.2.map (f e.1)⟩
  nodupKeys := by
    have h := m.nodupKeys
    simp only [List.NodupKeys, List.keys, List.map_map] at h ⊢
    exact h

@[simp] theorem keys_mapPointees (f : K → V → V) (m : KeyedMap K (Option V)) :
    (m.mapPointees f).keys = m.keys := by
  simp only [AList.keys, mapPointees, List.keys, List.map_map]
  rfl

@[simp] theorem mem_mapPointees {f : K → V → V} {m : KeyedMap K (Option V)} {k : K} :
    k ∈ m.mapPointees f ↔ k ∈ m := by
  rw [AList.mem_keys, keys_mapPointees, AList.mem_keys]

theorem mapPointees_mapPointees (f g : K → V → V) (m : KeyedMap K (Option V)) :
    (m.mapPointees g).mapPointees f = m.mapPointees fun k v => f k (g k v) := by
  apply AList.ext
  show (m.entries.map _).map _ = m.entries.map _
  rw [List.map_map]
  apply List.map_congr_left
  intro e _
  exact congrArg (Sigma.mk e.1) (Option.map_map (f e.1) (g e.1) e.2)

variable [DecidableEq K]

private theorem dlookup_map_pointee (f : K → V → V) (l : List (Sigma fun _ : K => Option V)) (k : K) :
    (l.map fun e => (⟨e.1, e.2.map (f e.1)⟩ : Sigma fun _ : K => Option V)).dlookup k =
      (l.dlookup k).map (Option.map (f k)) := by
  induction l with
  | nil => rfl
  | cons e l ih =>
    obtain ⟨k', p⟩ := e
    by_cases h : k = k'
    · subst h
      simp
    · rw [List.map_cons, List.dlookup_cons_ne _ _ h, List.dlookup_cons_ne _ _ h, ih]

@[simp] theorem at?_mapPointees (f : K → V → V) (m : KeyedMap K (Option V)) (k : K) :
    (m.mapPointees f).at? k = (m.at? k).map (f k) := by
  unfold at? AList.lookup mapPointees
  rw [dlookup_map_pointee]
  cases m.entries.dlookup k with
  | none => rfl
  | some p => rfl

theorem NonNull.mapPointees {m : KeyedMap K (Option V)} (h : m.NonNull) (f : K → V → V) :
    (m.mapPointees f).NonNull := by
  intro k hk
  rw [at?_mapPointees]
  rcases h k (mem_mapPointees.mp hk) with ⟨v, hv⟩
  exact ⟨f k v, by rw [hv]; rfl⟩

theorem mapPointees_congr {f g : K → V → V} {m : KeyedMap K (Option V)}
    (h : ∀ k v, m.at? k = some v → f k v = g k v) : m.mapPointees f = m.mapPointees g := by
  apply AList.ext
  apply List.map_congr_left
  intro e he
  obtain ⟨k, p⟩ := e
  cases p with
  | none => rfl
  | some v =>
    have hlookup : m.lookup k = some (some v) := AList.mem_lookup_iff.mpr he
    have hat : m.at? k = some v := by rw [at?, hlookup]; rfl
    exact congrArg (fun w => (⟨k, some w⟩ : Sigma fun _ : K => Option V)) (h k v hat)

/-- An update that changes no object. -/
theorem mapPointees_same {f : K → V → V} {m : KeyedMap K (Option V)}
    (h : ∀ k v, m.at? k = some v → f k v = v) : m.mapPointees f = m := by
  rw [mapPointees_congr (g := fun _ v => v) h]
  apply AList.ext
  show m.entries.map _ = m.entries
  conv_rhs => rw [← List.map_id m.entries]
  apply List.map_congr_left
  intro e _
  exact congrArg (Sigma.mk e.1) (Option.map_id_apply)

/-- Update the object under `k` in place. -/
def modify (m : KeyedMap K (Option V)) (k : K) (f : V → V) : KeyedMap K (Option V) :=
  m.mapPointees fun k' v => if k' = k then f v else v

theorem at?_modify_self (m : KeyedMap K (Option V)) (k : K) (f : V → V) :
    (m.modify k f).at? k = (m.at? k).map f := by
  simp [modify]

theorem at?_modify_ne {m : KeyedMap K (Option V)} {k k' : K} {f : V → V} (h : k' ≠ k) :
    (m.modify k f).at? k' = m.at? k' := by
  simp [modify, h]

/-- Overwrite the object under `k`. -/
abbrev store (m : KeyedMap K (Option V)) (k : K) (v : V) : KeyedMap K (Option V) :=
  m.modify k fun _ => v

theorem at?_store (m : KeyedMap K (Option V)) (k k' : K) (v : V) :
    (m.store k v).at? k' = if k' = k then (m.at? k).map fun _ => v else m.at? k' := by
  split
  next h => rw [h, at?_modify_self]
  next h => exact at?_modify_ne h

/-- A store where there is an object is an update. -/
theorem at?_store_of_at? {m : KeyedMap K (Option V)} {k : K} {v w : V} (h : m.at? k = some v) :
    (m.store k w).at? = Function.update m.at? k (some w) := by
  funext k'
  rw [at?_store, h, Function.update_apply]
  rfl

theorem at?_store_self {m : KeyedMap K (Option V)} {k : K} {v w : V} (h : m.at? k = some v) :
    (m.store k w).at? k = some w := by
  rw [at?_store_of_at? h, Function.update_self]

/-- What is seen of the objects, after an update of one of them. -/
theorem map_at?_store {W : Type w} {f : V → W} {m : KeyedMap K (Option V)} {k : K} {v v' : V}
    (h : m.at? k = some v) : (fun k' => ((m.store k v').at? k').map f) =
      Function.update (fun k' => (m.at? k').map f) k (some (f v')) := by
  rw [at?_store_of_at? h]
  funext k'
  by_cases hk : k' = k
  · rw [hk, Function.update_self, Function.update_self]
    rfl
  · rw [Function.update_of_ne hk, Function.update_of_ne hk]

theorem map_at?_store_same {W : Type w} {f : V → W} {m : KeyedMap K (Option V)} {k : K} {v v' : V}
    (h : m.at? k = some v) (hf : f v' = f v) :
    (fun k' => ((m.store k v').at? k').map f) = fun k' => (m.at? k').map f := by
  rw [map_at?_store h, hf]
  apply Function.update_eq_self_iff.mpr
  rw [h]
  rfl

end Update

/-! ## Iteration -/

section Iteration

/-- The keys with the objects under them, in iteration order; null pointers are passed over. -/
def pointees (m : KeyedMap K (Option V)) : List (K × V) :=
  m.entries.filterMap fun e => e.2.map (Prod.mk e.1)

/-- An iteration that follows every pointer: there is none when one of them is null. -/
def pointees? (m : KeyedMap K (Option V)) : Option (List (K × V)) :=
  if m.entries.all (·.2.isSome) then some m.pointees else none

theorem pointees?_eq_some {m : KeyedMap K (Option V)} {l : List (K × V)}
    (h : m.pointees? = some l) : l = m.pointees := by
  unfold pointees? at h
  split at h
  · exact (Option.some.inj h).symm
  · cases h

theorem nodup_pointees (m : KeyedMap K (Option V)) : (m.pointees.map Prod.fst).Nodup := by
  have hsub : (m.pointees.map Prod.fst).Sublist m.keys := by
    unfold pointees AList.keys List.keys
    induction m.entries with
    | nil => exact List.Sublist.refl _
    | cons e l ih =>
      obtain ⟨k, p⟩ := e
      cases p with
      | none => exact ih.cons k
      | some v => exact ih.cons_cons k
  exact hsub.nodup m.keys_nodup

variable [DecidableEq K]

theorem mem_pointees {m : KeyedMap K (Option V)} {k : K} {v : V} :
    (k, v) ∈ m.pointees ↔ m.at? k = some v := by
  have hat : m.at? k = some v ↔ (⟨k, some v⟩ : Sigma fun _ : K => Option V) ∈ m.entries := by
    rw [← AList.mem_lookup_iff, Option.mem_def, at?, Option.join_eq_some_iff]
  rw [hat, pointees, List.mem_filterMap]
  constructor
  · rintro ⟨⟨k', p⟩, hmem, he⟩
    cases p with
    | none => cases he
    | some v' =>
      cases he
      exact hmem
  · intro hmem
    exact ⟨_, hmem, rfl⟩

theorem pointees?_of_nonNull {m : KeyedMap K (Option V)} (h : m.NonNull) :
    m.pointees? = some m.pointees := by
  rw [pointees?, if_pos]
  rw [List.all_eq_true]
  rintro ⟨k, p⟩ hmem
  obtain ⟨v, hv⟩ := h k (List.mem_map.mpr ⟨_, hmem, rfl⟩)
  have hl : m.lookup k = some p := AList.mem_lookup_iff.mpr hmem
  rw [at?, hl] at hv
  cases p with
  | none => cases hv
  | some _ => rfl

end Iteration

end KeyedMap
