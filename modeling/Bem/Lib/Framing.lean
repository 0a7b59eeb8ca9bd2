import Mathlib.Algebra.BigOperators.Group.List.Basic
import Mathlib.Algebra.GroupWithZero.Nat

/-!
# Frames on a stream that arrives in chunks

A sender puts the frames `ps` on a stream one behind the other; frame `p` takes `size p` bytes.  A
receiver holds the bytes it has not used yet and, after each chunk, takes the frames that are
complete.  A `greedy` frame can only be taken while nothing stands behind it: its decoder fails on
more bytes than its own.

Only lengths matter here: `deliver` and `receive` count bytes.
-/

namespace Framing

universe u

variable {M : Type u} (size : M → ℕ) (greedy : M → Bool)

/-- The frames to come, and how many bytes of them are held. -/
abbrev Pending (M : Type u) := List M × ℕ

def total (ps : List M) : ℕ := (ps.map size).sum

@[simp] theorem total_nil : total size [] = 0 := rfl

@[simp] theorem total_cons (p : M) (ps : List M) :
    total size (p :: ps) = size p + total size ps := List.sum_cons

@[simp] theorem total_append (ps qs : List M) :
    total size (ps ++ qs) = total size ps + total size qs := by
  rw [total, List.map_append, List.sum_append, total, total]

/-- Take complete frames while there are any; `none` when a greedy one is not the last. -/
def deliver : List M → ℕ → Option (List M × Pending M)
  | [], n => some ([], [], n)
  | p :: ps, n =>
    if n < size p then some ([], p :: ps, n)
    else if greedy p && size p < n then none
    else (deliver ps (n - size p)).map fun r => (p :: r.1, r.2)

/-- Take what is complete after each chunk. -/
def receive : Pending M → List ℕ → Option (List M × Pending M)
  | st, [] => some ([], st)
  | st, c :: cs => do
    let (ms, st) ← deliver size greedy st.1 (st.2 + c)
    let (ms', st) ← receive st cs
    return (ms ++ ms', st)

/-- The frames that lie in the first `n` bytes. -/
def contained : List M → ℕ → List M
  | [], _ => []
  | p :: ps, n => if n < size p then [] else p :: contained ps (n - size p)

/-- Every greedy frame ends at an offset that `border` accepts. -/
def Aligned (border : ℕ → Prop) (ps : List M) : Prop :=
  ∀ pre p post, ps = pre ++ p :: post → greedy p → border (total size (pre ++ [p]))

/-- The next frame has not arrived in full. -/
def Waiting (st : Pending M) : Prop := ∀ p ps, st.1 = p :: ps → st.2 < size p

/-! ## Alignment -/

section

variable {size greedy} {border : ℕ → Prop}

theorem aligned_nil : Aligned size greedy border [] := by
  intro pre p post h
  exact absurd h (by simp)

theorem aligned_cons {p : M} {ps : List M} :
    Aligned size greedy border (p :: ps) ↔
      (greedy p → border (size p)) ∧ Aligned size greedy (fun e => border (size p + e)) ps := by
  constructor
  · intro h
    refine ⟨fun hp => ?_, fun pre q post hps hq => ?_⟩
    · simpa using h [] p ps rfl hp
    · have hcons := h (p :: pre) q post (by rw [hps, List.cons_append]) hq
      rwa [List.cons_append, total_cons] at hcons
  · intro h pre q post hps hq
    cases pre with
    | nil =>
      cases hps
      simpa using h.1 hq
    | cons p' pre =>
      cases hps
      rw [List.cons_append, total_cons]
      exact h.2 pre q post rfl hq

theorem aligned_append {ps qs : List M} :
    Aligned size greedy border (ps ++ qs) ↔
      Aligned size greedy border ps ∧
        Aligned size greedy (fun e => border (total size ps + e)) qs := by
  induction ps generalizing border with
  | nil => simp [aligned_nil]
  | cons p ps ih =>
    rw [List.cons_append, aligned_cons, aligned_cons, ih, and_assoc]
    simp only [total_cons, Nat.add_assoc]

theorem Aligned.imp {border' : ℕ → Prop} {ps : List M} (h : Aligned size greedy border ps)
    (himp : ∀ pre p post, ps = pre ++ p :: post → border (total size (pre ++ [p])) →
      border' (total size (pre ++ [p]))) : Aligned size greedy border' ps :=
  fun pre p post hps hp => himp pre p post hps (h pre p post hps hp)

theorem aligned_of_not_greedy {ps : List M} (h : ∀ p ∈ ps, greedy p = false) :
    Aligned size greedy border ps := by
  intro pre p post hps hp
  rw [h p (by rw [hps]; simp)] at hp
  cases hp

/-- Only the sizes and the greediness of the frames matter. -/
theorem aligned_map (size : M → ℕ) (greedy : M → Bool) (border : ℕ → Prop) {N : Type u}
    (g : N → M) (qs : List N) :
    Aligned size greedy border (qs.map g) ↔
      Aligned (fun q => size (g q)) (fun q => greedy (g q)) border qs := by
  induction qs generalizing border with
  | nil => simp [aligned_nil]
  | cons q qs ih => rw [List.map_cons, aligned_cons, aligned_cons, ih]

end

/-! ## One chunk -/

section

variable {size greedy}

theorem deliver_eq_some {ps : List M} {n : ℕ} {done : List M} {st : Pending M}
    (h : deliver size greedy ps n = some (done, st)) :
    ps = done ++ st.1 ∧ n = total size done + st.2 ∧ Waiting size st ∧
      done = contained size ps n := by
  induction ps generalizing n done st with
  | nil =>
    cases h
    refine ⟨rfl, by simp, ?_, rfl⟩
    intro p ps hp
    cases hp
  | cons p ps ih =>
    rw [deliver] at h
    split at h
    next hlt =>
      cases h
      refine ⟨rfl, by simp, ?_, by rw [contained, if_pos hlt]⟩
      intro q qs hq
      cases hq
      exact hlt
    next hge =>
      split at h
      · cases h
      · rcases Option.map_eq_some_iff.mp h with ⟨r, hr, hrst⟩
        cases hrst
        rcases ih hr with ⟨hps, hn, hw, hdone⟩
        refine ⟨by rw [List.cons_append, ← hps], by rw [total_cons]; omega, hw, ?_⟩
        rw [contained, if_neg hge, hdone]

theorem deliver_isSome_iff (ps : List M) (n : ℕ) :
    (deliver size greedy ps n).isSome ↔ Aligned size greedy (fun e => e ≤ n → e = n) ps := by
  induction ps generalizing n with
  | nil => simp [deliver, aligned_nil]
  | cons p ps ih =>
    rw [deliver, aligned_cons]
    split
    next hlt =>
      refine ⟨fun _ => ⟨fun _ hle => by omega, fun pre q post _ _ hle => by omega⟩, fun _ => rfl⟩
    next hge =>
      split
      -- a greedy frame with something behind it is not delivered
      next hgreedy =>
        rw [Bool.and_eq_true, decide_eq_true_eq] at hgreedy
        constructor
        · intro h
          cases h
        · intro h
          have hend := h.1 hgreedy.1 (by omega)
          omega
      next hnot =>
        rw [Option.isSome_map, ih]
        rw [Bool.and_eq_true, decide_eq_true_eq] at hnot
        constructor
        · intro h
          refine ⟨fun hp _ => ?_, h.imp fun pre q post _ hend hle => ?_⟩
          · have hnlt : ¬ size p < n := fun hlt => hnot ⟨hp, hlt⟩
            omega
          · have hend' := hend (by omega)
            omega
        · intro h
          refine h.2.imp fun pre q post _ hend hle => ?_
          have hend' := hend (by omega)
          omega

/-! ## A run of chunks -/

theorem receive_cons_eq_some {st st' : Pending M} {c : ℕ} {cs : List ℕ} {done : List M} :
    receive size greedy st (c :: cs) = some (done, st') ↔
      ∃ ms st₁ ms', deliver size greedy st.1 (st.2 + c) = some (ms, st₁) ∧
        receive size greedy st₁ cs = some (ms', st') ∧ done = ms ++ ms' := by
  rw [receive]
  constructor
  · intro h
    rcases Option.bind_eq_some_iff.mp h with ⟨⟨ms, st₁⟩, hd, hrest⟩
    rcases Option.bind_eq_some_iff.mp hrest with ⟨⟨ms', st₂⟩, hr, heq⟩
    cases heq
    exact ⟨ms, st₁, ms', hd, hr, rfl⟩
  · intro h
    rcases h with ⟨ms, st₁, ms', hd, hr, rfl⟩
    refine Option.bind_eq_some_iff.mpr ⟨(ms, st₁), hd, ?_⟩
    exact Option.bind_eq_some_iff.mpr ⟨(ms', st'), hr, rfl⟩

theorem contained_add {ps : List M} {n : ℕ} {done : List M} {st : Pending M}
    (h : deliver size greedy ps n = some (done, st)) (m : ℕ) :
    contained size ps (n + m) = done ++ contained size st.1 (st.2 + m) := by
  induction ps generalizing n done st with
  | nil =>
    cases h
    rfl
  | cons p ps ih =>
    rw [deliver] at h
    split at h
    · cases h
      rfl
    next hge =>
      split at h
      · cases h
      · rcases Option.map_eq_some_iff.mp h with ⟨r, hr, hrst⟩
        cases hrst
        have hsub : n + m - size p = n - size p + m := by omega
        rw [contained, if_neg (by omega), hsub, ih hr, List.cons_append]

theorem contained_waiting {st : Pending M} (hw : Waiting size st) :
    contained size st.1 st.2 = [] := by
  cases hst : st.1 with
  | nil => rfl
  | cons p ps => rw [contained, if_pos (hw p ps hst)]

theorem receive_eq_contained {st st' : Pending M} {cs : List ℕ} {done : List M}
    (hw : Waiting size st) (h : receive size greedy st cs = some (done, st')) :
    done = contained size st.1 (st.2 + cs.sum) := by
  induction cs generalizing st done with
  | nil =>
    cases h
    rw [List.sum_nil, Nat.add_zero, contained_waiting hw]
  | cons c cs ih =>
    rcases receive_cons_eq_some.mp h with ⟨ms, st₁, ms', hd, hr, rfl⟩
    rcases deliver_eq_some hd with ⟨-, -, hw₁, -⟩
    rw [List.sum_cons, ← Nat.add_assoc, contained_add hd, ih hw₁ hr]

theorem contained_map (size : M → ℕ) {N : Type u} (g : N → M) (qs : List N) (n : ℕ) :
    contained size (qs.map g) n = (contained (fun q => size (g q)) qs n).map g := by
  induction qs generalizing n with
  | nil => rfl
  | cons q qs ih =>
    rw [List.map_cons, contained, contained]
    split
    · rfl
    · rw [ih, List.map_cons]

theorem mem_of_mem_contained {ps : List M} {n : ℕ} {p : M} (h : p ∈ contained size ps n) :
    p ∈ ps := by
  induction ps generalizing n with
  | nil => cases h
  | cons q ps ih =>
    rw [contained] at h
    split at h
    · cases h
    · rcases List.mem_cons.mp h with rfl | h
      · exact List.mem_cons_self
      · exact List.mem_cons_of_mem q (ih h)

theorem contained_total (ps : List M) : contained size ps (total size ps) = ps := by
  induction ps with
  | nil => rfl
  | cons p ps ih => rw [total_cons, contained, if_neg (by omega), Nat.add_sub_cancel_left, ih]

/-- When all frames have come, so have their bytes. -/
theorem total_le_of_contained {ps : List M} {n : ℕ} (h : (contained size ps n).length = ps.length) :
    total size ps ≤ n := by
  induction ps generalizing n with
  | nil => exact Nat.zero_le n
  | cons p ps ih =>
    rw [contained] at h
    split at h
    · cases h
    · have hrest := ih (Nat.succ.inj h)
      rw [total_cons]
      omega

theorem Waiting.lt_total {st : Pending M} (hw : Waiting size st) {pre post : List M} {p : M}
    (h : st.1 = pre ++ p :: post) : st.2 < total size (pre ++ [p]) := by
  cases pre with
  | nil => simpa using hw p post h
  | cons q pre =>
    have hq := hw q (pre ++ p :: post) h
    rw [List.cons_append, total_cons]
    omega

/-- A receiver gets through exactly when every greedy frame that arrives ends where a chunk does. -/
theorem receive_isSome_iff (greedy : M → Bool) {st : Pending M} (hw : Waiting size st) (cs : List ℕ) :
    (receive size greedy st cs).isSome ↔
      Aligned size greedy (fun e => e ≤ st.2 + cs.sum → ∃ k, e = st.2 + (cs.take k).sum) st.1 := by
  induction cs generalizing st with
  | nil =>
    refine ⟨fun _ pre p post hps _ hle => ?_, fun _ => rfl⟩
    have hlt := hw.lt_total hps
    rw [List.sum_nil, Nat.add_zero] at hle
    omega
  | cons c cs ih =>
    -- no frame ends at the border before the first chunk, so the borders count from behind it
    have hshift : Aligned size greedy
        (fun e => e ≤ st.2 + (c :: cs).sum → ∃ k, e = st.2 + ((c :: cs).take k).sum) st.1 ↔
          Aligned size greedy
            (fun e => e ≤ st.2 + c + cs.sum → ∃ k, e = st.2 + c + (cs.take k).sum) st.1 := by
      rw [List.sum_cons, ← Nat.add_assoc]
      constructor
      · intro h
        refine h.imp fun pre p post hps hk hle => ?_
        rcases hk hle with ⟨k, hk⟩
        cases k with
        | zero =>
          have hlt := hw.lt_total hps
          rw [List.take_zero, List.sum_nil] at hk
          omega
        | succ k => exact ⟨k, by rw [hk, List.take_succ_cons, List.sum_cons, Nat.add_assoc]⟩
      · intro h
        refine h.imp fun pre p post _ hk hle => ?_
        rcases hk hle with ⟨k, hk⟩
        exact ⟨k + 1, by rw [hk, List.take_succ_cons, List.sum_cons, Nat.add_assoc]⟩
    rw [hshift]
    constructor
    · intro h
      rcases Option.isSome_iff_exists.mp h with ⟨⟨done, st'⟩, hreceive⟩
      rcases receive_cons_eq_some.mp hreceive with ⟨ms, st₁, ms', hd, hr, rfl⟩
      rcases deliver_eq_some hd with ⟨hps, hn, hw₁, -⟩
      have hnow := (deliver_isSome_iff _ _).mp (Option.isSome_of_eq_some hd)
      have hlater := (ih hw₁).mp (Option.isSome_of_eq_some hr)
      rw [hps, aligned_append] at hnow ⊢
      refine ⟨hnow.1.imp fun pre p post hms hend _ => ⟨0, ?_⟩,
        hlater.imp fun pre p post _ hk hle => ?_⟩
      · have hle : total size (pre ++ [p]) ≤ total size ms := by
          rw [hms, total_append, total_append, total_cons, total_cons, total_nil]
          omega
        rw [hend (by omega), List.take_zero, List.sum_nil, Nat.add_zero]
      · rcases hk (by omega) with ⟨k, hk⟩
        exact ⟨k, by omega⟩
    · intro h
      have hnow : (deliver size greedy st.1 (st.2 + c)).isSome := by
        refine (deliver_isSome_iff _ _).mpr (h.imp fun pre p post _ hk hle => ?_)
        rcases hk (by omega) with ⟨k, hk⟩
        omega
      rcases Option.isSome_iff_exists.mp hnow with ⟨⟨ms, st₁⟩, hd⟩
      rcases deliver_eq_some hd with ⟨hps, hn, hw₁, -⟩
      have hlater : (receive size greedy st₁ cs).isSome := by
        rw [hps, aligned_append] at h
        refine (ih hw₁).mpr (h.2.imp fun pre p post _ hk hle => ?_)
        rcases hk (by omega) with ⟨k, hk⟩
        exact ⟨k, by omega⟩
      rcases Option.isSome_iff_exists.mp hlater with ⟨⟨ms', st'⟩, hr⟩
      exact Option.isSome_of_eq_some
        (receive_cons_eq_some.mpr ⟨ms, st₁, ms', hd, hr, rfl⟩)

end

end Framing
