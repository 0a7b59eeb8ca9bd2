import Bem.Coordinator.Totals
import Mathlib.Algebra.BigOperators.Group.List.Basic
import Mathlib.Algebra.Order.Ring.Int

/-!
# The percentages of a group

A group is shown with the share of its games that each agent has won.  The product with 100 is a
`uint32_t` and wraps long before the number of games does.
-/

namespace Bem

namespace Result

/-- `games > 0u ? wins * 100 / games : 0`. -/
def percentage (wins games : UInt32) : UInt32 := if games > 0 then wins * 100 / games else 0

def percentage1 (r : Result) : UInt32 := percentage r.winAgent1 r.games

def percentage2 (r : Result) : UInt32 := percentage r.winAgent2 r.games

/-- What `operator<<` writes, around two percentages. -/
def textWith (r : Result) (percentage1 percentage2 : Nat) : String :=
  "(G:" ++ toString r.games ++ "/E:" ++ toString r.failedGames ++
    "|W1:" ++ toString r.winAgent1 ++ "/W2:" ++ toString r.winAgent2 ++
    "|P1:" ++ toString percentage1 ++ "%" ++ "/P2:" ++ toString percentage2 ++ "%" ++
    "|T1:" ++ toString r.timeoutAgent1 ++ "/T2:" ++ toString r.timeoutAgent2 ++ ")"

/-- `operator<<`. -/
def toText (r : Result) : String := r.textWith r.percentage1.toNat r.percentage2.toNat

/-- The results merged one after the other into an empty one. -/
def mergeAll (rs : List Result) : Result := rs.foldl merge {}

/-- The total of a counter, which does not wrap. -/
def total (f : Result → UInt32) (rs : List Result) : Nat := (rs.map fun r => (f r).toNat).sum

/-- The share of the wins in percent, rounded down. -/
def floorPercentage (wins games : Nat) : Nat := if games = 0 then 0 else 100 * wins / games

/-- What `operator<<` shows for `r` are the percentages of the results `rs`. -/
structure ShowsPercentages (r : Result) (rs : List Result) : Prop where
  first : r.percentage1.toNat = floorPercentage (total winAgent1 rs) (total games rs)
  second : r.percentage2.toNat = floorPercentage (total winAgent2 rs) (total games rs)
  first_le : r.percentage1.toNat ≤ 100
  second_le : r.percentage2.toNat ≤ 100
  sum_le : r.percentage1.toNat + r.percentage2.toNat ≤ 100
  text : r.toText = r.textWith (floorPercentage (total winAgent1 rs) (total games rs))
    (floorPercentage (total winAgent2 rs) (total games rs))

theorem mergeAll_eq_sum (rs : List Result) : mergeAll rs = sum rs := by
  induction rs using List.reverseRecOn with
  | nil => rfl
  | append_singleton rs r ih =>
    rw [sum_concat, ← ih]
    exact List.foldl_append

theorem total_perm {rs rs' : List Result} (f : Result → UInt32) (h : rs'.Perm rs) :
    total f rs' = total f rs := (h.map fun r => (f r).toNat).sum_nat

/-- A counter whose total fits into 32 bits is that total after all merges. -/
theorem toNat_mergeAll {f : Result → UInt32} (hf : f ∈ counters) {rs : List Result}
    (h : total f rs < 2 ^ 32) : (f (mergeAll rs)).toNat = total f rs := by
  have hmap : (rs.map f).map UInt32.toNat = rs.map fun r => (f r).toNat := List.map_map
  rw [mergeAll_eq_sum, counter_sum hf, toNat_sum (by rw [hmap]; exact h), hmap]
  rfl

theorem toNat_percentage (wins games : UInt32) :
    (percentage wins games).toNat = 100 * wins.toNat % 2 ^ 32 / games.toNat := by
  unfold percentage
  split
  · rw [UInt32.toNat_div, UInt32.toNat_mul, Nat.mul_comm]
    rfl
  next hgames =>
    have hzero : games.toNat = 0 := by simpa [UInt32.lt_iff_toNat_lt] using hgames
    rw [hzero, Nat.div_zero]
    rfl

theorem floorPercentage_eq (wins games : Nat) :
    floorPercentage wins games = 100 * wins / games := by
  unfold floorPercentage
  split
  next hgames => rw [hgames, Nat.div_zero]
  next => rfl

/-- The product wraps by more than the number of games, which costs the quotient a unit or more. -/
theorem wrapped_div_eq_iff {wins games : Nat} (hwins : wins ≤ games) (hgames : games < 2 ^ 32) :
    100 * wins % 2 ^ 32 / games = 100 * wins / games ↔ 100 * wins < 2 ^ 32 := by
  constructor
  · intro heq
    by_contra hlarge
    have hpos : 0 < games := by omega
    -- what is lost is `2 ^ 32` at least, and `games` is less
    have hwrap : 100 * wins % 2 ^ 32 ≤ 100 * wins - games := by omega
    have hunit : 100 * wins / games = (100 * wins - games) / games + 1 :=
      Nat.div_eq_sub_div hpos (by omega)
    have hquotient : 100 * wins % 2 ^ 32 / games ≤ (100 * wins - games) / games :=
      Nat.div_le_div_right hwrap
    omega
  · intro hsmall
    rw [Nat.mod_eq_of_lt hsmall]

theorem floorPercentage_add_le {wins1 wins2 games : Nat} (h : wins1 + wins2 ≤ games) :
    floorPercentage wins1 games + floorPercentage wins2 games ≤ 100 := by
  rw [floorPercentage_eq, floorPercentage_eq]
  refine Nat.div_add_div_le_add_div.trans ?_
  rw [← Nat.mul_add]
  exact Nat.div_le_of_le_mul (by rw [Nat.mul_comm]; exact Nat.mul_le_mul_right _ h)

section Group

variable {rs rs' : List Result}
  (hwins : ∀ r ∈ rs, r.winAgent1.toNat + r.winAgent2.toNat ≤ r.games.toNat)
  (hgames : total games rs < 2 ^ 32) (hperm : rs'.Perm rs)

include hwins in
theorem total_wins_le : total winAgent1 rs + total winAgent2 rs ≤ total games rs := by
  unfold total
  rw [← List.sum_map_add]
  exact List.sum_le_sum hwins

include hwins hgames hperm

/-- The percentages shown are those of the exact totals, except for the wrap of the products. -/
theorem toNat_percentages_mergeAll :
    (mergeAll rs').percentage1.toNat = 100 * total winAgent1 rs % 2 ^ 32 / total games rs ∧
      (mergeAll rs').percentage2.toNat = 100 * total winAgent2 rs % 2 ^ 32 / total games rs := by
  have hle := total_wins_le hwins
  -- each win is a game, so that no counter wraps when the games do not
  have heq (f : Result → UInt32) (hf : f ∈ counters) (hfew : total f rs < 2 ^ 32) :
      (f (mergeAll rs')).toNat = total f rs := by
    rw [toNat_mergeAll hf (by rw [total_perm f hperm]; exact hfew), total_perm f hperm]
  unfold percentage1 percentage2
  rw [toNat_percentage, toNat_percentage, heq games (by simp [counters]) hgames,
    heq winAgent1 (by simp [counters]) (by omega), heq winAgent2 (by simp [counters]) (by omega)]
  exact ⟨rfl, rfl⟩

/-- In whatever order the results of a group come in, its percentages are right exactly when
neither product wraps. -/
theorem showsPercentages_mergeAll_iff : (mergeAll rs').ShowsPercentages rs ↔
    100 * total winAgent1 rs < 2 ^ 32 ∧ 100 * total winAgent2 rs < 2 ^ 32 := by
  have hle := total_wins_le hwins
  have hshown := toNat_percentages_mergeAll hwins hgames hperm
  have hiff1 := @wrapped_div_eq_iff (total winAgent1 rs) _ (by omega) hgames
  have hiff2 := @wrapped_div_eq_iff (total winAgent2 rs) _ (by omega) hgames
  rw [← hshown.1, ← floorPercentage_eq] at hiff1
  rw [← hshown.2, ← floorPercentage_eq] at hiff2
  constructor
  · intro h
    exact ⟨hiff1.mp h.first, hiff2.mp h.second⟩
  · intro h
    have hfirst := hiff1.mpr h.1
    have hsecond := hiff2.mpr h.2
    have hsum := floorPercentage_add_le hle
    refine ⟨hfirst, hsecond, by omega, by omega, by omega, ?_⟩
    -- the text has nothing else in it that could differ
    rw [← hfirst, ← hsecond]
    rfl

end Group

/-- Three results of a group, the last one of a task all of whose games have failed. -/
def smallGroup : List Result :=
  [{ games := 4, winAgent1 := 3, winAgent2 := 1 }, { games := 3, winAgent1 := 1 },
    { games := 2, failedGames := 2 }]

theorem showsPercentages_smallGroup : (mergeAll smallGroup.reverse).ShowsPercentages smallGroup :=
  (showsPercentages_mergeAll_iff (by decide) (by decide) (List.reverse_perm smallGroup)).mpr
    (by decide)

/-- One agent has won every game of the group and is shown with no percentage at all. -/
def largeGroup : List Result := [{ games := 42949673, winAgent1 := 42949673 }]

theorem largeGroup_wraps : ¬ ∀ rs rs' : List Result,
    (∀ r ∈ rs, r.winAgent1.toNat + r.winAgent2.toNat ≤ r.games.toNat) →
      total games rs < 2 ^ 32 → rs'.Perm rs → (mergeAll rs').ShowsPercentages rs := by
  intro h
  have hshown := (h largeGroup largeGroup (by decide) (by decide) (.refl _)).first
  exact absurd hshown (by decide)

end Result

end Bem
