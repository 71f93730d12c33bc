import UtxoVm.Consensus.FeeDistribution
import UtxoVm.Reasoning.Apportion

/-!
# The shares of the operators

What `calculate_operator_shares` returns: the rounded shares of all operators but the first, and for
the first what is left.  So the shares always add up; they are proportional where no product of
those others overflows, and where the first operator may have the remainder.
-/

namespace UtxoVm

open Apportion FeeDistribution

/-- The share of an operator before the remainder: its floor, and nothing if the product of 64 bits
overflows. -/
def roundedShare (pool total weight : Nat) : Nat :=
  if pool * weight < 2 ^ 64 then pool * weight / total else 0

/-- The effective batches of the operators, as numbers. -/
def effectiveCounts (ops : List OperatorFeeShare) : List Nat :=
  ops.map fun op ↦ op.effectiveBatches.toNat

def feeAmounts (shares : List OperatorFeeShare) : List Nat := shares.map fun op ↦ op.feeShare.toNat

section

variable {s s' : FeeDistribution} {pendingFees total : UInt64} {op first : OperatorFeeShare}
variable {ops others shares : List OperatorFeeShare}

/-! ## 1. The loop -/

def withShare (pendingFees total : UInt64) (op : OperatorFeeShare) : OperatorFeeShare :=
  { op with feeShare := operatorShare pendingFees total op }

theorem shareLoop_eq (ops shares : List OperatorFeeShare) (distributed : UInt64) :
    shareLoop pendingFees total ops shares distributed =
      (shares ++ ops.map (withShare pendingFees total),
        distributed + (ops.map (operatorShare pendingFees total)).sum) := by
  induction ops generalizing shares distributed with
  | nil => simp [shareLoop]
  | cons op ops ih =>
    rw [shareLoop, ih, List.map_cons, List.map_cons, List.sum_cons, List.append_assoc,
      UInt64.add_assoc]
    rfl

/-- When shares are calculated, and which. -/
theorem calculateOperatorShares_eq_ok :
    s.calculateOperatorShares ops = .ok (shares, s') ↔
      ops ≠ [] ∧ (ops.map OperatorFeeShare.effectiveBatches).sum ≠ 0 ∧
      shares = addRemainder s.pendingFees
        (ops.map (operatorShare s.pendingFees
          (ops.map OperatorFeeShare.effectiveBatches).sum)).sum
        (ops.map (withShare s.pendingFees (ops.map OperatorFeeShare.effectiveBatches).sum)) ∧
      s' = { s with operatorShares := shares } := by
  unfold calculateOperatorShares
  simp only [List.isEmpty_iff, shareLoop_eq, List.nil_append, UInt64.zero_add]
  constructor
  · intro h
    split at h
    · cases h
    rename_i hne
    split at h
    · cases h
    rename_i htotal
    cases h
    exact ⟨hne, htotal, rfl, rfl⟩
  · rintro ⟨hne, htotal, rfl, rfl⟩
    rw [if_neg hne, if_neg htotal]

theorem operatorShare_toNat (htotal : total ≠ 0) :
    (operatorShare pendingFees total op).toNat =
      roundedShare pendingFees.toNat total.toNat op.effectiveBatches.toNat := by
  unfold operatorShare checkedMul roundedShare
  split
  · rename_i hfits
    show ((checkedDiv _ total).getD 0).toNat = _
    unfold checkedDiv
    rw [if_neg htotal, Option.getD_some, UInt64.toNat_div, UInt64.toNat_mul,
      Nat.mod_eq_of_lt hfits]
  · rfl

/-! ## 2. The sum -/

theorem roundedShare_le (pool total weight : Nat) :
    roundedShare pool total weight ≤ pool * weight / total := by
  unfold roundedShare
  split
  · exact Nat.le_refl _
  · exact Nat.zero_le _

/-- A product that overflows has a floor that is not zero, so its share is lost. -/
theorem roundedShare_eq_iff {pool total weight : Nat} (hpos : 0 < total) (htotal : total < 2 ^ 64) :
    roundedShare pool total weight = pool * weight / total ↔ pool * weight < 2 ^ 64 := by
  unfold roundedShare
  constructor
  · intro h
    by_contra hoverflow
    rw [if_neg hoverflow] at h
    have hfloor := Nat.div_pos (show total ≤ pool * weight by omega) hpos
    omega
  · intro hfits
    exact if_pos hfits

theorem sum_roundedShare_le (pool total : Nat) (weights : List Nat) :
    (weights.map (roundedShare pool total)).sum ≤
      (weights.map fun w ↦ pool * w / total).sum := by
  apply List.sum_le_sum
  intro w _
  exact roundedShare_le pool total w

/-- The rounded shares of some of the operators do not exceed the pool. -/
theorem sum_roundedShare_le_pool {pool : Nat} {weights chosen : List Nat} (hpos : 0 < weights.sum)
    (hchosen : chosen.Sublist weights) :
    (chosen.map (roundedShare pool weights.sum)).sum ≤ pool :=
  calc (chosen.map (roundedShare pool weights.sum)).sum
      ≤ (chosen.map fun w ↦ pool * w / weights.sum).sum := sum_roundedShare_le _ _ _
    _ ≤ (floors pool weights).sum := (hchosen.map _).sum_le_sum fun _ _ ↦ Nat.zero_le _
    _ ≤ pool := sum_floors_le hpos

/-- The effective batches of all operators, counted without overflow. -/
theorem total_toNat (hfits : (effectiveCounts ops).sum < 2 ^ 64) :
    (ops.map OperatorFeeShare.effectiveBatches).sum.toNat = (effectiveCounts ops).sum := by
  have hmap : (ops.map OperatorFeeShare.effectiveBatches).map UInt64.toNat =
      effectiveCounts ops := List.map_map
  rw [← hmap] at hfits ⊢
  exact toNat_sum hfits

theorem total_ne_zero (hpos : 0 < (effectiveCounts ops).sum)
    (hfits : (effectiveCounts ops).sum < 2 ^ 64) :
    (ops.map OperatorFeeShare.effectiveBatches).sum ≠ 0 := by
  intro hzero
  have htotal := total_toNat hfits
  rw [hzero] at htotal
  exact hpos.ne htotal

theorem feeAmounts_withShare (hpos : 0 < (effectiveCounts ops).sum)
    (hfits : (effectiveCounts ops).sum < 2 ^ 64) (chosen : List OperatorFeeShare) :
    feeAmounts (chosen.map (withShare pendingFees
        (ops.map OperatorFeeShare.effectiveBatches).sum)) =
      (effectiveCounts chosen).map
        (roundedShare pendingFees.toNat (effectiveCounts ops).sum) := by
  have htotal := total_toNat hfits
  unfold feeAmounts effectiveCounts at *
  rw [List.map_map, List.map_map]
  apply List.map_congr_left
  intro op _
  rw [Function.comp_apply, Function.comp_apply]
  unfold withShare
  rw [operatorShare_toNat (total_ne_zero hpos hfits), htotal]

variable (s) in
/-- The running total over some of the operators is the sum of their shares. -/
theorem distributed_toNat (hpos : 0 < (effectiveCounts ops).sum)
    (hfits : (effectiveCounts ops).sum < 2 ^ 64) {chosen : List OperatorFeeShare}
    (hchosen : chosen.Sublist ops) :
    (chosen.map (operatorShare s.pendingFees
        (ops.map OperatorFeeShare.effectiveBatches).sum)).sum.toNat =
      ((effectiveCounts chosen).map
        (roundedShare s.pendingFees.toNat (effectiveCounts ops).sum)).sum ∧
    ((effectiveCounts chosen).map
        (roundedShare s.pendingFees.toNat (effectiveCounts ops).sum)).sum ≤
      s.pendingFees.toNat := by
  have hle : ((effectiveCounts chosen).map
      (roundedShare s.pendingFees.toNat (effectiveCounts ops).sum)).sum ≤
      s.pendingFees.toNat := sum_roundedShare_le_pool hpos (hchosen.map _)
  refine ⟨?_, hle⟩
  have hmap : (chosen.map (operatorShare s.pendingFees
      (ops.map OperatorFeeShare.effectiveBatches).sum)).map UInt64.toNat =
      (effectiveCounts chosen).map
        (roundedShare s.pendingFees.toNat (effectiveCounts ops).sum) := by
    rw [← feeAmounts_withShare hpos hfits, feeAmounts, List.map_map, List.map_map]
    rfl
  rw [← hmap] at hle ⊢
  exact toNat_sum (hle.trans_lt s.pendingFees.toNat_lt)

/-- The shares are calculated, and the others of the first operator have their rounded shares, which
leave the rest for the first. -/
theorem feeAmounts_of_ok (hpos : 0 < (effectiveCounts (first :: others)).sum)
    (hfits : (effectiveCounts (first :: others)).sum < 2 ^ 64)
    (h : s.calculateOperatorShares (first :: others) = .ok (shares, s')) :
    let rounded := (effectiveCounts others).map
      (roundedShare s.pendingFees.toNat (effectiveCounts (first :: others)).sum)
    feeAmounts shares = (s.pendingFees.toNat - rounded.sum) :: rounded := by
  intro rounded
  obtain ⟨-, htotal, rfl, -⟩ := calculateOperatorShares_eq_ok.mp h
  have htotal_toNat := total_toNat hfits
  obtain ⟨hdistributed, hle⟩ := distributed_toNat s hpos hfits (List.Sublist.refl _)
  -- what the loop has distributed is the share of the first operator and those of the others
  have hsplit : ((effectiveCounts (first :: others)).map
      (roundedShare s.pendingFees.toNat (effectiveCounts (first :: others)).sum)).sum =
      (operatorShare s.pendingFees
        ((first :: others).map OperatorFeeShare.effectiveBatches).sum first).toNat +
        rounded.sum := by
    rw [operatorShare_toNat htotal, htotal_toNat]
    exact List.sum_cons
  have hothers : feeAmounts (others.map (withShare s.pendingFees
      ((first :: others).map OperatorFeeShare.effectiveBatches).sum)) = rounded :=
    feeAmounts_withShare hpos hfits others
  rw [hsplit] at hdistributed hle
  generalize hD : ((first :: others).map (operatorShare s.pendingFees
    ((first :: others).map OperatorFeeShare.effectiveBatches).sum)).sum = D at *
  rw [List.map_cons, addRemainder]
  split
  · rename_i hlt
    have hlt' := UInt64.lt_iff_toNat_lt.mp hlt
    have hbound := s.pendingFees.toNat_lt
    have hsub : (s.pendingFees - D).toNat = s.pendingFees.toNat - D.toNat :=
      UInt64.toNat_sub_of_le _ _ (UInt64.le_iff_toNat_le.mpr hlt'.le)
    show (_ + (s.pendingFees - D)).toNat :: feeAmounts _ = _
    rw [hothers, UInt64.toNat_add, hsub]
    unfold withShare
    dsimp only
    rw [Nat.mod_eq_of_lt (by omega)]
    congr 1
    omega
  · rename_i hge
    have hge' := UInt64.le_iff_toNat_le.mp (UInt64.not_lt.mp hge)
    show (operatorShare _ _ _).toNat :: feeAmounts _ = _
    rw [hothers]
    congr 1
    omega

theorem exists_shares (s : FeeDistribution) (hpos : 0 < (effectiveCounts ops).sum)
    (hfits : (effectiveCounts ops).sum < 2 ^ 64) :
    ∃ shares s', s.calculateOperatorShares ops = .ok (shares, s') := by
  refine ⟨_, _, calculateOperatorShares_eq_ok.mpr ⟨?_, total_ne_zero hpos hfits, rfl, rfl⟩⟩
  rintro rfl
  exact hpos.ne rfl

end

/-- **Shares add up.**  The shares sum to the pending fees, and no running total overflows: after
any number of operators it is the sum of their shares, which the pending fees bound. -/
theorem shares_add_up (s : FeeDistribution) (ops : List OperatorFeeShare)
    (hpos : 0 < (effectiveCounts ops).sum) (hfits : (effectiveCounts ops).sum < 2 ^ 64) :
    (∃ shares s', s.calculateOperatorShares ops = .ok (shares, s') ∧
      (feeAmounts shares).sum = s.pendingFees.toNat) ∧
    ∀ before after, ops = before ++ after →
      let total := (ops.map OperatorFeeShare.effectiveBatches).sum
      let loop := shareLoop s.pendingFees total before [] 0
      loop.2.toNat = (feeAmounts loop.1).sum ∧ (feeAmounts loop.1).sum ≤ s.pendingFees.toNat := by
  constructor
  · obtain ⟨shares, s', hok⟩ := exists_shares s hpos hfits
    refine ⟨shares, s', hok, ?_⟩
    cases ops with
    | nil => exact absurd rfl hpos.ne
    | cons first others =>
      have hle := (distributed_toNat s hpos hfits (List.sublist_cons_self first others)).2
      rw [feeAmounts_of_ok hpos hfits hok, List.sum_cons]
      exact Nat.sub_add_cancel hle
  · rintro before after rfl total loop
    obtain ⟨htoNat, hle⟩ := distributed_toNat s hpos hfits (List.sublist_append_left before after)
    have hloop : loop = (before.map (withShare s.pendingFees total),
        (before.map (operatorShare s.pendingFees total)).sum) := by
      show shareLoop _ _ _ _ _ = _
      rw [shareLoop_eq, List.nil_append, UInt64.zero_add]
    have hamounts : feeAmounts loop.1 = (effectiveCounts before).map
        (roundedShare s.pendingFees.toNat (effectiveCounts (before ++ after)).sum) := by
      rw [hloop]
      exact feeAmounts_withShare hpos hfits before
    rw [hamounts, hloop]
    exact ⟨htoNat, hle⟩

/-- Two operators whose products overflow for a large pending amount. -/
def demoOperators : List OperatorFeeShare :=
  [⟨"op1", 5, 0, 0, "addr1"⟩, ⟨"op2", 4, 1, 0, "addr2"⟩]

def demoPending : FeeDistribution :=
  { FeeDistribution.new with pendingFees := 9223372036854775808 }

theorem shares_add_up_demo :
    2 ^ 64 ≤ demoPending.pendingFees.toNat * 3 ∧
      ∃ shares s', demoPending.calculateOperatorShares demoOperators = .ok (shares, s') ∧
        (feeAmounts shares).sum = demoPending.pendingFees.toNat :=
  ⟨by decide, (shares_add_up demoPending demoOperators (by decide) (by decide)).1⟩

/-! ## 3. Proportions -/

/-- The floors of the exact shares, with the remainder for one operator that has batches. -/
def Proportional (pool : Nat) (weights amounts : List Nat) : Prop :=
  remainder pool weights < weights.length ∧
    ∃ i w, weights[i]? = some w ∧ 0 < w ∧
      amounts = (floors pool weights).modify i (· + remainder pool weights)

section

variable {pool total w : Nat} {weights : List Nat}

/-- The rounded shares are the floors just where no product overflows. -/
theorem rounded_eq_floors_iff (hpos : 0 < total) (htotal : total < 2 ^ 64) :
    weights.map (roundedShare pool total) = (weights.map fun w ↦ pool * w / total) ↔
      ∀ w ∈ weights, pool * w < 2 ^ 64 := by
  rw [List.map_inj_left]
  constructor
  · intro h w hw
    exact (roundedShare_eq_iff hpos htotal).mp (h w hw)
  · intro h w hw
    exact (roundedShare_eq_iff hpos htotal).mpr (h w hw)

theorem modify_zero {n i : Nat} {l : List Nat} (hzero : n = 0) : l.modify i (· + n) = l := by
  rw [hzero]
  exact List.modify_id i l

theorem proportional_iff (hpos : 0 < (w :: weights).sum) (hfits : (w :: weights).sum < 2 ^ 64) :
    let rounded := weights.map (roundedShare pool (w :: weights).sum)
    Proportional pool (w :: weights) ((pool - rounded.sum) :: rounded) ↔
      (∀ v ∈ weights, pool * v < 2 ^ 64) ∧
        (0 < w ∨ ∀ v ∈ w :: weights, (w :: weights).sum ∣ pool * v) := by
  intro rounded
  have hrounded : rounded = _ ↔ ∀ v ∈ weights, pool * v < 2 ^ 64 :=
    rounded_eq_floors_iff hpos hfits
  have hsum : (floors pool (w :: weights)).sum + remainder pool (w :: weights) = pool :=
    sum_floors_add_remainder hpos
  have hle : rounded.sum ≤ (weights.map fun v ↦ pool * v / (w :: weights).sum).sum :=
    sum_roundedShare_le _ _ _
  have hfloors : floors pool (w :: weights) = pool * w / (w :: weights).sum ::
      weights.map fun v ↦ pool * v / (w :: weights).sum := List.map_cons
  rw [hfloors, List.sum_cons] at hsum
  unfold Proportional
  rw [hfloors]
  constructor
  · rintro ⟨-, i, v, hv, hvpos, hamounts⟩
    cases i with
    | zero =>
      -- the first operator has the remainder
      cases hv
      exact ⟨hrounded.mp (List.cons.inj hamounts).2, .inl hvpos⟩
    | succ i =>
      -- another one has it: then the first has its floor, and nothing is left
      rw [List.modify_succ_cons] at hamounts
      obtain ⟨hfirst, hothers⟩ := List.cons.inj hamounts
      have hzero : remainder pool (w :: weights) = 0 := by omega
      rw [modify_zero hzero] at hothers
      exact ⟨hrounded.mp hothers, .inr ((remainder_eq_zero_iff hpos).mp hzero)⟩
  · rintro ⟨hfit, hfirst⟩
    have hsame : rounded = weights.map fun v ↦ pool * v / (w :: weights).sum := hrounded.mpr hfit
    refine ⟨remainder_lt hpos, ?_⟩
    -- then the first operator has its floor and the remainder
    have hrest : pool - (weights.map fun v ↦ pool * v / (w :: weights).sum).sum =
        pool * w / (w :: weights).sum + remainder pool (w :: weights) := by
      generalize pool * w / (w :: weights).sum = floor at hsum ⊢
      omega
    rw [hsame, hrest]
    rcases hfirst with hfirst | hdvd
    · exact ⟨0, w, rfl, hfirst, rfl⟩
    · -- nothing is left, and any operator with batches may have it
      have hzero := (remainder_eq_zero_iff hpos).mpr hdvd
      obtain ⟨v, hv, hne⟩ : ∃ v ∈ w :: weights, v ≠ 0 := by
        by_contra hnone
        push Not at hnone
        exact hpos.ne' (List.sum_eq_zero_iff.mpr hnone)
      obtain ⟨i, hi⟩ := List.mem_iff_getElem?.mp hv
      refine ⟨i, v, hi, Nat.pos_of_ne_zero hne, ?_⟩
      rw [modify_zero hzero, hzero, Nat.add_zero]

end

/-- **When shares are proportional.**  The shares are the floors, with the remainder for an operator
that has batches, exactly where no product overflows but that of the first operator, and the first
operator has batches or nothing remains. -/
theorem shares_proportional_iff (s : FeeDistribution) (first : OperatorFeeShare)
    (others : List OperatorFeeShare) (hpos : 0 < (effectiveCounts (first :: others)).sum)
    (hfits : (effectiveCounts (first :: others)).sum < 2 ^ 64) :
    ∃ shares s', s.calculateOperatorShares (first :: others) = .ok (shares, s') ∧
      (Proportional s.pendingFees.toNat (effectiveCounts (first :: others)) (feeAmounts shares) ↔
        (∀ w ∈ effectiveCounts others, s.pendingFees.toNat * w < 2 ^ 64) ∧
          (0 < first.effectiveBatches.toNat ∨ ∀ w ∈ effectiveCounts (first :: others),
            (effectiveCounts (first :: others)).sum ∣ s.pendingFees.toNat * w)) := by
  obtain ⟨shares, s', hok⟩ := exists_shares s hpos hfits
  refine ⟨shares, s', hok, ?_⟩
  rw [feeAmounts_of_ok hpos hfits hok]
  exact proportional_iff hpos hfits

/-- The first operator has had all its batches challenged. -/
def demoUnproductive : List OperatorFeeShare :=
  [⟨"op1", 1, 1, 0, "addr1"⟩, ⟨"op2", 2, 0, 0, "addr2"⟩, ⟨"op3", 1, 0, 0, "addr3"⟩]

theorem shares_proportional_demo :
    ∃ shares s', { FeeDistribution.new with pendingFees := 9 }.calculateOperatorShares
        demoUnproductive.reverse = .ok (shares, s') ∧
      Proportional 9 [1, 2, 0] (feeAmounts shares) := by
  obtain ⟨shares, s', hok, hiff⟩ := shares_proportional_iff
    { FeeDistribution.new with pendingFees := 9 } ⟨"op3", 1, 0, 0, "addr3"⟩
    [⟨"op2", 2, 0, 0, "addr2"⟩, ⟨"op1", 1, 1, 0, "addr1"⟩] (by decide) (by decide)
  exact ⟨shares, s', hok, hiff.mpr ⟨by decide, .inl (by decide)⟩⟩

/-- **An operator without batches is paid the remainder**, one satoshi of ten over three batches. -/
theorem remainder_for_unproductive :
    ∃ shares s', { FeeDistribution.new with pendingFees := 10 }.calculateOperatorShares
        demoUnproductive = .ok (shares, s') ∧ feeAmounts shares = [1, 6, 3] ∧
      ¬ Proportional 10 (effectiveCounts demoUnproductive) (feeAmounts shares) := by
  refine ⟨_, _, rfl, rfl, ?_⟩
  rintro ⟨-, i, w, hw, hpos, hamounts⟩
  -- the remainder would have to be with the first operator, whose batches were all challenged
  have hi : i = 0 := by
    by_contra hi
    obtain ⟨i, rfl⟩ := Nat.exists_eq_succ_of_ne_zero hi
    have hfirst : some 1 = some 0 := congrArg List.head? hamounts
    cases hfirst
  rw [hi] at hw
  have hzero : some 0 = some w := hw
  cases hzero
  exact absurd hpos (by decide)

end UtxoVm
