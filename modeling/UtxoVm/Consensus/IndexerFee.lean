import UtxoVm.Consensus.FeeRun

/-!
# Is the fee of the indexer exact?

The percentage is taken of a product of 64 bits, and a product that overflows counts as `u64::MAX`,
so that the cap gives the indexer the whole fee.
-/

namespace UtxoVm

/-- The fee of the indexer over unbounded numbers: the percentage, at least the minimum, at most the
whole fee. -/
def exactIndexerFee (params : FeeParams) (totalFee : UInt64) : Nat :=
  min (max (totalFee.toNat * params.indexerFeePct.toNat / 100) params.minIndexerFee.toNat)
    totalFee.toNat

/-- The envelope is split without loss, and both ways to compute the pool agree. -/
def EnvelopeBalanced (params : FeeParams) (totalFee : UInt64) : Prop :=
  ∀ (s : FeeDistribution) (batchCount blockHeight : UInt64) (txid : String),
    let envelope := (s.createFeeEnvelopeWithParams totalFee batchCount blockHeight txid params).1
    envelope.indexerFee = calculateIndexerFee params totalFee ∧
      envelope.indexerFee.toNat + envelope.operatorPool.toNat = totalFee.toNat ∧
      envelope.operatorPool = calculateOperatorPool params totalFee

/-- The fee of the indexer is the exact one, and the envelope adds up. -/
def FeeExact (params : FeeParams) (totalFee : UInt64) : Prop :=
  (calculateIndexerFee params totalFee).toNat = exactIndexerFee params totalFee ∧
    EnvelopeBalanced params totalFee

section

variable {params : FeeParams} {totalFee : UInt64}

theorem envelopeBalanced (params : FeeParams) (totalFee : UInt64) :
    EnvelopeBalanced params totalFee :=
  fun _ _ _ _ ↦ ⟨rfl, fee_split params totalFee, rfl⟩

theorem toNat_min (a b : UInt64) : (min a b).toNat = min a.toNat b.toNat := by
  show (if a ≤ b then a else b).toNat = _
  split
  · rename_i hle
    have hle' := UInt64.le_iff_toNat_le.mp hle
    omega
  · rename_i hgt
    rw [UInt64.le_iff_toNat_le] at hgt
    omega

theorem toNat_max (a b : UInt64) : (max a b).toNat = max a.toNat b.toNat := by
  show (if a ≤ b then b else a).toNat = _
  split
  · rename_i hle
    have hle' := UInt64.le_iff_toNat_le.mp hle
    omega
  · rename_i hgt
    rw [UInt64.le_iff_toNat_le] at hgt
    omega

/-- A product that fits is divided exactly. -/
theorem calculateIndexerFee_fits
    (hfits : totalFee.toNat * params.indexerFeePct.toNat < 2 ^ 64) :
    (calculateIndexerFee params totalFee).toNat = exactIndexerFee params totalFee := by
  unfold calculateIndexerFee checkedMul exactIndexerFee
  rw [UInt8.toNat_toUInt64, if_pos hfits]
  dsimp only
  rw [toNat_min, toNat_max, Option.map_some, Option.getD_some, UInt64.toNat_div, UInt64.toNat_mul,
    UInt8.toNat_toUInt64, Nat.mod_eq_of_lt hfits]
  rfl

/-- After an overflow the indexer takes everything. -/
theorem calculateIndexerFee_overflow
    (hoverflow : ¬ totalFee.toNat * params.indexerFeePct.toNat < 2 ^ 64) :
    calculateIndexerFee params totalFee = totalFee := by
  unfold calculateIndexerFee checkedMul
  rw [UInt8.toNat_toUInt64, if_neg hoverflow]
  apply UInt64.toNat_inj.mp
  dsimp only
  rw [toNat_min, toNat_max]
  have htotal := totalFee.toNat_lt
  show min (max (2 ^ 64 - 1) _) _ = _
  omega

/-- The exact fee is everything if the percentage is 100, or the minimum is not below the fee. -/
theorem exactIndexerFee_eq_total_iff (hpct : params.indexerFeePct.toNat ≤ 100)
    (hpositive : 0 < totalFee.toNat) : exactIndexerFee params totalFee = totalFee.toNat ↔
      params.indexerFeePct.toNat = 100 ∨ totalFee.toNat ≤ params.minIndexerFee.toNat := by
  unfold exactIndexerFee
  by_cases hfull : params.indexerFeePct.toNat = 100
  · rw [hfull]
    omega
  · -- less than the whole percentage is less than the whole fee
    have hless : totalFee.toNat * params.indexerFeePct.toNat / 100 < totalFee.toNat := by
      apply Nat.div_lt_of_lt_mul
      rw [Nat.mul_comm 100]
      exact Nat.mul_lt_mul_of_pos_left (by omega) hpositive
    omega

end

/-- **When the fee is exact.**  It is unless the product overflows while the percentage is below 100
and the minimum below the fee. -/
theorem feeExact_iff (params : FeeParams) (totalFee : UInt64)
    (hpct : params.indexerFeePct.toNat ≤ 100) :
    FeeExact params totalFee ↔
      totalFee.toNat * params.indexerFeePct.toNat < 2 ^ 64 ∨
        params.indexerFeePct.toNat = 100 ∨ totalFee.toNat ≤ params.minIndexerFee.toNat := by
  by_cases hfits : totalFee.toNat * params.indexerFeePct.toNat < 2 ^ 64
  · exact iff_of_true ⟨calculateIndexerFee_fits hfits, envelopeBalanced params totalFee⟩
      (.inl hfits)
  · have hpositive : 0 < totalFee.toNat := by
      apply Nat.pos_of_ne_zero
      intro hzero
      rw [hzero] at hfits
      omega
    rw [or_iff_right hfits, ← exactIndexerFee_eq_total_iff hpct hpositive]
    unfold FeeExact
    rw [calculateIndexerFee_overflow hfits, and_iff_left (envelopeBalanced params totalFee)]
    exact eq_comm

theorem feeExact_demo : FeeExact {} 10000 :=
  (feeExact_iff {} 10000 (by decide)).mpr (.inl (by decide))

/-- Ten per cent of `2^61` is taken to be everything. -/
theorem indexer_takes_all :
    ¬ FeeExact {} (UInt64.ofNat (2 ^ 61)) ∧
      calculateIndexerFee {} (UInt64.ofNat (2 ^ 61)) = UInt64.ofNat (2 ^ 61) := by
  refine ⟨fun hexact ↦ ?_, by decide⟩
  exact absurd hexact.1 (by decide)

end UtxoVm
