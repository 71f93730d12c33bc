import UtxoVm.Consensus.FeeShares

/-!
# Runs of the fee distribution

The ledger of what was collected, is pending and was distributed, and what a challenge does to the
shares that were calculated before it.
-/

namespace UtxoVm

open Apportion FeeDistribution

/-- What was distributed and what is pending is what the operators have been promised. -/
def FeeDistribution.Ledger (s : FeeDistribution) : Prop :=
  s.totalFeesDistributed.toNat + s.pendingFees.toNat =
    (s.envelopes.map fun e ↦ e.operatorPool.toNat).sum

/-- The ledger holds, every envelope is split without loss, and no more was distributed than
collected. -/
structure FeeDistribution.Balanced (s : FeeDistribution) : Prop where
  ledger : s.Ledger
  split : ∀ e ∈ s.envelopes, e.indexerFee.toNat + e.operatorPool.toNat = e.totalFee.toNat
  paid_le : s.totalFeesDistributed ≤ s.totalFeesCollected

/-- The shares in the state add up to no more than what is pending. -/
def FeeDistribution.SharesCovered (s : FeeDistribution) : Prop :=
  (s.operatorShares.map OperatorFeeShare.feeShare).sum ≤ s.pendingFees

/-- The envelopes are split without loss, and their fees are what was collected. -/
structure FeeDistribution.Recorded (s : FeeDistribution) : Prop where
  split : ∀ e ∈ s.envelopes, e.indexerFee.toNat + e.operatorPool.toNat = e.totalFee.toNat
  collected : s.totalFeesCollected.toNat = (s.envelopes.map fun e ↦ e.totalFee.toNat).sum

section

variable {s s' : FeeDistribution} {c : FeeCall}

/-! ## 1. Envelopes -/

theorem saturatingSub_toNat (a b : UInt64) : (saturatingSub a b).toNat = a.toNat - b.toNat := by
  unfold saturatingSub
  split
  · rename_i hlt
    have hlt' := UInt64.lt_iff_toNat_lt.mp hlt
    show 0 = _
    omega
  · rename_i hge
    exact UInt64.toNat_sub_of_le _ _ (UInt64.not_lt.mp hge)

theorem calculateIndexerFee_le (params : FeeParams) (totalFee : UInt64) :
    calculateIndexerFee params totalFee ≤ totalFee := by
  unfold calculateIndexerFee
  exact Std.min_le_right

/-- The part of the indexer and the pool of the operators make up the fee. -/
theorem fee_split (params : FeeParams) (totalFee : UInt64) :
    (calculateIndexerFee params totalFee).toNat +
      (saturatingSub totalFee (calculateIndexerFee params totalFee)).toNat = totalFee.toNat := by
  have hle := UInt64.le_iff_toNat_le.mp (calculateIndexerFee_le params totalFee)
  rw [saturatingSub_toNat]
  omega

theorem FeeDistribution.Recorded.pools_le (hs : s.Recorded) :
    (s.envelopes.map fun e ↦ e.operatorPool.toNat).sum ≤ s.totalFeesCollected.toNat := by
  rw [hs.collected]
  apply List.sum_le_sum
  intro e he
  have hsplit := hs.split e he
  omega

/-! ## 2. What a call changes -/

/-- A call other than a collection or a distribution changes the shares alone. -/
theorem call_calculate (s : FeeDistribution) (ops : List OperatorFeeShare) :
    ∃ shares, s.call (.calculate ops) = { s with operatorShares := shares } := by
  unfold FeeDistribution.call perform
  dsimp only
  cases h : s.calculateOperatorShares ops with
  | error e => exact ⟨s.operatorShares, rfl⟩
  | ok r =>
    obtain ⟨-, -, -, hs'⟩ := calculateOperatorShares_eq_ok.mp h
    exact ⟨r.1, hs'⟩

theorem call_challenge (s : FeeDistribution) (pubkey : String) :
    s.call (.challenge pubkey) = { s with
      operatorShares := (challengeFirst pubkey s.operatorShares).getD s.operatorShares } := by
  unfold FeeDistribution.call perform markOperatorChallenged
  dsimp only
  cases challengeFirst pubkey s.operatorShares <;> rfl

theorem FeeDistribution.Recorded.call (hs : s.Recorded)
    (hfits : s.totalFeesCollected.toNat + c.collected < 2 ^ 64) :
    (s.call c).Recorded ∧
      (s.call c).totalFeesCollected.toNat = s.totalFeesCollected.toNat + c.collected := by
  cases c with
  | create totalFee batchCount blockHeight txid params =>
    have htotal : (s.totalFeesCollected + totalFee).toNat =
        s.totalFeesCollected.toNat + totalFee.toNat := by
      rw [UInt64.toNat_add]
      exact Nat.mod_eq_of_lt hfits
    refine ⟨⟨?_, ?_⟩, htotal⟩
    · intro e he
      rcases List.mem_append.mp he with he | he
      · exact hs.split e he
      · rw [List.mem_singleton.mp he]
        exact fee_split params totalFee
    · show (s.totalFeesCollected + totalFee).toNat = ((s.envelopes ++ [_]).map _).sum
      rw [htotal, hs.collected, List.map_append, List.sum_append]
      rfl
  | calculate ops =>
    obtain ⟨shares, heq⟩ := call_calculate s ops
    rw [heq]
    exact ⟨⟨hs.split, hs.collected⟩, rfl⟩
  | distribute => exact ⟨⟨hs.split, hs.collected⟩, rfl⟩
  | challenge pubkey =>
    rw [call_challenge]
    exact ⟨⟨hs.split, hs.collected⟩, rfl⟩

/-- The ledger stays as it is, where a distribution finds its shares covered. -/
theorem FeeDistribution.Ledger.call (hs : s.Ledger) (hrecorded : s.Recorded)
    (hfits : s.totalFeesCollected.toNat + c.collected < 2 ^ 64)
    (hc : c = .distribute → s.SharesCovered) : (s.call c).Ledger := by
  have hpools := hrecorded.pools_le
  unfold Ledger at hs ⊢
  cases c with
  | create totalFee batchCount blockHeight txid params =>
    have hsplit := fee_split params totalFee
    have hfee : s.totalFeesCollected.toNat + totalFee.toNat < 2 ^ 64 := hfits
    show s.totalFeesDistributed.toNat + (s.pendingFees + saturatingSub totalFee _).toNat =
      ((s.envelopes ++ [_]).map _).sum
    rw [List.map_append, List.sum_append, List.map_singleton, List.sum_singleton,
      UInt64.toNat_add, Nat.mod_eq_of_lt (by omega)]
    show _ = _ + (saturatingSub totalFee (calculateIndexerFee params totalFee)).toNat
    omega
  | calculate ops =>
    obtain ⟨shares, heq⟩ := call_calculate s ops
    rw [heq]
    exact hs
  | distribute =>
    have hcovered := UInt64.le_iff_toNat_le.mp (hc rfl)
    have hbound := s.totalFeesCollected.toNat_lt
    show (s.totalFeesDistributed + (s.operatorShares.map OperatorFeeShare.feeShare).sum).toNat +
      (saturatingSub s.pendingFees _).toNat = _
    rw [saturatingSub_toNat, UInt64.toNat_add, Nat.mod_eq_of_lt (by omega)]
    show _ = (s.envelopes.map _).sum
    omega
  | challenge pubkey =>
    rw [call_challenge]
    exact hs

/-- Where the ledger holds before and after a distribution, the shares were covered. -/
theorem covered_of_ledger (hbefore : s.Ledger) (hafter : (s.call .distribute).Ledger) :
    s.SharesCovered := by
  have hafter' : (s.totalFeesDistributed +
      (s.operatorShares.map OperatorFeeShare.feeShare).sum).toNat +
      (saturatingSub s.pendingFees (s.operatorShares.map OperatorFeeShare.feeShare).sum).toNat =
      (s.envelopes.map fun e ↦ e.operatorPool.toNat).sum := hafter
  unfold Ledger at hbefore
  unfold SharesCovered
  rw [saturatingSub_toNat, UInt64.toNat_add] at hafter'
  have hbound := (s.operatorShares.map OperatorFeeShare.feeShare).sum.toNat_lt
  rw [UInt64.le_iff_toNat_le]
  omega

theorem FeeDistribution.Ledger.balanced (hs : s.Ledger) (hrecorded : s.Recorded) :
    s.Balanced where
  ledger := hs
  split := hrecorded.split
  paid_le := by
    have hpools := hrecorded.pools_le
    unfold Ledger at hs
    rw [UInt64.le_iff_toNat_le]
    omega

/-! ## 3. The ledger along a run -/

theorem FeeDistribution.run_concat (s : FeeDistribution) (calls : List FeeCall) (c : FeeCall) :
    s.run (calls ++ [c]) = (s.run calls).call c := List.foldl_append ..

/-- All that is collected before a call, and with it, fits. -/
theorem recorded_run (calls : List FeeCall) (hfits : (calls.map FeeCall.collected).sum < 2 ^ 64) :
    (new.run calls).Recorded ∧
      (new.run calls).totalFeesCollected.toNat = (calls.map FeeCall.collected).sum := by
  induction calls using List.reverseRecOn with
  | nil => exact ⟨⟨nofun, rfl⟩, rfl⟩
  | append_singleton calls c ih =>
    rw [List.map_append, List.sum_append, List.map_singleton, List.sum_singleton] at hfits ⊢
    obtain ⟨hrecorded, hcollected⟩ := ih (by omega)
    rw [← hcollected] at hfits
    obtain ⟨hrecorded', hcollected'⟩ := hrecorded.call hfits
    rw [run_concat]
    exact ⟨hrecorded', hcollected'.trans (by rw [hcollected])⟩

theorem ledger_run (calls : List FeeCall) (hfits : (calls.map FeeCall.collected).sum < 2 ^ 64)
    (hcovered : ∀ before after, calls = before ++ .distribute :: after →
      (new.run before).SharesCovered) : (new.run calls).Ledger := by
  induction calls using List.reverseRecOn with
  | nil => rfl
  | append_singleton calls c ih =>
    rw [List.map_append, List.sum_append, List.map_singleton, List.sum_singleton] at hfits
    obtain ⟨hrecorded, hcollected⟩ := recorded_run calls (by omega)
    rw [← hcollected] at hfits
    have hbefore := ih (by omega) fun before after heq ↦
      hcovered before (after ++ [c]) (by rw [heq, List.append_assoc, List.cons_append])
    rw [run_concat]
    apply hbefore.call hrecorded hfits
    rintro rfl
    exact hcovered calls [] rfl

end

/-- **The fee ledger.**  What was distributed and what is pending make up the pools of the operators
in every state of a run, exactly where every distribution finds shares that what is pending
covers. -/
theorem fee_ledger_iff (calls : List FeeCall)
    (hfits : (calls.map FeeCall.collected).sum < 2 ^ 64) :
    (∀ before after, calls = before ++ after → (new.run before).Balanced) ↔
      ∀ before after, calls = before ++ .distribute :: after →
        (new.run before).SharesCovered := by
  constructor
  · intro hbalanced before after heq
    apply covered_of_ledger (hbalanced before _ heq).ledger
    rw [← run_concat]
    have hsplit : calls = (before ++ [FeeCall.distribute]) ++ after := by
      rw [heq, List.append_assoc, List.singleton_append]
    exact (hbalanced _ after hsplit).ledger
  · rintro hcovered before after rfl
    rw [List.map_append, List.sum_append] at hfits
    have hledger := ledger_run before (by omega) fun earlier later heq ↦
      hcovered earlier (later ++ after) (by rw [heq, List.append_assoc, List.cons_append])
    exact hledger.balanced (recorded_run before (by omega)).1

/-- A fee is collected, shared and distributed. -/
def demoFees : List FeeCall :=
  [.create 10000 10 12345 "abc123" {}, .calculate demoOperators, .distribute]

theorem fee_ledger_demo : (new.run demoFees).Balanced := by
  apply (fee_ledger_iff demoFees (by decide)).mpr _ demoFees [] rfl
  intro before after heq
  -- the distribution is the third call
  have hbefore : before = [.create 10000 10 12345 "abc123" {}, .calculate demoOperators] := by
    rcases before with _ | ⟨_, _ | ⟨_, _ | ⟨_, before⟩⟩⟩
    · cases heq
    · cases heq
    · cases heq
      rfl
    · simp [demoFees] at heq
  rw [hbefore]
  unfold SharesCovered
  decide

/-- **Fees are paid out twice** when a distribution is repeated. -/
theorem fees_paid_twice :
    ((demoFees ++ [FeeCall.distribute]).map FeeCall.collected).sum < 2 ^ 64 ∧
      (new.run (demoFees ++ [.distribute])).totalFeesDistributed = 18000 ∧
      ¬ (new.run (demoFees ++ [.distribute])).Balanced := by
  refine ⟨by decide, by decide, fun hbalanced ↦ ?_⟩
  exact absurd hbalanced.paid_le (by decide)

/-! ## 4. Challenges -/

/-- The amounts that a distribution adds up, one for each operator. -/
def FeeDistribution.payouts (s : FeeDistribution) : List UInt64 :=
  s.operatorShares.map OperatorFeeShare.feeShare

/-- A distribution pays the shares that the batches recorded by now come to. -/
def FeeDistribution.PaysRecomputed (s : FeeDistribution) : Prop :=
  ∃ shares s', s.calculateOperatorShares s.operatorShares = .ok (shares, s') ∧
    s.payouts = shares.map OperatorFeeShare.feeShare

section

variable {s s' t t' : FeeDistribution} {ops ops' shares shares' : List OperatorFeeShare}

/-- A challenge changes no share. -/
theorem challengeFirst_feeShare {pubkey : String} (h : challengeFirst pubkey ops = some shares) :
    shares.map OperatorFeeShare.feeShare = ops.map OperatorFeeShare.feeShare := by
  induction ops generalizing shares with
  | nil => cases h
  | cons op ops ih =>
    unfold challengeFirst at h
    split at h
    · cases h
      rfl
    · obtain ⟨rest, hrest, rfl⟩ := Option.map_eq_some_iff.mp h
      rw [List.map_cons, List.map_cons, ih hrest]

theorem challenge_keeps (s : FeeDistribution) (pubkey : String) :
    (s.call (.challenge pubkey)).pendingFees = s.pendingFees ∧
      (s.call (.challenge pubkey)).payouts = s.payouts := by
  rw [call_challenge]
  refine ⟨rfl, ?_⟩
  unfold payouts
  cases hfirst : challengeFirst pubkey s.operatorShares with
  | none => rfl
  | some shares => exact challengeFirst_feeShare hfirst

/-- Challenges change the shares in the state, but not what is paid. -/
theorem run_challenges (s : FeeDistribution) (marks : List String) :
    (s.run (marks.map .challenge)).pendingFees = s.pendingFees ∧
      (s.run (marks.map .challenge)).payouts = s.payouts := by
  induction marks generalizing s with
  | nil => exact ⟨rfl, rfl⟩
  | cons pubkey marks ih =>
    obtain ⟨hpending, hpayouts⟩ := ih (s.call (.challenge pubkey))
    obtain ⟨hpending', hpayouts'⟩ := challenge_keeps s pubkey
    exact ⟨hpending.trans hpending', hpayouts.trans hpayouts'⟩

theorem addRemainder_feeShare (pendingFees distributed : UInt64)
    (h : shares.map OperatorFeeShare.feeShare = shares'.map OperatorFeeShare.feeShare) :
    (addRemainder pendingFees distributed shares).map OperatorFeeShare.feeShare =
      (addRemainder pendingFees distributed shares').map OperatorFeeShare.feeShare := by
  cases shares with
  | nil =>
    rw [List.map_eq_nil_iff.mp h.symm]
  | cons first others =>
    cases shares' with
    | nil => cases h
    | cons first' others' =>
      obtain ⟨hfirst, hothers⟩ := List.cons.inj h
      rw [addRemainder, addRemainder]
      by_cases hrest : distributed < pendingFees
      · rw [if_pos hrest, if_pos hrest, List.map_cons, List.map_cons, hfirst, hothers]
      · rw [if_neg hrest, if_neg hrest]
        exact h

theorem batches_congr (hbatches : effectiveCounts ops = effectiveCounts ops') :
    ops.map OperatorFeeShare.effectiveBatches = ops'.map OperatorFeeShare.effectiveBatches := by
  have hinj : Function.Injective (List.map UInt64.toNat) :=
    List.map_injective_iff.mpr fun a b ↦ UInt64.toNat_inj.mp
  apply hinj
  rw [List.map_map, List.map_map]
  exact hbatches

/-- Shares depend on what is pending and on the batches alone. -/
theorem recalculated (h : s.calculateOperatorShares ops = .ok (shares, s'))
    (hpending : t.pendingFees = s.pendingFees)
    (hbatches : effectiveCounts ops' = effectiveCounts ops) :
    ∃ shares' t', t.calculateOperatorShares ops' = .ok (shares', t') ∧
      shares.map OperatorFeeShare.feeShare = shares'.map OperatorFeeShare.feeShare := by
  obtain ⟨hne, htotal, rfl, -⟩ := calculateOperatorShares_eq_ok.mp h
  have hsame := batches_congr hbatches
  have hshare (l : List OperatorFeeShare) (pendingFees total : UInt64) :
      l.map (operatorShare pendingFees total) = (l.map OperatorFeeShare.effectiveBatches).map
        fun e ↦ ((checkedMul pendingFees e).bind (checkedDiv · total)).getD 0 := by
    rw [List.map_map]
    rfl
  refine ⟨_, _, calculateOperatorShares_eq_ok.mpr ⟨?_, by rwa [hsame], rfl, rfl⟩, ?_⟩
  · rintro rfl
    exact hne (List.map_eq_nil_iff.mp hbatches.symm)
  · rw [hsame, hpending, hshare, hshare, hsame]
    apply addRemainder_feeShare
    have hwith (l : List OperatorFeeShare) (pendingFees total : UInt64) :
        (l.map (withShare pendingFees total)).map OperatorFeeShare.feeShare =
          l.map (operatorShare pendingFees total) := List.map_map
    rw [hwith, hwith, hshare, hshare, hsame]

/-- What the shares of some operators come to, whoever is the first. -/
theorem feeAmounts_tail (hpos : 0 < (effectiveCounts ops).sum)
    (hfits : (effectiveCounts ops).sum < 2 ^ 64)
    (h : s.calculateOperatorShares ops = .ok (shares, s')) :
    let rounded := (effectiveCounts ops).tail.map
      (roundedShare s.pendingFees.toNat (effectiveCounts ops).sum)
    feeAmounts shares = (s.pendingFees.toNat - rounded.sum) :: rounded := by
  cases ops with
  | nil => exact absurd rfl hpos.ne
  | cons first others => exact feeAmounts_of_ok hpos hfits h

theorem feeAmounts_inj (h : feeAmounts shares = feeAmounts shares') :
    shares.map OperatorFeeShare.feeShare = shares'.map OperatorFeeShare.feeShare := by
  have hinj : Function.Injective (List.map UInt64.toNat) :=
    List.map_injective_iff.mpr fun a b ↦ UInt64.toNat_inj.mp
  apply hinj
  rw [List.map_map, List.map_map]
  exact h

theorem effective_pos (hfits : (effectiveCounts ops).sum < 2 ^ 64)
    (h : s.calculateOperatorShares ops = .ok (shares, s')) : 0 < (effectiveCounts ops).sum := by
  obtain ⟨-, htotal, -⟩ := calculateOperatorShares_eq_ok.mp h
  rw [← total_toNat hfits]
  exact Nat.pos_of_ne_zero fun hzero ↦ htotal (UInt64.toNat_inj.mp hzero)

/-- Where the batches fit before and after, the same is paid just where the rounded shares of all
operators but the first are the same. -/
theorem paysRecomputed_iff (h : s.calculateOperatorShares ops = .ok (shares, s'))
    (hpending : t.pendingFees = s.pendingFees)
    (hpayouts : t.payouts = shares.map OperatorFeeShare.feeShare)
    (hbefore : (effectiveCounts ops).sum < 2 ^ 64)
    (hafter : (effectiveCounts t.operatorShares).sum < 2 ^ 64) :
    t.PaysRecomputed ↔ 0 < (effectiveCounts t.operatorShares).sum ∧
      (effectiveCounts t.operatorShares).tail.map
          (roundedShare s.pendingFees.toNat (effectiveCounts t.operatorShares).sum) =
        (effectiveCounts ops).tail.map
          (roundedShare s.pendingFees.toNat (effectiveCounts ops).sum) := by
  have hpaid := feeAmounts_tail (effective_pos hbefore h) hbefore h
  constructor
  · rintro ⟨shares', t', hok, heq⟩
    have hpos' := effective_pos hafter hok
    have hpaid' := feeAmounts_tail hpos' hafter hok
    have hsame : feeAmounts shares = feeAmounts shares' := by
      rw [hpayouts] at heq
      have hmap := congrArg (List.map UInt64.toNat) heq
      rwa [List.map_map, List.map_map] at hmap
    rw [hpending] at hpaid'
    rw [hpaid, hpaid'] at hsame
    exact ⟨hpos', (List.cons.inj hsame).2.symm⟩
  · rintro ⟨hpos', hrounded⟩
    obtain ⟨shares', t', hok⟩ := exists_shares t hpos' hafter
    refine ⟨shares', t', hok, ?_⟩
    have hpaid' := feeAmounts_tail hpos' hafter hok
    rw [hpending, hrounded] at hpaid'
    rw [hpayouts]
    exact feeAmounts_inj (hpaid.trans hpaid'.symm)

end

/-- **When a challenge counts.**  After challenges a distribution pays what the recorded batches come
to if they left the effective batches as they were; and, where the batches fit, exactly if some
effective batches remain and the challenges change no rounded share but that of the first
operator. -/
theorem challenge_paid_iff (s s' : FeeDistribution) (ops shares : List OperatorFeeShare)
    (hshares : s.calculateOperatorShares ops = .ok (shares, s')) (marks : List String) :
    let t := s'.run (marks.map .challenge)
    let before := effectiveCounts ops
    let after := effectiveCounts t.operatorShares
    (after = before → t.PaysRecomputed) ∧
      (before.sum < 2 ^ 64 → after.sum < 2 ^ 64 →
        (t.PaysRecomputed ↔ 0 < after.sum ∧
          after.tail.map (roundedShare s.pendingFees.toNat after.sum) =
            before.tail.map (roundedShare s.pendingFees.toNat before.sum))) := by
  intro t before after
  obtain ⟨-, -, -, hs'⟩ := calculateOperatorShares_eq_ok.mp hshares
  obtain ⟨hpending, hpayouts⟩ := run_challenges s' marks
  have hpending' : t.pendingFees = s.pendingFees := by
    rw [hpending, hs']
  have hpayouts' : t.payouts = shares.map OperatorFeeShare.feeShare := by
    rw [hpayouts, hs']
    rfl
  refine ⟨fun hsame ↦ ?_, fun hbefore hafter ↦
    paysRecomputed_iff hshares hpending' hpayouts' hbefore hafter⟩
  obtain ⟨shares', t', hok, hfees⟩ := recalculated hshares hpending' hsame
  exact ⟨shares', t', hok, hpayouts'.trans hfees⟩

/-- Nine thousand are pending for two operators who have posted five batches each. -/
def demoShared : FeeDistribution :=
  new.run [.create 10000 10 12345 "abc123" {},
    .calculate [⟨"op1", 5, 0, 0, "addr1"⟩, ⟨"op2", 5, 0, 0, "addr2"⟩]]

/-- The first operator has no batches left that a challenge could take. -/
def demoIdle : List OperatorFeeShare := [⟨"op1", 1, 1, 0, "addr1"⟩, ⟨"op2", 5, 0, 0, "addr2"⟩]

def demoIdleShares : List OperatorFeeShare :=
  [⟨"op1", 1, 1, 0, "addr1"⟩, ⟨"op2", 5, 0, 9000, "addr2"⟩]

theorem challenge_paid_demo :
    let s' := { demoShared with operatorShares := demoIdleShares }
    demoShared.calculateOperatorShares demoIdle = .ok (demoIdleShares, s') ∧
      (s'.run [.challenge "op1"]).PaysRecomputed := by
  intro s'
  have hshares : demoShared.calculateOperatorShares demoIdle = .ok (demoIdleShares, s') := by rfl
  exact ⟨hshares, (challenge_paid_iff demoShared s' demoIdle demoIdleShares hshares ["op1"]).1
    (by decide)⟩

/-- **A challenge changes nothing.**  The operator is paid for five batches, and not for four of the
nine that are left. -/
theorem challenge_ignored :
    (demoShared.run [.challenge "op1"]).payouts = [4500, 4500] ∧
      ¬ (demoShared.run [.challenge "op1"]).PaysRecomputed := by
  refine ⟨rfl, ?_⟩
  rintro ⟨shares, s', hok, hpaid⟩
  have hrecomputed : feeAmounts shares = [4000, 5000] :=
    feeAmounts_tail (by decide) (by decide) hok
  have hpaid' : [4500, 4500] = feeAmounts shares := by
    have hmap := congrArg (List.map UInt64.toNat) hpaid
    rwa [List.map_map] at hmap
  rw [hrecomputed] at hpaid'
  exact absurd hpaid' (by decide)

end UtxoVm
