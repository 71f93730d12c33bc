import UtxoVm.Consensus.OperatorSet

/-!
# Runs of the operator set

What one call can do, said once; from it the bonds that are accounted for in every reachable state,
the states in which an operator can be slashed, and the history of an operator that has left.
-/

namespace UtxoVm

open RustStd OperatorSet

/-- The bond is counted in the total. -/
def Operator.Live (op : Operator) : Prop := op.status = .active ∨ op.status = .unbonding

instance (op : Operator) : Decidable op.Live := inferInstanceAs (Decidable (_ ∨ _))

/-- The operator has been slashed or has left. -/
def Operator.Gone (op : Operator) : Prop := op.status = .slashed ∨ op.status = .exited

def Operator.liveBond (op : Operator) : Nat := if op.Live then op.bondAmount.toNat else 0

/-- The sum of the bonds that are live, without wrapping around. -/
def OperatorSet.liveBonds (s : OperatorSet) : Nat := (s.operators.map Operator.liveBond).sum

/-- What a successful call takes from the total when it finds the operator `op`. -/
def OperatorCall.released (op : Operator) : OperatorCall → UInt64
  | .exit _ _ => op.bondAmount
  | .slash _ => op.bondAmount
  | _ => 0

/-! ## 1. What one call can do -/

/-- What a call makes of the operator that it finds. -/
inductive Changes (config : OperatorSetConfig) (op : Operator) : OperatorCall → Operator → Prop
  | unbond (blockHeight : UInt64) : op.status = .active → Changes config op
      (.unbond op.pubkey blockHeight)
      { op with status := .unbonding, unbondStartedAt := some blockHeight }
  | exit {unbondStartedAt : UInt64} (blockHeight : UInt64) : op.status = .unbonding →
      op.unbondStartedAt = some unbondStartedAt →
      ¬ blockHeight < unbondStartedAt + config.unbondDelay.toUInt64 →
      Changes config op (.exit op.pubkey blockHeight) { op with status := .exited }
  | slash : op.status = .active →
      Changes config op (.slash op.pubkey) { op with status := .slashed }
  | recordBatch (blockHeight : UInt64) (stateRoot : String) : op.status = .active →
      Changes config op (.recordBatch op.pubkey blockHeight stateRoot)
        { op with
          lastBatchBlock := some blockHeight
          lastBatchRoot := some stateRoot
          totalBatches := op.totalBatches + 1 }
  | recordMissedBatch (missedBatches : UInt64) (uptimePct : Float) :
      Changes config op (.recordMissedBatch op.pubkey) { op with missedBatches, uptimePct }

/-- What a successful call makes of the state. -/
inductive OperatorStep (s : OperatorSet) : OperatorCall → OperatorSet → Prop
  | register (op : Operator) (address bondUtxo : String) (blockHeight : UInt64) :
      (∀ b ∈ s.operators, b.pubkey ≠ op.pubkey) → op.status = .active →
      OperatorStep s (.register op.pubkey address op.bondAmount bondUtxo blockHeight)
        { s with operators := s.operators ++ [op], totalBond := s.totalBond + op.bondAmount }
  | change {c : OperatorCall} {op op' : Operator} : s.getOperator op.pubkey = some op →
      Changes s.config op c op' →
      OperatorStep s c { s.setOperator op' with totalBond := s.totalBond - c.released op }
  | updateTvl (tvl : UInt64) : OperatorStep s (.updateTvl tvl) { s with totalTvl := tvl }

section

variable {s s' : OperatorSet} {c : OperatorCall} {op op' : Operator}

theorem Changes.pubkey (h : Changes s.config op c op') : op'.pubkey = op.pubkey := by
  cases h <;> rfl

theorem Changes.bondAmount (h : Changes s.config op c op') : op'.bondAmount = op.bondAmount := by
  cases h <;> rfl

theorem getOperator_pubkey {pubkey : String} (h : s.getOperator pubkey = some op) :
    op.pubkey = pubkey := Keyed.key_of_lookup h

/-- A change that takes nothing from the total. -/
theorem OperatorStep.keep (hfound : s.getOperator op.pubkey = some op)
    (hchange : Changes s.config op c op') (hreleased : c.released op = 0) :
    OperatorStep s c (s.setOperator op') := by
  have hstep := OperatorStep.change hfound hchange
  rwa [hreleased, UInt64.sub_zero] at hstep

/-- When slashing succeeds, and what it does. -/
theorem slashOperator_eq_ok {pubkey : String} {amount : UInt64} :
    s.slashOperator pubkey = .ok (amount, s') ↔ ∃ op, s.getOperator pubkey = some op ∧
      op.status = .active ∧ amount = op.bondAmount ∧
      s' = { s.setOperator { op with status := .slashed } with
        totalBond := s.totalBond - op.bondAmount } := by
  unfold slashOperator
  constructor
  · intro h
    split at h
    · cases h
    rename_i op hfound
    split at h
    · cases h
    rename_i hactive
    cases h
    exact ⟨op, hfound, not_not.mp hactive, rfl, rfl⟩
  · rintro ⟨op, hfound, hactive, rfl, rfl⟩
    rw [hfound]
    exact if_neg (not_not.mpr hactive)

/-- When leaving succeeds, and what it does. -/
theorem exitOperator_eq_ok {pubkey : String} {blockHeight : UInt64} :
    s.exitOperator pubkey blockHeight = .ok s' ↔ ∃ op unbondStartedAt,
      s.getOperator pubkey = some op ∧ op.status = .unbonding ∧
      op.unbondStartedAt = some unbondStartedAt ∧
      ¬ blockHeight < unbondStartedAt + s.config.unbondDelay.toUInt64 ∧
      s' = { s.setOperator { op with status := .exited } with
        totalBond := s.totalBond - op.bondAmount } := by
  unfold exitOperator
  constructor
  · intro h
    split at h
    · cases h
    rename_i op hfound
    split at h
    · cases h
    rename_i hunbonding
    split at h
    · cases h
    rename_i unbondStartedAt hstarted
    dsimp only at h
    split at h
    · cases h
    rename_i hdelay
    cases h
    exact ⟨op, unbondStartedAt, hfound, not_not.mp hunbonding, hstarted, hdelay, rfl⟩
  · rintro ⟨op, unbondStartedAt, hfound, hunbonding, hstarted, hdelay, rfl⟩
    rw [hfound]
    dsimp only
    rw [if_neg (not_not.mpr hunbonding), hstarted]
    exact if_neg hdelay

theorem step_of_perform (h : s.perform c = .ok s') : OperatorStep s c s' := by
  cases c with
  | register pubkey address bondAmount bondUtxo blockHeight =>
    simp only [perform, registerOperator] at h
    split at h
    · cases h
    split at h
    · cases h
    split at h
    · cases h
    rename_i hany
    split at h
    · cases h
    cases h
    have hnew : ∀ b ∈ s.operators, b.pubkey ≠ pubkey := by
      simpa using hany
    exact .register ⟨pubkey, address, bondAmount, some bondUtxo, .active, blockHeight, none, none,
      none, 0, 0, 100.0⟩ address bondUtxo blockHeight hnew rfl
  | unbond pubkey blockHeight =>
    simp only [perform, unbondOperator] at h
    split at h
    · cases h
    rename_i op hfound
    cases getOperator_pubkey hfound
    split at h
    · cases h
    rename_i hactive
    cases h
    exact .keep hfound (.unbond blockHeight (not_not.mp hactive)) rfl
  | exit pubkey blockHeight =>
    obtain ⟨op, unbondStartedAt, hfound, hunbonding, hstarted, hdelay, rfl⟩ :=
      exitOperator_eq_ok.mp h
    cases getOperator_pubkey hfound
    exact .change hfound (.exit blockHeight hunbonding hstarted hdelay)
  | slash pubkey =>
    change (s.slashOperator pubkey).map (·.2) = _ at h
    cases hslash : s.slashOperator pubkey with
    | error e =>
      rw [hslash] at h
      cases h
    | ok r =>
      obtain ⟨op, hfound, hactive, -, hs'⟩ := slashOperator_eq_ok.mp hslash
      rw [hslash] at h
      cases h
      cases getOperator_pubkey hfound
      show OperatorStep s _ r.2
      rw [hs']
      exact .change hfound (.slash hactive)
  | recordBatch pubkey blockHeight stateRoot =>
    simp only [perform, OperatorSet.recordBatch] at h
    split at h
    · cases h
    rename_i op hfound
    cases getOperator_pubkey hfound
    split at h
    · cases h
    rename_i hactive
    cases h
    exact .keep hfound (.recordBatch blockHeight stateRoot (not_not.mp hactive)) rfl
  | recordMissedBatch pubkey =>
    simp only [perform, OperatorSet.recordMissedBatch] at h
    split at h
    · cases h
    rename_i op hfound
    cases getOperator_pubkey hfound
    cases h
    exact .keep hfound (.recordMissedBatch _ _) rfl
  | updateTvl tvl =>
    cases h
    exact .updateTvl tvl

theorem call_cases (s : OperatorSet) (c : OperatorCall) :
    (¬ s.Succeeds c ∧ s.call c = s) ∨ s.Succeeds c ∧ OperatorStep s c (s.call c) := by
  unfold Succeeds OperatorSet.call
  cases h : s.perform c with
  | ok s' => exact .inr ⟨⟨s', rfl⟩, step_of_perform h⟩
  | error e => exact .inl ⟨nofun, rfl⟩

end

/-! ## 2. Bonds -/

/-- The operators have distinct keys, and the total is the sum of the live bonds. -/
structure OperatorSet.Accounted (s : OperatorSet) : Prop where
  nodup : (s.operators.map Operator.pubkey).Nodup
  total : s.totalBond = .ofNat s.liveBonds

section

variable {s s' : OperatorSet} {c : OperatorCall} {op op' : Operator}

theorem OperatorSet.Accounted.found (hs : s.Accounted) (hop : op ∈ s.operators) :
    s.getOperator op.pubkey = some op :=
  Keyed.lookup_of_mem hs.nodup hop

theorem mem_of_getOperator {pubkey : String} (h : s.getOperator pubkey = some op) :
    op ∈ s.operators := Keyed.mem_of_lookup h

/-- The released bond was live, and it is not live any more. -/
theorem Changes.liveBond (h : Changes s.config op c op') :
    op'.liveBond + (c.released op).toNat = op.liveBond := by
  cases h with
  | recordMissedBatch => rfl
  | _ => simp_all [Operator.liveBond, Operator.Live, OperatorCall.released]

theorem liveBonds_setOperator (hop : s.getOperator op.pubkey = some op)
    (hkey : op'.pubkey = op.pubkey) :
    (s.setOperator op').liveBonds + op.liveBond = s.liveBonds + op'.liveBond := by
  rw [← hkey] at hop
  exact Keyed.sum_replace Operator.liveBond hop

theorem liveBond_le (hop : s.getOperator op.pubkey = some op) : op.liveBond ≤ s.liveBonds :=
  Keyed.le_sum_of_lookup Operator.liveBond hop

/-- What a change takes from the sum is what it takes from the total. -/
theorem Changes.liveBonds (h : Changes s.config op c op')
    (hop : s.getOperator op.pubkey = some op) :
    (s.setOperator op').liveBonds + (c.released op).toNat = s.liveBonds := by
  have hset := liveBonds_setOperator hop h.pubkey
  have hop' := h.liveBond
  omega

theorem OperatorSet.Accounted.step (hs : s.Accounted) (h : OperatorStep s c s') :
    s'.Accounted := by
  cases h with
  | register op address bondUtxo blockHeight hnew hactive =>
    have hlive : op.liveBond = op.bondAmount.toNat := if_pos (.inl hactive)
    constructor
    · rw [List.map_append, List.nodup_append]
      refine ⟨hs.nodup, List.nodup_singleton _, ?_⟩
      intro k hk k' hk'
      obtain ⟨b, hb, rfl⟩ := List.mem_map.mp hk
      rw [List.mem_singleton.mp hk']
      exact hnew b hb
    · show s.totalBond + op.bondAmount = .ofNat ((s.operators ++ [op]).map Operator.liveBond).sum
      rw [List.map_append, List.sum_append, List.map_singleton, List.sum_singleton, hlive, hs.total,
        UInt64.ofNat_add, UInt64.ofNat_toNat]
      rfl
  | change hfound hchange =>
    have hsum := hchange.liveBonds hfound
    constructor
    · show ((Keyed.replace _ _ s.operators).map Operator.pubkey).Nodup
      rw [Keyed.map_key_replace]
      exact hs.nodup
    · show s.totalBond - _ = .ofNat (OperatorSet.liveBonds (s.setOperator _))
      rw [hs.total, ← hsum, UInt64.ofNat_add, UInt64.ofNat_toNat, UInt64.add_sub_cancel]
  | updateTvl tvl => exact ⟨hs.nodup, hs.total⟩

theorem OperatorSet.Accounted.call (hs : s.Accounted) (c : OperatorCall) :
    (s.call c).Accounted := by
  rcases call_cases s c with ⟨-, heq⟩ | ⟨-, hstep⟩
  · rwa [heq]
  · exact hs.step hstep

theorem OperatorSet.Accounted.run (hs : s.Accounted) (calls : List OperatorCall) :
    (s.run calls).Accounted := by
  induction calls generalizing s with
  | nil => exact hs
  | cons c calls ih => exact ih (hs.call c)

theorem new_accounted (config : OperatorSetConfig) : (new config).Accounted :=
  ⟨List.nodup_nil, rfl⟩

/-- A live bond is part of the total, when the sum of the bonds fits. -/
theorem OperatorSet.Accounted.bond_le (hs : s.Accounted) (hfits : s.liveBonds < 2 ^ 64)
    (hfound : s.getOperator op.pubkey = some op) (hlive : op.Live) :
    op.bondAmount ≤ s.totalBond := by
  have hle := liveBond_le hfound
  have hbond : op.liveBond = op.bondAmount.toNat := if_pos hlive
  rw [UInt64.le_iff_toNat_le, hs.total, UInt64.toNat_ofNat_of_lt' hfits]
  omega

/-- Ten times the value that is locked, computed without wrapping around. -/
theorem isBondAdequate_le (h : s.isBondAdequate = true) (htvl : s.totalTvl ≠ 0) :
    10 * s.totalTvl.toNat ≤ s.totalBond.toNat := by
  unfold isBondAdequate checkedMul at h
  rw [if_neg htvl] at h
  split at h
  · rename_i required hrequired
    split at hrequired
    · rename_i hfits
      have hmul : (s.totalTvl * 10).toNat = s.totalTvl.toNat * 10 := by
        rw [UInt64.toNat_mul]
        exact Nat.mod_eq_of_lt hfits
      have hle := UInt64.le_iff_toNat_le.mp (of_decide_eq_true h)
      rw [← Option.some.inj hrequired, hmul] at hle
      omega
    · cases hrequired
  · cases h

/-- **Bond accounting.**  In every reachable state the total is the sum of the live bonds modulo
`2 ^ 64`; while the sum fits, no subtraction underflows; and a bond that is found adequate is. -/
theorem bonds_accounted (config : OperatorSetConfig) (calls : List OperatorCall) :
    let s := (new config).run calls
    s.totalBond = .ofNat s.liveBonds ∧
      (s.liveBonds < 2 ^ 64 →
        (∀ pubkey amount s', s.slashOperator pubkey = .ok (amount, s') →
          s'.totalBond = s.totalBond - amount ∧ amount ≤ s.totalBond) ∧
        ∀ pubkey blockHeight s', s.exitOperator pubkey blockHeight = .ok s' →
          ∃ op, s.getOperator pubkey = some op ∧ s'.totalBond = s.totalBond - op.bondAmount ∧
            op.bondAmount ≤ s.totalBond) ∧
      (s.isBondAdequate = true → s.totalTvl ≠ 0 → 10 * s.totalTvl.toNat ≤ s.liveBonds) := by
  intro s
  have hs : s.Accounted := (new_accounted config).run calls
  refine ⟨hs.total, fun hfits ↦ ⟨fun pubkey amount s' h ↦ ?_, fun pubkey blockHeight s' h ↦ ?_⟩,
    fun hadequate htvl ↦ ?_⟩
  · obtain ⟨op, hfound, hactive, rfl, rfl⟩ := slashOperator_eq_ok.mp h
    cases getOperator_pubkey hfound
    exact ⟨rfl, hs.bond_le hfits hfound (.inl hactive)⟩
  · obtain ⟨op, unbondStartedAt, hfound, hunbonding, -, -, rfl⟩ := exitOperator_eq_ok.mp h
    cases getOperator_pubkey hfound
    exact ⟨op, hfound, rfl, hs.bond_le hfits hfound (.inr hunbonding)⟩
  · have hle := isBondAdequate_le hadequate htvl
    rw [hs.total, UInt64.toNat_ofNat'] at hle
    exact hle.trans (Nat.mod_le _ _)

/-! ## 3. Slashing -/

/-- Slashing the operator returns its bond and takes it from the total. -/
def OperatorSet.Slashable (s : OperatorSet) (op : Operator) : Prop :=
  ∃ s', s.slashOperator op.pubkey = .ok (op.bondAmount, s') ∧
    s'.totalBond = s.totalBond - op.bondAmount ∧
    s'.liveBonds + op.bondAmount.toNat = s.liveBonds

/-- The call is an `unbond_operator` that succeeds. -/
def OperatorSet.Unbonds (s : OperatorSet) (c : OperatorCall) : Prop :=
  s.Succeeds c ∧ ∃ pubkey blockHeight, c = .unbond pubkey blockHeight

theorem OperatorSet.Accounted.slashable_iff (hs : s.Accounted) (hop : op ∈ s.operators) :
    s.Slashable op ↔ op.status = .active := by
  have hfound := hs.found hop
  constructor
  · rintro ⟨s', hslash, -⟩
    obtain ⟨op', hfound', hactive, -⟩ := slashOperator_eq_ok.mp hslash
    cases hfound.symm.trans hfound'
    exact hactive
  · intro hactive
    exact ⟨_, slashOperator_eq_ok.mpr ⟨op, hfound, hactive, rfl, rfl⟩, rfl,
      (Changes.slash hactive).liveBonds hfound⟩

theorem getOperator_setOperator (hop : s.getOperator op.pubkey = some op)
    (hkey : op'.pubkey = op.pubkey) : (s.setOperator op').getOperator op.pubkey = some op' := by
  rw [← hkey] at hop ⊢
  exact Keyed.lookup_replace_self hop

/-- What a step makes of the operator with a key. -/
theorem OperatorStep.getOperator (h : OperatorStep s c s') (pubkey : String) :
    s'.getOperator pubkey = s.getOperator pubkey ∨
      (s.getOperator pubkey = none ∧
        ∃ op', s'.getOperator pubkey = some op' ∧ op'.status = .active) ∨
      ∃ op op', s.getOperator pubkey = some op ∧ s'.getOperator pubkey = some op' ∧
        Changes s.config op c op' := by
  cases h with
  | register op address bondUtxo blockHeight hnew hactive =>
    by_cases hkey : pubkey = op.pubkey
    · have hnone : Keyed.lookup Operator.pubkey pubkey s.operators = none := by
        rw [hkey]
        exact Keyed.lookup_eq_none.mpr hnew
      have hself : Keyed.lookup Operator.pubkey pubkey [op] = some op := by
        rw [hkey]
        exact Keyed.lookup_of_mem (List.nodup_singleton _) List.mem_cons_self
      refine .inr (.inl ⟨hnone, op, ?_, hactive⟩)
      show Keyed.lookup _ _ (s.operators ++ [op]) = _
      rw [Keyed.lookup_append, hnone, hself]
      rfl
    · have hnone : Keyed.lookup Operator.pubkey pubkey [op] = none := by
        apply Keyed.lookup_eq_none.mpr
        intro b hb
        rw [List.mem_singleton.mp hb]
        exact Ne.symm hkey
      refine .inl ?_
      show Keyed.lookup _ _ (s.operators ++ [op]) = _
      rw [Keyed.lookup_append, hnone, Option.or_none]
      rfl
  | @change _ op op' hfound hchange =>
    by_cases hkey : pubkey = op.pubkey
    · rw [hkey]
      exact .inr (.inr
        ⟨op, op', hfound, getOperator_setOperator hfound hchange.pubkey, hchange⟩)
    · rw [← hchange.pubkey] at hkey
      exact .inl (Keyed.lookup_replace_of_ne hkey)
  | updateTvl tvl => exact .inl rfl

theorem OperatorStep.config (h : OperatorStep s c s') : s'.config = s.config := by
  cases h <;> rfl

/-- While no operator unbonds, the live ones are active. -/
def OperatorSet.NoneUnbonding (s : OperatorSet) : Prop :=
  ∀ pubkey op, s.getOperator pubkey = some op → op.status ≠ .unbonding

theorem OperatorSet.NoneUnbonding.call (hs : s.NoneUnbonding) (hc : ¬ s.Unbonds c) :
    (s.call c).NoneUnbonding := by
  rcases call_cases s c with ⟨-, heq⟩ | ⟨hsucceeds, hstep⟩
  · rwa [heq]
  intro pubkey op' hop'
  rcases hstep.getOperator pubkey with
    hsame | ⟨-, op'', hop'', hactive⟩ | ⟨op, op'', hop, hop'', hchange⟩
  · exact hs pubkey op' (hsame.symm.trans hop')
  · cases hop''.symm.trans hop'
    rw [hactive]
    decide
  · cases hop''.symm.trans hop'
    have hstatus := hs pubkey op hop
    cases hchange with
    | unbond blockHeight => exact absurd ⟨hsucceeds, _, _, rfl⟩ hc
    | exit => nofun
    | slash => nofun
    | recordBatch => exact hstatus
    | recordMissedBatch => exact hstatus

theorem OperatorSet.NoneUnbonding.run (hs : s.NoneUnbonding) {calls : List OperatorCall}
    (hcalls : ∀ before c after, calls = before ++ c :: after → ¬ (s.run before).Unbonds c) :
    (s.run calls).NoneUnbonding := by
  induction calls generalizing s with
  | nil => exact hs
  | cons c calls ih =>
    apply ih (hs.call (hcalls [] c calls rfl))
    intro before d after h
    exact hcalls (c :: before) d after (congrArg _ h)

end

/-- **An operator can be slashed while it is active**, and not once it has started to leave: where
no `unbond_operator` succeeds, every live bond can be slashed. -/
theorem slashable_iff_active (config : OperatorSetConfig) (calls : List OperatorCall) :
    let s := (new config).run calls
    (∀ op ∈ s.operators, op.Live → (s.Slashable op ↔ op.status = .active)) ∧
      ((∀ before c after, calls = before ++ c :: after → ¬ ((new config).run before).Unbonds c) →
        ∀ op ∈ s.operators, op.Live → s.Slashable op) := by
  intro s
  have hs : s.Accounted := (new_accounted config).run calls
  refine ⟨fun op hop _ ↦ hs.slashable_iff hop, fun hcalls op hop hlive ↦ ?_⟩
  have hnone : (new config).NoneUnbonding := nofun
  have hstatus := hnone.run hcalls op.pubkey op (hs.found hop)
  exact (hs.slashable_iff hop).mpr (hlive.resolve_right hstatus)

/-- An operator that has started to leave. -/
def demoOperator : Operator where
  pubkey := "020202020202020202020202020202020202020202020202020202020202020202"
  address := "a"
  bondAmount := 200000000
  bondUtxo := some "t:0"
  status := .unbonding
  registeredAt := 100
  unbondStartedAt := some 200
  lastBatchBlock := none
  lastBatchRoot := none
  totalBatches := 0
  missedBatches := 0
  uptimePct := 100.0

def demoUnbonding : OperatorSet :=
  (new {}).run
    [.register demoOperator.pubkey "a" 200000000 "t:0" 100, .unbond demoOperator.pubkey 200]

/-- **An operator that has started to leave cannot be slashed**, though its bond is live. -/
theorem unbonding_escapes_slashing :
    ∃ op ∈ demoUnbonding.operators, op.Live ∧ demoUnbonding.totalBond = op.bondAmount ∧
      demoUnbonding.slashOperator op.pubkey = .error "Operator is not active" := by
  have hrun : demoUnbonding = ⟨{}, [demoOperator], 200000000, 0⟩ := by rfl
  refine ⟨demoOperator, ?_⟩
  rw [hrun]
  exact ⟨List.mem_singleton_self _, .inr rfl, rfl, rfl⟩

end UtxoVm
