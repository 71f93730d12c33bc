import UtxoVm.Consensus.OperatorRun

/-!
# The history of an operator

A run is read backwards from its last call: an operator that is unbonding has an `unbond_operator`
that succeeded and no slash since, and one that has exited waited for the delay after it.
-/

namespace UtxoVm

open OperatorSet

/-- The block height that a call is given. -/
def OperatorCall.blockHeight : OperatorCall → Option UInt64
  | .register _ _ _ _ blockHeight => some blockHeight
  | .unbond _ blockHeight => some blockHeight
  | .exit _ blockHeight => some blockHeight
  | .recordBatch _ blockHeight _ => some blockHeight
  | _ => none

/-- The call gives the bond of an operator back, or takes it. -/
def OperatorCall.Releases (pubkey : String) (c : OperatorCall) : Prop :=
  c = .slash pubkey ∨ ∃ blockHeight, c = .exit pubkey blockHeight

/-- A call succeeds when it comes after the others in a run from the start. -/
def SucceedsAfter (config : OperatorSetConfig) (calls : List OperatorCall) (c : OperatorCall) :
    Prop := ((new config).run calls).Succeeds c

/-- After `before`, none of the calls slashes the operator. -/
def NotSlashed (config : OperatorSetConfig) (pubkey : String) (before calls : List OperatorCall) :
    Prop :=
  ∀ earlier later, calls = earlier ++ .slash pubkey :: later →
    ¬ SucceedsAfter config (before ++ earlier) (.slash pubkey)

/-- The operator has started to leave at some height, and was not slashed since. -/
def UnbondedAt (config : OperatorSetConfig) (pubkey : String) (calls : List OperatorCall)
    (started : UInt64) : Prop :=
  ∃ before between, calls = before ++ .unbond pubkey started :: between ∧
    SucceedsAfter config before (.unbond pubkey started) ∧
    NotSlashed config pubkey (before ++ [.unbond pubkey started]) between

/-- The operator has left, at least the delay after it had started to leave. -/
def LeftAfterDelay (config : OperatorSetConfig) (pubkey : String) (calls : List OperatorCall) :
    Prop :=
  ∃ before started left after, calls = before ++ .exit pubkey left :: after ∧
    SucceedsAfter config before (.exit pubkey left) ∧ UnbondedAt config pubkey before started ∧
    started.toNat + config.unbondDelay.toNat ≤ left.toNat

/-- Nothing has changed but how often the operator was missed. -/
def Operator.SameRecord (op op' : Operator) : Prop :=
  op' = { op with missedBatches := op'.missedBatches, uptimePct := op'.uptimePct }

section

variable {config : OperatorSetConfig} {s s' : OperatorSet} {c : OperatorCall}
variable {calls more : List OperatorCall} {pubkey : String} {op op' : Operator}

/-! ## 1. Runs -/

theorem OperatorSet.run_append (s : OperatorSet) (calls more : List OperatorCall) :
    s.run (calls ++ more) = (s.run calls).run more := List.foldl_append ..

theorem OperatorSet.run_concat (s : OperatorSet) (calls : List OperatorCall) (c : OperatorCall) :
    s.run (calls ++ [c]) = (s.run calls).call c := run_append s calls [c]

theorem call_config (s : OperatorSet) (c : OperatorCall) : (s.call c).config = s.config := by
  rcases call_cases s c with ⟨-, heq⟩ | ⟨-, hstep⟩
  · rw [heq]
  · exact hstep.config

theorem run_config (s : OperatorSet) (calls : List OperatorCall) :
    (s.run calls).config = s.config := by
  induction calls generalizing s with
  | nil => rfl
  | cons c calls ih => exact (ih (s.call c)).trans (call_config s c)

/-- What a call makes of the operator with a key. -/
theorem getOperator_call (s : OperatorSet) (c : OperatorCall) (pubkey : String) :
    (s.call c).getOperator pubkey = s.getOperator pubkey ∨
      (s.getOperator pubkey = none ∧
        ∃ op', (s.call c).getOperator pubkey = some op' ∧ op'.status = .active) ∨
      s.Succeeds c ∧ ∃ op op', s.getOperator pubkey = some op ∧
        (s.call c).getOperator pubkey = some op' ∧ Changes s.config op c op' := by
  rcases call_cases s c with ⟨-, heq⟩ | ⟨hsucceeds, hstep⟩
  · rw [heq]
    exact .inl rfl
  · exact (hstep.getOperator pubkey).imp_right (.imp_right (.intro hsucceeds))

/-! ## 2. Operators that are gone -/

theorem Operator.SameRecord.trans {op'' : Operator} (h : op.SameRecord op')
    (h' : op'.SameRecord op'') : op.SameRecord op'' := by
  unfold Operator.SameRecord at *
  rw [h', h]

theorem Operator.SameRecord.gone (h : op.SameRecord op') (hgone : op.Gone) : op'.Gone := by
  rw [h]
  exact hgone

/-- A call changes an operator that is gone only by counting that it was missed. -/
theorem Changes.sameRecord (h : Changes config op c op') (hgone : op.Gone) :
    op.SameRecord op' := by
  cases h with
  | unbond blockHeight hactive => simp [Operator.Gone, hactive] at hgone
  | exit blockHeight hunbonding => simp [Operator.Gone, hunbonding] at hgone
  | slash hactive => simp [Operator.Gone, hactive] at hgone
  | recordBatch blockHeight stateRoot hactive => simp [Operator.Gone, hactive] at hgone
  | recordMissedBatch => rfl

theorem gone_call (hop : s.getOperator pubkey = some op) (hgone : op.Gone) (c : OperatorCall) :
    ∃ op', (s.call c).getOperator pubkey = some op' ∧ op.SameRecord op' := by
  rcases getOperator_call s c pubkey with
    hsame | ⟨hnone, -⟩ | ⟨-, op₁, op', hop₁, hop', hchange⟩
  · exact ⟨op, hsame.trans hop, rfl⟩
  · cases hnone.symm.trans hop
  · cases hop₁.symm.trans hop
    exact ⟨op', hop', hchange.sameRecord hgone⟩

theorem gone_run (hop : s.getOperator pubkey = some op) (hgone : op.Gone)
    (calls : List OperatorCall) :
    ∃ op', (s.run calls).getOperator pubkey = some op' ∧ op.SameRecord op' := by
  induction calls generalizing s op with
  | nil => exact ⟨op, hop, rfl⟩
  | cons c calls ih =>
    obtain ⟨op₁, hop₁, hsame₁⟩ := gone_call hop hgone c
    obtain ⟨op', hop', hsame'⟩ := ih hop₁ (hsame₁.gone hgone)
    exact ⟨op', hop', hsame₁.trans hsame'⟩

/-- A key that is in use cannot register. -/
theorem register_fails (hop : s.getOperator pubkey = some op) (address : String)
    (bondAmount : UInt64) (bondUtxo : String) (blockHeight : UInt64) :
    ¬ s.Succeeds (.register pubkey address bondAmount bondUtxo blockHeight) := by
  rintro ⟨s', hs'⟩
  generalize hc : OperatorCall.register pubkey address bondAmount bondUtxo blockHeight = c at hs'
  cases step_of_perform hs' with
  | register op' _ _ _ hnew =>
    cases hc
    exact hnew op (mem_of_getOperator hop) (getOperator_pubkey hop)
  | change _ hchange =>
    subst hc
    cases hchange
  | updateTvl tvl => cases hc

theorem Changes.pubkey_of_release (h : Changes config op c op') (hc : c.Releases pubkey) :
    op.pubkey = pubkey := by
  rcases hc with rfl | ⟨blockHeight, rfl⟩
  · cases h with
    | slash => rfl
  · cases h with
    | exit => rfl

/-- A release that succeeds changes the operator whose bond it releases. -/
theorem changes_of_release (hc : c.Releases pubkey) (h : s.Succeeds c) :
    ∃ op op', s.getOperator pubkey = some op ∧ (s.call c).getOperator pubkey = some op' ∧
      Changes s.config op c op' := by
  rcases call_cases s c with ⟨hfails, -⟩ | ⟨-, hstep⟩
  · exact absurd h hfails
  generalize s.call c = s' at hstep
  cases hstep with
  | register =>
    rcases hc with hc | ⟨blockHeight, hc⟩
    · cases hc
    · cases hc
  | @change _ op op' hop hchange =>
    rw [← hchange.pubkey_of_release hc]
    exact ⟨op, op', hop, getOperator_setOperator hop hchange.pubkey, hchange⟩
  | updateTvl tvl =>
    rcases hc with hc | ⟨blockHeight, hc⟩
    · cases hc
    · cases hc

/-- The operator was there, and it is gone afterwards. -/
theorem Changes.released (h : Changes config op c op') (hc : c.Releases pubkey) :
    ¬ op.Gone ∧ op'.Gone := by
  rcases hc with rfl | ⟨blockHeight, rfl⟩
  · cases h with
    | slash hactive => exact ⟨by simp [Operator.Gone, hactive], .inl rfl⟩
  · cases h with
    | exit _ hunbonding => exact ⟨by simp [Operator.Gone, hunbonding], .inr rfl⟩

/-- No bond is released twice. -/
theorem release_once {d : OperatorCall} (hc : c.Releases pubkey) (hsucceeds : s.Succeeds c)
    (hd : d.Releases pubkey) (calls : List OperatorCall) :
    ¬ ((s.call c).run calls).Succeeds d := by
  intro hagain
  obtain ⟨_, op, -, hop, hchange⟩ := changes_of_release hc hsucceeds
  obtain ⟨op₁, hop₁, hsame⟩ := gone_run hop (hchange.released hc).2 calls
  obtain ⟨op₂, _, hop₂, -, hchange₂⟩ := changes_of_release hd hagain
  cases hop₁.symm.trans hop₂
  exact (hchange₂.released hd).1 (hsame.gone (hchange.released hc).2)

/-! ## 3. Operators that leave -/

/-- What the history says of an operator that is leaving or has left. -/
structure Told (config : OperatorSetConfig) (calls : List OperatorCall) (op : Operator) : Prop where
  unbonding : op.status = .unbonding → ∃ started, op.unbondStartedAt = some started ∧
    UnbondedAt config op.pubkey calls started
  exited : op.status = .exited → LeftAfterDelay config op.pubkey calls

theorem NotSlashed.concat {before : List OperatorCall} (h : NotSlashed config pubkey before calls)
    (hc : c = .slash pubkey → ¬ SucceedsAfter config (before ++ calls) c) :
    NotSlashed config pubkey before (calls ++ [c]) := by
  intro earlier later heq
  rcases List.eq_nil_or_concat later with rfl | ⟨later', d, rfl⟩
  · obtain ⟨rfl, hcd⟩ := List.append_inj' heq rfl
    cases List.singleton_inj.mp hcd
    exact hc rfl
  · rw [List.concat_eq_append, ← List.cons_append, ← List.append_assoc] at heq
    exact h earlier later' (List.append_inj' heq rfl).1

theorem UnbondedAt.concat {started : UInt64} (h : UnbondedAt config pubkey calls started)
    (hc : c = .slash pubkey → ¬ SucceedsAfter config calls c) :
    UnbondedAt config pubkey (calls ++ [c]) started := by
  obtain ⟨before, between, rfl, hunbond, hslash⟩ := h
  refine ⟨before, between ++ [c], by simp, hunbond, hslash.concat ?_⟩
  rwa [List.append_assoc]

theorem LeftAfterDelay.concat (h : LeftAfterDelay config pubkey calls) (c : OperatorCall) :
    LeftAfterDelay config pubkey (calls ++ [c]) := by
  obtain ⟨before, started, left, after, rfl, hexit, hunbonded, hdelay⟩ := h
  exact ⟨before, started, left, after ++ [c], by simp, hexit, hunbonded, hdelay⟩

/-- The operator is as it was, and was not slashed. -/
theorem Told.concat (h : Told config calls op)
    (hc : c = .slash op.pubkey → ¬ SucceedsAfter config calls c) :
    Told config (calls ++ [c]) op where
  unbonding hstatus := by
    obtain ⟨started, hstarted, hunbonded⟩ := h.unbonding hstatus
    exact ⟨started, hstarted, hunbonded.concat hc⟩
  exited hstatus := (h.exited hstatus).concat c

theorem told_of_changes (h : Told config calls op) (hchange : Changes config op c op')
    (hsucceeds : SucceedsAfter config calls c)
    (hheights : ∀ c ∈ calls, ∀ height ∈ c.blockHeight, height.toNat < 2 ^ 64 - 2 ^ 32) :
    Told config (calls ++ [c]) op' := by
  cases hchange with
  | unbond started hactive =>
    exact ⟨fun _ ↦ ⟨started, rfl, calls, [], rfl, hsucceeds, by simp [NotSlashed]⟩, nofun⟩
  | @exit started left hunbonding hstarted hdelay =>
    refine ⟨nofun, fun _ ↦ ?_⟩
    obtain ⟨started', hstarted', hunbonded⟩ := h.unbonding hunbonding
    cases hstarted.symm.trans hstarted'
    refine ⟨calls, started, left, [], rfl, hsucceeds, hunbonded, ?_⟩
    obtain ⟨before, between, rfl, -, -⟩ := hunbonded
    have hheight := hheights (.unbond op.pubkey started) (by simp) started rfl
    have hbound := config.unbondDelay.toNat_lt
    -- the deadline does not wrap around
    have hsum : (started + config.unbondDelay.toUInt64).toNat =
        started.toNat + config.unbondDelay.toNat := by
      rw [UInt64.toNat_add, UInt32.toNat_toUInt64]
      omega
    rw [UInt64.lt_iff_toNat_lt, hsum] at hdelay
    omega
  | slash hactive => exact ⟨nofun, nofun⟩
  | recordBatch blockHeight stateRoot hactive => exact ⟨by simp [hactive], by simp [hactive]⟩
  | recordMissedBatch missedBatches uptimePct =>
    have hkeep : Told config (calls ++ [.recordMissedBatch op.pubkey]) op := h.concat nofun
    exact ⟨hkeep.unbonding, hkeep.exited⟩

theorem told_run (calls : List OperatorCall)
    (hheights : ∀ c ∈ calls, ∀ height ∈ c.blockHeight, height.toNat < 2 ^ 64 - 2 ^ 32) :
    ∀ pubkey op, ((new config).run calls).getOperator pubkey = some op → Told config calls op := by
  induction calls using List.reverseRecOn with
  | nil => nofun
  | append_singleton calls c ih =>
    intro pubkey op' hop'
    have hbefore := ih fun c hc ↦ hheights c (List.mem_append_left _ hc)
    have hconfig : ((new config).run calls).config = config := run_config _ calls
    rw [run_concat] at hop'
    rcases getOperator_call ((new config).run calls) c pubkey with
      hsame | ⟨-, op₁, hop₁, hactive⟩ | ⟨hsucceeds, op, op₁, hop, hop₁, hchange⟩
    · apply (hbefore pubkey op' (hsame.symm.trans hop')).concat
      -- a slash that succeeds would have changed the operator
      rintro rfl hslash
      rw [getOperator_pubkey hop'] at hslash
      obtain ⟨op, op₁, hop, hop₁, hchange⟩ := changes_of_release (.inl rfl) hslash
      have hreleased := hchange.released (.inl rfl)
      rw [getOperator_pubkey hop'] at hsame
      cases (hop₁.symm.trans hsame).trans hop
      exact hreleased.1 hreleased.2
    · cases hop₁.symm.trans hop'
      exact ⟨by simp [hactive], by simp [hactive]⟩
    · cases hop₁.symm.trans hop'
      rw [hconfig] at hchange
      exact told_of_changes (hbefore pubkey op hop) hchange hsucceeds
        fun c hc ↦ hheights c (List.mem_append_left _ hc)

end

/-- **A bond leaves only by slashing or after the delay.**  An operator that has exited had started
to leave at least the delay before, and was not slashed in between; operators that were slashed or
have exited stay as they are; and no bond is released twice. -/
theorem bond_leaves_once (config : OperatorSetConfig) (calls : List OperatorCall)
    (hheights : ∀ c ∈ calls, ∀ height ∈ c.blockHeight, height.toNat < 2 ^ 64 - 2 ^ 32) :
    (∀ op ∈ ((new config).run calls).operators, op.status = .exited →
      LeftAfterDelay config op.pubkey calls) ∧
    (∀ before after, calls = before ++ after →
      ∀ op ∈ ((new config).run before).operators, op.Gone →
        (∃ op', ((new config).run calls).getOperator op.pubkey = some op' ∧ op.SameRecord op') ∧
        ∀ address bondAmount bondUtxo blockHeight, ¬ SucceedsAfter config calls
          (.register op.pubkey address bondAmount bondUtxo blockHeight)) ∧
    ∀ pubkey before c between d after, calls = before ++ c :: between ++ d :: after →
      c.Releases pubkey → d.Releases pubkey →
      ¬ (SucceedsAfter config before c ∧ SucceedsAfter config (before ++ c :: between) d) := by
  refine ⟨fun op hop hexited ↦ ?_, fun before after heq op hop hgone ↦ ?_,
    fun pubkey before c between d after heq hc hd ↦ ?_⟩
  · have hs : ((new config).run calls).Accounted := (new_accounted config).run calls
    exact (told_run calls hheights op.pubkey op (hs.found hop)).exited hexited
  · have hs : ((new config).run before).Accounted := (new_accounted config).run before
    obtain ⟨op', hop', hsame⟩ := gone_run (hs.found hop) hgone after
    rw [← run_append, ← heq] at hop'
    exact ⟨⟨op', hop', hsame⟩, register_fails hop'⟩
  · rintro ⟨hsucceeds, hagain⟩
    unfold SucceedsAfter at hagain
    rw [run_append] at hagain
    exact release_once hc hsucceeds hd between hagain

/-- An operator that leaves sixty blocks after it has started to. -/
def demoLeaving : List OperatorCall :=
  [.register demoOperator.pubkey "a" 200000000 "t:0" 100, .unbond demoOperator.pubkey 200,
    .exit demoOperator.pubkey 260]

theorem bond_leaves_once_demo :
    { demoOperator with status := .exited } ∈ ((new {}).run demoLeaving).operators ∧
      LeftAfterDelay {} demoOperator.pubkey demoLeaving := by
  have hrun : (new {}).run demoLeaving =
      ⟨{}, [{ demoOperator with status := .exited }], 0, 0⟩ := by rfl
  have hmem : { demoOperator with status := .exited } ∈
      ((new {}).run demoLeaving).operators := by
    rw [hrun]
    exact List.mem_singleton_self _
  have hheights : ∀ c ∈ demoLeaving, ∀ height ∈ c.blockHeight, height.toNat < 2 ^ 64 - 2 ^ 32 := by
    simp [demoLeaving, OperatorCall.blockHeight]
  exact ⟨hmem, (bond_leaves_once {} demoLeaving hheights).1 { demoOperator with status := .exited }
    hmem rfl⟩

end UtxoVm
