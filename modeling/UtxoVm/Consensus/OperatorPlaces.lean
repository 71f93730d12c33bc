import UtxoVm.Consensus.OperatorKeys

/-!
# The places in the operator set

An operator that has left or was slashed stays in the list, and the list is what the capacity is
compared with.  So every departure uses a place up for good.
-/

namespace UtxoVm

open RustStd Utf8 OperatorSet

/-- The operators that count, for what a reader takes them to be. -/
def OperatorSet.count (s : OperatorSet) (counted : Operator → Bool) : Nat :=
  (s.operators.filter counted).length

/-- A new operator is turned away for want of a place only while as many are active or unbonding. -/
def OperatorSet.FreesPlaces (s : OperatorSet) : Prop :=
  ∀ pubkey address bondAmount bondUtxo blockHeight, WellFormedKey pubkey →
    (∀ op ∈ s.operators, op.pubkey ≠ pubkey) → s.config.minBond ≤ bondAmount →
    s.registerOperator pubkey address bondAmount bondUtxo blockHeight =
      .error "Maximum operators reached" →
    s.config.maxOperators.toNat ≤ s.count fun op ↦ op.Live

/-- Some calls from here lead to the minimum of operators that count. -/
def OperatorSet.CanReachMin (s : OperatorSet) (counted : Operator → Bool) : Prop :=
  ∃ calls, s.config.minOperators.toNat ≤ (s.run calls).count counted

section

variable {s : OperatorSet} {c : OperatorCall} {op op' : Operator} {pubkey : String}

/-! ## 1. A supply of keys -/

/-- What is read as bytes is hexadecimal digits, two to a byte. -/
theorem digits_of_hexDecodeChars {cs : List Char} {bs : Bytes}
    (h : hexDecodeChars cs = some bs) :
    cs.length = 2 * bs.length ∧ (cs.all fun c ↦ (hexVal c).isSome) = true := by
  induction cs using hexDecodeChars.induct generalizing bs with
  | case1 =>
    cases h
    exact ⟨rfl, rfl⟩
  | case2 => cases h
  | case3 a b rest ih =>
    simp only [hexDecodeChars, Option.bind_eq_bind, Option.bind_eq_some_iff, Option.pure_def] at h
    obtain ⟨x, hx, y, hy, tail, htail, heq⟩ := h
    cases heq
    obtain ⟨hlen, hall⟩ := ih htail
    refine ⟨by simp only [List.length_cons, hlen]; omega, ?_⟩
    simp only [List.all_cons, hx, hy, Option.isSome_some, hall, Bool.and_self]

theorem wellFormedKey_hexEncode {key : Bytes} (hlen : key.length = 33) :
    WellFormedKey (hexEncode key) := by
  obtain ⟨hdigits, hall⟩ := digits_of_hexDecodeChars (hexDecode_hexEncode key)
  have hbytes := length_hexChars hall
  rw [String.ofList_toList, hdigits, hlen] at hbytes
  exact ⟨hbytes, hall⟩

/-- There are more keys than places. -/
theorem exists_fresh_key (taken : List String) (htaken : taken.length < 2 ^ 32) :
    ∃ pubkey, WellFormedKey pubkey ∧ pubkey ∉ taken := by
  by_contra hnone
  push Not at hnone
  have hsubset :
      (List.range (taken.length + 1)).map (fun n ↦ hexEncode (beBytes 33 n)) ⊆ taken := by
    intro pubkey hpubkey
    obtain ⟨n, -, rfl⟩ := List.mem_map.mp hpubkey
    exact hnone _ (wellFormedKey_hexEncode (beBytes_length 33 n))
  have hnodup : ((List.range (taken.length + 1)).map fun n ↦ hexEncode (beBytes 33 n)).Nodup := by
    apply List.Nodup.map_on _ List.nodup_range
    intro m hm n hn heq
    rw [List.mem_range] at hm hn
    have hmod := beBytes_inj (hexEncode_injective heq)
    rwa [Nat.mod_eq_of_lt (by omega), Nat.mod_eq_of_lt (by omega)] at hmod
  have hle := (hnodup.subperm hsubset).length_le
  rw [List.length_map, List.length_range] at hle
  omega

theorem exists_new_key (hlen : s.operators.length < 2 ^ 32) :
    ∃ pubkey, WellFormedKey pubkey ∧ ∀ op ∈ s.operators, op.pubkey ≠ pubkey := by
  obtain ⟨pubkey, hform, hfresh⟩ := exists_fresh_key (s.operators.map Operator.pubkey)
    (by rwa [List.length_map])
  refine ⟨pubkey, hform, ?_⟩
  rintro op hop rfl
  exact hfresh (List.mem_map_of_mem hop)

/-! ## 2. Registering -/

/-- A registration that is in order fails for want of a place, or not at all. -/
theorem registerOperator_eq (hform : WellFormedKey pubkey)
    (hfresh : ∀ op ∈ s.operators, op.pubkey ≠ pubkey) (address : String) {bondAmount : UInt64}
    (hbond : s.config.minBond ≤ bondAmount) (bondUtxo : String) (blockHeight : UInt64) :
    ∃ s', s.registerOperator pubkey address bondAmount bondUtxo blockHeight =
      if s.config.maxOperators.toNat ≤ s.operators.length then .error "Maximum operators reached"
      else .ok s' := by
  have hany : ¬ (s.operators.any fun op ↦ op.pubkey == pubkey) = true := by
    simpa using hfresh
  have hkey : ¬ ((asBytes pubkey).length ≠ 66 ∨
      !(pubkey.toList.all fun c ↦ (hexVal c).isSome)) := by
    rw [hform.1, hform.2]
    simp
  unfold registerOperator
  rw [if_neg (UInt64.not_lt.mpr hbond), if_neg hkey, if_neg hany]
  exact ⟨_, rfl⟩

/-- Where there is room, a new operator can register. -/
theorem exists_registers (hroom : s.operators.length < s.config.maxOperators.toNat) :
    ∃ c op, s.Registers c op := by
  have hbound := s.config.maxOperators.toNat_lt
  obtain ⟨pubkey, hform, hnew⟩ := exists_new_key (hroom.trans hbound)
  obtain ⟨s', hs'⟩ := registerOperator_eq hform hnew "" (UInt64.le_refl s.config.minBond) "" 0
  rw [if_neg (Nat.not_le.mpr hroom)] at hs'
  obtain ⟨op, -, hop⟩ := registers_of_ok hs'
  exact ⟨_, op, hop⟩

/-! ## 3. Counting -/

/-- An operator that registers counts, and one that does not count never counts again. -/
structure Counting (counted : Operator → Bool) : Prop where
  active : ∀ op, op.status = .active → counted op = true
  changes : ∀ config op c op', Changes config op c op' → counted op' = true → counted op = true

theorem counting_active : Counting fun op ↦ op.status = .active := by
  constructor
  · intro op hactive
    exact decide_eq_true hactive
  · intro config op c op' hchange hactive
    exact decide_eq_true (Changes.active (s := new config) hchange (of_decide_eq_true hactive))

theorem counting_live : Counting fun op ↦ op.Live := by
  constructor
  · intro op hactive
    exact decide_eq_true (.inl hactive)
  · intro config op c op' hchange hlive
    apply decide_eq_true
    cases hchange with
    | unbond blockHeight hactive => exact .inl hactive
    | exit blockHeight hunbonding => exact .inr hunbonding
    | slash hactive => exact .inl hactive
    | recordBatch blockHeight stateRoot hactive => exact .inl hactive
    | recordMissedBatch => exact of_decide_eq_true hlive

variable {counted : Operator → Bool}

/-- The operators that count, and those that do not. -/
theorem count_add_count (s : OperatorSet) (counted : Operator → Bool) :
    s.count counted + s.count (fun op ↦ !counted op) = s.operators.length := by
  have hsum := List.length_eq_countP_add_countP counted (l := s.operators)
  simp only [OperatorSet.count, List.countP_eq_length_filter] at hsum ⊢
  simpa using hsum.symm

theorem OperatorSet.Registers.count (h : s.Registers c op) (hcounted : Counting counted) :
    (s.call c).count counted = s.count counted + 1 := by
  unfold OperatorSet.count
  rw [h.operators, List.filter_append, List.filter_singleton, hcounted.active op h.active]
  exact List.length_append

/-- What has stopped to count is never fewer operators than before. -/
theorem uncounted_call (s : OperatorSet) (c : OperatorCall) (hcounted : Counting counted) :
    s.count (fun op ↦ !counted op) ≤ (s.call c).count fun op ↦ !counted op := by
  have hbefore := count_add_count s counted
  have hafter := count_add_count (s.call c) counted
  rcases operators_call s c with hsame | ⟨op, op', hfound, hchange, hreplaced⟩ | ⟨-, op, hop⟩
  · unfold OperatorSet.count
    rw [hsame]
  · rw [← hchange.pubkey] at hfound
    have hsub := (Keyed.map_key_filter_replace counted hfound
      (hcounted.changes s.config op c op' hchange)).length_le
    rw [List.length_map, List.length_map, ← hreplaced] at hsub
    have hlen : (s.call c).operators.length = s.operators.length := by
      rw [hreplaced, Keyed.length_replace]
    unfold OperatorSet.count at *
    omega
  · have hcount := hop.count hcounted
    have hlen : (s.call c).operators.length = s.operators.length + 1 := by
      rw [hop.operators, List.length_append, List.length_singleton]
    omega

theorem uncounted_run (s : OperatorSet) (calls : List OperatorCall)
    (hcounted : Counting counted) :
    s.count (fun op ↦ !counted op) ≤ (s.run calls).count fun op ↦ !counted op := by
  induction calls generalizing s with
  | nil => exact Nat.le_refl _
  | cons c calls ih => exact (uncounted_call s c hcounted).trans (ih (s.call c))

theorem length_run (s : OperatorSet) (calls : List OperatorCall) :
    s.operators.length ≤ (s.run calls).operators.length := by
  induction calls generalizing s with
  | nil => exact Nat.le_refl _
  | cons c calls ih =>
    apply Nat.le_trans _ (ih (s.call c))
    rcases operators_call s c with hsame | ⟨op, op', -, -, hreplaced⟩ | ⟨-, op, hop⟩
    · rw [hsame]
    · rw [hreplaced, Keyed.length_replace]
    · rw [hop.operators, List.length_append]
      exact Nat.le_add_right ..

/-- All the places that are left can be taken. -/
theorem exists_fill (s : OperatorSet) (hcounted : Counting counted) (n : Nat)
    (hroom : s.operators.length + n ≤ s.config.maxOperators.toNat) :
    ∃ calls, (s.run calls).count counted = s.count counted + n := by
  induction n generalizing s with
  | zero => exact ⟨[], rfl⟩
  | succ n ih =>
    obtain ⟨c, op, hop⟩ := exists_registers (show s.operators.length < _ by omega)
    have hlen : (s.call c).operators.length = s.operators.length + 1 := by
      rw [hop.operators, List.length_append, List.length_singleton]
    obtain ⟨calls, hcalls⟩ := ih (s.call c) (by
      rw [hlen, call_config]
      omega)
    refine ⟨c :: calls, ?_⟩
    show ((s.call c).run calls).count counted = _
    rw [hcalls, hop.count hcounted]
    omega

/-- The minimum can be reached while what has stopped to count leaves places enough. -/
theorem OperatorSet.Admitted.canReachMin_iff (hs : s.Admitted) (hcounted : Counting counted) :
    s.CanReachMin counted ↔ s.count (fun op ↦ !counted op) + s.config.minOperators.toNat ≤
      s.config.maxOperators.toNat := by
  constructor
  · rintro ⟨calls, hmin⟩
    have hlost := uncounted_run s calls hcounted
    have hsum := count_add_count (s.run calls) counted
    have hle := (hs.run calls).length_le
    rw [run_config] at hle
    omega
  · intro hplaces
    have hsum := count_add_count s counted
    have hle := hs.length_le
    obtain ⟨calls, hcalls⟩ := exists_fill s hcounted
      (s.config.maxOperators.toNat - s.operators.length) (by omega)
    exact ⟨calls, by omega⟩

/-- Places are freed where there are places left, or nobody has departed. -/
theorem OperatorSet.Admitted.freesPlaces_iff (hs : s.Admitted) :
    s.FreesPlaces ↔ s.operators.length < s.config.maxOperators.toNat ∨
      s.count (fun op ↦ !decide op.Live) = 0 := by
  have hsum := count_add_count s fun op ↦ decide op.Live
  have hle := hs.length_le
  constructor
  · intro hfrees
    by_contra hdeparted
    have hbound := s.config.maxOperators.toNat_lt
    obtain ⟨pubkey, hform, hnew⟩ := exists_new_key (hle.trans_lt hbound)
    have hbond := UInt64.le_refl s.config.minBond
    obtain ⟨s', hs'⟩ := registerOperator_eq hform hnew "" hbond "" 0
    rw [if_pos (by omega)] at hs'
    have hlive := hfrees pubkey _ _ _ _ hform hnew hbond hs'
    omega
  · intro hplaces pubkey address bondAmount bondUtxo blockHeight hform hnew hbond hfails
    obtain ⟨s', hs'⟩ := registerOperator_eq hform hnew address hbond bondUtxo blockHeight
    rw [hfails] at hs'
    have hfull : s.config.maxOperators.toNat ≤ s.operators.length := by
      by_contra hroom
      rw [if_neg hroom] at hs'
      cases hs'
    omega

/-- Along a run the minimum stays within reach while it is in the end. -/
theorem canReachMin_run_iff (config : OperatorSetConfig) (calls : List OperatorCall)
    (hcounted : Counting counted) :
    (∀ before after, calls = before ++ after →
        ((new config).run before).CanReachMin counted) ↔
      ((new config).run calls).count (fun op ↦ !counted op) + config.minOperators.toNat ≤
        config.maxOperators.toNat := by
  have hadmitted (before : List OperatorCall) : ((new config).run before).Admitted :=
    (new_admitted config).run before
  have hconfig (before : List OperatorCall) : ((new config).run before).config = config :=
    run_config (new config) before
  constructor
  · intro hall
    have hend := (hadmitted calls).canReachMin_iff hcounted |>.mp
      (hall calls [] (List.append_nil calls).symm)
    rwa [hconfig] at hend
  · rintro hplaces before after rfl
    apply ((hadmitted before).canReachMin_iff hcounted).mpr
    have hlost := uncounted_run ((new config).run before) after hcounted
    rw [← OperatorSet.run_append] at hlost
    rw [hconfig]
    omega

/-- Along a run places are freed while they are in the end. -/
theorem freesPlaces_run_iff (config : OperatorSetConfig) (calls : List OperatorCall) :
    (∀ before after, calls = before ++ after → ((new config).run before).FreesPlaces) ↔
      ((new config).run calls).operators.length < config.maxOperators.toNat ∨
        ((new config).run calls).count (fun op ↦ !decide op.Live) = 0 := by
  have hadmitted (before : List OperatorCall) : ((new config).run before).Admitted :=
    (new_admitted config).run before
  have hconfig (before : List OperatorCall) : ((new config).run before).config = config :=
    run_config (new config) before
  constructor
  · intro hall
    have hend := (hadmitted calls).freesPlaces_iff.mp
      (hall calls [] (List.append_nil calls).symm)
    rwa [hconfig] at hend
  · rintro hplaces before after rfl
    apply (hadmitted before).freesPlaces_iff.mpr
    have hlost := uncounted_run ((new config).run before) after counting_live
    have hmore := length_run ((new config).run before) after
    rw [← OperatorSet.run_append] at hlost hmore
    rw [hconfig]
    omega

end

/-- **Departed operators keep their place.**  Along a run a place is refused only when it is taken
by an operator who is there exactly if fewer than the maximum have ever registered or none of them
has departed; and the minimum stays within reach exactly while those that no longer count leave
places enough, whether the active operators count or all that have not departed. -/
theorem places_freed_iff (config : OperatorSetConfig) (calls : List OperatorCall) :
    let s := (new config).run calls
    ((∀ before after, calls = before ++ after → ((new config).run before).FreesPlaces) ↔
      s.operators.length < config.maxOperators.toNat ∨ ∀ op ∈ s.operators, op.Live) ∧
    ((∀ before after, calls = before ++ after →
        ((new config).run before).CanReachMin fun op ↦ op.Live) ↔
      s.count (fun op ↦ ¬ op.Live) + config.minOperators.toNat ≤ config.maxOperators.toNat) ∧
    ((∀ before after, calls = before ++ after →
        ((new config).run before).CanReachMin fun op ↦ op.status = .active) ↔
      s.count (fun op ↦ op.status ≠ .active) + config.minOperators.toNat ≤
        config.maxOperators.toNat) := by
  intro s
  simp only [ne_eq, decide_not]
  refine ⟨?_, canReachMin_run_iff config calls counting_live,
    canReachMin_run_iff config calls counting_active⟩
  have hnone : s.count (fun op ↦ !decide op.Live) = 0 ↔ ∀ op ∈ s.operators, op.Live := by
    unfold OperatorSet.count
    simp
  rw [← hnone]
  exact freesPlaces_run_iff config calls

/-- Two operators for two places, who are both slashed. -/
def demoDeparted : List OperatorCall :=
  [.register demoHexKey "a" 100000000 "t:0" 100,
    .register demoOperator.pubkey "a" 100000000 "t:0" 100,
    .slash demoHexKey, .slash demoOperator.pubkey]

def demoPlaces : OperatorSetConfig := { minOperators := 1, maxOperators := 2 }

/-- **A set that all operators have left is full**, and stays without operators. -/
theorem departed_set_stays_full :
    let s := (new demoPlaces).run demoDeparted
    (s.count fun op ↦ op.Live) = 0 ∧ ¬ s.FreesPlaces ∧
      ¬ s.CanReachMin fun op ↦ op.status = .active := by
  intro s
  have hrun : s = ⟨demoPlaces, [{ demoRegistered demoHexKey 100 with status := .slashed },
      { demoRegistered demoOperator.pubkey 100 with status := .slashed }], 0, 0⟩ := by rfl
  have hs : s.Admitted := (new_admitted demoPlaces).run demoDeparted
  refine ⟨by rw [hrun]; rfl, fun hfrees ↦ ?_, fun hreach ↦ ?_⟩
  · rcases hs.freesPlaces_iff.mp hfrees with hroom | hnone
    · rw [hrun] at hroom
      exact absurd hroom (by decide)
    · rw [hrun] at hnone
      exact absurd hnone (by decide)
  · have hplaces := (hs.canReachMin_iff counting_active).mp hreach
    rw [hrun] at hplaces
    exact absurd hplaces (by decide)

end UtxoVm
