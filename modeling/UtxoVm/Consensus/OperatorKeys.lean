import UtxoVm.Consensus.OperatorHistory
import UtxoVm.Reasoning.Utf8

/-!
# The keys of the operators

A public key is sixty-six hexadecimal digits of any case.  What a registration asks for, what a run
makes of the keys and of the active operators, and how many different keys a quorum has.
-/

namespace UtxoVm

open RustStd Utf8 OperatorSet

/-- The text has the form that `register_operator` asks for. -/
def WellFormedKey (pubkey : String) : Prop :=
  (asBytes pubkey).length = 66 ∧ (pubkey.toList.all fun c ↦ (hexVal c).isSome) = true

instance (pubkey : String) : Decidable (WellFormedKey pubkey) := inferInstanceAs (Decidable (_ ∧ _))

/-- The public key itself. -/
def Operator.keyBytes (op : Operator) : Option Bytes := hexDecode op.pubkey

/-- As many different keys of active operators as the threshold asks for. -/
def OperatorSet.DistinctThreshold (s : OperatorSet) : Prop :=
  ∃ keys : List Bytes, s.config.honestThreshold.toNat ≤ keys.length ∧ keys.Nodup ∧
    ∀ key ∈ keys, key.length = 33 ∧ ∃ op ∈ s.activeOperators, op.keyBytes = some key

/-- A quorum has as many different keys as the threshold asks for. -/
def OperatorSet.QuorumDistinct (s : OperatorSet) : Prop :=
  s.hasQuorum = true → s.DistinctThreshold

/-- The call registers the key of an active operator once more, in another spelling. -/
def OperatorSet.Respells (s : OperatorSet) (c : OperatorCall) : Prop :=
  s.Succeeds c ∧ ∃ pubkey address bondAmount bondUtxo blockHeight,
    c = .register pubkey address bondAmount bondUtxo blockHeight ∧
    ∃ op ∈ s.activeOperators, op.keyBytes = hexDecode pubkey

/-- The call puts the operator behind the others, under a key of its own. -/
structure OperatorSet.Registers (s : OperatorSet) (c : OperatorCall) (op : Operator) : Prop where
  wellFormed : WellFormedKey op.pubkey
  fresh : ∀ b ∈ s.operators, b.pubkey ≠ op.pubkey
  room : s.operators.length < s.config.maxOperators.toNat
  active : op.status = .active
  operators : (s.call c).operators = s.operators ++ [op]
  register : ∃ address bondAmount bondUtxo blockHeight,
    c = .register op.pubkey address bondAmount bondUtxo blockHeight

/-- Every registered key has the form that is asked for, and there are not too many of them. -/
structure OperatorSet.Admitted (s : OperatorSet) : Prop where
  wellFormed : ∀ pubkey ∈ s.operators.map Operator.pubkey, WellFormedKey pubkey
  length_le : s.operators.length ≤ s.config.maxOperators.toNat

section

variable {s s' : OperatorSet} {c : OperatorCall} {op op' : Operator} {pubkey : String}

/-! ## 1. Hexadecimal keys -/

theorem hexVal_ascii {c : Char} (h : (hexVal c).isSome = true) : c.utf8Size = 1 := by
  have hsmall : c.val ≤ 0x7f := by
    simp only [hexVal, Char.le_def, UInt32.le_iff_toNat_le] at h ⊢
    split at h
    · rename_i hdigit
      exact hdigit.2.trans (by decide)
    split at h
    · rename_i hlower
      exact hlower.2.trans (by decide)
    split at h
    · rename_i hupper
      exact hupper.2.trans (by decide)
    · cases h
  exact Char.utf8Size_eq_one_iff.mpr hsmall

theorem length_hexChars {cs : List Char} (h : (cs.all fun c ↦ (hexVal c).isSome) = true) :
    (asBytes (String.ofList cs)).length = cs.length := by
  rw [asBytes_ofList]
  induction cs with
  | nil => rfl
  | cons c cs ih =>
    rw [List.all_cons, Bool.and_eq_true] at h
    rw [List.flatMap_cons, List.length_append, String.length_utf8EncodeChar, hexVal_ascii h.1,
      ih h.2, List.length_cons]
    omega

/-- An even number of digits is read, two digits to a byte. -/
theorem hexDecodeChars_digits (n : Nat) {cs : List Char} (hlen : cs.length = 2 * n)
    (h : (cs.all fun c ↦ (hexVal c).isSome) = true) :
    ∃ bs, hexDecodeChars cs = some bs ∧ bs.length = n := by
  induction n generalizing cs with
  | zero =>
    rw [List.length_eq_zero_iff.mp hlen]
    exact ⟨[], rfl, rfl⟩
  | succ n ih =>
    obtain ⟨a, rest, rfl⟩ := List.exists_cons_of_length_eq_add_one
      (show cs.length = 2 * n + 1 + 1 by omega)
    rw [List.length_cons] at hlen
    obtain ⟨b, rest, rfl⟩ := List.exists_cons_of_length_eq_add_one
      (show rest.length = 2 * n + 1 by omega)
    rw [List.length_cons] at hlen
    simp only [List.all_cons, Bool.and_eq_true, Option.isSome_iff_exists] at h
    obtain ⟨⟨x, hx⟩, ⟨y, hy⟩, hrest⟩ := h
    obtain ⟨bs, hbs, hbslen⟩ := ih (show rest.length = 2 * n by omega) hrest
    exact ⟨UInt8.ofNat (16 * x + y) :: bs, by simp [hexDecodeChars, hx, hy, hbs], by simp [hbslen]⟩

theorem WellFormedKey.decodes (h : WellFormedKey pubkey) :
    ∃ key, hexDecode pubkey = some key ∧ key.length = 33 := by
  have hlen := length_hexChars h.2
  rw [String.ofList_toList, h.1] at hlen
  exact hexDecodeChars_digits 33 hlen.symm h.2

/-! ## 2. What a call makes of the operators -/

theorem registers_of_ok {address bondUtxo : String} {bondAmount blockHeight : UInt64}
    (h : s.registerOperator pubkey address bondAmount bondUtxo blockHeight = .ok s') :
    ∃ op, op.pubkey = pubkey ∧
      s.Registers (.register pubkey address bondAmount bondUtxo blockHeight) op := by
  have hcall : s.call (.register pubkey address bondAmount bondUtxo blockHeight) = s' := by
    have hperform :
        s.perform (.register pubkey address bondAmount bondUtxo blockHeight) = .ok s' := h
    unfold OperatorSet.call
    rw [hperform]
  unfold registerOperator at h
  split at h
  · cases h
  split at h
  · cases h
  rename_i hform
  split at h
  · cases h
  rename_i hany
  split at h
  · cases h
  rename_i hroom
  cases h
  rw [not_or, not_not, Bool.not_eq_true, Bool.not_eq_false'] at hform
  exact ⟨⟨pubkey, address, bondAmount, some bondUtxo, .active, blockHeight, none, none, none, 0, 0,
      100.0⟩, rfl,
    { wellFormed := hform
      fresh := by simpa using hany
      room := Nat.lt_of_not_le hroom
      active := rfl
      operators := congrArg operators hcall
      register := ⟨address, bondAmount, bondUtxo, blockHeight, rfl⟩ }⟩

/-- A call leaves the operators, changes the one that it finds, or registers another one. -/
theorem operators_call (s : OperatorSet) (c : OperatorCall) :
    (s.call c).operators = s.operators ∨
      (∃ op op', s.getOperator op.pubkey = some op ∧ Changes s.config op c op' ∧
        (s.call c).operators = Keyed.replace Operator.pubkey op' s.operators) ∨
      s.Succeeds c ∧ ∃ op, s.Registers c op := by
  rcases call_cases s c with ⟨-, heq⟩ | ⟨hsucceeds, hstep⟩
  · exact .inl (congrArg operators heq)
  generalize hs' : s.call c = s' at hstep
  cases hstep with
  | register op address bondUtxo blockHeight =>
    obtain ⟨s₁, hs₁⟩ := hsucceeds
    obtain ⟨op', -, hop'⟩ := registers_of_ok hs₁
    exact .inr (.inr ⟨⟨s₁, hs₁⟩, op', hop'⟩)
  | @change _ op op' hfound hchange => exact .inr (.inl ⟨op, op', hfound, hchange, rfl⟩)
  | updateTvl tvl => exact .inl rfl

/-- No operator becomes active again. -/
theorem Changes.active (h : Changes s.config op c op') (hactive : op'.status = .active) :
    op.status = .active := by
  cases h with
  | recordBatch blockHeight stateRoot hbefore => exact hbefore
  | recordMissedBatch => exact hactive
  | _ => cases hactive

theorem OperatorSet.Registers.activeOperators (h : s.Registers c op) :
    (s.call c).activeOperators = s.activeOperators ++ [op] := by
  unfold OperatorSet.activeOperators
  rw [h.operators, List.filter_append, List.filter_singleton, h.active]
  rfl

/-- Only a registration adds the key of an active operator. -/
theorem activeKeys_call (s : OperatorSet) (c : OperatorCall) :
    ((s.call c).activeOperators.map Operator.pubkey).Sublist
        (s.activeOperators.map Operator.pubkey) ∨
      s.Succeeds c ∧ ∃ op, s.Registers c op := by
  rcases operators_call s c with hsame | ⟨op, op', hfound, hchange, hreplaced⟩ | hregisters
  · left
    unfold activeOperators
    rw [hsame]
  · left
    unfold activeOperators
    rw [hreplaced]
    rw [← hchange.pubkey] at hfound
    apply Keyed.map_key_filter_replace _ hfound
    simpa using hchange.active
  · exact .inr hregisters

theorem OperatorSet.Admitted.call (hs : s.Admitted) (c : OperatorCall) : (s.call c).Admitted := by
  have hconfig := call_config s c
  rcases operators_call s c with hsame | ⟨op, op', -, -, hreplaced⟩ | ⟨-, op, hop⟩
  · constructor
    · rw [hsame]
      exact hs.wellFormed
    · rw [hsame, hconfig]
      exact hs.length_le
  · constructor
    · rw [hreplaced, Keyed.map_key_replace]
      exact hs.wellFormed
    · rw [hreplaced, hconfig, Keyed.length_replace]
      exact hs.length_le
  · constructor
    · rw [hop.operators, List.map_append, List.forall_mem_append]
      exact ⟨hs.wellFormed, by simpa using hop.wellFormed⟩
    · rw [hop.operators, hconfig, List.length_append, List.length_singleton]
      exact hop.room

theorem OperatorSet.Admitted.run (hs : s.Admitted) (calls : List OperatorCall) :
    (s.run calls).Admitted := by
  induction calls generalizing s with
  | nil => exact hs
  | cons c calls ih => exact ih (hs.call c)

theorem new_admitted (config : OperatorSetConfig) : (new config).Admitted :=
  ⟨nofun, Nat.zero_le _⟩

/-! ## 3. Quorums -/

/-- No two active operators have the same key. -/
def OperatorSet.ActiveDistinct (s : OperatorSet) : Prop :=
  (s.activeOperators.map Operator.keyBytes).Nodup

/-- The same operators under another threshold, which no operation reads. -/
def OperatorSet.withThreshold (s : OperatorSet) (honestThreshold : UInt32) : OperatorSet :=
  { s with config := { s.config with honestThreshold } }

theorem keyBytes_map (ops : List Operator) :
    ops.map Operator.keyBytes = (ops.map Operator.pubkey).map hexDecode :=
  (List.map_map ..).symm

theorem OperatorSet.Registers.respells (h : s.Registers c op) (hsucceeds : s.Succeeds c)
    (hkey : op.keyBytes ∈ s.activeOperators.map Operator.keyBytes) : s.Respells c := by
  obtain ⟨address, bondAmount, bondUtxo, blockHeight, hc⟩ := h.register
  obtain ⟨b, hb, hbkey⟩ := List.mem_map.mp hkey
  exact ⟨hsucceeds, op.pubkey, address, bondAmount, bondUtxo, blockHeight, hc, b, hb, hbkey⟩

/-- The key that a respelling registers is there twice afterwards. -/
theorem OperatorSet.Respells.twice (h : s.Respells c) : ¬ (s.call c).ActiveDistinct := by
  obtain ⟨⟨s', hs'⟩, pubkey, address, bondAmount, bondUtxo, blockHeight, rfl, b, hb, hkey⟩ := h
  obtain ⟨op, rfl, hop⟩ := registers_of_ok hs'
  unfold ActiveDistinct
  rw [hop.activeOperators, List.map_append, List.nodup_append]
  rintro ⟨-, -, hdisjoint⟩
  exact hdisjoint b.keyBytes (List.mem_map_of_mem hb) op.keyBytes (by simp) hkey

theorem OperatorSet.ActiveDistinct.call (hs : s.ActiveDistinct) (hc : ¬ s.Respells c) :
    (s.call c).ActiveDistinct := by
  rcases activeKeys_call s c with hsub | ⟨hsucceeds, op, hop⟩
  · unfold ActiveDistinct at hs ⊢
    rw [keyBytes_map] at hs ⊢
    exact (hsub.map hexDecode).nodup hs
  · unfold ActiveDistinct
    rw [hop.activeOperators, List.map_append, List.nodup_append]
    refine ⟨hs, List.nodup_singleton _, ?_⟩
    intro key hkey key' hkey' heq
    rw [List.map_singleton, List.mem_singleton] at hkey'
    rw [heq, hkey'] at hkey
    exact hc (hop.respells hsucceeds hkey)

theorem OperatorSet.ActiveDistinct.run {calls : List OperatorCall} (hs : s.ActiveDistinct)
    (hcalls : ∀ before c after, calls = before ++ c :: after → ¬ (s.run before).Respells c) :
    (s.run calls).ActiveDistinct := by
  induction calls generalizing s with
  | nil => exact hs
  | cons c calls ih =>
    apply ih (hs.call (hcalls [] c calls rfl))
    intro before d after heq
    exact hcalls (c :: before) d after (congrArg (c :: ·) heq)

/-- The keys of the active operators are the different keys of a quorum. -/
theorem OperatorSet.ActiveDistinct.quorumDistinct (h : s.ActiveDistinct) (hs : s.Admitted) :
    s.QuorumDistinct := by
  intro hquorum
  have hle : s.config.honestThreshold.toNat ≤ s.activeOperators.length := of_decide_eq_true hquorum
  have hdecodes : ∀ op ∈ s.activeOperators, ∃ key, op.keyBytes = some key ∧ key.length = 33 := by
    intro op hop
    exact (hs.wellFormed op.pubkey (List.mem_map_of_mem (List.mem_of_mem_filter hop))).decodes
  have hkeys : (s.activeOperators.map fun op ↦ op.keyBytes.getD []).map some =
      s.activeOperators.map Operator.keyBytes := by
    rw [List.map_map]
    apply List.map_congr_left
    intro op hop
    obtain ⟨key, hkey, -⟩ := hdecodes op hop
    rw [Function.comp_apply, hkey]
    rfl
  refine ⟨s.activeOperators.map fun op ↦ op.keyBytes.getD [], by rwa [List.length_map], ?_, ?_⟩
  · apply List.Nodup.of_map some
    rw [hkeys]
    exact h
  · intro key hkey
    obtain ⟨op, hop, rfl⟩ := List.mem_map.mp hkey
    obtain ⟨key, hdecode, hlen⟩ := hdecodes op hop
    rw [hdecode]
    exact ⟨hlen, op, hop, hdecode⟩

/-- As many different keys as there are active operators leave none of them twice. -/
theorem activeDistinct_of_keys {keys : List Bytes} (hlen : s.activeOperators.length ≤ keys.length)
    (hnodup : keys.Nodup)
    (hkeys : ∀ key ∈ keys, ∃ op ∈ s.activeOperators, op.keyBytes = some key) :
    s.ActiveDistinct := by
  have hsubset : keys.map some ⊆ s.activeOperators.map Operator.keyBytes := by
    intro key hkey
    obtain ⟨key, hmem, rfl⟩ := List.mem_map.mp hkey
    obtain ⟨op, hop, hdecode⟩ := hkeys key hmem
    exact List.mem_map.mpr ⟨op, hop, hdecode⟩
  have hsome : (keys.map some).Nodup := hnodup.map (Option.some_injective _)
  have hperm := (hsome.subperm hsubset).perm_of_length_le (by simpa using hlen)
  exact hperm.nodup_iff.mp hsome

theorem call_withThreshold (s : OperatorSet) (honestThreshold : UInt32) (c : OperatorCall) :
    (s.withThreshold honestThreshold).call c = (s.call c).withThreshold honestThreshold := by
  have hperform : (s.withThreshold honestThreshold).perform c =
      (s.perform c).map (·.withThreshold honestThreshold) := by
    have hget (pubkey : String) :
        (s.withThreshold honestThreshold).getOperator pubkey = s.getOperator pubkey := rfl
    cases c with
    | register pubkey address bondAmount bondUtxo blockHeight =>
      simp only [perform, registerOperator, apply_ite (Except.map _)]
      rfl
    | unbond pubkey blockHeight =>
      simp only [perform, unbondOperator, hget]
      cases s.getOperator pubkey with
      | none => rfl
      | some op =>
        simp only [apply_ite (Except.map _)]
        rfl
    | exit pubkey blockHeight =>
      simp only [perform, exitOperator, hget]
      cases s.getOperator pubkey with
      | none => rfl
      | some op =>
        obtain ⟨_, _, _, _, _, _, unbondStartedAt, _, _, _, _, _⟩ := op
        cases unbondStartedAt with
        | none =>
          simp only [apply_ite (Except.map _)]
          rfl
        | some started =>
          simp only [apply_ite (Except.map _)]
          rfl
    | slash pubkey =>
      simp only [perform, slashOperator, hget]
      cases s.getOperator pubkey with
      | none => rfl
      | some op =>
        simp only [apply_ite (Except.map _)]
        rfl
    | recordBatch pubkey blockHeight stateRoot =>
      simp only [perform, OperatorSet.recordBatch, hget]
      cases s.getOperator pubkey with
      | none => rfl
      | some op =>
        simp only [apply_ite (Except.map _)]
        rfl
    | recordMissedBatch pubkey =>
      simp only [perform, OperatorSet.recordMissedBatch, hget]
      cases s.getOperator pubkey <;> rfl
    | updateTvl tvl => rfl
  unfold OperatorSet.call
  rw [hperform]
  cases s.perform c <;> rfl

theorem run_withThreshold (s : OperatorSet) (honestThreshold : UInt32)
    (calls : List OperatorCall) :
    (s.withThreshold honestThreshold).run calls =
      (s.run calls).withThreshold honestThreshold := by
  induction calls generalizing s with
  | nil => rfl
  | cons c calls ih =>
    show ((s.withThreshold honestThreshold).call c).run calls = _
    rw [call_withThreshold]
    exact ih (s.call c)

/-- Where the property holds for every threshold, the active operators have different keys. -/
theorem OperatorSet.Admitted.activeDistinct (hs : s.Admitted)
    (h : ∀ honestThreshold, (s.withThreshold honestThreshold).QuorumDistinct) :
    s.ActiveDistinct := by
  -- the threshold that all the active operators together just meet
  have hle : s.activeOperators.length ≤ s.operators.length := List.length_filter_le ..
  have hbound := s.config.maxOperators.toNat_lt
  have hthreshold : (UInt32.ofNat s.activeOperators.length).toNat = s.activeOperators.length :=
    UInt32.toNat_ofNat_of_lt' ((hle.trans hs.length_le).trans_lt hbound)
  have hquorum : (s.withThreshold (.ofNat s.activeOperators.length)).hasQuorum = true :=
    decide_eq_true hthreshold.le
  obtain ⟨keys, hlen, hnodup, hkeys⟩ := h _ hquorum
  exact activeDistinct_of_keys (hthreshold.symm.le.trans hlen) hnodup fun key hkey ↦
    (hkeys key hkey).2

end

/-- **A quorum counts distinct keys** while no registration respells the key of an active operator.
Some threshold makes the difference as soon as one does. -/
theorem quorum_keys_distinct_iff (config : OperatorSetConfig) (calls : List OperatorCall) :
    ((∀ before c after, calls = before ++ c :: after → ¬ ((new config).run before).Respells c) →
      ∀ before after, calls = before ++ after → ((new config).run before).QuorumDistinct) ∧
    ((∀ honestThreshold before after, calls = before ++ after →
        ((new { config with honestThreshold }).run before).QuorumDistinct) ↔
      ∀ before c after, calls = before ++ c :: after →
        ¬ ((new config).run before).Respells c) := by
  have hadmitted (before : List OperatorCall) : ((new config).run before).Admitted :=
    (new_admitted config).run before
  have hdistinct
      (hcalls : ∀ before c after, calls = before ++ c :: after →
        ¬ ((new config).run before).Respells c) (before after : List OperatorCall)
      (heq : calls = before ++ after) : ((new config).run before).ActiveDistinct := by
    have hnew : (new config).ActiveDistinct := List.nodup_nil
    apply hnew.run
    intro earlier c later hbefore
    apply hcalls earlier c (later ++ after)
    rw [heq, hbefore, List.append_assoc, List.cons_append]
  have hrun (honestThreshold : UInt32) (before : List OperatorCall) :
      (new { config with honestThreshold }).run before =
        ((new config).run before).withThreshold honestThreshold :=
    run_withThreshold (new config) honestThreshold before
  refine ⟨fun hcalls before after heq ↦
    (hdistinct hcalls before after heq).quorumDistinct (hadmitted before), ?_, ?_⟩
  · intro hall before c after heq hrespells
    apply hrespells.twice
    rw [← OperatorSet.run_concat]
    apply (hadmitted (before ++ [c])).activeDistinct
    intro honestThreshold
    rw [← hrun]
    apply hall honestThreshold (before ++ [c]) after
    rw [heq, List.append_assoc, List.singleton_append]
  · intro hcalls honestThreshold before after heq
    rw [hrun]
    -- the operators are the same, whatever the threshold
    have hsame := hdistinct hcalls before after heq
    exact OperatorSet.ActiveDistinct.quorumDistinct
      (s := ((new config).run before).withThreshold honestThreshold) hsame
      ⟨(hadmitted before).wellFormed, (hadmitted before).length_le⟩

/-- An operator that has registered a key. -/
def demoRegistered (pubkey : String) (blockHeight : UInt64) : Operator where
  pubkey
  address := "a"
  bondAmount := 100000000
  bondUtxo := some "t:0"
  status := .active
  registeredAt := blockHeight
  unbondStartedAt := none
  lastBatchBlock := none
  lastBatchRoot := none
  totalBatches := 0
  missedBatches := 0
  uptimePct := 100.0

def demoHexKey : String := "02abababababababababababababababababababababababababababababababab"

def demoHexKeyUpper : String := "02ABABABABABABABABABABABABABABABABABABABABABABABABABABABABABABABAB"

/-- One key, and the same key in capitals. -/
def demoRespelled : List OperatorCall :=
  [.register demoHexKey "a" 100000000 "t:0" 100, .register demoHexKeyUpper "a" 100000000 "t:0" 101]

/-- **One key holder is a quorum of two.** -/
theorem respelled_key_fills_quorum :
    ((new {}).run demoRespelled).hasQuorum = true ∧
      ¬ ((new {}).run demoRespelled).QuorumDistinct := by
  have hrun : (new {}).run demoRespelled =
      ⟨{}, [demoRegistered demoHexKey 100, demoRegistered demoHexKeyUpper 101], 200000000, 0⟩ := by
    rfl
  have hupper : hexDecode demoHexKeyUpper = hexDecode demoHexKey := by decide +kernel
  rw [hrun]
  refine ⟨rfl, fun hdistinct ↦ ?_⟩
  obtain ⟨keys, hlen, hnodup, hkeys⟩ := hdistinct rfl
  -- both spellings are of one key
  have hone : keys ⊆ [(hexDecode demoHexKey).getD []] := by
    intro key hkey
    obtain ⟨-, op, hop, hdecode⟩ := hkeys key hkey
    have hsame : op.keyBytes = hexDecode demoHexKey := by
      rcases List.mem_cons.mp (List.mem_of_mem_filter hop) with rfl | hop
      · rfl
      · rw [List.mem_singleton.mp hop]
        exact hupper
    rw [← hsame, hdecode]
    exact List.mem_singleton_self _
  have hle : keys.length ≤ 1 := (hnodup.subperm hone).length_le
  exact absurd (hlen.trans hle) (by decide)

end UtxoVm
