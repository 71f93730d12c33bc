import UtxoVm.Consensus.Timelocks

/-!
# L1 outputs

What the outputs that the node builds for L1 commit to: the address of a vault and of a challenge
fixes their leaves, and the data outputs can be read back.
-/

namespace UtxoVm

open RustStd ScriptNum

/-! ## 1. A script tree fixes its leaves -/

/-- How many bytes follow the first byte of a compact size. -/
def compactRest (first : UInt8) : Nat :=
  if first.toNat < 0xfd then 0 else if first = 0xfd then 2 else if first = 0xfe then 4 else 8

theorem pushSizeCompact_cases (len : Nat) :
    ∃ first rest, pushSizeCompact len = first :: rest ∧ rest.length = compactRest first := by
  unfold pushSizeCompact
  split
  · rename_i hlen
    refine ⟨_, _, rfl, ?_⟩
    unfold compactRest
    rw [UInt8.toNat_ofNat', if_pos (by omega)]
    rfl
  split
  · exact ⟨_, _, rfl, leBytes_length ..⟩
  split
  · exact ⟨_, _, rfl, leBytes_length ..⟩
  · exact ⟨_, _, rfl, leBytes_length ..⟩

/-- A compact size ends by itself. -/
theorem pushSizeCompact_append {len len' : Nat} {a a' : Bytes}
    (h : pushSizeCompact len ++ a = pushSizeCompact len' ++ a') : a = a' := by
  obtain ⟨first, rest, hsize, hrest⟩ := pushSizeCompact_cases len
  obtain ⟨first', rest', hsize', hrest'⟩ := pushSizeCompact_cases len'
  rw [hsize, hsize', List.cons_append, List.cons_append] at h
  obtain ⟨hfirst, h⟩ := List.cons.inj h
  rw [← hfirst] at hrest'
  exact (List.append_inj h (hrest.trans hrest'.symm)).2

variable (X : Crates)

/-- What is hashed for a tagged hash, the tag apart. -/
def taggedInput (tag : String) (data : Bytes) : Bytes :=
  (X.sha256 (asBytes tag)).toList ++ (X.sha256 (asBytes tag)).toList ++ data

def tapleafInput (script : Bytes) : Bytes :=
  taggedInput X "TapLeaf" (taprootLeafVersion :: pushSizeCompact script.length ++ script)

def tapbranchInput (left right : Bytes) : Bytes :=
  taggedInput X "TapBranch" (if left < right then left ++ right else right ++ left)

def taptweakInput (merkleRoot : Bytes) : Bytes :=
  taggedInput X "TapTweak" (List.replicate 32 0 ++ merkleRoot)

/-- What is hashed for the address of a tree of two leaves. -/
def addressInputs (left right : Bytes) : List Bytes :=
  [tapleafInput X left, tapleafInput X right,
    tapbranchInput X (tapleafHash X left) (tapleafHash X right),
    taptweakInput X (scriptTreeRoot X left right)]

/-- SHA-256 has no collision among these inputs. -/
def CollisionFreeOn (inputs : List Bytes) : Prop :=
  ∀ a ∈ inputs, ∀ b ∈ inputs, X.sha256 a = X.sha256 b → a = b

def treeAddress (left right : Bytes) : Bytes := p2trOutputScript X (scriptTreeRoot X left right)

variable {X} {left right left' right' : Bytes}

theorem taggedInput_inj {tag : String} {data data' : Bytes}
    (h : taggedInput X tag data = taggedInput X tag data') : data = data' :=
  List.append_cancel_left h

theorem toList_inj {v w : Hash} (h : v.toList = w.toList) : v = w := Vector.toList_inj.mp h

theorem tapleafInput_inj (h : tapleafInput X left = tapleafInput X left') : left = left' := by
  have hdata := taggedInput_inj h
  exact pushSizeCompact_append (List.cons.inj hdata).2

/-- The two hashes of a branch, in the order of their values. -/
theorem branch_inj {a b a' b' : Bytes} (ha : a.length = 32) (hb : b.length = 32)
    (ha' : a'.length = 32) (hb' : b'.length = 32)
    (h : (if a < b then a ++ b else b ++ a) = if a' < b' then a' ++ b' else b' ++ a') :
    (a = a' ∧ b = b') ∨ (a = b' ∧ b = a') := by
  split at h <;> split at h
  · exact .inl (List.append_inj h (ha.trans ha'.symm))
  · exact .inr (List.append_inj h (ha.trans hb'.symm))
  · obtain ⟨hba, hab⟩ := List.append_inj h (hb.trans ha'.symm)
    exact .inr ⟨hab, hba⟩
  · obtain ⟨hbb, haa⟩ := List.append_inj h (hb.trans hb'.symm)
    exact .inl ⟨haa, hbb⟩

/-- Trees of one address have the same leaves. -/
theorem treeAddress_inj
    (hfree : CollisionFreeOn X (addressInputs X left right ++ addressInputs X left' right'))
    (h : treeAddress X left right = treeAddress X left' right') :
    (left = left' ∧ right = right') ∨ (left = right' ∧ right = left') := by
  have hlength (script : Bytes) : (tapleafHash X script).length = 32 := Vector.length_toList ..
  have hleft {input : Bytes} (h : input ∈ addressInputs X left right) :
      input ∈ addressInputs X left right ++ addressInputs X left' right' :=
    List.mem_append_left _ h
  have hright {input : Bytes} (h : input ∈ addressInputs X left' right') :
      input ∈ addressInputs X left right ++ addressInputs X left' right' :=
    List.mem_append_right _ h
  -- the tweak, the root, the branch and the leaves, each by the hash
  have htweak : taptweakInput X (scriptTreeRoot X left right) =
      taptweakInput X (scriptTreeRoot X left' right') := by
    apply hfree _ (hleft (by simp [addressInputs])) _ (hright (by simp [addressInputs]))
    have htake := (List.cons.inj (List.cons.inj h).2).2
    have hwhole (v : Hash) : v.toList.take 32 = v.toList :=
      List.take_of_length_le (Vector.length_toList ..).le
    exact toList_inj ((hwhole _).symm.trans (htake.trans (hwhole _)))
  have hroot : scriptTreeRoot X left right = scriptTreeRoot X left' right' :=
    List.append_cancel_left (taggedInput_inj htweak)
  have hbranch : tapbranchInput X (tapleafHash X left) (tapleafHash X right) =
      tapbranchInput X (tapleafHash X left') (tapleafHash X right') := by
    apply hfree _ (hleft (by simp [addressInputs])) _ (hright (by simp [addressInputs]))
    exact toList_inj hroot
  have hleaf {script script' : Bytes}
      (hscript : tapleafInput X script ∈ addressInputs X left right)
      (hscript' : tapleafInput X script' ∈ addressInputs X left' right')
      (hhash : tapleafHash X script = tapleafHash X script') : script = script' := by
    apply tapleafInput_inj
    apply hfree _ (hleft hscript) _ (hright hscript')
    exact toList_inj hhash
  have hfirst (l r : Bytes) : tapleafInput X l ∈ addressInputs X l r := by simp [addressInputs]
  have hsecond (l r : Bytes) : tapleafInput X r ∈ addressInputs X l r := by simp [addressInputs]
  rcases branch_inj (hlength _) (hlength _) (hlength _) (hlength _) (taggedInput_inj hbranch) with
    ⟨hl, hr⟩ | ⟨hl, hr⟩
  · exact .inl ⟨hleaf (hfirst ..) (hfirst ..) hl, hleaf (hsecond ..) (hsecond ..) hr⟩
  · exact .inr ⟨hleaf (hfirst ..) (hsecond ..) hl, hleaf (hsecond ..) (hfirst ..) hr⟩

/-! ## 2. What an address fixes of a configuration -/

theorem leValue_delayElement {delay : Nat} (hdelay : delay < 2 ^ 32) :
    leValue (delayElement delay) = delay := by
  unfold delayElement
  split
  · rename_i hzero
    rw [hzero]
    rfl
  split
  · exact leValue_leBytes (w := 1) (by omega)
  split
  · exact leValue_leBytes (w := 1) (by omega)
  split
  · exact leValue_leBytes (w := 2) (by omega)
  split
  · exact leValue_leBytes (w := 3) (by omega)
  · exact leValue_leBytes (w := 4) (by omega)

theorem timelockLeaf_inj {delay delay' : UInt32} {key key' : Bytes} (hkey : key.length = 32)
    (hkey' : key'.length = 32) (h : timelockLeaf delay key = timelockLeaf delay' key') :
    key = key' ∧ delay = delay' := by
  have hdecode := decode_timelockLeaf delay hkey
  rw [h, decode_timelockLeaf delay' hkey'] at hdecode
  unfold timelockOps at hdecode
  simp only [Option.some.injEq, List.cons.injEq, Op.push.injEq, true_and, and_true] at hdecode
  obtain ⟨hdelay, hsame⟩ := hdecode
  refine ⟨hsame.symm, UInt32.toNat_inj.mp ?_⟩
  rw [← leValue_delayElement delay.toNat_lt, ← hdelay, leValue_delayElement delay'.toNat_lt]

/-- The first byte of a timelocked leaf belongs to a push of a number. -/
theorem timelockLeaf_head (delay : UInt32) (key : Bytes) :
    ∃ first rest, timelockLeaf delay key = first :: rest ∧ first ≠ 32 ∧ first ≠ opToAltStack := by
  unfold timelockLeaf pushMinimalUint
  split
  · exact ⟨_, _, rfl, by decide, by decide⟩
  split
  · rename_i hzero hsmall
    generalize delay.toNat = n at hzero hsmall
    refine ⟨_, _, rfl, ?_, ?_⟩ <;> interval_cases n <;> simp_all <;> decide
  split
  · exact ⟨_, _, rfl, by decide, by decide⟩
  split
  · exact ⟨_, _, rfl, by decide, by decide⟩
  split
  · exact ⟨_, _, rfl, by decide, by decide⟩
  · exact ⟨_, _, rfl, by decide, by decide⟩

theorem vaultTree_leaves {config : VaultConfig} {tree : VaultScriptTree}
    (h : buildVaultScriptTree config = .ok tree) :
    config.operatorPubkey.length = 32 ∧
      tree.operatorLeaf = timelockLeaf config.unbondDelay config.operatorPubkey ∧
      buildEquivocationCovenant config.operatorPubkey = .ok tree.challengeLeaf := by
  unfold buildVaultScriptTree buildOperatorUnbondLeaf at h
  by_cases hoperator : config.operatorPubkey.length ≠ 32
  · rw [if_pos hoperator] at h
    cases h
  by_cases hchallenger : config.challengerPubkey.length ≠ 32
  · rw [if_neg hoperator, if_pos hchallenger] at h
    cases h
  rw [if_neg hoperator, if_neg hchallenger, if_neg hoperator] at h
  refine ⟨not_not.mp hoperator, ?_⟩
  cases hcovenant : buildEquivocationCovenant config.operatorPubkey with
  | error text =>
    rw [hcovenant] at h
    cases h
  | ok leaf =>
    rw [hcovenant] at h
    cases h
    exact ⟨rfl, rfl⟩

theorem challengeTree_leaves {config : ChallengeUtxoConfig}
    {tree : ChallengeScriptTree} (h : buildChallengeClaimScriptTree config = .ok tree) :
    config.challengerPubkey.length = 32 ∧ config.operatorPubkey.length = 32 ∧
      tree.claimLeaf = timelockLeaf config.claimDelay config.challengerPubkey ∧
      tree.rebutLeaf = 32 :: config.operatorPubkey ++ [opCheckSig] := by
  unfold buildChallengeClaimScriptTree at h
  by_cases hchallenger : config.challengerPubkey.length ≠ 32
  · rw [if_pos hchallenger] at h
    cases h
  by_cases hoperator : config.operatorPubkey.length ≠ 32
  · rw [if_neg hchallenger, if_pos hoperator] at h
    cases h
  rw [if_neg hchallenger, if_neg hoperator] at h
  cases h
  exact ⟨not_not.mp hchallenger, not_not.mp hoperator, rfl, rfl⟩

/-- The covenant begins by moving the witness to the other stack. -/
theorem covenant_head {key leaf : Bytes} (h : buildEquivocationCovenant key = .ok leaf) :
    ∃ rest, leaf = opToAltStack :: rest := by
  unfold buildEquivocationCovenant at h
  split at h
  · cases h
  · cases h
    exact ⟨_, rfl⟩

theorem timelockLeaf_ne_covenant {delay : UInt32} {key key' leaf : Bytes}
    (h : buildEquivocationCovenant key' = .ok leaf) : timelockLeaf delay key ≠ leaf := by
  obtain ⟨first, rest, hleaf, -, hne⟩ := timelockLeaf_head delay key
  obtain ⟨rest', rfl⟩ := covenant_head h
  rw [hleaf]
  exact fun heq ↦ hne (List.cons.inj heq).1

theorem timelockLeaf_ne_rebut {delay : UInt32} {key key' : Bytes} :
    timelockLeaf delay key ≠ 32 :: key' ++ [opCheckSig] := by
  obtain ⟨first, rest, hleaf, hne, -⟩ := timelockLeaf_head delay key
  rw [hleaf]
  exact fun heq ↦ hne (List.cons.inj heq).1

/-- What a bond is locked by: the vault, or the challenge that it is moved to. -/
inductive Bond where
  | vault (config : VaultConfig)
  | challenge (config : ChallengeUtxoConfig)

namespace Bond

/-- The two leaves of the script tree. -/
def leaves : Bond → Except String (Bytes × Bytes)
  | vault config => do
      let tree ← buildVaultScriptTree config
      return (tree.operatorLeaf, tree.challengeLeaf)
  | challenge config => do
      let tree ← buildChallengeClaimScriptTree config
      return (tree.claimLeaf, tree.rebutLeaf)

end Bond

/-- What the address of a bond says. -/
inductive Commitment where
  | vault (operatorPubkey : Bytes) (unbondDelay : UInt32)
  | challenge (challengerPubkey operatorPubkey : Bytes) (claimDelay : UInt32)

/-- A vault says nothing of the challenger, nor of the delay of a claim. -/
def Bond.commitment : Bond → Commitment
  | vault config => .vault config.operatorPubkey config.unbondDelay
  | challenge config =>
      .challenge config.challengerPubkey config.operatorPubkey config.claimDelay

theorem Bond.leaves_vault {config : VaultConfig} (h : (vault config).leaves = .ok (left, right)) :
    config.operatorPubkey.length = 32 ∧
      left = timelockLeaf config.unbondDelay config.operatorPubkey ∧
      buildEquivocationCovenant config.operatorPubkey = .ok right := by
  unfold leaves at h
  dsimp only at h
  cases htree : buildVaultScriptTree config with
  | error text =>
    rw [htree] at h
    cases h
  | ok tree =>
    rw [htree] at h
    cases h
    exact vaultTree_leaves htree

theorem Bond.leaves_challenge {config : ChallengeUtxoConfig}
    (h : (challenge config).leaves = .ok (left, right)) :
    config.challengerPubkey.length = 32 ∧ config.operatorPubkey.length = 32 ∧
      left = timelockLeaf config.claimDelay config.challengerPubkey ∧
      right = 32 :: config.operatorPubkey ++ [opCheckSig] := by
  unfold leaves at h
  dsimp only at h
  cases htree : buildChallengeClaimScriptTree config with
  | error text =>
    rw [htree] at h
    cases h
  | ok tree =>
    rw [htree] at h
    cases h
    exact challengeTree_leaves htree

/-- What is committed to fixes the leaves. -/
theorem Bond.leaves_congr {b b' : Bond} (h : b.leaves = .ok (left, right))
    (h' : b'.leaves = .ok (left', right')) (hsame : b.commitment = b'.commitment) :
    left = left' ∧ right = right' := by
  cases b with
  | vault config =>
    cases b' with
    | challenge config' => cases hsame
    | vault config' =>
      obtain ⟨hoperator, hdelay⟩ := Commitment.vault.inj hsame
      obtain ⟨-, rfl, hcovenant⟩ := leaves_vault h
      obtain ⟨-, rfl, hcovenant'⟩ := leaves_vault h'
      rw [hoperator, hcovenant'] at hcovenant
      rw [hoperator, hdelay, Except.ok.inj hcovenant]
      exact ⟨rfl, rfl⟩
  | challenge config =>
    cases b' with
    | vault config' => cases hsame
    | challenge config' =>
      obtain ⟨hchallenger, hoperator, hdelay⟩ := Commitment.challenge.inj hsame
      obtain ⟨-, -, rfl, rfl⟩ := leaves_challenge h
      obtain ⟨-, -, rfl, rfl⟩ := leaves_challenge h'
      rw [hchallenger, hoperator, hdelay]
      exact ⟨rfl, rfl⟩

/-- The leaves fix what is committed to, in either order: no leaf of one kind is one of another. -/
theorem Bond.commitment_congr {b b' : Bond} (h : b.leaves = .ok (left, right))
    (h' : b'.leaves = .ok (left', right'))
    (hsame : (left = left' ∧ right = right') ∨ (left = right' ∧ right = left')) :
    b.commitment = b'.commitment := by
  cases b with
  | vault config =>
    obtain ⟨hkey, rfl, hcovenant⟩ := leaves_vault h
    cases b' with
    | vault config' =>
      obtain ⟨hkey', rfl, hcovenant'⟩ := leaves_vault h'
      rcases hsame with ⟨hleaf, -⟩ | ⟨hcross, -⟩
      · obtain ⟨hoperator, hdelay⟩ := timelockLeaf_inj hkey hkey' hleaf
        show Commitment.vault _ _ = Commitment.vault _ _
        rw [hoperator, hdelay]
      · exact absurd hcross (timelockLeaf_ne_covenant hcovenant')
    | challenge config' =>
      obtain ⟨-, -, rfl, rfl⟩ := leaves_challenge h'
      rcases hsame with ⟨-, hright⟩ | ⟨hcross, -⟩
      · obtain ⟨rest, hhead⟩ := covenant_head hcovenant
        rw [hhead] at hright
        exact absurd (List.cons.inj hright).1 (by decide)
      · exact absurd hcross timelockLeaf_ne_rebut
  | challenge config =>
    obtain ⟨hkey, -, rfl, rfl⟩ := leaves_challenge h
    cases b' with
    | vault config' =>
      obtain ⟨-, rfl, hcovenant'⟩ := leaves_vault h'
      rcases hsame with ⟨-, hright⟩ | ⟨-, hcross⟩
      · obtain ⟨rest, hhead⟩ := covenant_head hcovenant'
        rw [hhead] at hright
        exact absurd (List.cons.inj hright).1 (by decide)
      · exact absurd hcross.symm timelockLeaf_ne_rebut
    | challenge config' =>
      obtain ⟨hkey', -, rfl, rfl⟩ := leaves_challenge h'
      rcases hsame with ⟨hleaf, hright⟩ | ⟨hcross, -⟩
      · obtain ⟨hchallenger, hdelay⟩ := timelockLeaf_inj hkey hkey' hleaf
        have hoperator := List.append_cancel_right (List.cons.inj hright).2
        show Commitment.challenge _ _ _ = Commitment.challenge _ _ _
        rw [hchallenger, hdelay, hoperator]
      · exact absurd hcross timelockLeaf_ne_rebut

/-- **What the address of a bond commits to.**  Two bonds have the same address exactly when they
commit to the same: a vault to the operator's key and the delay of the exit, a challenge to both
keys and the delay of the claim, and no vault has the address of a challenge. -/
theorem bond_address_iff {b b' : Bond} (h : b.leaves = .ok (left, right))
    (h' : b'.leaves = .ok (left', right'))
    (hfree : CollisionFreeOn X (addressInputs X left right ++ addressInputs X left' right')) :
    treeAddress X left right = treeAddress X left' right' ↔ b.commitment = b'.commitment := by
  constructor
  · exact fun hsame ↦ Bond.commitment_congr h h' (treeAddress_inj hfree hsame)
  · intro hsame
    obtain ⟨rfl, rfl⟩ := Bond.leaves_congr h h' hsame
    rfl

/-- A hash that tells the demo inputs apart: their length, their sum and their last byte. -/
def demoAddressCrates : Crates :=
  { demoCrates with
    sha256 := fun message ↦
      ((Vector.replicate 32 0).set 0 (UInt8.ofNat message.length)).set 1
        (message.foldl (fun acc b ↦ 3 * acc + b) 1) }

def demoVault (unbondDelay : UInt32) : Bond :=
  .vault
    { operatorPubkey := List.replicate 32 2
      challengerPubkey := List.replicate 32 3
      unbondDelay
      claimDelay := 144 }

/-- Another delay of the exit is another address. -/
theorem bond_address_iff_delay : ∃ left right left' right',
    (demoVault 1008).leaves = .ok (left, right) ∧ (demoVault 144).leaves = .ok (left', right') ∧
      treeAddress demoAddressCrates left right ≠ treeAddress demoAddressCrates left' right' := by
  have hweek : (demoVault 1008).leaves = .ok (_, _) := rfl
  have hday : (demoVault 144).leaves = .ok (_, _) := rfl
  refine ⟨_, _, _, _, hweek, hday, fun h ↦ ?_⟩
  have hsame := (bond_address_iff hweek hday (by unfold CollisionFreeOn; decide +kernel)).mp h
  exact absurd (Commitment.vault.inj hsame).2 (by decide)

end UtxoVm
