import UtxoVm.Consensus.AttestationRun
import UtxoVm.Consensus.L1Scripts

/-!
# Challenges (`consensus/challenge.rs` and the fraud watch of `main.rs`)

An equivocation proof becomes a transaction that spends the bond of the operator.  The fraud watch
does not hand on the proofs that it has verified: it makes new ones, without signatures.
-/

namespace UtxoVm

open RustStd ScriptNum ConsensusManager

structure ChallengeInput where
  bondTxid : String
  bondVout : UInt32
  bondAmount : Nat

structure ChallengeOutput where
  scriptPubkey : Bytes
  amount : Nat

structure ChallengeEvidence where
  claimedRoot : Bytes
  correctRoot : Bytes
  operatorPubkey : Bytes
  chain : String
  blockHeight : Nat

structure ChallengeTransaction where
  rawHex : String
  challengeOutput : ChallengeOutput
  evidenceOutput : Bytes
  fee : Nat

inductive ChallengeError where
  | message (text : String)
  /-- The text goes on with the error of `hex::decode`. -/
  | hex (text : String)
  deriving DecidableEq, Repr

/-! ## 1. The transaction -/

/-- The outcome of a script builder, whose errors are texts. -/
def ofScript {α : Type} (result : Except String α) : Except ChallengeError α :=
  result.mapError .message

def decodeHex (context text : String) : Except ChallengeError Bytes :=
  match hexDecode text with
  | some bytes => .ok bytes
  | none => .error (.hex context)

def buildEvidenceOutput (evidence : ChallengeEvidence) : Except ChallengeError Bytes :=
  let tag := asBytes "utxovm:challenge"
  let chainBytes := asBytes evidence.chain
  if evidence.claimedRoot.length ≠ 32 then .error (.message "claimed_root must be 32 bytes")
  else if evidence.correctRoot.length ≠ 32 then .error (.message "correct_root must be 32 bytes")
  else if evidence.operatorPubkey.length ≠ 32 then
    .error (.message "operator_pubkey must be 32 bytes (x-only, BIP-340)")
  else if 64 < chainBytes.length then .error (.message "chain name too long (max 64 bytes)")
  else
    .ok (opReturn :: UInt8.ofNat tag.length :: tag ++
      0x20 :: evidence.claimedRoot ++ 0x20 :: evidence.correctRoot ++
      0x20 :: evidence.operatorPubkey ++ UInt8.ofNat chainBytes.length :: chainBytes ++
      0x08 :: leBytes 8 evidence.blockHeight)

/-- Pad with zeros or truncate to 32 bytes. -/
def padTo32 (data : Bytes) : Bytes := (data ++ List.replicate (32 - data.length) 0).take 32

def serializeChallengeTx (input : ChallengeInput) (challengeScript : Bytes) (challengeAmount : Nat)
    (evidenceScript : Bytes) (witness : List Bytes) : Except ChallengeError String := do
  let txidBytes ← decodeHex "Invalid bond txid hex: " input.bondTxid
  if txidBytes.length ≠ 32 then
    throw (.message ("Bond txid must be 32 bytes, got " ++ toString txidBytes.length))
  let version := leBytes 4 2
  let txIn := txidBytes.reverse ++ leBytes 4 input.bondVout.toNat ++ 0 :: leBytes 4 0xFFFFFFFD
  let output (amount : Nat) (script : Bytes) : Bytes :=
    leBytes 8 amount ++ UInt8.ofNat script.length :: script
  let items := witness.flatMap fun item ↦ UInt8.ofNat item.length :: item
  return hexEncode (version ++ 1 :: txIn ++ 2 :: output challengeAmount challengeScript ++
    output 0 evidenceScript ++ UInt8.ofNat witness.length :: items ++ leBytes 4 0)

variable (X : Crates)

/-- The bytes of a hex root, or the hash of any other text. -/
def decodeOrHash (s : String) : Bytes :=
  match hexDecode s with
  | some bytes => padTo32 bytes
  | none => (X.sha256 (asBytes s)).toList

def buildChallengeTransaction (proof : EquivocationProof) (input : ChallengeInput)
    (vaultConfig : VaultConfig) (minerFee : Nat) :
    Except ChallengeError ChallengeTransaction := do
  if !verifyEquivocationProof X proof then
    throw (.message
      "Equivocation proof failed cryptographic verification — cannot build challenge tx")
  let vaultTree ← ofScript (buildVaultScriptTree vaultConfig)
  let challengeTree ← ofScript (buildChallengeClaimScriptTree
    { challengerPubkey := vaultConfig.challengerPubkey
      operatorPubkey := vaultConfig.operatorPubkey
      claimDelay := vaultConfig.claimDelay })
  let challengeScript :=
    p2trOutputScript X (scriptTreeRoot X challengeTree.claimLeaf challengeTree.rebutLeaf)
  let operatorPubkey ← decodeHex "Invalid operator pubkey hex: " proof.validatorPubkey
  let first := proof.firstAttestation
  let second := proof.secondAttestation
  let claimedRoot := padTo32 (decodeOrHash X first.stateRoot)
  let correctRoot := padTo32 (decodeOrHash X second.stateRoot)
  let evidenceOutput ← buildEvidenceOutput
    { claimedRoot, correctRoot, operatorPubkey
      chain := proof.chain
      blockHeight := proof.blockHeight }
  if input.bondAmount < minerFee then
    throw (.message ("Bond amount (" ++ toString input.bondAmount ++ ") < miner fee (" ++
      toString minerFee ++ ") — nothing to challenge for"))
  let challengeAmount := input.bondAmount - minerFee
  let sig1 ← decodeHex "Invalid sig_1 hex: " first.signatureHex
  let sig2 ← decodeHex "Invalid sig_2 hex: " second.signatureHex
  let witness := buildEquivocationWitness claimedRoot correctRoot proof.chain proof.blockHeight
    first.blockHash first.stateRoot sig1 second.blockHash second.stateRoot sig2
    vaultTree.challengeLeaf
  let rawHex ← serializeChallengeTx input challengeScript challengeAmount evidenceOutput witness
  pure
    { rawHex
      challengeOutput := { scriptPubkey := challengeScript, amount := challengeAmount }
      evidenceOutput
      fee := minerFee }

/-! ## 2. The fraud watch -/

structure FraudWatchConfig where
  vaultConfig : VaultConfig
  bondInput : ChallengeInput
  minerFee : Nat

/-- The proof that `maybe_broadcast_challenge` makes: no block hash and no signature. -/
def placeholderProof (chain : String) (height : Nat)
    (operatorPubkey claimedRoot correctRoot : String) (now detectedAt : Int) : EquivocationProof :=
  let placeholderAtt : StateAttestation :=
    { chain, blockHeight := height
      blockHash := ""
      stateRoot := claimedRoot
      validatorPubkey := operatorPubkey
      signatureHex := ""
      timestamp := now }
  { chain, blockHeight := height, validatorPubkey := operatorPubkey
    firstAttestation := placeholderAtt
    secondAttestation := { placeholderAtt with stateRoot := correctRoot }
    detectedAt }

/-- What is built, and then broadcast; `none` without a vault configuration. -/
def maybeBroadcastChallenge (fwCfg : Option FraudWatchConfig) (chain : String) (height : Nat)
    (operatorPubkey claimedRoot correctRoot : String) (now : Int) :
    Option (Except ChallengeError ChallengeTransaction) :=
  fwCfg.map fun cfg ↦
    buildChallengeTransaction X
      (placeholderProof chain height operatorPubkey claimedRoot correctRoot now now)
      cfg.bondInput cfg.vaultConfig cfg.minerFee

/-- One pass, as the list of its attempts.  `known` are the keys of the table of attestations. -/
def runFraudWatchPass (consensus : ConsensusManager) (fwCfg : Option FraudWatchConfig)
    (trigger : Option StateAttestation) (known : List (String × Nat)) (now : Int) :
    List (Option (Except ChallengeError ChallengeTransaction)) :=
  let keys :=
    match trigger with
    | some att => [(att.chain, att.blockHeight)]
    | none => known
  let divergences := keys.flatMap fun (chain, height) ↦
    match consensus.buildQuorumResult X chain height with
    | none => []
    | some quorum =>
        (consensus.getAttestations chain height).filterMap (detectDivergence · quorum now)
  let verified := consensus.slashingProofs.filter (verifyEquivocationProof X)
  divergences.map (fun div ↦
      maybeBroadcastChallenge X fwCfg div.chain div.blockHeight
        div.operatorAttestation.validatorPubkey div.operatorAttestation.stateRoot
        div.quorumResultRoot now) ++
    verified.map fun proof ↦
      maybeBroadcastChallenge X fwCfg proof.chain proof.blockHeight proof.validatorPubkey
        proof.firstAttestation.stateRoot proof.secondAttestation.stateRoot now

/-! ## 3. What the builder needs -/

variable {X} {proof : EquivocationProof} {input : ChallengeInput} {vaultConfig : VaultConfig}
  {minerFee : Nat}

/-- An unverified proof fails in the first step. -/
theorem buildChallengeTransaction_unverified (h : verifyEquivocationProof X proof = false) :
    buildChallengeTransaction X proof input vaultConfig minerFee = .error (.message
      "Equivocation proof failed cryptographic verification — cannot build challenge tx") := by
  unfold buildChallengeTransaction
  rw [h]
  rfl

theorem padTo32_length (data : Bytes) : (padTo32 data).length = 32 := by
  unfold padTo32
  simp
  omega

theorem buildVaultScriptTree_ok (hoperator : vaultConfig.operatorPubkey.length = 32)
    (hchallenger : vaultConfig.challengerPubkey.length = 32) :
    ∃ tree, buildVaultScriptTree vaultConfig = .ok tree := by
  unfold buildVaultScriptTree buildOperatorUnbondLeaf buildEquivocationCovenant
  simp only [hoperator, hchallenger]
  exact ⟨_, rfl⟩

theorem buildChallengeClaimScriptTree_ok (config : ChallengeUtxoConfig)
    (hoperator : config.operatorPubkey.length = 32)
    (hchallenger : config.challengerPubkey.length = 32) :
    ∃ tree, buildChallengeClaimScriptTree config = .ok tree := by
  unfold buildChallengeClaimScriptTree
  simp only [hoperator, hchallenger]
  exact ⟨_, rfl⟩

theorem buildEvidenceOutput_ok (evidence : ChallengeEvidence)
    (hclaimed : evidence.claimedRoot.length = 32) (hcorrect : evidence.correctRoot.length = 32)
    (hoperator : evidence.operatorPubkey.length = 32)
    (hchain : (asBytes evidence.chain).length ≤ 64) :
    ∃ script, buildEvidenceOutput evidence = .ok script := by
  unfold buildEvidenceOutput
  simp only [hclaimed, hcorrect, hoperator, not_lt.mpr hchain]
  exact ⟨_, rfl⟩

theorem serializeChallengeTx_ok {txid : Bytes} (htxid : hexDecode input.bondTxid = some txid)
    (hlength : txid.length = 32) (challengeScript : Bytes) (amount : Nat) (evidenceScript : Bytes)
    (witness : List Bytes) :
    ∃ rawHex, serializeChallengeTx input challengeScript amount evidenceScript witness =
      .ok rawHex := by
  unfold serializeChallengeTx decodeHex
  rw [htxid]
  simp only [bind, Except.bind, hlength]
  exact ⟨_, rfl⟩

/-- A signature that has been checked is hex text. -/
theorem verifyAttestationSig_decodes {pubkeyHex : String} {att : StateAttestation}
    (h : verifyAttestationSig X pubkeyHex att = true) :
    ∃ sig, hexDecode att.signatureHex = some sig := by
  unfold verifyAttestationSig at h
  cases hsig : hexDecode att.signatureHex with
  | none => split at h <;> simp [hsig] at h
  | some sig => exact ⟨sig, rfl⟩

/-- A verified proof builds, if the keys have their lengths, the chain fits, the bond pays the fee
and its txid is one. -/
theorem buildChallengeTransaction_verified (hverified : verifyEquivocationProof X proof = true)
    (hoperator : vaultConfig.operatorPubkey.length = 32)
    (hchallenger : vaultConfig.challengerPubkey.length = 32) {validator : Bytes}
    (hvalidator : hexDecode proof.validatorPubkey = some validator)
    (hlength : validator.length = 32) (hchain : (asBytes proof.chain).length ≤ 64)
    (hfee : minerFee ≤ input.bondAmount) {txid : Bytes}
    (htxid : hexDecode input.bondTxid = some txid) (htxidLength : txid.length = 32) :
    ∃ tx, buildChallengeTransaction X proof input vaultConfig minerFee = .ok tx := by
  obtain ⟨-, -, -, hfirst, hsecond⟩ := verifyEquivocationProof_iff.mp hverified
  obtain ⟨sig1, hsig1⟩ := verifyAttestationSig_decodes hfirst
  obtain ⟨sig2, hsig2⟩ := verifyAttestationSig_decodes hsecond
  obtain ⟨vaultTree, hvault⟩ := buildVaultScriptTree_ok hoperator hchallenger
  obtain ⟨challengeTree, hchallenge⟩ := buildChallengeClaimScriptTree_ok
    ⟨vaultConfig.challengerPubkey, vaultConfig.operatorPubkey, vaultConfig.claimDelay⟩
    hoperator hchallenger
  obtain ⟨evidenceOutput, hevidence⟩ := buildEvidenceOutput_ok
    ⟨padTo32 (decodeOrHash X proof.firstAttestation.stateRoot),
      padTo32 (decodeOrHash X proof.secondAttestation.stateRoot), validator, proof.chain,
      proof.blockHeight⟩
    (padTo32_length _) (padTo32_length _) hlength hchain
  have hraw (script : Bytes) (amount : Nat) (witness : List Bytes) :=
    serializeChallengeTx_ok htxid htxidLength script amount evidenceOutput witness
  unfold buildChallengeTransaction
  simp only [hverified, ofScript, hvault, hchallenge, decodeHex, hvalidator, hsig1, hsig2,
    hevidence, Except.mapError, bind, Except.bind, not_lt.mpr hfee, Bool.not_true,
    Bool.false_eq_true, if_false]
  obtain ⟨rawHex, hrawHex⟩ := hraw _ _ _
  rw [hrawHex]
  exact ⟨_, rfl⟩

/-! ## 4. The fraud watch never slashes -/

/-- The signature of a placeholder has no bytes, so that it is none. -/
theorem verifyEquivocationProof_placeholder (X : Crates) (chain : String) (height : Nat)
    (operatorPubkey claimedRoot correctRoot : String) (now detectedAt : Int) :
    verifyEquivocationProof X
      (placeholderProof chain height operatorPubkey claimedRoot correctRoot now detectedAt) =
        false := by
  rw [Bool.eq_false_iff]
  intro h
  obtain ⟨-, -, -, hsig, -⟩ := verifyEquivocationProof_iff.mp h
  have hempty : hexDecode "" = some [] := rfl
  unfold verifyAttestationSig placeholderProof at hsig
  dsimp only at hsig
  rw [hempty] at hsig
  split at hsig <;> simp at hsig

theorem maybeBroadcastChallenge_fails (cfg : FraudWatchConfig) (chain : String) (height : Nat)
    (operatorPubkey claimedRoot correctRoot : String) (now : Int) :
    maybeBroadcastChallenge X (some cfg) chain height operatorPubkey claimedRoot correctRoot now =
      some (.error (.message
        "Equivocation proof failed cryptographic verification — cannot build challenge tx")) :=
  congrArg some
    (buildChallengeTransaction_unverified (verifyEquivocationProof_placeholder X ..))

/-- No pass builds a transaction, whatever the table, the proofs and the configuration are. -/
theorem runFraudWatchPass_fails {consensus : ConsensusManager} {cfg : FraudWatchConfig}
    {trigger : Option StateAttestation} {known : List (String × Nat)} {now : Int}
    {outcome : Option (Except ChallengeError ChallengeTransaction)}
    (h : outcome ∈ runFraudWatchPass X consensus (some cfg) trigger known now) :
    outcome = some (.error (.message
      "Equivocation proof failed cryptographic verification — cannot build challenge tx")) := by
  unfold runFraudWatchPass at h
  rcases List.mem_append.mp h with h | h
  · obtain ⟨div, -, rfl⟩ := List.mem_map.mp h
    exact maybeBroadcastChallenge_fails ..
  · obtain ⟨proof, -, rfl⟩ := List.mem_map.mp h
    exact maybeBroadcastChallenge_fails ..

/-- **Fraud watch cannot slash.**  It makes an attempt for every proof that it has verified, and
none of its attempts builds a transaction, also where the builder succeeds on the proof itself. -/
theorem fraud_watch_never_builds (X : Crates) (consensus : ConsensusManager)
    (cfg : FraudWatchConfig) (trigger : Option StateAttestation) (known : List (String × Nat))
    (now : Int) (proof : EquivocationProof) (hproof : proof ∈ consensus.slashingProofs)
    (hverified : verifyEquivocationProof X proof = true) (tx : ChallengeTransaction)
    (_hdirect : buildChallengeTransaction X proof cfg.bondInput cfg.vaultConfig cfg.minerFee =
      .ok tx) :
    maybeBroadcastChallenge X (some cfg) proof.chain proof.blockHeight proof.validatorPubkey
        proof.firstAttestation.stateRoot proof.secondAttestation.stateRoot now ∈
      runFraudWatchPass X consensus (some cfg) trigger known now ∧
    ∀ outcome ∈ runFraudWatchPass X consensus (some cfg) trigger known now,
      ∀ tx', outcome ≠ some (.ok tx') := by
  refine ⟨?_, fun outcome houtcome tx' heq ↦ ?_⟩
  · unfold runFraudWatchPass
    exact List.mem_append_right _
      (List.mem_map.mpr ⟨proof, List.mem_filter.mpr ⟨hproof, hverified⟩, rfl⟩)
  · cases (runFraudWatchPass_fails houtcome).symm.trans heq

/-! A validator that has signed two roots, and a bond that can be spent. -/

/-- The manager has received both. -/
def demoCaught : ConsensusManager :=
  (registered demoCrates 1 [demoValidator 1]).run demoCrates
    (submit [(demoAttestation 1 "b" "r1", 7), (demoAttestation 1 "b" "r2", 8)])

def demoFraudWatch : FraudWatchConfig :=
  { vaultConfig :=
      { operatorPubkey := List.replicate 32 1
        challengerPubkey := List.replicate 32 2
        unbondDelay := 1008
        claimDelay := 144 }
    bondInput :=
      { bondTxid := hexEncode (List.replicate 32 7)
        bondVout := 0
        bondAmount := 100000 }
    minerFee := 1000 }

theorem demoCaught_proof : ∃ proof ∈ demoCaught.slashingProofs,
    verifyEquivocationProof demoCrates proof = true ∧
      ∃ tx, buildChallengeTransaction demoCrates proof demoFraudWatch.bondInput
        demoFraudWatch.vaultConfig demoFraudWatch.minerFee = .ok tx := by
  have haccuses : demoCaught.Accuses (demoValidator 1) "JKC" 5 :=
    registered_accuses (a := demoAttestation 1 "b" "r1") (b := demoAttestation 1 "b" "r2")
      List.mem_cons_self (List.mem_cons_of_mem _ List.mem_cons_self)
      (demoAttestation_valid 1 "b" "r1") (demoAttestation_valid 1 "b" "r2") List.mem_cons_self
      rfl rfl rfl (by decide)
  obtain ⟨proof, hproof, hvalidator, hchain, -⟩ := haccuses
  have hverified : verifyEquivocationProof demoCrates proof = true :=
    ((registered_wellKept demoCrates 1 [demoValidator 1]).run _).proven proof hproof
  have hkey : hexDecode proof.validatorPubkey = some (List.replicate 32 1) := by
    rw [hvalidator]
    exact hexDecode_hexEncode _
  have hname : (asBytes proof.chain).length ≤ 64 := by
    rw [hchain]
    decide
  exact ⟨proof, hproof, hverified, buildChallengeTransaction_verified hverified
    (List.length_replicate ..) (List.length_replicate ..) hkey (List.length_replicate ..) hname
    (by decide) (hexDecode_hexEncode _) (List.length_replicate ..)⟩

/-- **The builder succeeds, and the fraud watch does not.** -/
theorem fraud_watch_builds_nothing : ∃ proof ∈ demoCaught.slashingProofs,
    verifyEquivocationProof demoCrates proof = true ∧
      (∃ tx, buildChallengeTransaction demoCrates proof demoFraudWatch.bondInput
        demoFraudWatch.vaultConfig demoFraudWatch.minerFee = .ok tx) ∧
      ∀ outcome ∈ runFraudWatchPass demoCrates demoCaught (some demoFraudWatch) none [("JKC", 5)] 9,
        ∀ tx', outcome ≠ some (.ok tx') := by
  obtain ⟨proof, hproof, hverified, hdirect⟩ := demoCaught_proof
  refine ⟨proof, hproof, hverified, hdirect, fun outcome houtcome tx' heq ↦ ?_⟩
  cases (runFraudWatchPass_fails houtcome).symm.trans heq

theorem fraud_watch_never_builds_caught : ∃ proof ∈ demoCaught.slashingProofs,
    maybeBroadcastChallenge demoCrates (some demoFraudWatch) proof.chain proof.blockHeight
        proof.validatorPubkey proof.firstAttestation.stateRoot proof.secondAttestation.stateRoot 9 ∈
      runFraudWatchPass demoCrates demoCaught (some demoFraudWatch) none [("JKC", 5)] 9 := by
  obtain ⟨proof, hproof, hverified, tx, hdirect⟩ := demoCaught_proof
  exact ⟨proof, hproof, (fraud_watch_never_builds demoCrates demoCaught demoFraudWatch none
    [("JKC", 5)] 9 proof hproof hverified tx hdirect).1⟩

end UtxoVm
