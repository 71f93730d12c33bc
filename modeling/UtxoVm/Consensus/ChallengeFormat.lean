import UtxoVm.Consensus.Challenge
import UtxoVm.Reasoning.Wire

/-!
# The bytes of a challenge transaction

What a successful build is made of; the transaction read back in the layout of
`serialize_challenge_tx`; and the two roots that its evidence shows.
-/

namespace UtxoVm

open RustStd ScriptNum ConsensusManager Wire

/-! ## 1. What a challenge transaction is made of -/

/-- The root that the evidence shows for an attestation. -/
def evidenceRoot (X : Crates) (att : StateAttestation) : Bytes :=
  padTo32 (decodeOrHash X att.stateRoot)

/-- The witness of the challenge leaf. -/
def challengeWitness (X : Crates) (proof : EquivocationProof) (vaultTree : VaultScriptTree)
    (sig1 sig2 : Bytes) : List Bytes :=
  buildEquivocationWitness (evidenceRoot X proof.firstAttestation)
    (evidenceRoot X proof.secondAttestation) proof.chain proof.blockHeight
    proof.firstAttestation.blockHash proof.firstAttestation.stateRoot sig1
    proof.secondAttestation.blockHash proof.secondAttestation.stateRoot sig2
    vaultTree.challengeLeaf

/-- The parts of a challenge transaction. -/
structure BuiltFrom (X : Crates) (proof : EquivocationProof) (input : ChallengeInput)
    (vaultConfig : VaultConfig) (minerFee : Nat) (tx : ChallengeTransaction)
    (vaultTree : VaultScriptTree) (operatorPubkey sig1 sig2 : Bytes) : Prop where
  verified : verifyEquivocationProof X proof = true
  vault : buildVaultScriptTree vaultConfig = .ok vaultTree
  operator : hexDecode proof.validatorPubkey = some operatorPubkey
  first : hexDecode proof.firstAttestation.signatureHex = some sig1
  second : hexDecode proof.secondAttestation.signatureHex = some sig2
  evidence : buildEvidenceOutput
    { claimedRoot := evidenceRoot X proof.firstAttestation
      correctRoot := evidenceRoot X proof.secondAttestation
      operatorPubkey
      chain := proof.chain
      blockHeight := proof.blockHeight } = .ok tx.evidenceOutput
  script : ∃ merkleRoot, tx.challengeOutput.scriptPubkey = p2trOutputScript X merkleRoot
  funded : minerFee ≤ input.bondAmount
  amount : tx.challengeOutput.amount = input.bondAmount - minerFee
  fee : tx.fee = minerFee
  raw : serializeChallengeTx input tx.challengeOutput.scriptPubkey tx.challengeOutput.amount
    tx.evidenceOutput (challengeWitness X proof vaultTree sig1 sig2) = .ok tx.rawHex

section

variable {X : Crates} {proof : EquivocationProof} {input : ChallengeInput}
  {vaultConfig : VaultConfig} {minerFee : Nat} {tx : ChallengeTransaction}

/-- A successful step of the builder. -/
theorem ofScript_eq_ok {α : Type} {result : Except String α} {a : α} (h : ofScript result = .ok a) :
    result = .ok a := by
  cases result with
  | error e => cases h
  | ok b =>
    cases h
    rfl

theorem decodeHex_eq_ok {context text : String} {bytes : Bytes}
    (h : decodeHex context text = .ok bytes) : hexDecode text = some bytes := by
  unfold decodeHex at h
  split at h
  · rename_i b hb
    cases h
    exact hb
  · cases h

/-- **What a successful build is made of.** -/
theorem builtFrom_of_ok
    (h : buildChallengeTransaction X proof input vaultConfig minerFee = .ok tx) :
    ∃ vaultTree operatorPubkey sig1 sig2,
      BuiltFrom X proof input vaultConfig minerFee tx vaultTree operatorPubkey sig1 sig2 := by
  unfold buildChallengeTransaction at h
  cases hverified : verifyEquivocationProof X proof with
  | false =>
    rw [hverified] at h
    cases h
  | true =>
    rw [hverified] at h
    obtain ⟨-, -, h⟩ := bind_eq_ok h
    obtain ⟨vaultTree, hvault, h⟩ := bind_eq_ok h
    obtain ⟨challengeTree, -, h⟩ := bind_eq_ok h
    obtain ⟨operatorPubkey, hoperator, h⟩ := bind_eq_ok h
    obtain ⟨evidenceOutput, hevidence, h⟩ := bind_eq_ok h
    by_cases hfee : input.bondAmount < minerFee
    · rw [if_pos hfee] at h
      cases h
    rw [if_neg hfee] at h
    obtain ⟨-, -, h⟩ := bind_eq_ok h
    obtain ⟨sig1, hsig1, h⟩ := bind_eq_ok h
    obtain ⟨sig2, hsig2, h⟩ := bind_eq_ok h
    obtain ⟨rawHex, hraw, h⟩ := bind_eq_ok h
    cases h
    exact ⟨vaultTree, operatorPubkey, sig1, sig2, hverified, ofScript_eq_ok hvault,
      decodeHex_eq_ok hoperator, decodeHex_eq_ok hsig1, decodeHex_eq_ok hsig2, hevidence, ⟨_, rfl⟩,
      not_lt.mp hfee, rfl, rfl, hraw⟩

end

/-! ## 2. The layout -/

structure WireInput where
  txid : Bytes
  vout : Nat
  scriptSig : Bytes
  sequence : Nat
  deriving DecidableEq

structure WireOutput where
  amount : Nat
  script : Bytes
  deriving DecidableEq

structure WireTx where
  version : Nat
  inputs : List WireInput
  outputs : List WireOutput
  witness : List Bytes
  lockTime : Nat
  deriving DecidableEq

def readInput : Reader WireInput := do
  let txid ← bytes 32
  let vout ← number 4
  let scriptSig ← bounded
  let sequence ← number 4
  return { txid, vout, scriptSig, sequence }

def readOutput : Reader WireOutput := do
  let amount ← number 8
  let script ← bounded
  return { amount, script }

/-- Version, inputs, outputs, the witness stack of the one input, and the lock time. -/
def readTx : Reader WireTx := do
  let version ← number 4
  let inputs ← counted readInput
  let outputs ← counted readOutput
  let witness ← counted bounded
  let lockTime ← number 4
  return { version, inputs, outputs, witness, lockTime }

/-- Read all of the hex text. -/
def readChallengeTx (rawHex : String) : Option WireTx := (hexDecode rawHex).bind (whole readTx)

/-- What the transaction is to say. -/
def challengeWire (input : ChallengeInput) (txid : Bytes) (tx : ChallengeTransaction)
    (witness : List Bytes) : WireTx where
  version := 2
  inputs := [⟨txid.reverse, input.bondVout.toNat, [], 0xFFFFFFFD⟩]
  outputs := [⟨tx.challengeOutput.amount, tx.challengeOutput.scriptPubkey⟩, ⟨0, tx.evidenceOutput⟩]
  witness
  lockTime := 0

/-- The bytes of a transaction are read back: the outpoint of the bond, both outputs and every
witness item; and the amounts are those of the bond. -/
def TxReadsBack (X : Crates) (proof : EquivocationProof) (input : ChallengeInput)
    (vaultConfig : VaultConfig) (tx : ChallengeTransaction) : Prop :=
  (∃ txid vaultTree sig1 sig2, hexDecode input.bondTxid = some txid ∧
    buildVaultScriptTree vaultConfig = .ok vaultTree ∧
    hexDecode proof.firstAttestation.signatureHex = some sig1 ∧
    hexDecode proof.secondAttestation.signatureHex = some sig2 ∧
    readChallengeTx tx.rawHex =
      some (challengeWire input txid tx (challengeWitness X proof vaultTree sig1 sig2))) ∧
  tx.challengeOutput.amount + tx.fee = input.bondAmount

def writeInput (input : WireInput) : Bytes :=
  input.txid ++ (leBytes 4 input.vout ++ (writeBounded input.scriptSig ++ leBytes 4 input.sequence))

def writeOutput (output : WireOutput) : Bytes :=
  leBytes 8 output.amount ++ writeBounded output.script

theorem reads_readInput {input : WireInput} (htxid : input.txid.length = 32)
    (hvout : input.vout < 2 ^ 32) (hscript : input.scriptSig.length < 256)
    (hsequence : input.sequence < 2 ^ 32) : Reads readInput (writeInput input) input :=
  (reads_bytes htxid).bind ((reads_number hvout).bind ((reads_bounded hscript).bind
    ((reads_number hsequence).map (WireInput.mk input.txid input.vout input.scriptSig))))

theorem reads_readOutput {output : WireOutput} (hamount : output.amount < 2 ^ 64)
    (hscript : output.script.length < 256) : Reads readOutput (writeOutput output) output :=
  (reads_number hamount).bind ((reads_bounded hscript).map (WireOutput.mk output.amount))

/-- No reader of this layout returns a witness item of 256 bytes or more. -/
theorem returns_readTx : Returns readTx fun tx ↦ ∀ item ∈ tx.witness, item.length < 256 := by
  refine (Returns.any _).bind fun version _ ↦ (Returns.any _).bind fun inputs _ ↦
    (Returns.any _).bind fun outputs _ ↦ returns_bounded.counted.bind fun witness hwitness ↦
    (Returns.any _).bind fun lockTime _ ↦ .pure hwitness

theorem readChallengeTx_witness {rawHex : String} {tx : WireTx}
    (h : readChallengeTx rawHex = some tx) : ∀ item ∈ tx.witness, item.length < 256 := by
  obtain ⟨input, -, hread⟩ := Option.bind_eq_some_iff.mp h
  exact returns_readTx.whole hread

/-! ## 3. Lengths -/

section

variable {X : Crates} {proof : EquivocationProof} {input : ChallengeInput}
  {vaultConfig : VaultConfig} {minerFee : Nat} {tx : ChallengeTransaction}
  {vaultTree : VaultScriptTree} {operatorPubkey sig1 sig2 : Bytes}

theorem buildVaultScriptTree_leaf (h : buildVaultScriptTree vaultConfig = .ok vaultTree) :
    vaultTree.challengeLeaf.length < 256 := by
  unfold buildVaultScriptTree at h
  dsimp only at h
  split at h
  · cases h
  split at h
  · cases h
  obtain ⟨operatorLeaf, -, h⟩ := bind_eq_ok h
  obtain ⟨challengeLeaf, hleaf, h⟩ := bind_eq_ok h
  cases h
  unfold buildEquivocationCovenant at hleaf
  split at hleaf
  · cases hleaf
  rename_i hkey
  cases hleaf
  have hphase : (covenantPhase vaultConfig.operatorPubkey).length = 68 := by
    have hdomain : attestationDomain.length = 22 := by decide
    unfold covenantPhase pushBytes
    rw [not_not.mp hkey, hdomain]
    simp [hdomain, not_not.mp hkey]
  simp [hphase]

theorem buildEvidenceOutput_eq_ok {evidence : ChallengeEvidence} {script : Bytes}
    (h : buildEvidenceOutput evidence = .ok script) :
    evidence.operatorPubkey.length = 32 ∧ (asBytes evidence.chain).length ≤ 64 ∧
      script = opReturn :: 16 :: asBytes "utxovm:challenge" ++
        0x20 :: evidence.claimedRoot ++ 0x20 :: evidence.correctRoot ++
        0x20 :: evidence.operatorPubkey ++
        UInt8.ofNat (asBytes evidence.chain).length :: asBytes evidence.chain ++
        0x08 :: leBytes 8 evidence.blockHeight := by
  unfold buildEvidenceOutput at h
  dsimp only at h
  split at h
  · cases h
  split at h
  · cases h
  split at h
  · cases h
  rename_i hoperator
  split at h
  · cases h
  rename_i hchain
  cases h
  exact ⟨not_not.mp hoperator, not_lt.mp hchain, rfl⟩

theorem verifyAttestationSig_length {pubkeyHex : String} {att : StateAttestation} {sig : Bytes}
    (h : verifyAttestationSig X pubkeyHex att = true)
    (hsig : hexDecode att.signatureHex = some sig) : sig.length = 64 := by
  unfold verifyAttestationSig at h
  rw [hsig] at h
  split at h
  · cases h
  · simp at h
    exact h.2.1

theorem evidenceRoot_length (X : Crates) (att : StateAttestation) :
    (evidenceRoot X att).length = 32 := padTo32_length _

theorem p2trOutputScript_length (X : Crates) (merkleRoot : Bytes) :
    (p2trOutputScript X merkleRoot).length < 256 := by
  unfold p2trOutputScript
  dsimp only
  rw [List.length_cons, List.length_cons, List.length_take]
  omega

/-- The serialized bytes are those that the writers produce. -/
theorem serializeChallengeTx_eq_ok {script evidence : Bytes} {amount : Nat} {witness : List Bytes}
    {rawHex : String} (h : serializeChallengeTx input script amount evidence witness = .ok rawHex) :
    ∃ txid, hexDecode input.bondTxid = some txid ∧ txid.length = 32 ∧
      rawHex = hexEncode (leBytes 4 2 ++
        (writeCounted writeInput [⟨txid.reverse, input.bondVout.toNat, [], 0xFFFFFFFD⟩] ++
          (writeCounted writeOutput [⟨amount, script⟩, ⟨0, evidence⟩] ++
            (writeCounted writeBounded witness ++ leBytes 4 0)))) := by
  unfold serializeChallengeTx at h
  obtain ⟨txid, htxid, h⟩ := bind_eq_ok h
  dsimp only at h
  split at h
  · cases h
  rename_i hlength
  cases h
  refine ⟨txid, decodeHex_eq_ok htxid, not_not.mp hlength, congrArg hexEncode ?_⟩
  have hitems : witness.flatMap (fun item ↦ UInt8.ofNat item.length :: item) =
      witness.flatMap writeBounded := rfl
  rw [hitems]
  simp [writeCounted, writeInput, writeOutput, writeBounded]

/-- The layout is read back if every length fits in its byte. -/
theorem readChallengeTx_eq_some {script evidence txid : Bytes} {amount : Nat}
    {witness : List Bytes} (htxid : txid.length = 32) (hamount : amount < 2 ^ 64)
    (hscript : script.length < 256) (hevidence : evidence.length < 256)
    (hcount : witness.length < 256) (hwitness : ∀ item ∈ witness, item.length < 256) :
    readChallengeTx (hexEncode (leBytes 4 2 ++
        (writeCounted writeInput [⟨txid.reverse, input.bondVout.toNat, [], 0xFFFFFFFD⟩] ++
          (writeCounted writeOutput [⟨amount, script⟩, ⟨0, evidence⟩] ++
            (writeCounted writeBounded witness ++ leBytes 4 0))))) =
      some ⟨2, [⟨txid.reverse, input.bondVout.toNat, [], 0xFFFFFFFD⟩],
        [⟨amount, script⟩, ⟨0, evidence⟩], witness, 0⟩ := by
  unfold readChallengeTx
  rw [hexDecode_hexEncode, Option.bind_some]
  let bond : WireInput := ⟨txid.reverse, input.bondVout.toNat, [], 0xFFFFFFFD⟩
  have hinputs : Reads (counted readInput) (writeCounted writeInput [bond]) [bond] := by
    apply reads_counted
    · exact (by decide : 1 < 256)
    intro i hi
    rw [List.mem_singleton.mp hi]
    exact reads_readInput (by rwa [← List.length_reverse] at htxid) input.bondVout.toNat_lt
      (show 0 < 256 by decide) (show 0xFFFFFFFD < 2 ^ 32 by decide)
  have houtputs : Reads (counted readOutput)
      (writeCounted writeOutput [⟨amount, script⟩, ⟨0, evidence⟩])
      [⟨amount, script⟩, ⟨0, evidence⟩] := by
    apply reads_counted
    · exact (by decide : 2 < 256)
    simp only [List.forall_mem_cons]
    exact ⟨reads_readOutput hamount hscript, reads_readOutput (show 0 < 2 ^ 64 by decide) hevidence,
      nofun⟩
  have hstack : Reads (counted bounded) (writeCounted writeBounded witness) witness :=
    reads_counted hcount fun item hitem ↦ reads_bounded (hwitness item hitem)
  exact ((reads_number (by decide)).bind (hinputs.bind (houtputs.bind (hstack.bind
    ((reads_number (by decide)).map (WireTx.mk 2 _ _ witness)))))).whole

/-- The block hash and the state root of the attestation fit in a witness item. -/
def ShortTexts (att : StateAttestation) : Prop :=
  (asBytes att.blockHash).length ≤ 251 ∧ (asBytes att.stateRoot).length ≤ 251

instance (att : StateAttestation) : Decidable (ShortTexts att) :=
  inferInstanceAs (Decidable (_ ∧ _))

/-- Only the texts of the attestations can be too long for a witness item. -/
theorem BuiltFrom.witness_iff
    (h : BuiltFrom X proof input vaultConfig minerFee tx vaultTree operatorPubkey sig1 sig2) :
    (∀ item ∈ challengeWitness X proof vaultTree sig1 sig2, item.length < 256) ↔
      ShortTexts proof.firstAttestation ∧ ShortTexts proof.secondAttestation := by
  obtain ⟨-, -, -, hfirst, hsecond⟩ := verifyEquivocationProof_iff.mp h.verified
  have hsig1 := verifyAttestationSig_length hfirst h.first
  have hsig2 := verifyAttestationSig_length hsecond h.second
  have hleaf := buildVaultScriptTree_leaf h.vault
  have hchain := (buildEvidenceOutput_eq_ok h.evidence).2.1
  unfold challengeWitness buildEquivocationWitness ShortTexts
  simp only [List.forall_mem_cons, List.not_mem_nil, evidenceRoot_length, lenPrefixed_length,
    beBytes_length, hsig1, hsig2]
  dsimp only at hchain
  constructor
  · rintro ⟨-, -, -, -, hhash1, hroot1, -, -, -, hhash2, hroot2, -⟩
    omega
  · rintro ⟨⟨hhash1, hroot1⟩, hhash2, hroot2⟩
    refine ⟨?_, ?_, ?_, ?_, ?_, ?_, ?_, ?_, ?_, ?_, ?_, ?_, hleaf, nofun⟩ <;> omega

end

/-- **The challenge transaction can be read back** exactly when no text of the two attestations is
longer than 251 bytes. -/
theorem challenge_tx_reads_back_iff (X : Crates) (proof : EquivocationProof)
    (input : ChallengeInput) (vaultConfig : VaultConfig) (minerFee : Nat)
    (tx : ChallengeTransaction) (hbond : input.bondAmount < 2 ^ 64)
    (hbuild : buildChallengeTransaction X proof input vaultConfig minerFee = .ok tx) :
    TxReadsBack X proof input vaultConfig tx ↔
      ShortTexts proof.firstAttestation ∧ ShortTexts proof.secondAttestation := by
  obtain ⟨vaultTree, operatorPubkey, sig1, sig2, hbuilt⟩ := builtFrom_of_ok hbuild
  rw [← hbuilt.witness_iff]
  constructor
  · rintro ⟨⟨txid, vaultTree', sig1', sig2', -, hvault, hsig1, hsig2, hread⟩, -⟩
    cases hbuilt.vault.symm.trans hvault
    cases hbuilt.first.symm.trans hsig1
    cases hbuilt.second.symm.trans hsig2
    exact readChallengeTx_witness hread
  · intro hwitness
    obtain ⟨txid, htxid, hlength, hraw⟩ := serializeChallengeTx_eq_ok hbuilt.raw
    obtain ⟨merkleRoot, hscript⟩ := hbuilt.script
    obtain ⟨hoperator, hchain, hevidence⟩ := buildEvidenceOutput_eq_ok hbuilt.evidence
    have hshort : tx.evidenceOutput.length < 256 := by
      have htag : (asBytes "utxovm:challenge").length = 16 := by decide
      dsimp only at hoperator hchain
      rw [hevidence]
      simp [evidenceRoot_length, htag, hoperator]
      omega
    have hbalance : tx.challengeOutput.amount + tx.fee = input.bondAmount := by
      have hfunded := hbuilt.funded
      rw [hbuilt.amount, hbuilt.fee]
      omega
    refine ⟨⟨txid, vaultTree, sig1, sig2, htxid, hbuilt.vault, hbuilt.first, hbuilt.second, ?_⟩,
      hbalance⟩
    rw [hraw]
    refine readChallengeTx_eq_some hlength (by omega) ?_ hshort ?_ hwitness
    · rw [hscript]
      exact p2trOutputScript_length X merkleRoot
    · exact (by decide : 13 < 256)

/-! A validator that has signed two roots of one block. -/

def demoTwoRoots (root root' : String) : EquivocationProof where
  chain := "JKC"
  blockHeight := 5
  validatorPubkey := demoValidator 1
  firstAttestation := demoAttestation 1 "b" root
  secondAttestation := demoAttestation 1 "b" root'
  detectedAt := 0

theorem demoTwoRoots_builds {root root' : String} (hroots : root ≠ root') :
    ∃ tx, buildChallengeTransaction demoCrates (demoTwoRoots root root') demoFraudWatch.bondInput
      demoFraudWatch.vaultConfig demoFraudWatch.minerFee = .ok tx := by
  have hverified : verifyEquivocationProof demoCrates (demoTwoRoots root root') = true :=
    verifyEquivocationProof_iff.mpr ⟨⟨rfl, rfl⟩, ⟨rfl, rfl, rfl, rfl⟩, hroots,
      demoAttestation_valid 1 "b" root, demoAttestation_valid 1 "b" root'⟩
  exact buildChallengeTransaction_verified hverified (List.length_replicate ..)
    (List.length_replicate ..) (hexDecode_hexEncode _) (List.length_replicate ..)
    (show (asBytes "JKC").length ≤ 64 by decide) (by decide) (hexDecode_hexEncode _)
    (List.length_replicate ..)

theorem challenge_tx_reads_back : ∃ tx,
    buildChallengeTransaction demoCrates (demoTwoRoots "r1" "r2") demoFraudWatch.bondInput
      demoFraudWatch.vaultConfig demoFraudWatch.minerFee = .ok tx ∧
    TxReadsBack demoCrates (demoTwoRoots "r1" "r2") demoFraudWatch.bondInput
      demoFraudWatch.vaultConfig tx := by
  obtain ⟨tx, htx⟩ := demoTwoRoots_builds (by decide : "r1" ≠ "r2")
  exact ⟨tx, htx, (challenge_tx_reads_back_iff demoCrates (demoTwoRoots "r1" "r2")
    demoFraudWatch.bondInput demoFraudWatch.vaultConfig demoFraudWatch.minerFee tx (by decide)
    htx).mpr (by decide)⟩

/-- A root of 252 letters. -/
def demoLongRoot : String := String.ofList (List.replicate 252 'r')

/-- **A long root cannot be read back**: its witness item has 256 bytes, and its length is written
as 0. -/
theorem long_root_not_read_back : ∃ tx,
    buildChallengeTransaction demoCrates (demoTwoRoots demoLongRoot "r2") demoFraudWatch.bondInput
      demoFraudWatch.vaultConfig demoFraudWatch.minerFee = .ok tx ∧
    ¬ TxReadsBack demoCrates (demoTwoRoots demoLongRoot "r2") demoFraudWatch.bondInput
      demoFraudWatch.vaultConfig tx := by
  have hlength : (asBytes demoLongRoot).length = 252 := by
    set_option maxRecDepth 4000 in
    decide
  have hroots : demoLongRoot ≠ "r2" := by
    intro h
    rw [h] at hlength
    exact absurd hlength (by decide)
  obtain ⟨tx, htx⟩ := demoTwoRoots_builds hroots
  refine ⟨tx, htx, ?_⟩
  rintro ⟨⟨txid, vaultTree, sig1, sig2, -, -, -, -, hread⟩, -⟩
  have hitem := readChallengeTx_witness hread (lenPrefixed demoLongRoot)
    (by simp [challengeWire, challengeWitness, buildEquivocationWitness, demoTwoRoots,
      demoAttestation, signStateRoot])
  rw [lenPrefixed_length, hlength] at hitem
  exact absurd hitem (by decide)

/-! ## 4. The roots in the evidence -/

/-- The first 32 bytes agree, where missing bytes count as zero. -/
def AgreeIn32 (data data' : Bytes) : Prop := ∀ i < 32, data.getD i 0 = data'.getD i 0

/-- The two texts stand for one root of 32 bytes. -/
inductive SameRoot (X : Crates) (s s' : String) : Prop
  | hex {data data' : Bytes} : hexDecode s = some data → hexDecode s' = some data' →
      AgreeIn32 data data' → SameRoot X s s'
  | hexOfHash {data : Bytes} : hexDecode s = some data → hexDecode s' = none →
      AgreeIn32 data (X.sha256 (asBytes s')).toList → SameRoot X s s'
  | hashOfHex {data' : Bytes} : hexDecode s = none → hexDecode s' = some data' →
      AgreeIn32 (X.sha256 (asBytes s)).toList data' → SameRoot X s s'
  | collision : hexDecode s = none → hexDecode s' = none →
      X.sha256 (asBytes s) = X.sha256 (asBytes s') → SameRoot X s s'

/-- The roots in the evidence output differ, and so do the root items of the witness. -/
def RootsApart (X : Crates) (proof : EquivocationProof) (input : ChallengeInput)
    (vaultConfig : VaultConfig) (minerFee : Nat) (tx : ChallengeTransaction) : Prop :=
  (tx.evidenceOutput.drop 19).take 32 ≠ (tx.evidenceOutput.drop 52).take 32 ∧
  ∀ vaultTree operatorPubkey sig1 sig2,
    BuiltFrom X proof input vaultConfig minerFee tx vaultTree operatorPubkey sig1 sig2 →
    (challengeWitness X proof vaultTree sig1 sig2)[0]? ≠
      (challengeWitness X proof vaultTree sig1 sig2)[1]?

section

variable {X : Crates} {att att' : StateAttestation} {data data' : Bytes}

theorem getElem?_padTo32 (data : Bytes) (i : Nat) :
    (padTo32 data)[i]? = if i < 32 then some (data.getD i 0) else none := by
  unfold padTo32
  rw [List.getElem?_take]
  split
  · rw [List.getD_eq_getElem?_getD]
    by_cases hi : i < data.length
    · rw [List.getElem?_append_left hi, List.getElem?_eq_getElem hi]
      rfl
    · rw [List.getElem?_append_right (by omega), List.getElem?_replicate, if_pos (by omega),
        List.getElem?_eq_none (by omega)]
      rfl
  · rfl

theorem padTo32_eq_iff : padTo32 data = padTo32 data' ↔ AgreeIn32 data data' := by
  constructor
  · intro h i hi
    have hget : (padTo32 data)[i]? = (padTo32 data')[i]? := by rw [h]
    rw [getElem?_padTo32, getElem?_padTo32, if_pos hi, if_pos hi] at hget
    exact Option.some.inj hget
  · intro h
    apply List.ext_getElem?
    intro i
    rw [getElem?_padTo32, getElem?_padTo32]
    split
    · rename_i hi
      rw [h i hi]
    · rfl

theorem padTo32_of_length (h : data.length = 32) : padTo32 data = data := by
  unfold padTo32
  rw [h, List.replicate_zero, List.append_nil, List.take_of_length_le h.le]

/-- **When two attestations show one root.** -/
theorem evidenceRoot_eq_iff :
    evidenceRoot X att = evidenceRoot X att' ↔ SameRoot X att.stateRoot att'.stateRoot := by
  have hhash (s : String) : padTo32 (X.sha256 (asBytes s)).toList = (X.sha256 (asBytes s)).toList :=
    padTo32_of_length Vector.length_toList
  unfold evidenceRoot decodeOrHash
  cases hfirst : hexDecode att.stateRoot with
  | some data =>
    cases hsecond : hexDecode att'.stateRoot with
    | some data' =>
      dsimp only
      rw [padTo32_of_length (padTo32_length data), padTo32_of_length (padTo32_length data'),
        padTo32_eq_iff]
      constructor
      · exact .hex hfirst hsecond
      · intro h
        cases h <;> simp_all
    | none =>
      dsimp only
      rw [padTo32_of_length (padTo32_length data), padTo32_eq_iff]
      constructor
      · exact .hexOfHash hfirst hsecond
      · intro h
        cases h <;> simp_all
  | none =>
    cases hsecond : hexDecode att'.stateRoot with
    | some data' =>
      dsimp only
      rw [padTo32_of_length (padTo32_length data'), padTo32_eq_iff]
      constructor
      · exact .hashOfHex hfirst hsecond
      · intro h
        cases h <;> simp_all
    | none =>
      dsimp only
      rw [hhash, hhash, Vector.toList_inj]
      constructor
      · exact .collision hfirst hsecond
      · intro h
        cases h <;> simp_all

/-- Where the roots stand in the evidence output. -/
theorem buildEvidenceOutput_roots {evidence : ChallengeEvidence} {script : Bytes}
    (hclaimed : evidence.claimedRoot.length = 32) (hcorrect : evidence.correctRoot.length = 32)
    (h : buildEvidenceOutput evidence = .ok script) :
    (script.drop 19).take 32 = evidence.claimedRoot ∧
      (script.drop 52).take 32 = evidence.correctRoot := by
  obtain ⟨-, -, hscript⟩ := buildEvidenceOutput_eq_ok h
  let tail := evidence.operatorPubkey ++ (UInt8.ofNat (asBytes evidence.chain).length ::
    (asBytes evidence.chain ++ 0x08 :: leBytes 8 evidence.blockHeight))
  have htag : (opReturn :: 16 :: asBytes "utxovm:challenge" ++ [0x20]).length = 19 := by decide
  have hsplit : script = (opReturn :: 16 :: asBytes "utxovm:challenge" ++ [0x20]) ++
      (evidence.claimedRoot ++ (0x20 :: (evidence.correctRoot ++ 0x20 :: tail))) := by
    rw [hscript]
    simp [tail]
  have hdrop : script.drop 19 =
      evidence.claimedRoot ++ (0x20 :: (evidence.correctRoot ++ 0x20 :: tail)) := by
    rw [hsplit, List.drop_left' htag]
  have hdrop' : (script.drop 19).drop 33 = evidence.correctRoot ++ 0x20 :: tail := by
    rw [hdrop, List.append_cons, List.drop_left' (by simp [hclaimed])]
  constructor
  · rw [hdrop, List.take_left' hclaimed]
  · rw [List.drop_drop] at hdrop'
    rw [hdrop', List.take_left' hcorrect]

end

/-- **The evidence keeps two roots apart** exactly when they do not stand for the same 32 bytes. -/
theorem evidence_roots_apart_iff (X : Crates) (proof : EquivocationProof) (input : ChallengeInput)
    (vaultConfig : VaultConfig) (minerFee : Nat) (tx : ChallengeTransaction)
    (hbuild : buildChallengeTransaction X proof input vaultConfig minerFee = .ok tx) :
    RootsApart X proof input vaultConfig minerFee tx ↔
      ¬ SameRoot X proof.firstAttestation.stateRoot proof.secondAttestation.stateRoot := by
  obtain ⟨vaultTree, operatorPubkey, sig1, sig2, hbuilt⟩ := builtFrom_of_ok hbuild
  obtain ⟨hclaimed, hcorrect⟩ := buildEvidenceOutput_roots (evidenceRoot_length X _)
    (evidenceRoot_length X _) hbuilt.evidence
  unfold RootsApart
  rw [hclaimed, hcorrect, ← evidenceRoot_eq_iff]
  constructor
  · exact fun h ↦ h.1
  · intro hne
    refine ⟨hne, fun vaultTree' operatorPubkey' sig1' sig2' _ h ↦ hne (Option.some.inj h)⟩

/-- Two roots that are not hex, with different hashes. -/
theorem evidence_roots_apart : ∃ tx,
    buildChallengeTransaction demoCrates (demoTwoRoots "r" "s") demoFraudWatch.bondInput
      demoFraudWatch.vaultConfig demoFraudWatch.minerFee = .ok tx ∧
    RootsApart demoCrates (demoTwoRoots "r" "s") demoFraudWatch.bondInput demoFraudWatch.vaultConfig
      demoFraudWatch.minerFee tx := by
  obtain ⟨tx, htx⟩ := demoTwoRoots_builds (by decide : "r" ≠ "s")
  have hfirst : hexDecode "r" = none := by decide
  have hsecond : hexDecode "s" = none := by decide
  refine ⟨tx, htx, (evidence_roots_apart_iff demoCrates (demoTwoRoots "r" "s")
    demoFraudWatch.bondInput demoFraudWatch.vaultConfig demoFraudWatch.minerFee tx htx).mpr
    fun h ↦ ?_⟩
  cases h with
  | hex h _ _ => cases hfirst.symm.trans h
  | hexOfHash h _ _ => cases hfirst.symm.trans h
  | hashOfHex _ h _ => cases hsecond.symm.trans h
  | collision _ _ hhash =>
    have hne : demoCrates.sha256 (asBytes "r") ≠ demoCrates.sha256 (asBytes "s") := by decide
    exact hne hhash

/-- **Two spellings of one root** are different texts, and the evidence shows one root twice. -/
theorem upper_case_root_not_apart : ∃ tx,
    verifyEquivocationProof demoCrates (demoTwoRoots "aa" "AA") = true ∧
    buildChallengeTransaction demoCrates (demoTwoRoots "aa" "AA") demoFraudWatch.bondInput
      demoFraudWatch.vaultConfig demoFraudWatch.minerFee = .ok tx ∧
    ¬ RootsApart demoCrates (demoTwoRoots "aa" "AA") demoFraudWatch.bondInput
      demoFraudWatch.vaultConfig demoFraudWatch.minerFee tx := by
  obtain ⟨tx, htx⟩ := demoTwoRoots_builds (by decide : "aa" ≠ "AA")
  obtain ⟨vaultTree, operatorPubkey, sig1, sig2, hbuilt⟩ := builtFrom_of_ok htx
  have hsame : SameRoot demoCrates "aa" "AA" :=
    .hex (by decide : hexDecode "aa" = some [0xaa]) (by decide : hexDecode "AA" = some [0xaa])
      fun i _ ↦ rfl
  refine ⟨tx, hbuilt.verified, htx, fun hapart ↦ ?_⟩
  exact hapart.2 vaultTree operatorPubkey sig1 sig2 hbuilt
    (congrArg some (evidenceRoot_eq_iff.mpr hsame))

end UtxoVm
