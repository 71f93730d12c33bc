import UtxoVm.Consensus.Attestation
import UtxoVm.Reasoning.Quorum

/-!
# Quorum results (`consensus/attestation.rs`)

Which root the accepted attestations support, the artifact that a node builds from them, and the
divergence of one attestation from that artifact.
-/

namespace UtxoVm

open RustStd

structure QuorumResult where
  chain : String
  blockHeight : Nat
  stateRoot : String
  blockHash : String
  supportingAttestations : List StateAttestation
  merkleRoot : String
  supportCount : Nat
  quorumThreshold : Nat
  deriving DecidableEq, Repr

structure QuorumDivergenceProof where
  chain : String
  blockHeight : Nat
  operatorAttestation : StateAttestation
  quorumResultRoot : String
  supportingAttestations : List StateAttestation
  merkleRoot : String
  detectedAt : Int
  deriving DecidableEq, Repr

variable (X : Crates)

/-! ## 1. The Merkle root over attestations -/

/-- The timestamp is not hashed. -/
def attestationLeaf (a : StateAttestation) : Hash :=
  X.sha256 (asBytes "ATTESTATION_LEAF_V1" ++ lenPrefixed a.chain ++ beBytes 8 a.blockHeight ++
    lenPrefixed a.blockHash ++ lenPrefixed a.stateRoot ++ lenPrefixed a.validatorPubkey ++
    lenPrefixed a.signatureHex)

/-- The next level: pairs, and an odd last hash with itself. -/
def merkleLevel : List Hash → List Hash
  | [] => []
  | [a] => [X.sha256 (a.toList ++ a.toList)]
  | a :: b :: rest => X.sha256 (a.toList ++ b.toList) :: merkleLevel rest

theorem merkleLevel_length (level : List Hash) :
    (merkleLevel X level).length = (level.length + 1) / 2 := by
  fun_induction merkleLevel X level with
  | case1 => simp
  | case2 => simp
  | case3 a b rest ih =>
    simp only [List.length_cons, ih]
    omega

/-- `while level.len() > 1`. -/
def merkleTop (level : List Hash) : Hash :=
  if level.length ≤ 1 then level.headD zeroHash else merkleTop (merkleLevel X level)
termination_by level.length
decreasing_by
  rw [merkleLevel_length]
  omega

def computeAttestationMerkleRoot (attestations : List StateAttestation) : String :=
  if attestations.isEmpty then hexEncode zeroHash.toList
  else
    let sorted := attestations.mergeSort fun a b ↦ decide (a.validatorPubkey ≤ b.validatorPubkey)
    hexEncode (merkleTop X (sorted.map (attestationLeaf X))).toList

namespace ConsensusManager

/-! ## 2. Quorum -/

def getAttestations (m : ConsensusManager) (chain : String) (height : Nat) :
    List StateAttestation := m.attestations chain height

def isQuorumReached (m : ConsensusManager) (chain : String) (height : Nat) (stateRoot : String) :
    Bool :=
  let list := m.attestations chain height
  -- a key is entered in the table together with its first attestation
  if list.isEmpty then false
  else decide (m.quorumThreshold ≤ (Quorum.votesFor (·.stateRoot) stateRoot list).length)

def buildQuorumResult (m : ConsensusManager) (chain : String) (height : Nat) :
    Option QuorumResult :=
  let attestations := m.getAttestations chain height
  match Quorum.plurality (·.stateRoot) attestations with
  | none => none
  | some (winningRoot, supporting) =>
      if supporting.length < m.quorumThreshold then none
      else
        some
          { chain, blockHeight := height
            stateRoot := winningRoot
            blockHash := (supporting.head?.map (·.blockHash)).getD ""
            supportingAttestations := supporting
            merkleRoot := computeAttestationMerkleRoot X supporting
            -- all attestations of the key, not only the supporting ones
            supportCount := attestations.length
            quorumThreshold := m.quorumThreshold }

/-- `detect_divergence`: only the roots are compared. -/
def detectDivergence (operatorAttestation : StateAttestation) (quorumResult : QuorumResult)
    (now : Int) : Option QuorumDivergenceProof :=
  if operatorAttestation.stateRoot = quorumResult.stateRoot then none
  else
    some
      { chain := operatorAttestation.chain
        blockHeight := operatorAttestation.blockHeight
        operatorAttestation
        quorumResultRoot := quorumResult.stateRoot
        supportingAttestations := quorumResult.supportingAttestations
        merkleRoot := quorumResult.merkleRoot
        detectedAt := now }

/-! ## 3. What a result says -/

variable {X} {m : ConsensusManager} {chain stateRoot : String} {height : Nat}
  {result : QuorumResult}

theorem isQuorumReached_iff : m.isQuorumReached chain height stateRoot = true ↔
    m.attestations chain height ≠ [] ∧
      m.quorumThreshold ≤
        (Quorum.votesFor (·.stateRoot) stateRoot (m.attestations chain height)).length := by
  unfold isQuorumReached
  dsimp only
  by_cases hempty : m.attestations chain height = []
  · simp [hempty]
  · simp [hempty]

/-- A result is about the root with the most attestations, and only if they reach the threshold. -/
theorem buildQuorumResult_eq_some (h : m.buildQuorumResult X chain height = some result) :
    Quorum.plurality (·.stateRoot) (m.attestations chain height) =
        some (result.stateRoot, result.supportingAttestations) ∧
      m.quorumThreshold ≤ result.supportingAttestations.length := by
  unfold buildQuorumResult at h
  change (match Quorum.plurality (·.stateRoot) (m.attestations chain height) with
    | none => none
    | some (winningRoot, supporting) => _) = _ at h
  cases hwinner : Quorum.plurality (·.stateRoot) (m.attestations chain height) with
  | none =>
    rw [hwinner] at h
    cases h
  | some winner =>
    rw [hwinner] at h
    dsimp only at h
    split at h
    · cases h
    · rename_i hthreshold
      cases h
      exact ⟨rfl, not_lt.mp hthreshold⟩

/-- The other fields of a result. -/
theorem buildQuorumResult_fields (h : m.buildQuorumResult X chain height = some result) :
    result.blockHash = (result.supportingAttestations.head?.map (·.blockHash)).getD "" ∧
      result.merkleRoot = computeAttestationMerkleRoot X result.supportingAttestations ∧
      result.supportCount = (m.attestations chain height).length := by
  obtain ⟨hwinner, hthreshold⟩ := buildQuorumResult_eq_some h
  unfold buildQuorumResult getAttestations at h
  simp only [hwinner, if_neg (not_lt.mpr hthreshold), Option.some.injEq] at h
  rw [← h]
  exact ⟨rfl, rfl, rfl⟩

theorem buildQuorumResult_reached (h : m.buildQuorumResult X chain height = some result) :
    m.isQuorumReached chain height result.stateRoot = true := by
  obtain ⟨hwinner, hthreshold⟩ := buildQuorumResult_eq_some h
  obtain ⟨hmem, hvotes, -⟩ := Quorum.plurality_eq_some_iff.mp hwinner
  refine isQuorumReached_iff.mpr ⟨fun hempty ↦ ?_, hvotes ▸ hthreshold⟩
  rw [hempty] at hmem
  cases hmem

/-- The root with the most attestations reaches the threshold as soon as any root does. -/
theorem buildQuorumResult_eq_none : m.buildQuorumResult X chain height = none ↔
    ∀ stateRoot, m.isQuorumReached chain height stateRoot = false := by
  constructor
  · intro hnone stateRoot
    by_contra hreached
    obtain ⟨hne, hvotes⟩ := isQuorumReached_iff.mp (by simpa using hreached)
    cases hwinner : Quorum.plurality (·.stateRoot) (m.attestations chain height) with
    | none => exact hne (Quorum.plurality_eq_none.mp hwinner)
    | some winner =>
      have hmost := Quorum.plurality_most hwinner stateRoot
      have hthreshold : ¬ winner.2.length < m.quorumThreshold := by omega
      unfold buildQuorumResult getAttestations at hnone
      simp [hwinner, hthreshold] at hnone
  · intro hnone
    by_contra hsome
    obtain ⟨result, hresult⟩ := Option.ne_none_iff_exists'.mp hsome
    have hreached := buildQuorumResult_reached hresult
    rw [hnone] at hreached
    cases hreached

end ConsensusManager

end UtxoVm
