import UtxoVm.Consensus.Attestation
import UtxoVm.Storage.Db

/-!
# The proof verifier (`cross_chain/verifier.rs`)

A cross-chain proof needs a quorum of known validators for its root, a Merkle proof of its object
data under that root, and attestations that match it and carry valid signatures.
-/

namespace UtxoVm

open RustStd

structure CrossChainProof where
  sourceChain : String
  sourceHeight : Nat
  sourceRoot : String
  objectId : String
  objectData : Json
  merkleProof : SmtInclusionProof
  attestations : List StateAttestation

structure VerificationResult where
  valid : Bool
  sourceChain : String
  sourceHeight : Nat
  quorumReached : Bool
  merkleVerified : Bool
  error : Option String
  deriving DecidableEq, Repr

namespace Json

mutual

/-- `canonicalize_json_value`: members in key order, recursively (the keys of an object are
distinct). -/
def canonicalize : Json → Json
  | .object fields => .object (canonicalizeFields fields)
  | .array xs => .array (canonicalizeList xs)
  | other => other

def canonicalizeList : List Json → List Json
  | [] => []
  | x :: xs => x.canonicalize :: canonicalizeList xs

def canonicalizeFields : List (String × Json) → List (String × Json)
  | [] => []
  | (k, x) :: xs => insertField k x.canonicalize (canonicalizeFields xs)

end

end Json

namespace CrossChainVerifier

variable (X : Crates)

def canonicalJsonToVec (value : Json) : Bytes := X.jsonToVec value.canonicalize

/-! ## 1. The quorum -/

/-- The attestations that count: from known validators, the first of each. -/
def countedAttestations (known : List String) :
    List String → List StateAttestation → List StateAttestation
  | _, [] => []
  | seen, att :: rest =>
      if att.validatorPubkey ∉ known ∨ att.validatorPubkey ∈ seen then
        countedAttestations known seen rest
      else att :: countedAttestations known (att.validatorPubkey :: seen) rest

/-- `max_by` on the counts of the roots, ties going to the larger root. -/
def winningRoot (roots : List String) : Option String :=
  let beats (a b : String) : Bool :=
    roots.count b < roots.count a || (roots.count a == roots.count b && decide (b < a))
  roots.foldl
    (fun best root ↦
      match best with
      | some b => if beats root b then some root else some b
      | none => some root)
    none

def verifyQuorum (consensus : ConsensusManager) (proof : CrossChainProof) : Bool :=
  let totalValidators := consensus.getValidatorCount
  if proof.attestations.isEmpty then false
  else if totalValidators = 0 then false
  else
    let roots := (countedAttestations consensus.knownValidators [] proof.attestations).map
      (·.stateRoot)
    match winningRoot roots with
    | none => false
    | some winner =>
        if winner ≠ proof.sourceRoot then false
        else decide ((totalValidators * 2 + 2) / 3 ≤ roots.count winner)

/-! ## 2. The Merkle proof and the signatures -/

def verifyMerkle (proof : CrossChainProof) : Bool :=
  match hexHash proof.sourceRoot with
  | none => false
  | some root =>
      verifyProof (smtHashes X) root (StateStore.hashKey X proof.objectId)
        (X.sha256 (canonicalJsonToVec X proof.objectData)) proof.merkleProof.proofPath

def verifyAttestationSignatures (proof : CrossChainProof) : Bool :=
  !proof.attestations.isEmpty &&
    proof.attestations.all fun att ↦
      if att.stateRoot ≠ proof.sourceRoot ∨ att.blockHeight ≠ proof.sourceHeight ∨
          att.chain ≠ proof.sourceChain then false
      else verifyAttestation X att

def verifyProof (consensus : ConsensusManager) (proof : CrossChainProof) : VerificationResult :=
  let result (valid quorumReached merkleVerified : Bool) (error : Option String) :
      VerificationResult :=
    { valid, sourceChain := proof.sourceChain, sourceHeight := proof.sourceHeight
      quorumReached, merkleVerified, error }
  if !verifyQuorum consensus proof then
    result false false false (some "Quorum not reached: insufficient validator attestations")
  else if !verifyMerkle X proof then
    result false true false (some "Merkle proof verification failed")
  else if !verifyAttestationSignatures X proof then
    result false true true (some "Invalid attestation signatures")
  else result true true true none

end CrossChainVerifier

end UtxoVm
