import UtxoVm.Consensus.AttestationRun

/-!
# What a signature over an attestation covers

The signed bytes put a length before each string, so that they can be read back: a signature over
one attestation is none over another, unless their preimages break the hash.
-/

namespace UtxoVm

open RustStd

/-- The four fields that are signed. -/
structure AttestationPayload where
  chain : String
  height : UInt64
  blockHash : String
  stateRoot : String
  deriving DecidableEq, Repr

/-- Each string is shorter than its length prefix can tell. -/
structure AttestationPayload.Fits (p : AttestationPayload) : Prop where
  chain : (asBytes p.chain).length < 2 ^ 32
  blockHash : (asBytes p.blockHash).length < 2 ^ 32
  stateRoot : (asBytes p.stateRoot).length < 2 ^ 32

def AttestationPayload.preimage (p : AttestationPayload) : Bytes :=
  serializeAttestationPreimage p.chain p.height.toNat p.blockHash p.stateRoot

/-- The attestation presents the payload, with the signature under the key. -/
structure Presents (att : StateAttestation) (p : AttestationPayload) (pubkey sig : Bytes) :
    Prop where
  chain : att.chain = p.chain
  blockHeight : att.blockHeight = p.height.toNat
  blockHash : att.blockHash = p.blockHash
  stateRoot : att.stateRoot = p.stateRoot
  validatorPubkey : hexDecode att.validatorPubkey = some pubkey
  signatureHex : hexDecode att.signatureHex = some sig

variable (X : Crates)

/-- The signature is one over the payload: it verifies for the digest of its preimage and for no
other digest. -/
def SignatureOver (p : AttestationPayload) (pubkey sig : Bytes) : Prop :=
  ∀ digest, X.verifySchnorr sig digest pubkey = true ↔ digest = X.sha256 p.preimage

/-- Two different inputs with one digest. -/
def Collide (m m' : Bytes) : Prop := m ≠ m' ∧ X.sha256 m = X.sha256 m'

variable {X} {p p' : AttestationPayload}

theorem AttestationPayload.preimage_inj (hp : p.Fits) (hp' : p'.Fits)
    (h : p.preimage = p'.preimage) : p = p' := by
  obtain ⟨hchain, hheight, hblockHash, hstateRoot⟩ := serializeAttestationPreimage_inj_of_lt
    hp.chain hp'.chain hp.blockHash hp'.blockHash hp.stateRoot hp'.stateRoot h
  rw [Nat.mod_eq_of_lt p.height.toNat_lt, Nat.mod_eq_of_lt p'.height.toNat_lt,
    UInt64.toNat_inj] at hheight
  cases p
  cases p'
  dsimp only at hchain hheight hblockHash hstateRoot
  rw [hchain, hheight, hblockHash, hstateRoot]

/-- What `verify_attestation` checks is the digest of the presented payload. -/
theorem Presents.verified {att : StateAttestation} {pubkey sig : Bytes}
    (h : Presents att p pubkey sig) (hverified : verifyAttestation X att = true) :
    X.verifySchnorr sig (X.sha256 p.preimage) pubkey = true := by
  unfold verifyAttestation verifyAttestationSig at hverified
  rw [h.validatorPubkey] at hverified
  dsimp only at hverified
  rw [h.signatureHex] at hverified
  dsimp only at hverified
  unfold hashAttestationPayload at hverified
  rw [h.chain, h.blockHeight, h.blockHash, h.stateRoot, Bool.and_eq_true,
    Bool.and_eq_true] at hverified
  exact hverified.2.2

/-- **A signature covers one payload.**  The preimages of two payloads are equal only if the
payloads are, and an attestation with a signature over one payload that presents another is not
accepted, unless the two preimages collide. -/
theorem attestation_payload_binds (X : Crates) (p p' : AttestationPayload) (hp : p.Fits)
    (hp' : p'.Fits) :
    (p.preimage = p'.preimage → p = p') ∧
      ∀ (att : StateAttestation) (pubkey sig : Bytes), SignatureOver X p pubkey sig →
        Presents att p' pubkey sig → verifyAttestation X att = true →
        p = p' ∨ Collide X p.preimage p'.preimage := by
  refine ⟨AttestationPayload.preimage_inj hp hp', fun att pubkey sig hsig hpresents hverified ↦ ?_⟩
  have hdigest : X.sha256 p'.preimage = X.sha256 p.preimage :=
    (hsig _).mp (hpresents.verified hverified)
  by_cases hsame : p.preimage = p'.preimage
  · exact .inl (AttestationPayload.preimage_inj hp hp' hsame)
  · exact .inr ⟨hsame, hdigest.symm⟩

/-- A byte moved from one field to the next changes the preimage. -/
theorem attestation_payload_shifted :
    AttestationPayload.preimage ⟨"JKC", 100, "AABB", "CC"⟩ ≠
      AttestationPayload.preimage ⟨"JKC", 100, "AAB", "BCC"⟩ := by
  intro hsame
  have hbinds := attestation_payload_binds demoCrates ⟨"JKC", 100, "AABB", "CC"⟩
    ⟨"JKC", 100, "AAB", "BCC"⟩ ⟨by decide, by decide, by decide⟩
    ⟨by decide, by decide, by decide⟩
  exact absurd (hbinds.1 hsame) (by decide)

end UtxoVm
