import UtxoVm.Types

/-!
# Attestations (`consensus/attestation.rs`)

The signed preimage, signing and verification, the attestation table of the consensus manager, and
the verification of equivocation proofs.
-/

namespace UtxoVm

open RustStd

def attestationDomain : Bytes := asBytes "UTXO_VM_ATTESTATION_V1"

/-- `u32(len(s)) || s`. -/
def lenPrefixed (s : String) : Bytes := beBytes 4 (asBytes s).length ++ asBytes s

def serializeAttestationPreimage (chain : String) (height : Nat) (blockHash stateRoot : String) :
    Bytes :=
  attestationDomain ++ lenPrefixed chain ++ beBytes 8 height ++ lenPrefixed blockHash ++
    lenPrefixed stateRoot

/-- A length prefix fixes where the string ends, as long as the length fits in the prefix. -/
theorem lenPrefixed_append_inj {s t : String} {u v : Bytes} (hs : (asBytes s).length < 2 ^ 32)
    (ht : (asBytes t).length < 2 ^ 32) (h : lenPrefixed s ++ u = lenPrefixed t ++ v) :
    s = t ∧ u = v := by
  simp only [lenPrefixed, List.append_assoc] at h
  have hstarts := List.append_inj h (by simp)
  have hlen := beBytes_inj hstarts.1
  rw [show 256 ^ 4 = 2 ^ 32 by norm_num, Nat.mod_eq_of_lt hs, Nat.mod_eq_of_lt ht] at hlen
  have hbody := List.append_inj hstarts.2 hlen
  exact ⟨asBytes_injective hbody.1, hbody.2⟩

theorem lenPrefixed_length (s : String) : (lenPrefixed s).length = 4 + (asBytes s).length := by
  simp [lenPrefixed]

/-- Preimages can be read back, as long as every string fits its prefix: no field boundary can be
shifted. -/
theorem serializeAttestationPreimage_inj_of_lt {c c' b b' r r' : String} {h h' : Nat}
    (hc : (asBytes c).length < 2 ^ 32) (hc' : (asBytes c').length < 2 ^ 32)
    (hb : (asBytes b).length < 2 ^ 32) (hb' : (asBytes b').length < 2 ^ 32)
    (hr : (asBytes r).length < 2 ^ 32) (hr' : (asBytes r').length < 2 ^ 32)
    (heq : serializeAttestationPreimage c h b r = serializeAttestationPreimage c' h' b' r') :
    c = c' ∧ h % 2 ^ 64 = h' % 2 ^ 64 ∧ b = b' ∧ r = r' := by
  simp only [serializeAttestationPreimage, List.append_assoc, List.append_cancel_left_eq] at heq
  -- field by field: each prefix tells where its string ends
  obtain ⟨rfl, hrest⟩ := lenPrefixed_append_inj hc hc' heq
  have hheight := List.append_inj hrest (by simp)
  obtain ⟨rfl, hroot⟩ := lenPrefixed_append_inj hb hb' hheight.2
  have hroots : r = r' :=
    (lenPrefixed_append_inj (u := []) (v := []) hr hr' (by simpa using hroot)).1
  refine ⟨rfl, ?_, rfl, hroots⟩
  have hmod := beBytes_inj hheight.1
  rwa [show 256 ^ 8 = 2 ^ 64 by norm_num] at hmod

/-- Preimages below 2^32 bytes can be read back. -/
theorem serializeAttestationPreimage_inj {c c' b b' r r' : String} {h h' : Nat}
    (hlt : (serializeAttestationPreimage c h b r).length < 2 ^ 32)
    (heq : serializeAttestationPreimage c h b r = serializeAttestationPreimage c' h' b' r') :
    c = c' ∧ h % 2 ^ 64 = h' % 2 ^ 64 ∧ b = b' ∧ r = r' := by
  have hlt' := hlt
  rw [heq] at hlt'
  simp only [serializeAttestationPreimage, List.length_append, lenPrefixed_length,
    beBytes_length] at hlt hlt'
  apply serializeAttestationPreimage_inj_of_lt _ _ _ _ _ _ heq <;> omega

/-- The attestation lists are keyed by `(chain, height)`; the table is only read by key. -/
structure ConsensusManager where
  knownValidators : List String
  attestations : String → Nat → List StateAttestation
  slashingProofs : List EquivocationProof
  quorumThreshold : Nat

namespace ConsensusManager

def new (quorumThreshold : Nat) : ConsensusManager :=
  { knownValidators := [], attestations := fun _ _ ↦ [], slashingProofs := [], quorumThreshold }

def registerValidator (m : ConsensusManager) (pubkeyHex : String) : ConsensusManager :=
  { m with knownValidators := m.knownValidators.insert pubkeyHex }

def getValidatorCount (m : ConsensusManager) : Nat := m.knownValidators.length

end ConsensusManager

variable (X : Crates)

def hashAttestationPayload (chain : String) (height : Nat) (blockHash stateRoot : String) : Hash :=
  X.sha256 (serializeAttestationPreimage chain height blockHash stateRoot)

/-- `sign_state_root` with the signing randomness and the clock as inputs. -/
def signStateRoot (secretKey nonce : Bytes) (chain : String) (height : Nat)
    (blockHash stateRoot : String) (now : Int) : StateAttestation :=
  let digest := hashAttestationPayload X chain height blockHash stateRoot
  { chain, blockHeight := height, blockHash, stateRoot
    validatorPubkey := hexEncode (X.xonlyPublicKey secretKey)
    signatureHex := hexEncode (X.signSchnorr secretKey digest nonce)
    timestamp := now }

/-- The signature check that `verify_attestation` and `verify_equivocation_proof` share: the hex of
a 64-byte Schnorr signature over the attestation's payload, under the x-only key `pubkeyHex`. -/
def verifyAttestationSig (pubkeyHex : String) (att : StateAttestation) : Bool :=
  match hexDecode pubkeyHex with
  | none => false
  | some pubkey =>
      X.xonlyFromSlice pubkey &&
        match hexDecode att.signatureHex with
        | none => false
        | some sig =>
            sig.length == 64 &&
              X.verifySchnorr sig
                (hashAttestationPayload X att.chain att.blockHeight att.blockHash att.stateRoot)
                pubkey

def verifyAttestation (att : StateAttestation) : Bool :=
  verifyAttestationSig X att.validatorPubkey att

/-- `add_attestation`: the new manager and whether the attestation was accepted. -/
def addAttestation (m : ConsensusManager) (att : StateAttestation) (now : Int) :
    ConsensusManager × Bool :=
  if verifyAttestation X att = false then (m, false)
  else if m.knownValidators.isEmpty then (m, false)
  else if att.validatorPubkey ∉ m.knownValidators then (m, false)
  else
    let list := m.attestations att.chain att.blockHeight
    match list.find? (·.validatorPubkey == att.validatorPubkey) with
    | some existing =>
        if existing.stateRoot ≠ att.stateRoot then
          let proof : EquivocationProof :=
            { chain := att.chain, blockHeight := att.blockHeight
              validatorPubkey := att.validatorPubkey
              firstAttestation := existing, secondAttestation := att, detectedAt := now }
          ({ m with slashingProofs := m.slashingProofs ++ [proof] }, false)
        else (m, false)
    | none =>
        ({ m with
            attestations := fun c h ↦
              if c = att.chain ∧ h = att.blockHeight then list ++ [att] else m.attestations c h },
          true)

def verifyEquivocationProof (proof : EquivocationProof) : Bool :=
  let a := proof.firstAttestation
  let b := proof.secondAttestation
  -- same validator, same chain and height, different roots, two valid signatures
  if a.validatorPubkey ≠ proof.validatorPubkey ∨ b.validatorPubkey ≠ proof.validatorPubkey then
    false
  else if a.chain ≠ proof.chain ∨ b.chain ≠ proof.chain ∨ a.blockHeight ≠ proof.blockHeight ∨
      b.blockHeight ≠ proof.blockHeight then false
  else if a.stateRoot = b.stateRoot then false
  else verifyAttestationSig X proof.validatorPubkey a &&
    verifyAttestationSig X proof.validatorPubkey b

/-- What an accepted proof shows. -/
theorem verifyEquivocationProof_sound {X : Crates} {proof : EquivocationProof}
    (h : verifyEquivocationProof X proof = true) :
    proof.firstAttestation.chain = proof.secondAttestation.chain ∧
      proof.firstAttestation.blockHeight = proof.secondAttestation.blockHeight ∧
      proof.firstAttestation.stateRoot ≠ proof.secondAttestation.stateRoot := by
  simp only [verifyEquivocationProof] at h
  split at h
  · cases h
  split at h
  · cases h
  rename_i hchain
  split at h
  · cases h
  rename_i hroot
  simp only [not_or, not_not] at hchain
  obtain ⟨hc1, hc2, hh1, hh2⟩ := hchain
  exact ⟨hc1.trans hc2.symm, hh1.trans hh2.symm, hroot⟩

end UtxoVm
