import UtxoVm.Consensus.Attestation
import UtxoVm.Reasoning.Tapscript

/-!
# The equivocation covenant (`consensus/covenants.rs`)

The tapleaf bytes and the witness stack, as the two builders produce them.
-/

namespace UtxoVm

open RustStd Tapscript

def opCat : UInt8 := 0x7e
def opSha256 : UInt8 := 0xa8
def opCheckSigVerify : UInt8 := 0xad
def opEqual : UInt8 := 0x87
def opVerify : UInt8 := 0x69
def opNot : UInt8 := 0x91
def opToAltStack : UInt8 := 0x6b
def opFromAltStack : UInt8 := 0x6c
def opDrop : UInt8 := 0x75
def opPushData1 : UInt8 := 0x4c

/-- `push_bytes`: the bytes of a minimal data push. -/
def pushBytes (data : Bytes) : Bytes :=
  if data.length ≤ 75 then UInt8.ofNat data.length :: data
  else if data.length ≤ 255 then opPushData1 :: UInt8.ofNat data.length :: data
  else 0x4d :: UInt8.ofNat data.length :: UInt8.ofNat (data.length / 256) :: data

/-- Phases 2 and 3 of the script have the same opcodes: rebuild a preimage, hash it, check a
signature, drop the digest. -/
def covenantPhase (operatorPubkey : Bytes) : Bytes :=
  [opFromAltStack] ++ pushBytes attestationDomain ++ [opCat] ++
    [opFromAltStack, opCat] ++ [opFromAltStack, opCat] ++ [opFromAltStack, opCat] ++
    [opSha256] ++ [opFromAltStack] ++ pushBytes operatorPubkey ++ [opCheckSigVerify] ++ [opDrop]

def buildEquivocationCovenant (operatorPubkey : Bytes) : Except String Bytes :=
  if operatorPubkey.length ≠ 32 then
    .error "Operator pubkey must be 32 bytes (x-only, BIP-340) for tapscript"
  else
    .ok <|
      -- Phase 1: sig_2, len_sr_field_2, len_bh_field_2, height_field_2, len_chain_field_2, sig_1,
      -- len_sr_field_1, len_bh_field_1, height_field_1, len_chain_field_1, root_2, root_1
      List.replicate 12 opToAltStack ++
      covenantPhase operatorPubkey ++
      covenantPhase operatorPubkey ++
      -- Phase 4
      [opFromAltStack, opFromAltStack, opEqual, opNot, opVerify]

/-- The witness stack, first item at the bottom, the script leaf on top. -/
def buildEquivocationWitness (root1 root2 : Bytes) (chain : String) (height : Nat)
    (blockHash1 stateRoot1 : String) (sig1 : Bytes) (blockHash2 stateRoot2 : String) (sig2 : Bytes)
    (scriptLeaf : Bytes) : List Bytes :=
  let lenChainField := lenPrefixed chain
  let heightField := beBytes 8 height
  [root1, root2,
    lenChainField, heightField, lenPrefixed blockHash1, lenPrefixed stateRoot1, sig1,
    lenChainField, heightField, lenPrefixed blockHash2, lenPrefixed stateRoot2, sig2,
    scriptLeaf]

/-! ## The script as opcodes -/

def phaseOps (operatorPubkey : Bytes) : List Op :=
  [.fromAltStack, .push attestationDomain, .cat, .fromAltStack, .cat, .fromAltStack, .cat,
    .fromAltStack, .cat, .sha256, .fromAltStack, .push operatorPubkey, .checkSigVerify, .drop]

def covenantOps (operatorPubkey : Bytes) : List Op :=
  List.replicate 12 .toAltStack ++ (phaseOps operatorPubkey ++ (phaseOps operatorPubkey ++
    [.fromAltStack, .fromAltStack, .equal, .not, .verify]))

private theorem attestationDomain_length : attestationDomain.length = 22 := by decide

theorem scan_covenantPhase (pk : Bytes) (hpk : pk.length = 32) (rest : Bytes) :
    scan (covenantPhase pk ++ rest) .opcode =
      (scan rest .opcode).map (phaseOps pk ++ ·) := by
  have hpushDomain : pushBytes attestationDomain = 22 :: attestationDomain := by
    rw [pushBytes, if_pos (by decide), attestationDomain_length]
    rfl
  have hpushKey : pushBytes pk = 32 :: pk := by
    rw [pushBytes, if_pos (by omega), hpk]
    rfl
  have hdomain : ∀ tail, scan (22 :: (attestationDomain ++ tail)) .opcode =
      (scan tail .opcode).map (.push attestationDomain :: ·) :=
    fun tail ↦ scan_push 22 _ tail attestationDomain_length (by decide) (by decide)
  have hkey : ∀ tail, scan (32 :: (pk ++ tail)) .opcode =
      (scan tail .opcode).map (.push pk :: ·) :=
    fun tail ↦ scan_push 32 _ tail hpk (by decide) (by decide)
  have hfrom := fun tail ↦ scan_op opFromAltStack .fromAltStack tail rfl
  have hcat := fun tail ↦ scan_op opCat .cat tail rfl
  have hsha := fun tail ↦ scan_op opSha256 .sha256 tail rfl
  have hsig := fun tail ↦ scan_op opCheckSigVerify .checkSigVerify tail rfl
  have hdrop := fun tail ↦ scan_op opDrop .drop tail rfl
  simp only [covenantPhase, hpushDomain, hpushKey, List.append_assoc, List.cons_append,
    List.nil_append, hfrom, hdomain, hcat, hsha, hkey, hsig, hdrop, Option.map_map]
  rfl

theorem decode_covenant {pk script : Bytes} (hscript : buildEquivocationCovenant pk = .ok script) :
    pk.length = 32 ∧ decode script = some (covenantOps pk) := by
  rw [buildEquivocationCovenant] at hscript
  split at hscript
  · cases hscript
  rename_i hpk
  rw [not_not] at hpk
  refine ⟨hpk, ?_⟩
  cases hscript
  have hphase4 : scan [opFromAltStack, opFromAltStack, opEqual, opNot, opVerify] .opcode =
      some [.fromAltStack, .fromAltStack, .equal, .not, .verify] := by decide
  simp only [decode, List.append_assoc, scan_replicate _ _ _ _ (rfl : opOfByte opToAltStack = _),
    scan_covenantPhase pk hpk, hphase4, Option.map_some, covenantOps]

end UtxoVm
