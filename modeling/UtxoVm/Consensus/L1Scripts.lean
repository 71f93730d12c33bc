import UtxoVm.Consensus.Covenants
import UtxoVm.Reasoning.ScriptNum

/-!
# L1 scripts (`consensus/l1_scripts.rs`)

The leaves of the operator vault and of the challenge output, the escape script of a user, and the
script trees over the leaves.
-/

namespace UtxoVm

open RustStd ScriptNum

def opCheckSequenceVerify : UInt8 := 0xb2
def opCheckSig : UInt8 := 0xac
def opReturn : UInt8 := 0x6a
def taprootLeafVersion : UInt8 := 0xc0

structure VaultConfig where
  operatorPubkey : Bytes
  challengerPubkey : Bytes
  unbondDelay : UInt32
  claimDelay : UInt32

structure ChallengeUtxoConfig where
  challengerPubkey : Bytes
  operatorPubkey : Bytes
  claimDelay : UInt32

structure VaultScriptTree where
  operatorLeaf : Bytes
  challengeLeaf : Bytes

structure ChallengeScriptTree where
  claimLeaf : Bytes
  rebutLeaf : Bytes

/-! ## 1. Leaves -/

/-- `push_minimal_uint`, on a `u64`. -/
def pushMinimalUint (value : Nat) : Bytes :=
  if value = 0 then [0x00]
  else if value ≤ 16 then [UInt8.ofNat (0x50 + value)]
  else if value ≤ 0xff then 0x01 :: leBytes 1 value
  else if value ≤ 0xffff then 0x02 :: leBytes 2 value
  else if value ≤ 0xffffff then 0x03 :: leBytes 3 value
  else 0x04 :: leBytes 4 value

/-- `<delay> CSV DROP <pubkey> CHECKSIG`. -/
def timelockLeaf (delay : UInt32) (pubkey : Bytes) : Bytes :=
  pushMinimalUint delay.toNat ++ [opCheckSequenceVerify, opDrop] ++ 32 :: pubkey ++ [opCheckSig]

def buildOperatorUnbondLeaf (operatorPubkey : Bytes) (unbondDelay : UInt32) :
    Except String Bytes :=
  if operatorPubkey.length ≠ 32 then .error "Operator pubkey must be 32 bytes (x-only)"
  else .ok (timelockLeaf unbondDelay operatorPubkey)

/-- The key is compressed, and loses its first byte. -/
def buildSilenceEscapeScript (userPubkey : Bytes) (silenceDelay : UInt32) : Except String Bytes :=
  if userPubkey.length ≠ 33 then .error "User pubkey must be 33 bytes (compressed)"
  else .ok (timelockLeaf silenceDelay (userPubkey.drop 1))

def buildVaultScriptTree (config : VaultConfig) : Except String VaultScriptTree := do
  if config.operatorPubkey.length ≠ 32 then
    throw "Operator pubkey must be 32 bytes (x-only, BIP-340)"
  if config.challengerPubkey.length ≠ 32 then
    throw "Challenger pubkey must be 32 bytes (x-only, BIP-340)"
  let operatorLeaf ← buildOperatorUnbondLeaf config.operatorPubkey config.unbondDelay
  let challengeLeaf ← buildEquivocationCovenant config.operatorPubkey
  return { operatorLeaf, challengeLeaf }

def buildChallengeClaimScriptTree (config : ChallengeUtxoConfig) :
    Except String ChallengeScriptTree :=
  if config.challengerPubkey.length ≠ 32 then
    .error "Challenger pubkey must be 32 bytes (x-only, BIP-340)"
  else if config.operatorPubkey.length ≠ 32 then
    .error "Operator pubkey must be 32 bytes (x-only, BIP-340)"
  else
    .ok
      { claimLeaf := timelockLeaf config.claimDelay config.challengerPubkey
        rebutLeaf := 32 :: config.operatorPubkey ++ [opCheckSig] }

/-! ## 2. Script trees -/

/-- The compact size of a length (on a 64-bit machine). -/
def pushSizeCompact (len : Nat) : Bytes :=
  if len < 0xfd then [UInt8.ofNat len]
  else if len ≤ 0xffff then 0xfd :: leBytes 2 len
  else if len ≤ 0xffffffff then 0xfe :: leBytes 4 len
  else 0xff :: leBytes 8 len

variable (X : Crates)

/-- The tagged hash of BIP-341. -/
def taggedHash (tag : String) (data : Bytes) : Bytes :=
  let tagHash := (X.sha256 (asBytes tag)).toList
  (X.sha256 (tagHash ++ tagHash ++ data)).toList

def tapleafHash (script : Bytes) : Bytes :=
  taggedHash X "TapLeaf" (taprootLeafVersion :: pushSizeCompact script.length ++ script)

/-- The root over two leaves, the smaller hash first. -/
def scriptTreeRoot (leftLeaf rightLeaf : Bytes) : Bytes :=
  let left := tapleafHash X leftLeaf
  let right := tapleafHash X rightLeaf
  taggedHash X "TapBranch" (if left < right then left ++ right else right ++ left)

/-- The output script of a tree without a key path; the tweak stands in for the tweaked key. -/
def p2trOutputScript (merkleRoot : Bytes) : Bytes :=
  let tweak := taggedHash X "TapTweak" (List.replicate 32 0 ++ merkleRoot)
  0x51 :: 32 :: tweak.take 32

end UtxoVm
