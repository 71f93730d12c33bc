import UtxoVm.Reasoning.RustStd

/-!
# Types — the records of `types.rs`, JSON values, and the third-party code

Integers (`u64`, `u32`, `i64`) are `Nat` and `Int`; the places where their width matters reduce
them explicitly.  Hashes are `[u8; 32]`, here `Vector UInt8 32`.
-/

namespace UtxoVm

open RustStd

abbrev Hash := Vector UInt8 32

def zeroHash : Hash := Vector.replicate 32 0

/-! ## 1. JSON values (`serde_json::Value`) -/

/-- `serde_json::Number`: an unsigned, a negative, or a floating-point number (its bits). -/
inductive Number where
  | posInt (n : UInt64)
  | negInt (n : Int64)
  | float (bits : UInt64)
  deriving DecidableEq, Repr

/-- `serde_json::Value`.  Objects list their members in key order (`BTreeMap`). -/
inductive Json where
  | null
  | bool (b : Bool)
  | number (n : Number)
  | string (s : String)
  | array (xs : List Json)
  | object (fields : List (String × Json))
  deriving Repr, Inhabited

namespace Json

/-- `Value::get` with a string key: `None` on anything but an object. -/
def get? (j : Json) (key : String) : Option Json :=
  match j with
  | .object fields => (fields.find? (·.1 == key)).map (·.2)
  | _ => none

/-- `Value::as_str`. -/
def asStr? : Json → Option String
  | .string s => some s
  | _ => none

def asBool? : Json → Option Bool
  | .bool b => some b
  | _ => none

def asArray? : Json → Option (List Json)
  | .array xs => some xs
  | _ => none

def asU64? : Json → Option UInt64
  | .number (.posInt n) => some n
  | _ => none

/-- `BTreeMap::insert` on a key-ordered member list. -/
def insertField (key : String) (v : Json) : List (String × Json) → List (String × Json)
  | [] => [(key, v)]
  | (k, w) :: rest =>
      if key = k then (k, v) :: rest
      else if key < k then (key, v) :: (k, w) :: rest
      else (k, w) :: insertField key v rest

mutual

/-- Nesting depth: the number of arrays and objects around the innermost value. -/
def depth : Json → Nat
  | .array xs => depthList xs + 1
  | .object fields => depthFields fields + 1
  | _ => 0

def depthList : List Json → Nat
  | [] => 0
  | x :: xs => max x.depth (depthList xs)

def depthFields : List (String × Json) → Nat
  | [] => 0
  | (_, x) :: xs => max x.depth (depthFields xs)

end

/-- `serde_json::from_slice` gives up on input nested 128 levels or deeper. -/
def recursionLimit : Nat := 128

end Json

/-! ## 2. Records -/

/-- The field `seal` (`txid:vout`) is `sealRef` here, since `seal` is a Lean keyword. -/
structure SmartObjectRecord where
  objectId : String
  codeHash : String
  sealRef : String
  satoshis : Nat
  owner : String
  stateData : Json
  createdAtBlock : Nat
  updatedAtBlock : Nat

structure StateTransitionRecord where
  txid : String
  objectId : String
  prevSeal : String
  newSeal : String
  caller : String
  method : String
  args : Json
  newState : Json
  satoshis : Nat
  blockHeight : Nat
  gasConsumed : Nat
  timestamp : Int

structure BlockRecord where
  chain : String
  blockHeight : Nat
  blockHash : String
  prevHash : Option String
  stateRoot : String
  timestamp : Int
  deriving DecidableEq

structure UndoLogRecord where
  id : Nat
  chain : String
  blockHeight : Nat
  objectId : String
  action : String
  prevCodeHash : Option String
  prevSeal : Option String
  prevSatoshis : Option Nat
  prevOwner : Option String
  prevStateData : Option Json
  prevUpdatedAtBlock : Option Nat
  prevCreatedAtBlock : Option Nat

/-- The content type is kept as the bytes of the script: the lossy UTF-8 conversion of the source
equals an ASCII string exactly when the bytes do. -/
structure UtxoVmEnvelope where
  protocol : String
  version : UInt8
  contentType : Bytes
  payload : Bytes
  metadata : Option Json

structure StateAttestation where
  chain : String
  blockHeight : Nat
  blockHash : String
  stateRoot : String
  validatorPubkey : String
  signatureHex : String
  timestamp : Int
  deriving DecidableEq, Repr

structure SmtProofNode where
  position : String
  hashHex : String
  deriving DecidableEq, Repr

structure SmtInclusionProof where
  keyHex : String
  valueHex : String
  rootHex : String
  proofPath : List SmtProofNode
  verified : Bool
  deriving DecidableEq, Repr

structure EquivocationProof where
  chain : String
  blockHeight : Nat
  validatorPubkey : String
  firstAttestation : StateAttestation
  secondAttestation : StateAttestation
  detectedAt : Int
  deriving DecidableEq, Repr

/-! The JSON text of a record nests its JSON fields one level deeper.  `serde_json::to_vec` has no
nesting limit, so a record is always written; it is read back unless it reaches the limit. -/

def SmartObjectRecord.readable (r : SmartObjectRecord) : Bool :=
  r.stateData.depth + 1 < Json.recursionLimit

def UndoLogRecord.readable (r : UndoLogRecord) : Bool :=
  match r.prevStateData with
  | some j => j.depth + 1 < Json.recursionLimit
  | none => true

def StateTransitionRecord.readable (r : StateTransitionRecord) : Bool :=
  max r.args.depth r.newState.depth + 1 < Json.recursionLimit

/-! ## 3. Third-party code -/

/-- The crates the node calls: `sha2`, `serde_json` and `secp256k1`.  Keys, signatures and nonces
are the byte strings that cross the crate's interface. -/
structure Crates where
  sha256 : Bytes → Hash
  jsonToVec : Json → Bytes
  jsonFromSlice : Bytes → Option Json
  /-- `XOnlyPublicKey::from_slice` succeeds. -/
  xonlyFromSlice : Bytes → Bool
  /-- `SecretKey::from_slice` succeeds. -/
  secretKeyFromSlice : Bytes → Bool
  /-- The serialized x-only public key of a secret key. -/
  xonlyPublicKey : Bytes → Bytes
  /-- `sign_schnorr` with a secret key, a digest and the random bytes it draws. -/
  signSchnorr : Bytes → Hash → Bytes → Bytes
  /-- `verify_schnorr` on a signature, a digest and an x-only public key. -/
  verifySchnorr : Bytes → Hash → Bytes → Bool
  /-- `PublicKey::from_slice` succeeds. -/
  publicKeyFromSlice : Bytes → Bool
  /-- `ecdsa::Signature::from_compact` succeeds. -/
  signatureFromCompact : Bytes → Bool
  /-- `verify_ecdsa` on a digest, a compact signature and a public key. -/
  verifyEcdsa : Hash → Bytes → Bytes → Bool

/-! Crates that can be evaluated: the hash is 32 copies of the largest byte, a signature is the
public key next to the digest, and the parser knows a few texts. -/

namespace Json

mutual

/-- The compact text of a value; only whole numbers that are not negative are written out. -/
def compact : Json → String
  | .null => "null"
  | .bool b => toString b
  | .number (.posInt n) => toString n.toNat
  | .number _ => "0"
  | .string s => "\"" ++ s ++ "\""
  | .array xs => "[" ++ compactList xs ++ "]"
  | .object fields => "\x7b" ++ compactFields fields ++ "\x7d"

def compactList : List Json → String
  | [] => ""
  | [x] => x.compact
  | x :: xs => x.compact ++ "," ++ compactList xs

def compactFields : List (String × Json) → String
  | [] => ""
  | [(k, x)] => "\"" ++ k ++ "\":" ++ x.compact
  | (k, x) :: xs => "\"" ++ k ++ "\":" ++ x.compact ++ "," ++ compactFields xs

end

end Json

def demoCreate : Json := .object [("op", .string "create")]

def demoCall : Json := .object []

/-- A call that hands the object to somebody else. -/
def demoTransfer (owner : String) : Json := .object [("args", .object [("to", .string owner)])]

/-- A create with a number as its state. -/
def demoCreateNumber (n : UInt64) : Json :=
  .object [("op", .string "create"), ("state", .number (.posInt n))]

/-- The largest byte, at least `1`. -/
def maxByte (bytes : Bytes) : UInt8 := bytes.foldl (fun b x ↦ if b ≤ x then x else b) 1

private theorem le_foldl_max (bytes : Bytes) (b : UInt8) :
    b.toNat ≤ (bytes.foldl (fun b x ↦ if b ≤ x then x else b) b).toNat ∧
      ∀ x ∈ bytes, x.toNat ≤ (bytes.foldl (fun b x ↦ if b ≤ x then x else b) b).toNat := by
  induction bytes generalizing b with
  | nil => simp
  | cons y ys ih =>
    have hstep : b.toNat ≤ (if b ≤ y then y else b).toNat ∧
        y.toNat ≤ (if b ≤ y then y else b).toNat := by
      split
      · rename_i hle
        exact ⟨UInt8.le_iff_toNat_le.mp hle, le_refl _⟩
      · rename_i hlt
        rw [UInt8.le_iff_toNat_le] at hlt
        omega
    obtain ⟨hb, hys⟩ := ih (if b ≤ y then y else b)
    refine ⟨hstep.1.trans hb, fun x hx ↦ ?_⟩
    rcases List.mem_cons.mp hx with rfl | hx
    · exact hstep.2.trans hb
    · exact hys x hx

theorem one_le_maxByte (bytes : Bytes) : 1 ≤ (maxByte bytes).toNat := (le_foldl_max bytes 1).1

theorem le_maxByte {bytes : Bytes} {x : UInt8} (hx : x ∈ bytes) :
    x.toNat ≤ (maxByte bytes).toNat := (le_foldl_max bytes 1).2 x hx

theorem maxByte_le {bytes : Bytes} {b : UInt8} (hb : 1 ≤ b) (h : ∀ x ∈ bytes, x ≤ b) :
    maxByte bytes ≤ b := by
  unfold maxByte
  generalize (1 : UInt8) = c at hb
  induction bytes generalizing c with
  | nil => exact hb
  | cons x rest ih =>
    rw [List.foldl_cons]
    apply ih
    · intro y hy
      exact h y (List.mem_cons_of_mem _ hy)
    · split
      · exact h x List.mem_cons_self
      · exact hb

def demoCrates : Crates where
  sha256 message := Vector.replicate 32 (maxByte message)
  jsonToVec j := asBytes j.compact
  jsonFromSlice text :=
    [demoCreate, demoCall, demoTransfer "mallory", demoTransfer "alice", demoTransfer "alice1",
      demoCreateNumber 2, demoCreateNumber 12].find? fun j ↦ text == asBytes j.compact
  xonlyFromSlice key := key.length == 32
  secretKeyFromSlice key := key.length == 32
  xonlyPublicKey key := key
  signSchnorr key digest _ := key ++ digest.toList
  verifySchnorr sig digest key := sig == key ++ digest.toList
  publicKeyFromSlice key := key.length == 33
  signatureFromCompact sig := sig.length == 64
  verifyEcdsa digest sig key := sig == key.drop 1 ++ digest.toList

theorem mem_demoCrates_sha256 {message : Bytes} {x : UInt8} :
    x ∈ (demoCrates.sha256 message).toList ↔ x = maxByte message := by
  show x ∈ (Vector.replicate 32 (maxByte message)).toList ↔ _
  simp

theorem demoCrates_sha256_ne_zero (message : Bytes) : demoCrates.sha256 message ≠ zeroHash := by
  intro h
  have hfirst : maxByte message = 0 := congrArg (·[0]) h
  have hone := one_le_maxByte message
  rw [hfirst] at hone
  simp at hone

end UtxoVm
