import UtxoVm.Types

/-!
# The sparse Merkle tree (`storage/smt.rs`)

A 256-level tree that stores its leaves and its non-default inner nodes.  The two hash maps are
only ever read by key, so they are functions here.
-/

namespace UtxoVm

open RustStd

def treeDepth : Nat := 256

/-- The two hash functions of the tree. -/
structure SmtHashes where
  hashLeaf : Hash → Hash → Hash
  hashNode : Hash → Hash → Hash

/-- `hash_leaf` and `hash_node`: SHA-256 under two domain tags. -/
def smtHashes (X : Crates) : SmtHashes where
  hashLeaf key value := X.sha256 (asBytes "SMT_LEAF" ++ key.toList ++ value.toList)
  hashNode left right := X.sha256 (asBytes "SMT_NODE" ++ left.toList ++ right.toList)

/-! ## 1. Bits of a key -/

/-- Bit `bitIdx` of a key, bit `0` being the most significant. -/
def bitAt (key : Hash) (bitIdx : Nat) : UInt8 :=
  (key[bitIdx / 8]! >>> UInt8.ofNat (7 - bitIdx % 8)) &&& 1

/-- The first `bitIdx` bits of a key, the rest zeroed. -/
def pathPrefix (key : Hash) (bitIdx : Nat) : Hash :=
  let fullBytes := bitIdx / 8
  let remainingBits := bitIdx % 8
  let mask : UInt8 := ~~~((1 <<< UInt8.ofNat (8 - remainingBits)) - 1)
  Vector.ofFn fun j : Fin 32 ↦
    if j < fullBytes then key[j]
    else if j = fullBytes ∧ 0 < remainingBits then key[j] &&& mask
    else 0

def flipBit (pre : Hash) (bitIdx : Nat) : Hash :=
  pre.setIfInBounds (bitIdx / 8) (pre[bitIdx / 8]! ^^^ (1 <<< UInt8.ofNat (7 - bitIdx % 8)))

/-! ## 2. The tree -/

structure SparseMerkleTree where
  leaves : Hash → Option Hash
  /-- Non-default inner nodes by level (`0` is the root) and path prefix. -/
  nodes : Nat → Hash → Option Hash
  /-- Hashes of empty subtrees by depth from the leaves. -/
  emptyHashes : List Hash
  cachedRoot : Hash
  dirty : Bool

namespace SparseMerkleTree

variable (H : SmtHashes)

def new : SparseMerkleTree :=
  let emptyHashes :=
    List.iterate (fun current ↦ H.hashNode current current) zeroHash (treeDepth + 1)
  { leaves := fun _ ↦ none
    nodes := fun _ _ ↦ none
    emptyHashes
    cachedRoot := emptyHashes[treeDepth]!
    dirty := false }

def emptyHashAtLevel (t : SparseMerkleTree) (level : Nat) : Hash :=
  t.emptyHashes[treeDepth - level]!

/-- The sibling of `key`'s node at level `bitIdx + 1`: a leaf at the last level, an inner node
above. -/
def getSiblingHash (t : SparseMerkleTree) (key : Hash) (bitIdx : Nat) : Hash :=
  if bitIdx = treeDepth - 1 then
    let siblingKey := flipBit key bitIdx
    match t.leaves siblingKey with
    | some siblingVal => H.hashLeaf siblingKey siblingVal
    | none => t.emptyHashes[0]!
  else
    let siblingPrefix := flipBit (pathPrefix key (bitIdx + 1)) bitIdx
    (t.nodes (bitIdx + 1) siblingPrefix).getD (t.emptyHashAtLevel (bitIdx + 1))

/-- The parent of the node at level `bitIdx + 1` on the path of `key`, whose hash is `current`. -/
def parentHash (t : SparseMerkleTree) (key : Hash) (bitIdx : Nat) (current : Hash) : Hash :=
  let siblingHash := t.getSiblingHash H key bitIdx
  if bitAt key bitIdx = 0 then H.hashNode current siblingHash else H.hashNode siblingHash current

/-- Store a node, or drop it when it is the default of its level. -/
def storeNode (t : SparseMerkleTree) (level : Nat) (pre hash : Hash) : SparseMerkleTree :=
  { t with
    nodes := fun l p ↦
      if l = level ∧ p = pre then
        if hash = t.emptyHashAtLevel level then none else some hash
      else t.nodes l p }

/-- The loop of `update`: `for bit_idx in (0..n).rev()`, with `current` the hash at level `n`. -/
def updatePath (key : Hash) : Nat → Hash → SparseMerkleTree → SparseMerkleTree
  | 0, _, t => t
  | bitIdx + 1, current, t =>
      let parent := t.parentHash H key bitIdx current
      updatePath key bitIdx parent (t.storeNode bitIdx (pathPrefix key bitIdx) parent)

def markDirty (t : SparseMerkleTree) : SparseMerkleTree := { t with dirty := true }

/-- Insert or overwrite a value; the zero value deletes. -/
def update (t : SparseMerkleTree) (key value : Hash) : SparseMerkleTree :=
  if value = zeroHash then
    if t.leaves key = none then t
    else
      let t := { t with leaves := fun k ↦ if k = key then none else t.leaves k }
      (updatePath H key treeDepth t.emptyHashes[0]! t).markDirty
  else
    let t := { t with leaves := fun k ↦ if k = key then some value else t.leaves k }
    (updatePath H key treeDepth (H.hashLeaf key value) t).markDirty

/-- `root()`: the cached root, refreshed when the tree has changed. -/
def root (t : SparseMerkleTree) : SparseMerkleTree × Hash :=
  if t.dirty then
    let r := (t.nodes 0 zeroHash).getD t.emptyHashes[treeDepth]!
    ({ t with cachedRoot := r, dirty := false }, r)
  else (t, t.cachedRoot)

def get (t : SparseMerkleTree) (key : Hash) : Option Hash := t.leaves key

/-- The loop of `compute_root_for_key`. -/
def climb (t : SparseMerkleTree) (key : Hash) : Nat → Hash → Hash
  | 0, current => current
  | bitIdx + 1, current => climb t key bitIdx (t.parentHash H key bitIdx current)

def computeRootForKey (t : SparseMerkleTree) (key value : Hash) : Hash :=
  t.climb H key treeDepth (H.hashLeaf key value)

end SparseMerkleTree

/-! ## 3. Inclusion proofs -/

/-- A hash of exactly 32 bytes, from its hex text. -/
def hexHash (s : String) : Option Hash :=
  match hexDecode s with
  | some bs => if h : bs.length = 32 then some ⟨bs.toArray, by simpa using h⟩ else none
  | none => none

/-- The loop of `verify_proof_static`. -/
def foldProof (H : SmtHashes) : List SmtProofNode → Hash → Option Hash
  | [], current => some current
  | node :: rest, current =>
      match hexHash node.hashHex with
      | none => none
      | some sibling =>
          if node.position = "left" then foldProof H rest (H.hashNode sibling current)
          else foldProof H rest (H.hashNode current sibling)

def verifyProof (H : SmtHashes) (root key value : Hash) (proofPath : List SmtProofNode) : Bool :=
  foldProof H proofPath (H.hashLeaf key value) == some root

/-- The sibling list of `get_proof`, from the leaf level up. -/
def SparseMerkleTree.proofPath (H : SmtHashes) (t : SparseMerkleTree) (key : Hash) :
    List SmtProofNode :=
  (List.range treeDepth).reverse.map fun bitIdx ↦
    { position := if bitAt key bitIdx = 0 then "right" else "left"
      hashHex := hexEncode (t.getSiblingHash H key bitIdx).toList }

def SparseMerkleTree.getProof (H : SmtHashes) (t : SparseMerkleTree) (key : Hash) :
    Option SmtInclusionProof :=
  match t.leaves key with
  | none => none
  | some value =>
      let path := t.proofPath H key
      let root := t.computeRootForKey H key value
      some
        { keyHex := hexEncode key.toList
          valueHex := hexEncode value.toList
          rootHex := hexEncode root.toList
          proofPath := path
          verified := verifyProof H root key value path }

end UtxoVm
