import UtxoVm.Sdk.LightLineage
import UtxoVm.Storage.SmtProofs
import UtxoVm.Reasoning.HashChain

/-!
# Merkle proofs in the light client (`sdk/src/light_verifier.ts`)

`verifySmtProof` walks along a proof as the node does.  It hashes leaves under the tag of the node,
and inner nodes without one.
-/

namespace UtxoVm

open RustStd SparseMerkleTree

/-! ## 1. Hex text -/

/-- The number that the leading hex digits denote. -/
def leadingHexDigits (cs : List Char) : Option Nat :=
  let digits := cs.takeWhile fun c ↦ (hexVal c).isSome
  if digits = [] then none else hexDigits digits 0

def stripHexPrefix : List Char → List Char
  | '0' :: 'x' :: cs => cs
  | '0' :: 'X' :: cs => cs
  | cs => cs

/-- `parseInt(s, 16)`; `none` is `NaN`. -/
def parseInt16 (s : List Char) : Option Int :=
  match s.dropWhile isJsWhitespace with
  | '-' :: cs => (leadingHexDigits (stripHexPrefix cs)).map fun n ↦ -(n : Int)
  | '+' :: cs => (leadingHexDigits (stripHexPrefix cs)).map Int.ofNat
  | cs => (leadingHexDigits (stripHexPrefix cs)).map Int.ofNat

/-- An element of a `Uint8Array`. -/
def toUint8 : Option Int → UInt8
  | none => 0
  | some n => UInt8.ofNat (n % 256).toNat

namespace LightMerkleVerifier

/-- The loop of `hexToBytes`; a last single character is written beyond the end of the array. -/
def hexPairs : List Char → Bytes
  | a :: b :: rest => toUint8 (parseInt16 [a, b]) :: hexPairs rest
  | _ => []

def hexToBytes (hex : String) : Bytes :=
  match hex.toList with
  | '0' :: 'x' :: cleanHex => hexPairs cleanHex
  | cleanHex => hexPairs cleanHex

/-- Two lower-case digits for each byte. -/
def bytesToHex (bytes : Bytes) : String := hexEncode bytes

/-! ## 2. The check -/

variable (X : Crates)

def hashNode (left right : Bytes) : Bytes := (X.sha256 (left ++ right)).toList

def hashLeaf (key value : Bytes) : Bytes := (X.sha256 (asBytes "SMT_LEAF" ++ key ++ value)).toList

def verifySmtProof (keyHex valueHex rootHex : String) (proofPath : List SmtProofNode) : Bool :=
  let key := hexToBytes keyHex
  let value := hexToBytes valueHex
  let root := hexToBytes rootHex
  let current := proofPath.foldl
    (fun current node ↦
      let sibling := hexToBytes node.hashHex
      if node.position = "left" then hashNode X sibling current else hashNode X current sibling)
    (hashLeaf X key value)
  bytesToHex current == bytesToHex root

/-! ## 3. Hex text of whole hashes -/

variable {X}

theorem hexVal_not_whitespace {c : Char} {n : Nat} (h : hexVal c = some n) :
    isJsWhitespace c = false := by
  have hrange : 48 ≤ c.toNat ∧ c.toNat ≤ 102 := by
    simp only [hexVal, Char.le_def, UInt32.le_iff_toNat_le] at h
    split at h
    · rename_i hdigit
      exact ⟨hdigit.1, le_trans hdigit.2 (by decide)⟩
    split at h
    · rename_i hlower
      exact ⟨le_trans (by decide) hlower.1, hlower.2⟩
    split at h
    · rename_i hupper
      exact ⟨le_trans (by decide) hupper.1, le_trans hupper.2 (by decide)⟩
    · cases h
  unfold isJsWhitespace isWhitespace
  grind

theorem parseInt16_pair {a b : Char} {x y : Nat} (ha : hexVal a = some x) (hb : hexVal b = some y) :
    parseInt16 [a, b] = some ((16 * x + y : Nat) : Int) := by
  have hdigits : leadingHexDigits [a, b] = some (16 * x + y) := by
    simp [leadingHexDigits, hexDigits, ha, hb]
  have hbare : stripHexPrefix [a, b] = [a, b] := by
    unfold stripHexPrefix
    split
    · rename_i heq
      cases heq
      cases hb
    · rename_i heq
      cases heq
      cases hb
    · rfl
  unfold parseInt16
  rw [List.dropWhile_cons_of_neg (by simp [hexVal_not_whitespace ha])]
  split
  · rename_i heq
    cases heq
    cases ha
  · rename_i heq
    cases heq
    cases ha
  · rw [hbare, hdigits]
    rfl

theorem hexPairs_eq {cs : List Char} {bs : Bytes} (h : hexDecodeChars cs = some bs) :
    hexPairs cs = bs := by
  induction cs using hexDecodeChars.induct generalizing bs with
  | case1 =>
    cases h
    rfl
  | case2 c => cases h
  | case3 a b rest ih =>
    simp only [hexDecodeChars, Option.bind_eq_bind, Option.bind_eq_some_iff, Option.pure_def,
      Option.some.injEq] at h
    obtain ⟨x, hx, y, hy, tail, htail, rfl⟩ := h
    have hpair : toUint8 (parseInt16 [a, b]) = UInt8.ofNat (16 * x + y) := by
      have hlt := hexVal_lt hx
      have hlt' := hexVal_lt hy
      rw [parseInt16_pair hx hy]
      show UInt8.ofNat (((16 * x + y : Nat) : Int) % 256).toNat = _
      congr 1
      omega
    unfold hexPairs
    rw [hpair, ih htail]

/-- Hex text that the node can read is read the same way. -/
theorem hexToBytes_eq {s : String} {bs : Bytes} (h : hexDecode s = some bs) :
    hexToBytes s = bs := by
  unfold hexDecode at h
  unfold hexToBytes
  split
  · rename_i cs heq
    simp [heq, hexDecodeChars, hexVal] at h
  · exact hexPairs_eq h

theorem hexToBytes_of_hexHash {s : String} {hash : Hash} (h : hexHash s = some hash) :
    hexToBytes s = hash.toList := by
  unfold hexHash at h
  cases hdecode : hexDecode s with
  | none => simp [hdecode] at h
  | some bs =>
    rw [hdecode] at h
    dsimp only at h
    split at h
    · cases h
      rw [hexToBytes_eq hdecode]
      simp [Vector.toList]
    · cases h

/-! ## 4. Two chains -/

/-- The input of the hash above `current`, under a tag. -/
def nodeInput (tag : Bytes) (node : SmtProofNode) (current : Hash) : Bytes :=
  let sibling := (hexHash node.hashHex).getD zeroHash
  if node.position = "left" then tag ++ sibling.toList ++ current.toList
  else tag ++ current.toList ++ sibling.toList

def pathSteps (tag : Bytes) (path : List SmtProofNode) : List (Hash → Bytes) :=
  path.map (nodeInput tag)

def leafInput (key value : Hash) : Bytes := asBytes "SMT_LEAF" ++ key.toList ++ value.toList

/-- Where a path leads from a leaf, if inner nodes are hashed under the tag. -/
def pathEnd (X : Crates) (tag : Bytes) (key value : Hash) (path : List SmtProofNode) : Hash :=
  HashChain.result X.sha256 (pathSteps tag path) (leafInput key value)

/-- Every sibling of the path is the hex text of a hash. -/
def WellFormedPath (path : List SmtProofNode) : Prop :=
  ∀ node ∈ path, ∃ hash, hexHash node.hashHex = some hash

theorem foldProof_eq_result {path : List SmtProofNode} (hpath : WellFormedPath path)
    (input : Bytes) : foldProof (smtHashes X) path (X.sha256 input) =
      some (HashChain.result X.sha256 (pathSteps (asBytes "SMT_NODE") path) input) := by
  induction path generalizing input with
  | nil => rfl
  | cons node path ih =>
    obtain ⟨sibling, hsibling⟩ := hpath node List.mem_cons_self
    have hrest : WellFormedPath path := fun n hn ↦ hpath n (List.mem_cons_of_mem _ hn)
    rw [foldProof_cons, proofStep, hsibling]
    unfold pathSteps
    rw [List.map_cons, HashChain.result, ← pathSteps, ← ih hrest, nodeInput, hsibling]
    show foldProof (smtHashes X) path (HashInput.digest (smtHashes X) (if _ then _ else _)) = _
    split <;> rfl

theorem foldl_eq_result {path : List SmtProofNode} (hpath : WellFormedPath path) (input : Bytes) :
    path.foldl
      (fun current node ↦
        let sibling := hexToBytes node.hashHex
        if node.position = "left" then hashNode X sibling current else hashNode X current sibling)
      (X.sha256 input).toList =
    (HashChain.result X.sha256 (pathSteps [] path) input).toList := by
  induction path generalizing input with
  | nil => rfl
  | cons node path ih =>
    obtain ⟨sibling, hsibling⟩ := hpath node List.mem_cons_self
    have hrest : WellFormedPath path := fun n hn ↦ hpath n (List.mem_cons_of_mem _ hn)
    unfold pathSteps
    rw [List.map_cons, HashChain.result, ← pathSteps, ← ih hrest, List.foldl_cons, nodeInput,
      hexToBytes_of_hexHash hsibling, hsibling]
    dsimp only [Option.getD_some, List.nil_append]
    split <;> rfl

theorem verifyProof_iff {path : List SmtProofNode} (hpath : WellFormedPath path)
    (key value root : Hash) : verifyProof (smtHashes X) root key value path = true ↔
      pathEnd X (asBytes "SMT_NODE") key value path = root := by
  unfold verifyProof
  show (foldProof (smtHashes X) path (X.sha256 (leafInput key value)) == some root) = true ↔ _
  rw [foldProof_eq_result hpath]
  simp [pathEnd]

theorem verifySmtProof_iff {path : List SmtProofNode} (hpath : WellFormedPath path)
    {keyHex valueHex rootHex : String} {key value root : Hash} (hkey : hexHash keyHex = some key)
    (hvalue : hexHash valueHex = some value) (hroot : hexHash rootHex = some root) :
    verifySmtProof X keyHex valueHex rootHex path = true ↔
      pathEnd X [] key value path = root := by
  unfold verifySmtProof
  rw [hexToBytes_of_hexHash hkey, hexToBytes_of_hexHash hvalue, hexToBytes_of_hexHash hroot]
  show (bytesToHex (path.foldl _ (X.sha256 (leafInput key value)).toList) ==
    bytesToHex _) = true ↔ _
  rw [foldl_eq_result hpath, beq_iff_eq]
  exact hexEncode_injective.eq_iff.trans Vector.toList_inj

/-- The node's chain and the SDK's chain end in one digest. -/
def Coincide (X : Crates) (key value : Hash) (path : List SmtProofNode) : Prop :=
  pathEnd X (asBytes "SMT_NODE") key value path = pathEnd X [] key value path

theorem coincide_nil (key value : Hash) : Coincide X key value [] := rfl

theorem nodeInput_length (tag : Bytes) (node : SmtProofNode) (current : Hash) :
    (nodeInput tag node current).length = tag.length + 64 := by
  unfold nodeInput
  dsimp only
  split <;> simp [Vector.length_toList]

/-- The inputs of the node are eight bytes longer than those of the SDK. -/
theorem nodeInput_ne (node node' : SmtProofNode) (current current' : Hash) :
    nodeInput (asBytes "SMT_NODE") node current ≠ nodeInput [] node' current' := by
  intro heq
  have hlength := congrArg List.length heq
  rw [nodeInput_length, nodeInput_length] at hlength
  exact absurd hlength (by decide)

/-- Two different strings that the node and the SDK hash at one step of the path have one digest. -/
def Collides (X : Crates) (key value : Hash) (path : List SmtProofNode) : Prop :=
  ∃ p ∈ (HashChain.inputs X.sha256 (pathSteps (asBytes "SMT_NODE") path)
        (leafInput key value)).zip
      (HashChain.inputs X.sha256 (pathSteps [] path) (leafInput key value)),
    p.1 ≠ p.2 ∧ X.sha256 p.1 = X.sha256 p.2

/-- Above the leaf the chains hash different inputs, so that they end in one digest only if two of
these collide. -/
theorem Coincide.collides {key value : Hash} {node : SmtProofNode} {path : List SmtProofNode}
    (h : Coincide X key value (node :: path)) : Collides X key value (node :: path) := by
  have hsteps : List.Forall₂ (fun step step' : Hash → Bytes ↦ ∀ d d', step d = step' d' → d = d')
      (pathSteps (asBytes "SMT_NODE") path) (pathSteps [] path) := by
    unfold pathSteps
    rw [List.forall₂_map_left_iff, List.forall₂_map_right_iff]
    exact List.forall₂_same.mpr fun node _ d d' heq ↦ absurd heq (nodeInput_ne node node d d')
  obtain ⟨p, hp, hcollision⟩ := HashChain.exists_collision hsteps
    (nodeInput_ne node node (X.sha256 (leafInput key value)) (X.sha256 (leafInput key value))) h
  exact ⟨p, List.mem_cons_of_mem _ hp, hcollision⟩

theorem proofPath_wellFormed (t : SparseMerkleTree) (key : Hash) :
    WellFormedPath (t.proofPath (smtHashes X) key) := by
  intro node hnode
  obtain ⟨bitIdx, -, rfl⟩ := List.mem_map.mp hnode
  exact ⟨_, hexHash_hexEncode _⟩

theorem verifySmtProof_genuine_iff {t : SparseMerkleTree} (ht : t.WellFormed (smtHashes X))
    {key value : Hash} (hvalue : t.get key = some value) {proof : SmtInclusionProof}
    (hproof : t.getProof (smtHashes X) key = some proof) :
    verifySmtProof X proof.keyHex proof.valueHex proof.rootHex proof.proofPath = true ↔
      Coincide X key value proof.proofPath := by
  have hpath := proofPath_wellFormed (X := X) t key
  have hroot := computeRootForKey_eq ht hvalue
  unfold getProof at hproof
  rw [show t.leaves key = some value from hvalue] at hproof
  cases hproof
  rw [verifySmtProof_iff hpath (hexHash_hexEncode _) (hexHash_hexEncode _) (hexHash_hexEncode _),
    hroot, Coincide,
    (verifyProof_iff hpath key value t.root.2).mp (verifyProof_proofPath ht hvalue)]
  exact eq_comm

/-- On a path that is not empty, no root is accepted by both. -/
theorem not_both_accept {key value : Hash} {path : List SmtProofNode} (hpath : WellFormedPath path)
    (hfree : ¬ Collides X key value path) (hne : path ≠ []) {keyHex valueHex rootHex : String}
    {root : Hash} (hkey : hexHash keyHex = some key) (hvalue : hexHash valueHex = some value)
    (hroot : hexHash rootHex = some root) :
    ¬ (verifySmtProof X keyHex valueHex rootHex path = true ∧
      verifyProof (smtHashes X) root key value path = true) := by
  rw [verifySmtProof_iff hpath hkey hvalue hroot, verifyProof_iff hpath]
  rintro ⟨hsdk, hnode⟩
  have hends : Coincide X key value path := hnode.trans hsdk.symm
  cases path with
  | nil => exact hne rfl
  | cons node rest => exact hfree hends.collides

/-- The root that the node computes tells the two verifiers apart. -/
theorem agree_iff_nil {key value : Hash} {path : List SmtProofNode} (hpath : WellFormedPath path)
    (hfree : ¬ Collides X key value path) {keyHex valueHex : String}
    (hkey : hexHash keyHex = some key) (hvalue : hexHash valueHex = some value) :
    (∀ rootHex root, hexHash rootHex = some root →
      verifySmtProof X keyHex valueHex rootHex path =
        verifyProof (smtHashes X) root key value path) ↔ path = [] := by
  constructor
  · intro hagree
    by_contra hne
    -- the node accepts the root that it computes, and then the SDK would have to
    have hroot := hexHash_hexEncode (pathEnd X (asBytes "SMT_NODE") key value path)
    have haccepts := (verifyProof_iff (X := X) hpath key value _).mpr rfl
    exact not_both_accept hpath hfree hne hkey hvalue hroot
      ⟨(hagree _ _ hroot).trans haccepts, haccepts⟩
  · rintro rfl rootHex root hroot
    rw [Bool.eq_iff_iff, verifySmtProof_iff hpath hkey hvalue hroot, verifyProof_iff hpath,
      coincide_nil key value]

theorem getProof_path_ne_nil {t : SparseMerkleTree} {key : Hash} {proof : SmtInclusionProof}
    (hproof : t.getProof (smtHashes X) key = some proof) :
    proof.proofPath = t.proofPath (smtHashes X) key ∧ proof.proofPath ≠ [] := by
  unfold getProof at hproof
  split at hproof
  · cases hproof
  · cases hproof
    refine ⟨rfl, List.ne_nil_of_length_pos ?_⟩
    rw [proofPath_length]
    decide

/-- **The SDK and the node agree on an empty path only**, short of a hash collision along the path:
the SDK refuses every proof that the node makes, and on a path that is not empty there is a root on
which they differ, and none that both accept. -/
theorem sdk_agrees_iff (X : Crates) :
    (∀ updates key proof value,
      (ofUpdates (smtHashes X) updates).get key = some value →
      (ofUpdates (smtHashes X) updates).getProof (smtHashes X) key = some proof →
      ¬ Collides X key value proof.proofPath →
      verifySmtProof X proof.keyHex proof.valueHex proof.rootHex proof.proofPath = false) ∧
    ∀ keyHex valueHex key value path,
      hexHash keyHex = some key → hexHash valueHex = some value → WellFormedPath path →
      ¬ Collides X key value path →
      ((∀ rootHex root, hexHash rootHex = some root →
          verifySmtProof X keyHex valueHex rootHex path =
            verifyProof (smtHashes X) root key value path) ↔ path = []) ∧
        (path ≠ [] → ∀ rootHex root, hexHash rootHex = some root →
          ¬ (verifySmtProof X keyHex valueHex rootHex path = true ∧
            verifyProof (smtHashes X) root key value path = true)) := by
  constructor
  · intro updates key proof value hvalue hproof hfree
    rw [Bool.eq_false_iff]
    intro haccepts
    have hcoincide :=
      (verifySmtProof_genuine_iff (ofUpdates_wellFormed updates) hvalue hproof).mp haccepts
    obtain ⟨-, hne⟩ := getProof_path_ne_nil hproof
    cases hpath : proof.proofPath with
    | nil => exact hne hpath
    | cons node rest =>
      rw [hpath] at hcoincide hfree
      exact hfree hcoincide.collides
  · intro keyHex valueHex key value path hkey hvalue hpath hfree
    exact ⟨agree_iff_nil hpath hfree hkey hvalue,
      fun hne rootHex root hroot ↦ not_both_accept hpath hfree hne hkey hvalue hroot⟩

/-- A hash of the length of its input. -/
def demoLengths : Crates :=
  { demoCrates with sha256 := fun message ↦ Vector.replicate 32 (UInt8.ofNat message.length) }

theorem demoLengths_pathEnd (tag : Bytes) (key value : Hash) {path : List SmtProofNode}
    (hpath : path ≠ []) : pathEnd demoLengths tag key value path =
      Vector.replicate 32 (UInt8.ofNat (tag.length + 64)) := by
  unfold pathEnd
  generalize leafInput key value = input
  induction path generalizing input with
  | nil => exact absurd rfl hpath
  | cons node path ih =>
    unfold pathSteps
    rw [List.map_cons, HashChain.result, ← pathSteps]
    cases path with
    | nil =>
      show Vector.replicate 32 (UInt8.ofNat (nodeInput tag node _).length) = _
      rw [nodeInput_length]
    | cons next rest => exact ih (List.cons_ne_nil _ _) _

/-- The inputs of the two verifiers differ in their length wherever they differ. -/
theorem demoLengths_not_collides (key value : Hash) (path : List SmtProofNode) :
    ¬ Collides demoLengths key value path := by
  have hinputs (x x' : Bytes) (h : x = x' ∨ x.length = 72 ∧ x'.length = 64) :
      ∀ p ∈ (HashChain.inputs demoLengths.sha256 (pathSteps (asBytes "SMT_NODE") path) x).zip
        (HashChain.inputs demoLengths.sha256 (pathSteps [] path) x'),
        p.1 = p.2 ∨ p.1.length = 72 ∧ p.2.length = 64 := by
    induction path generalizing x x' with
    | nil => simpa [pathSteps, HashChain.inputs] using h
    | cons node path ih =>
      rintro p (_ | ⟨_, hp⟩)
      · exact h
      · refine ih _ _ (.inr ⟨?_, ?_⟩) p hp
        · exact nodeInput_length ..
        · exact nodeInput_length ..
  rintro ⟨p, hp, hne, hdigest⟩
  rcases hinputs _ _ (.inl rfl) p hp with heq | ⟨hnode, hsdk⟩
  · exact hne heq
  · change Vector.replicate 32 (UInt8.ofNat p.1.length) =
      .replicate 32 (.ofNat p.2.length) at hdigest
    rw [hnode, hsdk] at hdigest
    have hbytes : Vector.replicate 32 (UInt8.ofNat 72) ≠ .replicate 32 (.ofNat 64) := by decide
    exact hbytes hdigest

def demoProved : SparseMerkleTree :=
  ofUpdates (smtHashes demoLengths) [(zeroHash, Vector.replicate 32 1)]

theorem demoProved_get : demoProved.get zeroHash = some (Vector.replicate 32 1) := by
  show demoProved.leaves zeroHash = _
  unfold demoProved
  rw [ofUpdates_leaves]
  decide

theorem demoProved_proof :
    ∃ proof, demoProved.getProof (smtHashes demoLengths) zeroHash = some proof := by
  unfold getProof
  rw [show demoProved.leaves zeroHash = _ from demoProved_get]
  exact ⟨_, rfl⟩

/-- A proof of 256 nodes: the SDK refuses it, and does not answer as the node does. -/
theorem sdk_agrees_iff_proved :
    ∃ proof, demoProved.getProof (smtHashes demoLengths) zeroHash = some proof ∧
      proof.proofPath.length = 256 ∧
      verifySmtProof demoLengths proof.keyHex proof.valueHex proof.rootHex proof.proofPath =
        false ∧
      ¬ ∀ rootHex root, hexHash rootHex = some root →
        verifySmtProof demoLengths (hexEncode zeroHash.toList)
            (hexEncode (Vector.replicate 32 (1 : UInt8)).toList) rootHex proof.proofPath =
          verifyProof (smtHashes demoLengths) root zeroHash (Vector.replicate 32 1)
            proof.proofPath := by
  obtain ⟨proof, hproof⟩ := demoProved_proof
  obtain ⟨hpath, hne⟩ := getProof_path_ne_nil hproof
  have hfree := demoLengths_not_collides zeroHash (Vector.replicate 32 1) proof.proofPath
  refine ⟨proof, hproof, by rw [hpath, proofPath_length]; rfl,
    (sdk_agrees_iff demoLengths).1 _ _ proof _ demoProved_get hproof hfree, fun hagree ↦ ?_⟩
  refine hne (((sdk_agrees_iff demoLengths).2 _ _ _ _ _ (hexHash_hexEncode _) (hexHash_hexEncode _)
    ?_ hfree).1.mp hagree)
  rw [hpath]
  exact proofPath_wellFormed demoProved zeroHash

/-- **The SDK refuses what the node has proved.** -/
theorem sdk_refuses_genuine :
    ∃ proof, demoProved.getProof (smtHashes demoLengths) zeroHash = some proof ∧
      verifyProof (smtHashes demoLengths) demoProved.root.2 zeroHash (Vector.replicate 32 1)
        proof.proofPath = true ∧
      verifySmtProof demoLengths proof.keyHex proof.valueHex proof.rootHex proof.proofPath =
        false := by
  obtain ⟨proof, hproof⟩ := demoProved_proof
  have ht : demoProved.WellFormed (smtHashes demoLengths) := ofUpdates_wellFormed _
  obtain ⟨hpath, hne⟩ := getProof_path_ne_nil hproof
  refine ⟨proof, hproof, ?_, Bool.eq_false_iff.mpr fun haccepted ↦ ?_⟩
  · rw [hpath]
    exact verifyProof_proofPath ht demoProved_get
  · have hends := (verifySmtProof_genuine_iff ht demoProved_get hproof).mp haccepted
    unfold Coincide at hends
    rw [demoLengths_pathEnd _ _ _ hne, demoLengths_pathEnd _ _ _ hne] at hends
    exact absurd (congrArg (·[0]) hends) (by decide)

end LightMerkleVerifier

end UtxoVm
