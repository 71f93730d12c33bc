import UtxoVm.Storage.SmtRoot

/-!
# Runs of the sparse Merkle tree and its inclusion proofs

Every sequence of updates gives the tree of the values written last; the proofs that `get_proof`
hands out verify, and no path proves a value that the tree does not hold, unless the hash functions
collide on what the tree and the verifier have hashed.
-/

namespace UtxoVm

open RustStd SparseTree

namespace SparseMerkleTree

variable (H : SmtHashes)

/-! ## 1. Sequences of updates -/

/-- The tree after a sequence of updates of the empty tree. -/
def ofUpdates (updates : List (Hash × Hash)) : SparseMerkleTree :=
  updates.foldl (fun t u ↦ t.update H u.1 u.2) (new H)

/-- The value of the last update of a key; the zero value deletes. -/
def finalValue (updates : List (Hash × Hash)) (key : Hash) : Option Hash :=
  match updates.reverse.find? fun u ↦ u.1 == key with
  | some u => if u.2 = zeroHash then none else some u.2
  | none => none

variable {H}

theorem ofUpdates_append (updates : List (Hash × Hash)) (u : Hash × Hash) :
    ofUpdates H (updates ++ [u]) = (ofUpdates H updates).update H u.1 u.2 := by
  simp [ofUpdates, List.foldl_append]

theorem finalValue_append (updates : List (Hash × Hash)) (u : Hash × Hash) (key : Hash) :
    finalValue (updates ++ [u]) key =
      if key = u.1 then (if u.2 = zeroHash then none else some u.2)
      else finalValue updates key := by
  unfold finalValue
  rw [List.reverse_append, List.reverse_singleton, List.singleton_append, List.find?_cons]
  by_cases hkey : key = u.1
  · rw [if_pos hkey, hkey]
    simp
  · rw [if_neg hkey, show (u.1 == key) = false by simpa using Ne.symm hkey]

theorem ofUpdates_wellFormed (updates : List (Hash × Hash)) :
    (ofUpdates H updates).WellFormed H := by
  induction updates using List.reverseRecOn with
  | nil => exact new_wellFormed H
  | append_singleton updates u ih =>
    rw [ofUpdates_append]
    exact update_wellFormed ih u.1 u.2

theorem ofUpdates_leaves (updates : List (Hash × Hash)) :
    (ofUpdates H updates).leaves = finalValue updates := by
  induction updates using List.reverseRecOn with
  | nil => rfl
  | append_singleton updates u ih =>
    funext key
    rw [ofUpdates_append, update_leaves, finalValue_append, ih]

theorem root_ofUpdates (updates : List (Hash × Hash)) :
    (ofUpdates H updates).root.2 = smtRoot H (finalValue updates) := by
  rw [root_eq (ofUpdates_wellFormed updates), ofUpdates_leaves]

/-- **Refinement.**  After any updates the root is that of the full binary tree over the values
written last, and so it does not depend on the history. -/
theorem ofUpdates_root (H : SmtHashes) (updates : List (Hash × Hash)) :
    (ofUpdates H updates).root.2 = smtRoot H (finalValue updates) ∧
      ∀ updates' : List (Hash × Hash), finalValue updates' = finalValue updates →
        (ofUpdates H updates').root.2 = (ofUpdates H updates).root.2 := by
  refine ⟨root_ofUpdates updates, fun updates' hvalues ↦ ?_⟩
  rw [root_ofUpdates, root_ofUpdates, hvalues]

/-- Writing, deleting and writing again is writing once. -/
theorem ofUpdates_root_rewrite :
    (ofUpdates (smtHashes demoCrates) [(zeroHash, Vector.replicate 32 1), (zeroHash, zeroHash),
        (zeroHash, Vector.replicate 32 2)]).root.2 =
      (ofUpdates (smtHashes demoCrates) [(zeroHash, Vector.replicate 32 2)]).root.2 := by
  refine (ofUpdates_root (smtHashes demoCrates) [(zeroHash, Vector.replicate 32 2)]).2 _ ?_
  funext key
  by_cases hkey : key = zeroHash
  · simp [finalValue, hkey]
  · simp [finalValue, Ne.symm hkey]

/-! ## 2. Completeness -/

theorem hexHash_hexEncode (h : Hash) : hexHash (hexEncode h.toList) = some h := by
  unfold hexHash
  rw [hexDecode_hexEncode]
  simp [Vector.toList]

/-- Re-hashing from any level of a well-formed tree leads to its root. -/
theorem climb_eq {t : SparseMerkleTree} (ht : t.WellFormed H) (key : Hash) {n : Nat}
    (hn : n ≤ treeDepth) :
    t.climb H key n (subtreeHash H t.leaves n key) = subtreeHash H t.leaves 0 key := by
  induction n with
  | zero => rfl
  | succ i ih =>
    have hparent := @parentHash_eq H t key i (by omega) ht.empties
      fun l k hl _ ↦ ht.nodes l k hl trivial
    unfold climb
    rw [hparent]
    exact ih (by omega)

/-- The verifier walks the path of `get_proof` exactly as the tree does. -/
theorem foldProof_path (t : SparseMerkleTree) (key : Hash) (n : Nat) (current : Hash) :
    foldProof H ((List.range n).reverse.map fun bitIdx ↦
        { position := if bitAt key bitIdx = 0 then "right" else "left"
          hashHex := hexEncode (t.getSiblingHash H key bitIdx).toList }) current =
      some (t.climb H key n current) := by
  induction n generalizing current with
  | zero => rfl
  | succ n ih =>
    rw [List.range_succ, List.reverse_append, List.reverse_singleton, List.singleton_append,
      List.map_cons]
    unfold foldProof climb parentHash
    rw [hexHash_hexEncode]
    dsimp only
    by_cases hbit : bitAt key n = 0
    · rw [if_pos hbit, if_pos hbit, if_neg (by decide)]
      exact ih _
    · rw [if_neg hbit, if_neg hbit, if_pos rfl]
      exact ih _

theorem computeRootForKey_eq {t : SparseMerkleTree} (ht : t.WellFormed H) {key value : Hash}
    (hvalue : t.get key = some value) : t.computeRootForKey H key value = t.root.2 := by
  have hleaf : H.hashLeaf key value = subtreeHash H t.leaves treeDepth key := by
    rw [subtreeHash_leaf]
    unfold leafHash
    rw [show t.leaves key = some value from hvalue]
  unfold computeRootForKey
  rw [hleaf, climb_eq ht key le_rfl, root_eq ht]
  exact subtreeHash_congr (by omega) (fun i hi ↦ by omega) fun _ _ ↦ rfl

theorem verifyProof_proofPath {t : SparseMerkleTree} (ht : t.WellFormed H) {key value : Hash}
    (hvalue : t.get key = some value) :
    verifyProof H t.root.2 key value (t.proofPath H key) = true := by
  unfold verifyProof proofPath
  rw [foldProof_path, ← computeRootForKey_eq ht hvalue]
  simp [computeRootForKey]

theorem proofPath_length (t : SparseMerkleTree) (key : Hash) :
    (t.proofPath H key).length = treeDepth := by
  simp [proofPath]

/-- **Completeness of inclusion proofs.** -/
theorem getProof_complete (H : SmtHashes) (updates : List (Hash × Hash)) (key : Hash) :
    match (ofUpdates H updates).get key with
    | none => (ofUpdates H updates).getProof H key = none
    | some value => ∃ proof, (ofUpdates H updates).getProof H key = some proof ∧
        proof.proofPath.length = 256 ∧
        proof.rootHex = hexEncode (ofUpdates H updates).root.2.toList ∧
        proof.valueHex = hexEncode value.toList ∧
        ∃ root, hexHash proof.rootHex = some root ∧
          verifyProof H root key value proof.proofPath = true := by
  have ht := ofUpdates_wellFormed (H := H) updates
  generalize ofUpdates H updates = t at ht
  cases hvalue : t.get key with
  | none =>
    show t.getProof H key = none
    unfold getProof
    rw [show t.leaves key = none from hvalue]
  | some value =>
    have hproof : t.getProof H key = some
        { keyHex := hexEncode key.toList
          valueHex := hexEncode value.toList
          rootHex := hexEncode (t.computeRootForKey H key value).toList
          proofPath := t.proofPath H key
          verified := verifyProof H (t.computeRootForKey H key value) key value
            (t.proofPath H key) } := by
      unfold getProof
      rw [show t.leaves key = some value from hvalue]
    have hroot := computeRootForKey_eq ht hvalue
    rw [hroot] at hproof
    refine ⟨_, hproof, proofPath_length t key, rfl, rfl, t.root.2, hexHash_hexEncode _, ?_⟩
    exact verifyProof_proofPath ht hvalue

/-! ## 3. Soundness -/

/-- What goes into a hash function: a leaf or an inner node. -/
inductive HashInput where
  | leaf (key value : Hash)
  | node (left right : Hash)
  deriving DecidableEq

def HashInput.digest (H : SmtHashes) : HashInput → Hash
  | leaf key value => H.hashLeaf key value
  | node left right => H.hashNode left right

/-- What the tree over `leaves` hashes: its leaves, and the two children of every inner node. -/
inductive TreeInput (H : SmtHashes) (leaves : Hash → Option Hash) : HashInput → Prop
  | leaf {key value : Hash} : leaves key = some value → TreeInput H leaves (.leaf key value)
  | node {level : Nat} (key : Hash) : level < treeDepth →
      TreeInput H leaves (.node
        (subtreeHash H leaves (level + 1) (BitAddress.setBit key level false))
        (subtreeHash H leaves (level + 1) (BitAddress.setBit key level true)))

/-- What the verifier hashes at one element of a path; nothing if its hex is bad. -/
def proofStep (node : SmtProofNode) (current : Hash) : Option HashInput :=
  (hexHash node.hashHex).map fun sibling ↦
    if node.position = "left" then .node sibling current else .node current sibling

/-- What the verifier hashes along a path, from its first input on. -/
def verifierInputs (H : SmtHashes) : List SmtProofNode → HashInput → List HashInput
  | [], input => [input]
  | node :: path, input =>
      input :: match proofStep node (input.digest H) with
        | some next => verifierInputs H path next
        | none => []

/-- The inputs break the ideal hash: two of them collide, or one hashes to the empty leaf. -/
def Collision (H : SmtHashes) (inputs : HashInput → Prop) : Prop :=
  (∃ a b, inputs a ∧ inputs b ∧ a ≠ b ∧ a.digest H = b.digest H) ∨
    ∃ a, inputs a ∧ a.digest H = zeroHash

theorem foldProof_cons (node : SmtProofNode) (path : List SmtProofNode) (current : Hash) :
    foldProof H (node :: path) current =
      (proofStep node current).bind fun input ↦ foldProof H path (input.digest H) := by
  unfold proofStep
  conv_lhs => unfold foldProof
  cases hexHash node.hashHex with
  | none => rfl
  | some sibling =>
    dsimp only [Option.map_some, Option.bind_some]
    split <;> rfl

theorem mem_verifierInputs (path : List SmtProofNode) (input : HashInput) :
    input ∈ verifierInputs H path input := by
  cases path <;> exact List.mem_cons_self

/-- Every node above the leaves is the hash of its children. -/
theorem subtreeHash_node (H : SmtHashes) (leaves : Hash → Option Hash) {level : Nat} (key : Hash)
    (hlevel : level < treeDepth) :
    subtreeHash H leaves level key = H.hashNode
      (subtreeHash H leaves (level + 1) (BitAddress.setBit key level false))
      (subtreeHash H leaves (level + 1) (BitAddress.setBit key level true)) := by
  unfold subtreeHash
  rw [show treeDepth - level = treeDepth - (level + 1) + 1 by omega]
  conv_lhs => unfold SparseTree.root
  rw [show treeDepth - (treeDepth - (level + 1) + 1) = level by omega]

/-- A path that leads to a node of the tree starts at a node of the tree. -/
theorem foldProof_descends {leaves : Hash → Option Hash} {known : HashInput → Prop}
    (htree : ∀ input, TreeInput H leaves input → known input) (hsafe : ¬ Collision H known)
    {path : List SmtProofNode} {input : HashInput}
    (hpath : ∀ i ∈ verifierInputs H path input, known i) {level : Nat} {key : Hash}
    (hlevel : level ≤ treeDepth)
    (hfold : foldProof H path (input.digest H) = some (subtreeHash H leaves level key)) :
    ∃ level' key', level' ≤ treeDepth ∧ input.digest H = subtreeHash H leaves level' key' := by
  induction path generalizing input with
  | nil => exact ⟨level, key, hlevel, Option.some.inj hfold⟩
  | cons node path ih =>
    rw [foldProof_cons] at hfold
    unfold verifierInputs at hpath
    cases hstep : proofStep node (input.digest H) with
    | none =>
      rw [hstep] at hfold
      cases hfold
    | some next =>
      rw [hstep] at hfold hpath
      have hrest : ∀ i ∈ verifierInputs H path next, known i :=
        fun i hi ↦ hpath i (List.mem_cons_of_mem _ hi)
      obtain ⟨l, k, hl, hnext⟩ := ih hrest hfold
      have hknown : known next := hrest next (mem_verifierInputs path next)
      -- the verifier has hashed an inner node here
      obtain ⟨left, right, hnode, hchild⟩ : ∃ left right, next = .node left right ∧
          (input.digest H = left ∨ input.digest H = right) := by
        unfold proofStep at hstep
        rw [Option.map_eq_some_iff] at hstep
        obtain ⟨sibling, -, hnext⟩ := hstep
        split at hnext
        · exact ⟨_, _, hnext.symm, .inr rfl⟩
        · exact ⟨_, _, hnext.symm, .inl rfl⟩
      by_cases hinner : l < treeDepth
      · -- so has the tree, and the two inputs are the same
        rw [subtreeHash_node H leaves k hinner] at hnext
        have hsame : next = .node
            (subtreeHash H leaves (l + 1) (BitAddress.setBit k l false))
            (subtreeHash H leaves (l + 1) (BitAddress.setBit k l true)) := by
          by_contra hne
          exact hsafe (.inl ⟨_, _, hknown, htree _ (.node k hinner), hne, hnext⟩)
        rw [hnode, HashInput.node.injEq] at hsame
        rcases hchild with hchild | hchild
        · exact ⟨l + 1, _, hinner, hchild.trans hsame.1⟩
        · exact ⟨l + 1, _, hinner, hchild.trans hsame.2⟩
      · -- a leaf of the tree is no inner node
        exfalso
        rw [show l = treeDepth by omega, subtreeHash_leaf] at hnext
        unfold leafHash at hnext
        cases hleaf : leaves k with
        | none =>
          rw [hleaf] at hnext
          exact hsafe (.inr ⟨next, hknown, hnext⟩)
        | some value =>
          rw [hleaf] at hnext
          refine hsafe (.inl ⟨next, .leaf k value, hknown, htree _ (.leaf hleaf), ?_, hnext⟩)
          rw [hnode]
          exact HashInput.noConfusion

/-- **Soundness of inclusion proofs.**  A path that verifies against the root proves a value that
the tree holds, or exhibits a collision among the inputs that the tree and the verifier hash. -/
theorem verifyProof_sound (H : SmtHashes) (updates : List (Hash × Hash)) (key value : Hash)
    (path : List SmtProofNode)
    (hverify : verifyProof H (ofUpdates H updates).root.2 key value path = true) :
    (ofUpdates H updates).get key = some value ∨
      Collision H fun input ↦ TreeInput H (finalValue updates) input ∨
        input ∈ verifierInputs H path (.leaf key value) := by
  by_contra hcon
  push Not at hcon
  obtain ⟨habsent, hsafe⟩ := hcon
  have hfold : foldProof H path (HashInput.digest H (.leaf key value)) =
      some (subtreeHash H (finalValue updates) 0 zeroHash) := by
    have hroot : subtreeHash H (finalValue updates) 0 zeroHash = (ofUpdates H updates).root.2 :=
      (root_ofUpdates updates).symm
    rw [hroot]
    exact beq_iff_eq.mp hverify
  obtain ⟨level, key', hlevel, hdigest⟩ :=
    foldProof_descends (fun _ h ↦ .inl h) hsafe (fun _ h ↦ .inr h) (by omega) hfold
  have hstart : HashInput.leaf key value ∈ verifierInputs H path (.leaf key value) :=
    mem_verifierInputs path _
  by_cases hinner : level < treeDepth
  · rw [subtreeHash_node H _ key' hinner] at hdigest
    exact hsafe (.inl ⟨_, _, .inr hstart, .inl (.node key' hinner), HashInput.noConfusion, hdigest⟩)
  · rw [show level = treeDepth by omega, subtreeHash_leaf] at hdigest
    unfold leafHash at hdigest
    cases hleaf : finalValue updates key' with
    | none =>
      rw [hleaf] at hdigest
      exact hsafe (.inr ⟨_, .inr hstart, hdigest⟩)
    | some value' =>
      rw [hleaf] at hdigest
      by_cases hsame : HashInput.leaf key value = .leaf key' value'
      · cases hsame
        refine habsent ?_
        unfold get
        rw [ofUpdates_leaves, hleaf]
      · exact hsafe (.inl ⟨_, _, .inr hstart, .inl (.leaf hleaf), hsame, hdigest⟩)

/-- A tree of one value, and the path that its own `get_proof` gives. -/
theorem verifyProof_sound_single :
    let updates := [(zeroHash, Vector.replicate 32 1)]
    let t := ofUpdates (smtHashes demoCrates) updates
    let path := t.proofPath (smtHashes demoCrates) zeroHash
    t.get zeroHash = some (Vector.replicate 32 1) ∨
      Collision (smtHashes demoCrates) fun input ↦
        TreeInput (smtHashes demoCrates) (finalValue updates) input ∨
          input ∈ verifierInputs (smtHashes demoCrates) path
            (.leaf zeroHash (Vector.replicate 32 1)) := by
  refine verifyProof_sound (smtHashes demoCrates) _ _ _ _
    (verifyProof_proofPath (ofUpdates_wellFormed _) ?_)
  unfold get
  rw [ofUpdates_leaves]
  decide

/-! ## 4. The root binds the leaves -/

/-- **Binding.**  Two trees with one root hold the same values, unless their inputs collide. -/
theorem smtRoot_injective {leaves leaves' : Hash → Option Hash}
    (hsafe : ¬ Collision H fun input ↦ TreeInput H leaves input ∨ TreeInput H leaves' input)
    (hroot : smtRoot H leaves = smtRoot H leaves') : leaves = leaves' := by
  -- equal roots spread downwards, level by level
  have hlevel : ∀ level ≤ treeDepth, ∀ key,
      subtreeHash H leaves level key = subtreeHash H leaves' level key := by
    intro level
    induction level with
    | zero =>
      intro _ key
      have htop (leaves : Hash → Option Hash) : subtreeHash H leaves 0 key = smtRoot H leaves :=
        subtreeHash_congr (by omega) (fun i hi ↦ by omega) fun _ _ ↦ rfl
      rw [htop, htop, hroot]
    | succ level ih =>
      intro hle key
      have hlt : level < treeDepth := by omega
      have hparent := ih (by omega) key
      rw [subtreeHash_node H leaves key hlt, subtreeHash_node H leaves' key hlt] at hparent
      have hsame : HashInput.node
          (subtreeHash H leaves (level + 1) (BitAddress.setBit key level false))
          (subtreeHash H leaves (level + 1) (BitAddress.setBit key level true)) =
        .node (subtreeHash H leaves' (level + 1) (BitAddress.setBit key level false))
          (subtreeHash H leaves' (level + 1) (BitAddress.setBit key level true)) := by
        by_contra hne
        exact hsafe (.inl ⟨_, _, .inl (.node key hlt), .inr (.node key hlt), hne, hparent⟩)
      rw [HashInput.node.injEq] at hsame
      have hself : BitAddress.setBit key level (BitAddress.bit key level) = key := setBit_self hlt
      cases hbit : BitAddress.bit key level with
      | false =>
        rw [hbit] at hself
        rw [hself] at hsame
        exact hsame.1
      | true =>
        rw [hbit] at hself
        rw [hself] at hsame
        exact hsame.2
  funext key
  have hleaf := hlevel treeDepth le_rfl key
  rw [subtreeHash_leaf, subtreeHash_leaf] at hleaf
  unfold leafHash at hleaf
  cases hl : leaves key with
  | none =>
    cases hl' : leaves' key with
    | none => rfl
    | some value' =>
      rw [hl, hl'] at hleaf
      exact absurd (.inr ⟨_, .inr (.leaf hl'), hleaf.symm⟩) hsafe
  | some value =>
    cases hl' : leaves' key with
    | none =>
      rw [hl, hl'] at hleaf
      exact absurd (.inr ⟨_, .inl (.leaf hl), hleaf⟩) hsafe
    | some value' =>
      rw [hl, hl'] at hleaf
      by_contra hne
      refine hsafe (.inl ⟨_, _, .inl (.leaf hl), .inr (.leaf hl'), ?_, hleaf⟩)
      rintro ⟨⟩
      exact hne rfl

end SparseMerkleTree

end UtxoVm
