import UtxoVm.Storage.Smt
import UtxoVm.Reasoning.SparseTree

/-!
# The sparse Merkle tree computes the root of its leaves

The cached nodes of a tree are the subtree hashes of the full binary tree over its leaves, whatever
updates it has been through; hence the root is a function of the leaves alone.
-/

namespace UtxoVm

open RustStd SparseTree

/-! ## 1. Keys as bit addresses -/

/-- Bit `t` of a byte, bit `0` being the most significant. -/
def byteBit (b : UInt8) (t : Nat) : Bool := b.toBitVec.getLsbD (7 - t)

private theorem byteBit_ext {b b' : UInt8} (h : ∀ t < 8, byteBit b t = byteBit b' t) : b = b' := by
  apply UInt8.eq_of_toBitVec_eq
  apply BitVec.eq_of_getLsbD_eq
  intro i hi
  have hbit := h (7 - i) (by omega)
  unfold byteBit at hbit
  rwa [show 7 - (7 - i) = i by omega] at hbit

/-- The mask that flips one bit. -/
private theorem byteBit_single : ∀ s t : Fin 8,
    byteBit (1 <<< UInt8.ofNat (7 - s)) t = decide (t = s) := by
  decide

/-- The mask that keeps the first `r` bits. -/
private theorem byteBit_prefixMask : ∀ r t : Fin 8, 0 < r.val →
    byteBit (~~~((1 <<< UInt8.ofNat (8 - r)) - 1)) t = decide (t < r) := by
  decide

private theorem byteBit_flip (b : UInt8) {s t : Nat} (hs : s < 8) (ht : t < 8) :
    byteBit (b ^^^ (1 <<< UInt8.ofNat (7 - s))) t =
      if t = s then !byteBit b s else byteBit b t := by
  have hmask := byteBit_single ⟨s, hs⟩ ⟨t, ht⟩
  unfold byteBit at hmask ⊢
  rw [UInt8.toBitVec_xor, BitVec.getLsbD_xor, hmask]
  by_cases hts : t = s
  · simp [hts]
  · simp [hts]

private theorem byteBit_mask (b : UInt8) {r t : Nat} (hr : r < 8) (ht : t < 8) (hpos : 0 < r) :
    byteBit (b &&& ~~~((1 <<< UInt8.ofNat (8 - r)) - 1)) t = (decide (t < r) && byteBit b t) := by
  have hmask := byteBit_prefixMask ⟨r, hr⟩ ⟨t, ht⟩ hpos
  unfold byteBit at hmask ⊢
  rw [UInt8.toBitVec_and, BitVec.getLsbD_and, hmask, Bool.and_comm]
  rfl

private theorem byteBit_shift (b : UInt8) {t : Nat} (ht : t < 8) :
    ((b >>> UInt8.ofNat (7 - t)) &&& 1 = 0) ↔ byteBit b t = false := by
  have hshift : (7 - t) % 2 ^ 8 % 8 = 7 - t := by omega
  unfold byteBit
  rw [← UInt8.toNat_inj, UInt8.toNat_and, UInt8.toNat_shiftRight, UInt8.toNat_ofNat', hshift]
  show (b.toNat >>> (7 - t)) &&& 1 = 0 ↔ b.toNat.testBit (7 - t) = false
  rw [Nat.testBit, Nat.and_comm]
  simp

private theorem hash_getElem! (h : Hash) {j : Nat} (hj : j < 32) : h[j]! = h[j] :=
  getElem!_pos h j hj

/-- Bit `i` of a key. -/
def keyBit (key : Hash) (i : Nat) : Bool := byteBit key[i / 8]! (i % 8)

theorem bitAt_eq_zero_iff (key : Hash) (i : Nat) : bitAt key i = 0 ↔ keyBit key i = false :=
  byteBit_shift _ (by omega)

theorem keyBit_flipBit (key : Hash) {i j : Nat} (hi : i < treeDepth) (hj : j < treeDepth) :
    keyBit (flipBit key i) j = if j = i then !keyBit key i else keyBit key j := by
  unfold treeDepth at hi hj
  have hi8 : i / 8 < 32 := by omega
  have hj8 : j / 8 < 32 := by omega
  unfold keyBit flipBit
  rw [hash_getElem! _ hj8, Vector.getElem_setIfInBounds]
  by_cases hbyte : i / 8 = j / 8
  · rw [if_pos hbyte, byteBit_flip _ (by omega) (by omega), hbyte, hash_getElem! key hj8]
    split
    · rw [if_pos (by omega)]
    · rw [if_neg (by omega)]
  · rw [if_neg hbyte, if_neg (by rintro rfl; exact hbyte rfl), hash_getElem! key hj8]

theorem keyBit_pathPrefix (key : Hash) (l : Nat) {i : Nat} (hi : i < treeDepth) :
    keyBit (pathPrefix key l) i = (decide (i < l) && keyBit key i) := by
  unfold treeDepth at hi
  have hi8 : i / 8 < 32 := by omega
  unfold keyBit pathPrefix
  rw [hash_getElem! _ hi8, Vector.getElem_ofFn, hash_getElem! key hi8]
  by_cases hfull : i / 8 < l / 8
  · rw [if_pos hfull, decide_eq_true (by omega : i < l), Bool.true_and]
    rfl
  rw [if_neg hfull]
  by_cases hpart : i / 8 = l / 8 ∧ 0 < l % 8
  · rw [if_pos hpart]
    show byteBit (key[i / 8] &&& _) (i % 8) = _
    rw [byteBit_mask _ (by omega) (by omega) hpart.2]
    congr 2
    simp only [eq_iff_iff]
    omega
  · rw [if_neg hpart, decide_eq_false (by omega : ¬ i < l), Bool.false_and]
    have hzero : ∀ t : Fin 8, byteBit 0 t = false := by decide
    exact hzero ⟨i % 8, by omega⟩

instance : BitAddress Hash treeDepth where
  bit := keyBit
  setBit key i b := if keyBit key i = b then key else flipBit key i
  bit_setBit key i j b hi hj := by
    split
    · rename_i hb
      split
      · rename_i hji
        rw [hji, hb]
      · rfl
    · rename_i hb
      rw [keyBit_flipBit key hi hj]
      split
      · cases hk : keyBit key i <;> cases b <;> simp_all
      · rfl
  ext {key key'} h := by
    apply Vector.ext
    intro j hj
    apply byteBit_ext
    intro t ht
    have hbit := h (8 * j + t) (by unfold treeDepth; omega)
    unfold keyBit at hbit
    rw [show (8 * j + t) / 8 = j by omega, show (8 * j + t) % 8 = t by omega,
      hash_getElem! key hj, hash_getElem! key' hj] at hbit
    exact hbit

theorem flip_eq_flipBit (key : Hash) (i : Nat) : flip key i = flipBit key i := by
  show (if keyBit key i = !keyBit key i then key else flipBit key i) = _
  rw [if_neg (by cases keyBit key i <;> simp)]

/-- Prefixes name the subtrees. -/
theorem pathPrefix_eq_iff {k k' : Hash} {l : Nat} (hl : l ≤ treeDepth) :
    pathPrefix k l = pathPrefix k' l ↔ Agree l k k' := by
  constructor
  · intro h i hi
    have hbit := congrArg (keyBit · i) h
    simp only [keyBit_pathPrefix _ _ (by omega : i < treeDepth), decide_eq_true hi,
      Bool.true_and] at hbit
    exact hbit
  · intro h
    refine BitAddress.ext fun i (hi : i < treeDepth) ↦ ?_
    show keyBit _ i = keyBit _ i
    rw [keyBit_pathPrefix _ _ hi, keyBit_pathPrefix _ _ hi]
    by_cases hil : i < l
    · rw [show keyBit k i = keyBit k' i from h i hil]
    · simp [hil]

theorem pathPrefix_zero (k : Hash) : pathPrefix k 0 = zeroHash := by
  apply Vector.ext
  intro j hj
  simp [pathPrefix, zeroHash]

/-- The sibling prefix that the code computes is the prefix of the flipped key. -/
theorem flipBit_pathPrefix (k : Hash) {i : Nat} (hi : i < treeDepth) :
    flipBit (pathPrefix k (i + 1)) i = pathPrefix (flip k i) (i + 1) := by
  refine BitAddress.ext fun j (hj : j < treeDepth) ↦ ?_
  show keyBit _ j = keyBit _ j
  rw [keyBit_flipBit _ hi hj, keyBit_pathPrefix _ _ hj, keyBit_pathPrefix _ _ hi,
    keyBit_pathPrefix _ _ hj, flip_eq_flipBit, keyBit_flipBit _ hi hj]
  split
  · rename_i hji
    subst hji
    simp
  · rfl

/-! ## 2. The specification -/

/-- The hash at the leaf level: a stored value under its key, or the empty leaf. -/
def leafHash (H : SmtHashes) (leaves : Hash → Option Hash) (key : Hash) : Hash :=
  match leaves key with
  | some value => H.hashLeaf key value
  | none => zeroHash

/-- The hash of the subtree at `level` that contains `key`. -/
def subtreeHash (H : SmtHashes) (leaves : Hash → Option Hash) (level : Nat) (key : Hash) : Hash :=
  SparseTree.root H.hashNode (leafHash H leaves) (treeDepth - level) key

/-- The root of the full 256-level tree over `leaves`. -/
def smtRoot (H : SmtHashes) (leaves : Hash → Option Hash) : Hash := subtreeHash H leaves 0 zeroHash

theorem subtreeHash_congr {H : SmtHashes} {leaves leaves' : Hash → Option Hash} {level : Nat}
    {k k' : Hash} (hl : level ≤ treeDepth) (hk : Agree level k k')
    (hleaves : ∀ c, Agree level c k → leaves c = leaves' c) :
    subtreeHash H leaves level k = subtreeHash H leaves' level k' := by
  have hlevel : treeDepth - (treeDepth - level) = level := by omega
  have hn : treeDepth - level ≤ treeDepth := by omega
  apply SparseTree.root_congr hn
  · rwa [hlevel]
  · intro c hc
    rw [hlevel] at hc
    unfold leafHash
    rw [hleaves c hc]

theorem subtreeHash_leaf (H : SmtHashes) (leaves : Hash → Option Hash) (key : Hash) :
    subtreeHash H leaves treeDepth key = leafHash H leaves key := by
  unfold subtreeHash
  rw [Nat.sub_self]
  rfl

/-- A subtree and its sibling make up their parent. -/
theorem subtreeHash_parent (H : SmtHashes) (leaves : Hash → Option Hash) {i : Nat} (key : Hash)
    (hi : i < treeDepth) :
    subtreeHash H leaves i key =
      if bitAt key i = 0 then
        H.hashNode (subtreeHash H leaves (i + 1) key) (subtreeHash H leaves (i + 1) (flip key i))
      else H.hashNode (subtreeHash H leaves (i + 1) (flip key i))
        (subtreeHash H leaves (i + 1) key) := by
  unfold subtreeHash
  rw [show treeDepth - i = treeDepth - (i + 1) + 1 by omega,
    SparseTree.root_succ _ _ (by omega : treeDepth - (i + 1) < treeDepth),
    show treeDepth - (treeDepth - (i + 1) + 1) = i by omega]
  show (if keyBit key i = false then _ else _) = _
  simp only [← bitAt_eq_zero_iff]

/-! ## 3. The cached nodes -/

theorem emptyHashes_getElem (H : SmtHashes) {d : Nat} (hd : d ≤ treeDepth) :
    (SparseMerkleTree.new H).emptyHashes[d]! = SparseTree.emptyRoot H.hashNode zeroHash d := by
  have hlen : d < (SparseMerkleTree.new H).emptyHashes.length := by
    simp only [SparseMerkleTree.new, List.length_iterate]
    omega
  rw [getElem!_pos _ d hlen]
  simp only [SparseMerkleTree.new, List.getElem_iterate]
  clear hlen
  induction d with
  | zero => rfl
  | succ d ih =>
    rw [Function.iterate_succ_apply', ih (by omega)]
    rfl

namespace SparseMerkleTree

/-- The nodes at the levels and keys in `scope` are the subtree hashes over the leaves of `t`. -/
def NodesFor (H : SmtHashes) (t : SparseMerkleTree) (scope : Nat → Hash → Prop) : Prop :=
  ∀ l k, l < treeDepth → scope l k →
    (t.nodes l (pathPrefix k l)).getD (t.emptyHashAtLevel l) = subtreeHash H t.leaves l k

structure WellFormed (H : SmtHashes) (t : SparseMerkleTree) : Prop where
  empties : t.emptyHashes = (new H).emptyHashes
  nodes : t.NodesFor H fun _ _ ↦ True
  cached : t.dirty = false → t.cachedRoot = smtRoot H t.leaves

theorem subtreeHash_none (H : SmtHashes) {l : Nat} (k : Hash) (hl : l ≤ treeDepth) :
    subtreeHash H (fun _ ↦ none) l k = (new H).emptyHashAtLevel l := by
  unfold emptyHashAtLevel
  rw [emptyHashes_getElem H (by omega)]
  exact SparseTree.root_empty (by omega) fun _ _ ↦ rfl

theorem new_wellFormed (H : SmtHashes) : (new H).WellFormed H where
  empties := rfl
  nodes l k hl _ := (subtreeHash_none H k (by omega)).symm
  cached _ := (subtreeHash_none H (l := 0) zeroHash (by omega)).symm

/-! ### One update -/

/-- The sibling hash that the code looks up, when the nodes below the current level are right. -/
theorem getSiblingHash_eq {H : SmtHashes} {t : SparseMerkleTree} {key : Hash} {i : Nat}
    (hi : i < treeDepth) (hempties : t.emptyHashes = (new H).emptyHashes)
    (hnodes : t.NodesFor H fun l k ↦ l = i + 1 ∧ k = flip key i) :
    t.getSiblingHash H key i = subtreeHash H t.leaves (i + 1) (flip key i) := by
  unfold getSiblingHash
  split
  · rename_i hlast
    subst hlast
    rw [show treeDepth - 1 + 1 = treeDepth from rfl, subtreeHash_leaf, flip_eq_flipBit, hempties,
      emptyHashes_getElem H (by omega)]
    rfl
  · rw [flipBit_pathPrefix key hi]
    exact hnodes (i + 1) _ (by unfold treeDepth at *; omega) ⟨rfl, rfl⟩

theorem parentHash_eq {H : SmtHashes} {t : SparseMerkleTree} {key : Hash} {i : Nat}
    (hi : i < treeDepth) (hempties : t.emptyHashes = (new H).emptyHashes)
    (hnodes : t.NodesFor H fun l k ↦ l = i + 1 ∧ k = flip key i) :
    t.parentHash H key i (subtreeHash H t.leaves (i + 1) key) = subtreeHash H t.leaves i key := by
  unfold parentHash
  rw [getSiblingHash_eq hi hempties hnodes, subtreeHash_parent H t.leaves key hi]

theorem getD_storeNode (t : SparseMerkleTree) (level l : Nat) (pre p hash : Hash) :
    ((t.storeNode level pre hash).nodes l p).getD (t.emptyHashAtLevel l) =
      if l = level ∧ p = pre then hash else (t.nodes l p).getD (t.emptyHashAtLevel l) := by
  unfold storeNode
  by_cases hnode : l = level ∧ p = pre
  · simp only [if_pos hnode]
    split
    · rename_i hdefault
      rw [hdefault, hnode.1]
      rfl
    · rfl
  · simp only [if_neg hnode]

/-- The walk from a leaf to the root repairs the nodes on its path. -/
theorem updatePath_nodes {H : SmtHashes} {key : Hash} {n : Nat} {t : SparseMerkleTree}
    (hn : n ≤ treeDepth) (hempties : t.emptyHashes = (new H).emptyHashes)
    (hnodes : t.NodesFor H fun l k ↦ n ≤ l ∨ ¬ Agree l k key) :
    (updatePath H key n (subtreeHash H t.leaves n key) t).NodesFor H fun _ _ ↦ True := by
  induction n generalizing t with
  | zero => exact fun l k hl _ ↦ hnodes l k hl (.inl (by omega))
  | succ i ih =>
    have hi : i < treeDepth := by omega
    have hparent : t.parentHash H key i (subtreeHash H t.leaves (i + 1) key) =
        subtreeHash H t.leaves i key :=
      parentHash_eq hi hempties fun l k hl h ↦ hnodes l k hl (.inl (by omega))
    unfold updatePath
    simp only [hparent]
    refine ih (t := t.storeNode i (pathPrefix key i) (subtreeHash H t.leaves i key)) (by omega)
      hempties ?_
    intro l k hl hscope
    show Option.getD _ (t.emptyHashAtLevel l) = subtreeHash H t.leaves l k
    rw [getD_storeNode]
    split
    · rename_i hpath
      obtain ⟨rfl, hpre⟩ := hpath
      exact subtreeHash_congr (by omega) ((pathPrefix_eq_iff (by omega)).mp hpre).symm
        fun _ _ ↦ rfl
    · rename_i hpath
      refine hnodes l k hl ?_
      rcases hscope with hle | hoff
      · by_cases hli : l = i
        · subst hli
          exact .inr fun hagree ↦ hpath ⟨rfl, (pathPrefix_eq_iff (by omega)).mpr hagree⟩
        · exact .inl (by omega)
      · exact .inr hoff

@[simp] theorem updatePath_leaves (H : SmtHashes) (key : Hash) (n : Nat) (current : Hash)
    (t : SparseMerkleTree) : (updatePath H key n current t).leaves = t.leaves := by
  induction n generalizing current t with
  | zero => rfl
  | succ i ih =>
    unfold updatePath
    rw [ih]
    rfl

@[simp] theorem updatePath_emptyHashes (H : SmtHashes) (key : Hash) (n : Nat) (current : Hash)
    (t : SparseMerkleTree) : (updatePath H key n current t).emptyHashes = t.emptyHashes := by
  induction n generalizing current t with
  | zero => rfl
  | succ i ih =>
    unfold updatePath
    rw [ih]
    rfl

@[simp] theorem markDirty_leaves (t : SparseMerkleTree) : t.markDirty.leaves = t.leaves := rfl

theorem markDirty_wellFormed {H : SmtHashes} {t : SparseMerkleTree}
    (hempties : t.emptyHashes = (new H).emptyHashes) (hnodes : t.NodesFor H fun _ _ ↦ True) :
    t.markDirty.WellFormed H :=
  ⟨hempties, hnodes, fun h ↦ by cases h⟩

/-- Changing the leaf at `key` and walking up gives a well-formed tree again. -/
theorem updatePath_wellFormed {H : SmtHashes} {t : SparseMerkleTree} (ht : t.WellFormed H)
    (key : Hash) (value : Option Hash) {leaves : Hash → Option Hash}
    (hleaves : leaves = fun k ↦ if k = key then value else t.leaves k) :
    (updatePath H key treeDepth (leafHash H leaves key)
      { t with leaves := leaves }).markDirty.WellFormed H := by
  apply markDirty_wellFormed
  · rw [updatePath_emptyHashes]
    exact ht.empties
  · rw [← subtreeHash_leaf]
    refine updatePath_nodes (t := { t with leaves := leaves }) le_rfl ht.empties ?_
    intro l k hl hscope
    -- a subtree off the path has kept its leaves
    have hoff : ¬ Agree l k key := hscope.resolve_left (by omega)
    show Option.getD (t.nodes l (pathPrefix k l)) (t.emptyHashAtLevel l) = subtreeHash H leaves l k
    rw [ht.nodes l k hl trivial]
    refine subtreeHash_congr (by omega) (Agree.refl _ _) fun c hc ↦ ?_
    have hne : c ≠ key := by
      rintro rfl
      exact hoff hc.symm
    rw [hleaves]
    simp only [if_neg hne]

/-- The leaves after an update. -/
theorem update_leaves (H : SmtHashes) (t : SparseMerkleTree) (key value : Hash) :
    (t.update H key value).leaves =
      fun k ↦ if k = key then (if value = zeroHash then none else some value) else t.leaves k := by
  unfold update
  by_cases hzero : value = zeroHash
  · rw [if_pos hzero, if_pos hzero]
    by_cases hnone : t.leaves key = none
    · rw [if_pos hnone]
      funext k
      by_cases hk : k = key
      · rw [if_pos hk, hk, hnone]
      · rw [if_neg hk]
    · rw [if_neg hnone]
      rw [markDirty_leaves, updatePath_leaves]
  · rw [if_neg hzero, if_neg hzero, markDirty_leaves, updatePath_leaves]

theorem update_wellFormed {H : SmtHashes} {t : SparseMerkleTree} (ht : t.WellFormed H)
    (key value : Hash) : (t.update H key value).WellFormed H := by
  unfold update
  split
  · split
    · exact ht
    · have hleaf : t.emptyHashes[0]! =
          leafHash H (fun k ↦ if k = key then none else t.leaves k) key := by
        rw [ht.empties, emptyHashes_getElem H (by omega)]
        simp [leafHash, SparseTree.emptyRoot]
      simp only [hleaf]
      exact updatePath_wellFormed ht key none rfl
  · have hleaf : H.hashLeaf key value =
        leafHash H (fun k ↦ if k = key then some value else t.leaves k) key := by
      simp [leafHash]
    simp only [hleaf]
    exact updatePath_wellFormed ht key (some value) rfl

/-! ### The root -/

/-- **The tree refines its specification.** -/
theorem root_eq {H : SmtHashes} {t : SparseMerkleTree} (ht : t.WellFormed H) :
    t.root.2 = smtRoot H t.leaves := by
  unfold root
  split
  · have hroot := ht.nodes 0 zeroHash (by unfold treeDepth; omega) trivial
    rw [pathPrefix_zero] at hroot
    exact hroot
  · rename_i hclean
    exact ht.cached (by simpa using hclean)

theorem root_wellFormed {H : SmtHashes} {t : SparseMerkleTree} (ht : t.WellFormed H) :
    t.root.1.WellFormed H := by
  have hroot := root_eq ht
  unfold root at hroot ⊢
  split at hroot
  · rename_i hdirty
    rw [if_pos hdirty]
    exact ⟨ht.empties, ht.nodes, fun _ ↦ hroot⟩
  · rename_i hclean
    rwa [if_neg hclean]

@[simp] theorem root_leaves (t : SparseMerkleTree) : t.root.1.leaves = t.leaves := by
  unfold root
  split <;> rfl

end SparseMerkleTree

/-! ## 4. Digests that are the largest byte -/

/-- The digests of a tree are no larger than the bytes of its leaves. -/
theorem demo_subtreeHash_le {leaves : Hash → Option Hash} {b : UInt8} (hb : 95 ≤ b)
    (hleaves : ∀ key v, leaves key = some v → ∀ x ∈ key.toList ++ v.toList, x ≤ b)
    (level : Nat) (key : Hash) :
    ∀ x ∈ (subtreeHash (smtHashes demoCrates) leaves level key).toList, x ≤ b := by
  have hone : (1 : UInt8) ≤ b := UInt8.le_trans (by decide) hb
  have htag (tag : String) (htag : ∀ x ∈ asBytes tag, x ≤ 95) : ∀ x ∈ asBytes tag, x ≤ b :=
    fun x hx ↦ UInt8.le_trans (htag x hx) hb
  unfold subtreeHash
  generalize treeDepth - level = n
  induction n generalizing key with
  | zero =>
    show ∀ x ∈ (leafHash (smtHashes demoCrates) leaves key).toList, x ≤ b
    unfold leafHash
    cases hleaf : leaves key with
    | none => simp [zeroHash]
    | some v =>
      intro x hx
      rw [mem_demoCrates_sha256.mp hx, List.append_assoc]
      refine maxByte_le hone fun y hy ↦ ?_
      rcases List.mem_append.mp hy with hy | hy
      · exact htag "SMT_LEAF" (by decide +kernel) y hy
      · exact hleaves key v hleaf y hy
  | succ n ih =>
    intro x hx
    rw [mem_demoCrates_sha256.mp hx]
    refine maxByte_le hone fun y hy ↦ ?_
    simp only [List.mem_append, or_assoc] at hy
    rcases hy with hy | hy | hy
    · exact htag "SMT_NODE" (by decide +kernel) y hy
    · exact ih _ y hy
    · exact ih _ y hy

/-- The bytes of a leaf are no larger than those of the digests above it. -/
theorem demo_le_subtreeHash {leaves : Hash → Option Hash} {key v : Hash}
    (hleaf : leaves key = some v) {x : UInt8} (hx : x ∈ v.toList) {level : Nat}
    (hlevel : level ≤ treeDepth) :
    ∀ y ∈ (subtreeHash (smtHashes demoCrates) leaves level key).toList, x ≤ y := by
  induction hn : treeDepth - level generalizing level with
  | zero =>
    rw [show level = treeDepth by omega, subtreeHash_leaf]
    unfold leafHash
    rw [hleaf]
    intro y hy
    rw [mem_demoCrates_sha256.mp hy, UInt8.le_iff_toNat_le]
    exact le_maxByte (List.mem_append_right _ hx)
  | succ n ih =>
    intro y hy
    obtain ⟨z, hz⟩ : ∃ z, z ∈ (subtreeHash (smtHashes demoCrates) leaves (level + 1) key).toList :=
      ⟨_, List.getElem_mem (by simp : 0 < _)⟩
    refine UInt8.le_trans (ih (by omega) (by omega) z hz) ?_
    rw [subtreeHash_parent _ _ _ (by omega : level < treeDepth)] at hy
    split at hy <;>
    · rw [mem_demoCrates_sha256.mp hy, UInt8.le_iff_toNat_le]
      exact le_maxByte (by simp [hz])

end UtxoVm
