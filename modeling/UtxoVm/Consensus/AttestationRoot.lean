import UtxoVm.Consensus.Agreement
import UtxoVm.Reasoning.MerkleTree

/-!
# What the Merkle root over attestations binds

The leaves are sorted by the public key, and the last digest of an odd level is hashed with itself.
The root determines the attestations but for their order and their timestamps, unless what is hashed
for it breaks the hash.
-/

namespace UtxoVm

open RustStd

/-- What is hashed of an attestation. -/
def leafPreimage (a : StateAttestation) : Bytes :=
  asBytes "ATTESTATION_LEAF_V1" ++ lenPrefixed a.chain ++ beBytes 8 a.blockHeight ++
    lenPrefixed a.blockHash ++ lenPrefixed a.stateRoot ++ lenPrefixed a.validatorPubkey ++
    lenPrefixed a.signatureHex

/-- The strings fit their length prefix, and the height is a `u64`. -/
structure StateAttestation.Sized (a : StateAttestation) : Prop where
  chain : (asBytes a.chain).length < 2 ^ 32
  blockHash : (asBytes a.blockHash).length < 2 ^ 32
  stateRoot : (asBytes a.stateRoot).length < 2 ^ 32
  validatorPubkey : (asBytes a.validatorPubkey).length < 2 ^ 32
  signatureHex : (asBytes a.signatureHex).length < 2 ^ 32
  blockHeight : a.blockHeight < 2 ^ 64

/-- The attestation but for its timestamp. -/
def StateAttestation.untimed (a : StateAttestation) : StateAttestation := { a with timestamp := 0 }

/-- The inner hash, on two digests. -/
def nodeDigest (X : Crates) (a b : Hash) : Hash := X.sha256 (a.toList ++ b.toList)

/-- The digests of the leaves, in the order of the public keys. -/
def sortedLeaves (X : Crates) (l : List StateAttestation) : List Hash :=
  (l.mergeSort fun a b ↦ decide (a.validatorPubkey ≤ b.validatorPubkey)).map (attestationLeaf X)

/-- What is hashed for the roots of two lists: the attestations, and the pairs of digests. -/
def HashedFor (X : Crates) (l l' : List StateAttestation) : Prop :=
  MerkleTree.Ideal X.sha256 (nodeDigest X) {b | ∃ a ∈ l ++ l', b = leafPreimage a}
    {p | p ∈ MerkleTree.hashed (nodeDigest X) (sortedLeaves X l) ++
      MerkleTree.hashed (nodeDigest X) (sortedLeaves X l')}

section

variable {X : Crates} {a b : StateAttestation} {l l' : List StateAttestation}

theorem leafPreimage_inj (ha : a.Sized) (hb : b.Sized) (heq : leafPreimage a = leafPreimage b) :
    a.untimed = b.untimed := by
  unfold leafPreimage at heq
  simp only [List.append_assoc, List.append_cancel_left_eq] at heq
  obtain ⟨hchain, heq⟩ := lenPrefixed_append_inj ha.chain hb.chain heq
  obtain ⟨hheight, heq⟩ := List.append_inj heq (by simp)
  obtain ⟨hblockHash, heq⟩ := lenPrefixed_append_inj ha.blockHash hb.blockHash heq
  obtain ⟨hstateRoot, heq⟩ := lenPrefixed_append_inj ha.stateRoot hb.stateRoot heq
  obtain ⟨hpubkey, heq⟩ := lenPrefixed_append_inj ha.validatorPubkey hb.validatorPubkey heq
  rw [← List.append_nil (lenPrefixed a.signatureHex),
    ← List.append_nil (lenPrefixed b.signatureHex)] at heq
  have hsignature := (lenPrefixed_append_inj ha.signatureHex hb.signatureHex heq).1
  have hmod := beBytes_inj hheight
  rw [show 256 ^ 8 = 2 ^ 64 by norm_num, Nat.mod_eq_of_lt ha.blockHeight,
    Nat.mod_eq_of_lt hb.blockHeight] at hmod
  cases a
  cases b
  simp_all [StateAttestation.untimed]

/-- The levels of the source are those of the tree. -/
theorem merkleLevel_eq (X : Crates) (level : List Hash) :
    merkleLevel X level = MerkleTree.level (nodeDigest X) level := by
  fun_induction merkleLevel X level with
  | case1 => rfl
  | case2 => rfl
  | case3 a b rest ih =>
    rw [ih]
    rfl

theorem merkleTop_eq (X : Crates) (level : List Hash) :
    merkleTop X level = MerkleTree.top (nodeDigest X) zeroHash level := by
  fun_induction merkleTop X level with
  | case1 level hlen => rw [MerkleTree.top, if_pos hlen]
  | case2 level hlen ih => rw [ih, merkleLevel_eq, MerkleTree.top_level zeroHash hlen]

theorem map_untimed_of_leaves (hl : ∀ a ∈ l, a.Sized) (hl' : ∀ a ∈ l', a.Sized)
    (heq : l.map leafPreimage = l'.map leafPreimage) :
    l.map StateAttestation.untimed = l'.map StateAttestation.untimed := by
  induction l generalizing l' with
  | nil =>
    rw [List.map_eq_nil_iff.mp heq.symm]
  | cons a l ih =>
    cases l' with
    | nil => cases heq
    | cons b l' =>
      rw [List.forall_mem_cons] at hl hl'
      obtain ⟨hleaf, hrest⟩ := List.cons.inj heq
      rw [List.map_cons, List.map_cons, leafPreimage_inj hl.1 hl'.1 hleaf, ih hl.2 hl'.2 hrest]

/-- Different public keys give different leaves. -/
theorem nodup_sortedLeaves {B : Set Bytes} (hinj : Set.InjOn X.sha256 B)
    (hB : ∀ a ∈ l, leafPreimage a ∈ B) (hsized : ∀ a ∈ l, a.Sized)
    (hkeys : (l.map (·.validatorPubkey)).Nodup) : (sortedLeaves X l).Nodup := by
  unfold sortedLeaves
  apply List.Nodup.map_on
  · intro a ha b hb heq
    rw [List.mem_mergeSort] at ha hb
    have hpreimage := hinj (hB a ha) (hB b hb) heq
    have hkey : a.untimed.validatorPubkey = b.untimed.validatorPubkey := by
      rw [leafPreimage_inj (hsized a ha) (hsized b hb) hpreimage]
    exact List.inj_on_of_nodup_map hkeys ha hb hkey
  · exact (List.mergeSort_perm l _).nodup_iff.mpr (hkeys.of_map _)

theorem sortedLeaves_ne_nil (hne : l ≠ []) : sortedLeaves X l ≠ [] := by
  unfold sortedLeaves
  rw [ne_eq, List.map_eq_nil_iff, ← List.length_eq_zero_iff, List.length_mergeSort,
    List.length_eq_zero_iff]
  exact hne

theorem height_sortedLeaves {B : Set Bytes} {N : Set (Hash × Hash)}
    (hB : ∀ a ∈ l, leafPreimage a ∈ B) : ∀ x ∈ sortedLeaves X l,
      MerkleTree.HasHeight X.sha256 (nodeDigest X) B N 0 x := by
  intro x hx
  obtain ⟨a, ha, rfl⟩ := List.mem_map.mp hx
  exact .leaf (hB a (List.mem_mergeSort.mp ha))

theorem computeAttestationMerkleRoot_inj (hne : l ≠ []) (hne' : l' ≠ [])
    (heq : computeAttestationMerkleRoot X l = computeAttestationMerkleRoot X l') :
    MerkleTree.top (nodeDigest X) zeroHash (sortedLeaves X l) =
      MerkleTree.top (nodeDigest X) zeroHash (sortedLeaves X l') := by
  unfold computeAttestationMerkleRoot at heq
  rw [if_neg (by simpa using hne), if_neg (by simpa using hne')] at heq
  rw [← merkleTop_eq, ← merkleTop_eq]
  exact Vector.toList_inj.mp (hexEncode_injective heq)

end

/-- **The Merkle root binds the attestations.**  It does not depend on their order, and two lists of
attestations of different validators have one root only if they are the same up to their order and
the timestamps, where the hash is ideal on what is hashed. -/
theorem attestation_root_binds (X : Crates) (l l' : List StateAttestation) (hne : l ≠ [])
    (hne' : l' ≠ []) (hsized : ∀ a ∈ l ++ l', a.Sized)
    (hkeys : (l.map (·.validatorPubkey)).Nodup) (hkeys' : (l'.map (·.validatorPubkey)).Nodup) :
    (l.Perm l' → computeAttestationMerkleRoot X l = computeAttestationMerkleRoot X l') ∧
      (HashedFor X l l' →
        computeAttestationMerkleRoot X l = computeAttestationMerkleRoot X l' →
        (l.map StateAttestation.untimed).Perm (l'.map StateAttestation.untimed)) := by
  refine ⟨fun hperm ↦ computeAttestationMerkleRoot_perm hperm hkeys, fun hideal heq ↦ ?_⟩
  rw [List.forall_mem_append] at hsized
  have hB : ∀ a ∈ l, leafPreimage a ∈ {b | ∃ a ∈ l ++ l', b = leafPreimage a} :=
    fun a ha ↦ ⟨a, List.mem_append_left _ ha, rfl⟩
  have hB' : ∀ a ∈ l', leafPreimage a ∈ {b | ∃ a ∈ l ++ l', b = leafPreimage a} :=
    fun a ha ↦ ⟨a, List.mem_append_right _ ha, rfl⟩
  -- the roots bind the leaves, which are distinct because the public keys are
  have hleaves : sortedLeaves X l = sortedLeaves X l' :=
    MerkleTree.top_inj hideal (sortedLeaves_ne_nil hne) (sortedLeaves_ne_nil hne')
      (nodup_sortedLeaves hideal.leaf_inj hB hsized.1 hkeys)
      (nodup_sortedLeaves hideal.leaf_inj hB' hsized.2 hkeys')
      (height_sortedLeaves hB) (height_sortedLeaves hB')
      (fun p hp ↦ List.mem_append_left _ hp) (fun p hp ↦ List.mem_append_right _ hp)
      (computeAttestationMerkleRoot_inj hne hne' heq)
  -- and a leaf binds its attestation
  let le (a b : StateAttestation) : Bool := decide (a.validatorPubkey ≤ b.validatorPubkey)
  have hpreimages : (l.mergeSort le).map leafPreimage = (l'.mergeSort le).map leafPreimage := by
    apply MerkleTree.map_injOn hideal.leaf_inj
    · intro b hb
      obtain ⟨a, ha, rfl⟩ := List.mem_map.mp hb
      exact hB a (List.mem_mergeSort.mp ha)
    · intro b hb
      obtain ⟨a, ha, rfl⟩ := List.mem_map.mp hb
      exact hB' a (List.mem_mergeSort.mp ha)
    · rw [List.map_map, List.map_map]
      exact hleaves
  have huntimed := map_untimed_of_leaves
    (fun a ha ↦ hsized.1 a (List.mem_mergeSort.mp ha))
    (fun a ha ↦ hsized.2 a (List.mem_mergeSort.mp ha)) hpreimages
  have hperm := (List.mergeSort_perm l le).map StateAttestation.untimed
  rw [huntimed] at hperm
  exact hperm.symm.trans ((List.mergeSort_perm l' le).map _)

def demoFirst : StateAttestation := ⟨"JKC", 5, "b", "r1", "k1", "s1", 1⟩

def demoSecond : StateAttestation := ⟨"JKC", 5, "b", "r1", "k2", "s2", 2⟩

/-- A hash that tells the two leaves and everything else apart. -/
def demoRootCrates : Crates :=
  { demoCrates with
    sha256 := fun message ↦
      if message = leafPreimage demoFirst then Vector.replicate 32 1
      else if message = leafPreimage demoSecond then Vector.replicate 32 2
      else Vector.replicate 32 3 }

theorem demoRootCrates_digests :
    demoRootCrates.sha256 (leafPreimage demoFirst) = Vector.replicate 32 1 ∧
      demoRootCrates.sha256 (leafPreimage demoSecond) = Vector.replicate 32 2 ∧
      nodeDigest demoRootCrates (Vector.replicate 32 1) (Vector.replicate 32 2) =
        Vector.replicate 32 3 := by
  decide +kernel

theorem demo_sortedLeaves :
    sortedLeaves demoRootCrates [demoFirst, demoSecond] =
        [Vector.replicate 32 1, Vector.replicate 32 2] ∧
      sortedLeaves demoRootCrates [demoSecond, demoFirst] =
        [Vector.replicate 32 1, Vector.replicate 32 2] := by
  have hmap : [demoFirst, demoSecond].map (attestationLeaf demoRootCrates) =
      [Vector.replicate 32 1, Vector.replicate 32 2] := by
    show [demoRootCrates.sha256 (leafPreimage demoFirst),
      demoRootCrates.sha256 (leafPreimage demoSecond)] = _
    rw [demoRootCrates_digests.1, demoRootCrates_digests.2.1]
  constructor
  · rw [← hmap]
    unfold sortedLeaves
    rw [List.mergeSort_of_pairwise (by decide)]
  · rw [← hmap]
    unfold sortedLeaves
    congr 1
    simp [List.mergeSort, List.merge]
    decide

theorem demo_hashedFor :
    HashedFor demoRootCrates [demoFirst, demoSecond] [demoSecond, demoFirst] := by
  obtain ⟨hfirst, hsecond, hnode⟩ := demoRootCrates_digests
  obtain ⟨hleaves, hleaves'⟩ := demo_sortedLeaves
  have hleaf : ∀ b, (∃ a ∈ [demoFirst, demoSecond] ++ [demoSecond, demoFirst],
      b = leafPreimage a) → b = leafPreimage demoFirst ∨ b = leafPreimage demoSecond := by
    rintro b ⟨a, ha, rfl⟩
    simp only [List.cons_append, List.nil_append, List.mem_cons, List.not_mem_nil, or_false] at ha
    rcases ha with rfl | rfl | rfl | rfl <;> simp
  have hpair : ∀ p, p ∈ MerkleTree.hashed (nodeDigest demoRootCrates)
        (sortedLeaves demoRootCrates [demoFirst, demoSecond]) ++
      MerkleTree.hashed (nodeDigest demoRootCrates)
        (sortedLeaves demoRootCrates [demoSecond, demoFirst]) →
      p = (Vector.replicate 32 1, Vector.replicate 32 2) := by
    intro p hp
    rw [hleaves, hleaves'] at hp
    simpa [MerkleTree.hashed, MerkleTree.pairs, MerkleTree.level] using hp
  constructor
  · intro b hb b' hb' heq
    rcases hleaf b hb with rfl | rfl <;> rcases hleaf b' hb' with rfl | rfl
    · rfl
    · rw [hfirst, hsecond] at heq
      exact absurd heq (by decide)
    · rw [hfirst, hsecond] at heq
      exact absurd heq (by decide)
    · rfl
  · intro p hp q hq _
    rw [hpair p hp, hpair q hq]
  · intro b hb p hp
    rw [hpair p hp, hnode]
    rcases hleaf b hb with rfl | rfl
    · rw [hfirst]
      decide
    · rw [hsecond]
      decide

theorem attestation_root_binds_demo :
    computeAttestationMerkleRoot demoRootCrates [demoFirst, demoSecond] =
        computeAttestationMerkleRoot demoRootCrates [demoSecond, demoFirst] ∧
      ([demoFirst, demoSecond].map StateAttestation.untimed).Perm
        ([demoSecond, demoFirst].map StateAttestation.untimed) := by
  have hsized : ∀ a ∈ [demoFirst, demoSecond] ++ [demoSecond, demoFirst], a.Sized := by
    have hfirst : demoFirst.Sized := by constructor <;> decide
    have hsecond : demoSecond.Sized := by constructor <;> decide
    simp [hfirst, hsecond]
  obtain ⟨hperm, hbinds⟩ := attestation_root_binds demoRootCrates [demoFirst, demoSecond]
    [demoSecond, demoFirst] (by simp) (by simp) hsized (by decide) (by decide)
  have hroot := hperm (.swap demoSecond demoFirst [])
  exact ⟨hroot, hbinds demo_hashedFor hroot⟩

end UtxoVm
