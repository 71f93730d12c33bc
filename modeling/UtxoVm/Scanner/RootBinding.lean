import UtxoVm.Scanner.StoreRun
import UtxoVm.Storage.SmtProofs

/-!
# What the state root binds

Equal state roots mean equal preimages, object by object.  A preimage is five strings written one
after the other around eight bytes of value, so it gives back the fields of the record only when
it is known where each string ends.
-/

namespace UtxoVm

open RustStd StateStore Prog BlockProcessor SparseMerkleTree

/-! ## 1. What is hashed -/

/-- The bytes that are hashed for a leaf or an inner node. -/
def SparseMerkleTree.HashInput.bytes : HashInput → Bytes
  | .leaf key value => asBytes "SMT_LEAF" ++ key.toList ++ value.toList
  | .node left right => asBytes "SMT_NODE" ++ left.toList ++ right.toList

private theorem hash_append_inj {a b c d : Hash} (h : a.toList ++ b.toList = c.toList ++ d.toList) :
    a = c ∧ b = d := by
  have hparts := List.append_inj h (by simp)
  exact ⟨Vector.toList_inj.mp hparts.1, Vector.toList_inj.mp hparts.2⟩

theorem SparseMerkleTree.HashInput.bytes_injective : Function.Injective HashInput.bytes := by
  intro a b h
  have hlen : (asBytes "SMT_LEAF").length = (asBytes "SMT_NODE").length := by decide
  have htags : asBytes "SMT_LEAF" ≠ asBytes "SMT_NODE" := by decide
  cases a with
  | leaf key value =>
    cases b with
    | leaf key' value' =>
      simp only [bytes, List.append_assoc, List.append_cancel_left_eq] at h
      rw [(hash_append_inj h).1, (hash_append_inj h).2]
    | node left right =>
      simp only [bytes, List.append_assoc] at h
      exact absurd (List.append_inj h hlen).1 htags
  | node left right =>
    cases b with
    | leaf key value =>
      simp only [bytes, List.append_assoc] at h
      exact absurd (List.append_inj h hlen.symm).1 htags.symm
    | node left' right' =>
      simp only [bytes, List.append_assoc, List.append_cancel_left_eq] at h
      rw [(hash_append_inj h).1, (hash_append_inj h).2]

theorem SparseMerkleTree.HashInput.digest_eq (X : Crates) (input : HashInput) :
    input.digest (smtHashes X) = X.sha256 input.bytes := by
  cases input <;> rfl

namespace StateStore

variable (X : Crates)

/-- The bytes that `hash_object` hashes. -/
def objectPreimage (obj : SmartObjectRecord) : Bytes :=
  asBytes obj.objectId ++ asBytes obj.codeHash ++ asBytes obj.sealRef ++ beBytes 8 obj.satoshis ++
    asBytes obj.owner ++ X.jsonToVec obj.stateData

theorem hashObject_eq (obj : SmartObjectRecord) :
    hashObject X obj = X.sha256 (objectPreimage X obj) := rfl

/-- Everything that is hashed for the state root of a store. -/
inductive Hashed (s : StateStore) : Bytes → Prop
  | key {id : String} {r : SmartObjectRecord} : s.objects[id]? = some r → Hashed s (asBytes id)
  | object {id : String} {r : SmartObjectRecord} : s.objects[id]? = some r →
      Hashed s (objectPreimage X r)
  | tree {input : HashInput} : TreeInput (smtHashes X) s.smt.leaves input → Hashed s input.bytes

/-- SHA-256 is ideal on what two stores hash. -/
structure CollisionFree (s s' : StateStore) : Prop where
  injOn : Set.InjOn X.sha256 {m | Hashed X s m ∨ Hashed X s' m}
  nonzero : ∀ m, Hashed X s m ∨ Hashed X s' m → X.sha256 m ≠ zeroHash

/-- The records of an object agree in all that the state root is to bind. -/
structure SameFields (r r' : SmartObjectRecord) : Prop where
  codeHash : r.codeHash = r'.codeHash
  sealRef : r.sealRef = r'.sealRef
  satoshis : r.satoshis = r'.satoshis
  owner : r.owner = r'.owner
  stateData : r.stateData = r'.stateData

/-- Two stores hold the same object ids, with related records. -/
def Related (rel : SmartObjectRecord → SmartObjectRecord → Prop) (s s' : StateStore) : Prop :=
  ∀ id : String, Option.Rel rel s.objects[id]? s'.objects[id]?

/-- The strings of the preimage end at the same places. -/
def SameLengths (r r' : SmartObjectRecord) : Prop :=
  (asBytes r.codeHash).length = (asBytes r'.codeHash).length ∧
    (asBytes r.sealRef).length = (asBytes r'.sealRef).length ∧
    (asBytes r.owner).length = (asBytes r'.owner).length

/-- The records hash alike, but some string ends at another place. -/
def Shifted (s s' : StateStore) : Prop :=
  Related (fun r r' ↦ objectPreimage X r = objectPreimage X r') s s' ∧ ¬ Related SameLengths s s'

/-- The fields fit their types: the value is a `u64`, and the text of a state denotes one state. -/
structure FieldsFit (s : StateStore) : Prop where
  satoshis : ∀ (id : String) (r : SmartObjectRecord), s.objects[id]? = some r → r.satoshis < 2 ^ 64
  json : ∀ (id : String) (r : SmartObjectRecord), s.objects[id]? = some r →
    ∀ stateData, X.jsonToVec stateData = X.jsonToVec r.stateData → stateData = r.stateData

/-- Equal state roots bind the objects of two stores. -/
def RootBinds (s s' : StateStore) : Prop :=
  (run currentStateRoot s).2 = (run currentStateRoot s').2 → Related SameFields s s'

variable {X} {ids : Set String} {s s' : StateStore}

/-- A preimage whose strings end at known places gives back the fields. -/
theorem sameFields_of_preimage {r r' : SmartObjectRecord} (hid : r.objectId = r'.objectId)
    (hpre : objectPreimage X r = objectPreimage X r') (hlen : SameLengths r r')
    (hsat : r.satoshis < 2 ^ 64 ∧ r'.satoshis < 2 ^ 64)
    (hjson : ∀ stateData, X.jsonToVec stateData = X.jsonToVec r'.stateData →
      stateData = r'.stateData) : SameFields r r' := by
  obtain ⟨hcode, hseal, howner⟩ := hlen
  simp only [objectPreimage, List.append_assoc, hid, List.append_cancel_left_eq] at hpre
  have hafterCode := List.append_inj hpre hcode
  have hafterSeal := List.append_inj hafterCode.2 hseal
  have hafterSat := List.append_inj hafterSeal.2 (by simp)
  have hafterOwner := List.append_inj hafterSat.2 howner
  have hmod := beBytes_inj hafterSat.1
  rw [show 256 ^ 8 = 2 ^ 64 by norm_num, Nat.mod_eq_of_lt hsat.1, Nat.mod_eq_of_lt hsat.2] at hmod
  exact
    { codeHash := asBytes_injective hafterCode.1
      sealRef := asBytes_injective hafterSeal.1
      satoshis := hmod
      owner := asBytes_injective hafterOwner.1
      stateData := hjson _ hafterOwner.2 }

theorem SameFields.sameLengths {r r' : SmartObjectRecord} (h : SameFields r r') :
    SameLengths r r' := by
  unfold SameLengths
  rw [h.codeHash, h.sealRef, h.owner]
  exact ⟨rfl, rfl, rfl⟩

theorem Related.imp {rel rel' : SmartObjectRecord → SmartObjectRecord → Prop}
    (h : Related rel s s') (himp : ∀ (id : String) (r r' : SmartObjectRecord),
      s.objects[id]? = some r → s'.objects[id]? = some r' → rel r r' → rel' r r') :
    Related rel' s s' := by
  intro id
  have hid := h id
  generalize hr : s.objects[id]? = r? at hid
  generalize hr' : s'.objects[id]? = r'? at hid
  cases hid with
  | some hrel => exact .some (himp id _ _ hr hr' hrel)
  | none => exact .none

/-! ## 2. Equal roots, equal leaves -/

theorem stateRoot_eq_iff (hs : s.Tracks X) (hs' : s'.Tracks X) :
    (run currentStateRoot s).2 = (run currentStateRoot s').2 ↔
      smtRoot (smtHashes X) s.smt.leaves = smtRoot (smtHashes X) s'.smt.leaves := by
  show Except.ok (hexEncode s.smt.root.2.toList) = Except.ok (hexEncode s'.smt.root.2.toList) ↔ _
  rw [Except.ok.injEq, hexEncode_injective.eq_iff, Vector.toList_inj,
    SparseMerkleTree.root_eq hs.wellFormed, SparseMerkleTree.root_eq hs'.wellFormed]

/-- The hashes of an ideal SHA-256 do not collide in the two trees. -/
theorem CollisionFree.not_collision (h : CollisionFree X s s') :
    ¬ Collision (smtHashes X) fun input ↦ TreeInput (smtHashes X) s.smt.leaves input ∨
      TreeInput (smtHashes X) s'.smt.leaves input := by
  have hhashed (input : HashInput) (hinput : TreeInput (smtHashes X) s.smt.leaves input ∨
      TreeInput (smtHashes X) s'.smt.leaves input) :
      Hashed X s input.bytes ∨ Hashed X s' input.bytes := hinput.imp .tree .tree
  rintro (⟨a, b, ha, hb, hne, heq⟩ | ⟨a, ha, hzero⟩)
  · rw [HashInput.digest_eq, HashInput.digest_eq] at heq
    exact hne (HashInput.bytes_injective (h.injOn (hhashed a ha) (hhashed b hb) heq))
  · rw [HashInput.digest_eq] at hzero
    exact h.nonzero _ (hhashed a ha) hzero

/-- Equal leaves come from the same objects with the same preimages. -/
theorem related_of_leaves (hs : s.Mirrored X ids) (hs' : s'.Mirrored X ids)
    (hideal : IdealHash X ids) (hfree : CollisionFree X s s')
    (hleaves : s.smt.leaves = s'.smt.leaves) :
    Related (fun r r' ↦ objectPreimage X r = objectPreimage X r') s s' := by
  -- the leaf of a stored object of one store is the leaf of a stored object of the other
  have hpartner {t t' : StateStore} (ht : t.Mirrored X ids) (ht' : t'.Mirrored X ids)
      (hsame : t.smt.leaves = t'.smt.leaves) {id : String} {r : SmartObjectRecord}
      (hr : t.objects[id]? = some r) :
      ∃ r' : SmartObjectRecord, t'.objects[id]? = some r' ∧ hashObject X r' = hashObject X r := by
    have hleaf := (ht.tracks.leaves (hashKey X id) (hashObject X r)).mpr ⟨id, r, hr, rfl, rfl⟩
    rw [hsame, ht'.tracks.leaves] at hleaf
    obtain ⟨id', r', hr', hkey, hobj⟩ := hleaf
    have hid : id' = id :=
      hideal.injOn (ht'.intact.object id' r' hr').2.2 (ht.intact.object id r hr).2.2 hkey
    exact ⟨r', hid ▸ hr', hobj⟩
  intro id
  cases hr : s.objects[id]? with
  | some r =>
    obtain ⟨r', hr', hobj⟩ := hpartner hs hs' hleaves hr
    rw [hr']
    rw [hashObject_eq, hashObject_eq] at hobj
    exact .some (hfree.injOn (.inl (.object hr)) (.inr (.object hr')) hobj.symm)
  | none =>
    cases hr' : s'.objects[id]? with
    | none => exact .none
    | some r' =>
      obtain ⟨r, hpresent, _⟩ := hpartner hs' hs hleaves.symm hr'
      rw [hr] at hpresent
      cases hpresent

theorem leaves_of_related (hs : s.Tracks X) (hs' : s'.Tracks X)
    (h : Related (fun r r' ↦ objectPreimage X r = objectPreimage X r') s s') :
    s.smt.leaves = s'.smt.leaves := by
  have hinto {t t' : StateStore} (hrel : Related (fun r r' ↦ hashObject X r = hashObject X r') t t')
      {key v : Hash} (hleaf : ∃ id, ∃ r : SmartObjectRecord, t.objects[id]? = some r ∧
        hashKey X id = key ∧ hashObject X r = v) :
      ∃ id, ∃ r : SmartObjectRecord, t'.objects[id]? = some r ∧
        hashKey X id = key ∧ hashObject X r = v := by
    obtain ⟨id, r, hr, hkey, hv⟩ := hleaf
    have hid := hrel id
    rw [hr] at hid
    generalize hr' : t'.objects[id]? = r'? at hid
    cases hid with
    | some hobj => exact ⟨id, _, hr', hkey, hobj.symm.trans hv⟩
  have hhash : Related (fun r r' ↦ hashObject X r = hashObject X r') s s' :=
    h.imp fun id r r' _ _ hpre ↦ congrArg X.sha256 hpre
  have hhash' : Related (fun r r' ↦ hashObject X r = hashObject X r') s' s := by
    intro id
    have hid := hhash id
    generalize s.objects[id]? = r? at hid
    generalize s'.objects[id]? = r'? at hid
    cases hid with
    | some hobj => exact .some hobj.symm
    | none => exact .none
  funext key
  apply Option.ext
  intro v
  rw [hs.leaves, hs'.leaves]
  exact ⟨hinto hhash, hinto hhash'⟩

end StateStore

open SparseTree BitAddress

/-! ## 3. An ideal hash over one object -/

/-- The hash with the number `n` in its first two bytes. -/
def numbered (n : Nat) : Hash :=
  ⟨(UInt8.ofNat (n / 256) :: UInt8.ofNat n :: 1 :: List.replicate 29 0).toArray, by simp⟩

/-- The number in the first two bytes. -/
def numberOf : Bytes → Nat
  | hi :: lo :: _ => hi.toNat * 256 + lo.toNat
  | _ => 0

/-- A hash without collisions over a tree of one object: an inner node is numbered by its distance
from the leaves, and those on the path of the object by a thousand more. -/
def demoDigest (message : Bytes) : Hash :=
  if message.take 8 = asBytes "SMT_NODE" then
    numbered (max (numberOf (message.drop 8)) (numberOf (message.drop 40)) + 1)
  else if message.take 8 = asBytes "SMT_LEAF" then numbered 1000
  else numbered (2000 + message.length)

def demoIdeal : Crates := { demoCrates with sha256 := demoDigest }

theorem numbered_toList (n : Nat) : (numbered n).toList =
    UInt8.ofNat (n / 256) :: UInt8.ofNat n :: 1 :: List.replicate 29 0 := by
  unfold numbered
  simp only [Vector.toList]

theorem numberOf_numbered {n : Nat} (hn : n < 65536) (rest : Bytes) :
    numberOf ((numbered n).toList ++ rest) = n := by
  rw [numbered_toList]
  show (UInt8.ofNat (n / 256)).toNat * 256 + (UInt8.ofNat n).toNat = n
  simp only [UInt8.toNat_ofNat']
  omega

theorem numberOf_zeroHash (rest : Bytes) : numberOf (zeroHash.toList ++ rest) = 0 := by
  rw [show zeroHash.toList = 0 :: 0 :: List.replicate 30 0 by decide]
  rfl

theorem numbered_inj {m n : Nat} (hm : m < 65536) (hn : n < 65536) (h : numbered m = numbered n) :
    m = n := by
  rw [← numberOf_numbered hm [], ← numberOf_numbered hn [], h]

theorem numbered_ne_zeroHash (n : Nat) : numbered n ≠ zeroHash := by
  intro h
  have hthird : (numbered n).toList[2]? = zeroHash.toList[2]? := by rw [h]
  rw [numbered_toList, show zeroHash.toList[2]? = some 0 by decide] at hthird
  simp at hthird

theorem demoDigest_ne_zeroHash (message : Bytes) : demoDigest message ≠ zeroHash := by
  unfold demoDigest
  split
  · exact numbered_ne_zeroHash _
  · split <;> exact numbered_ne_zeroHash _

/-- The hash of a node: the zero value for an empty leaf, else its number. -/
def nodeValue (n : Nat) : Hash := if n = 0 then zeroHash else numbered n

theorem numberOf_nodeValue {n : Nat} (hn : n < 65536) (rest : Bytes) :
    numberOf ((nodeValue n).toList ++ rest) = n := by
  unfold nodeValue
  split
  · rename_i hzero
    rw [numberOf_zeroHash, hzero]
  · exact numberOf_numbered hn rest

theorem demoDigest_node (left right : Hash) :
    demoDigest (HashInput.node left right).bytes =
      numbered
        (max (numberOf (left.toList ++ right.toList)) (numberOf (right.toList ++ [])) + 1) := by
  have htag : (asBytes "SMT_NODE").length = 8 := by decide
  have hleft : (HashInput.node left right).bytes.drop 8 = left.toList ++ right.toList := by
    simp only [HashInput.bytes, List.append_assoc]
    exact List.drop_left' htag
  have hright : (HashInput.node left right).bytes.drop 40 = right.toList ++ [] := by
    rw [show (40 : Nat) = 8 + 32 from rfl, ← List.drop_drop, hleft, List.drop_left' (by simp),
      List.append_nil]
  have htake : (HashInput.node left right).bytes.take 8 = asBytes "SMT_NODE" := by
    simp only [HashInput.bytes, List.append_assoc]
    exact List.take_left' htag
  unfold demoDigest
  rw [if_pos htake, hleft, hright]

theorem demoDigest_leaf (key value : Hash) :
    demoDigest (HashInput.leaf key value).bytes = numbered 1000 := by
  have htake : (HashInput.leaf key value).bytes.take 8 = asBytes "SMT_LEAF" := by
    simp only [HashInput.bytes, List.append_assoc]
    exact List.take_left' (by decide)
  unfold demoDigest
  rw [if_neg, if_pos htake]
  rw [htake]
  decide


section SingleLeaf

variable {leaves : Hash → Option Hash} {key₀ : Hash}

/-- The subtree of `key` at `level` holds the only leaf. -/
def OnPath (leaves : Hash → Option Hash) (key₀ : Hash) (level : Nat) (key : Hash) : Prop :=
  leaves key₀ ≠ none ∧ Agree level key key₀

open Classical in
/-- The number of a node. -/
noncomputable def nodeNumber (leaves : Hash → Option Hash) (key₀ : Hash) (level : Nat)
    (key : Hash) : Nat :=
  treeDepth - level + if OnPath leaves key₀ level key then 1000 else 0

theorem onPath_setBit {level : Nat} (hlevel : level < treeDepth) (key : Hash) (b : Bool) :
    OnPath leaves key₀ (level + 1) (setBit key level b) ↔
      OnPath leaves key₀ level key ∧ b = bit key₀ level := by
  unfold OnPath
  rw [and_assoc]
  refine and_congr_right fun _ ↦ ⟨fun h ↦ ⟨?_, ?_⟩, fun ⟨hkey, hb⟩ i hi ↦ ?_⟩
  · exact (agree_setBit key b hlevel).symm.trans (h.mono (by omega))
  · have hbit := h level (by omega)
    rw [BitAddress.bit_setBit key b hlevel hlevel, if_pos rfl] at hbit
    exact hbit
  · rw [BitAddress.bit_setBit key b hlevel (by omega)]
    split
    · rename_i heq
      rw [hb, heq]
    · exact hkey i (by omega)

theorem nodeNumber_on {level : Nat} {key : Hash} (h : OnPath leaves key₀ level key) :
    nodeNumber leaves key₀ level key = treeDepth - level + 1000 := by
  unfold nodeNumber
  rw [if_pos h]

theorem nodeNumber_off {level : Nat} {key : Hash} (h : ¬ OnPath leaves key₀ level key) :
    nodeNumber leaves key₀ level key = treeDepth - level := by
  unfold nodeNumber
  rw [if_neg h, Nat.add_zero]

theorem nodeNumber_lt (level : Nat) (key : Hash) : nodeNumber leaves key₀ level key < 65535 := by
  unfold nodeNumber treeDepth
  split <;> omega

/-- The larger number of two children leads to the parent. -/
theorem nodeNumber_parent {level : Nat} (hlevel : level < treeDepth) (key : Hash) :
    max (nodeNumber leaves key₀ (level + 1) (setBit key level false))
        (nodeNumber leaves key₀ (level + 1) (setBit key level true)) + 1 =
      nodeNumber leaves key₀ level key := by
  have hchild (b : Bool) := @onPath_setBit leaves key₀ _ hlevel key b
  by_cases hpath : OnPath leaves key₀ level key
  · rw [nodeNumber_on hpath]
    cases hbit : bit key₀ level with
    | false =>
      rw [nodeNumber_on ((hchild false).mpr ⟨hpath, hbit.symm⟩),
        nodeNumber_off fun h ↦ by simpa [hbit] using ((hchild true).mp h).2]
      omega
    | true =>
      rw [nodeNumber_on ((hchild true).mpr ⟨hpath, hbit.symm⟩),
        nodeNumber_off fun h ↦ by simpa [hbit] using ((hchild false).mp h).2]
      omega
  · rw [nodeNumber_off hpath, nodeNumber_off fun h ↦ hpath ((hchild false).mp h).1,
      nodeNumber_off fun h ↦ hpath ((hchild true).mp h).1]
    omega

theorem subtreeHash_nodeValue (honly : ∀ key value, leaves key = some value → key = key₀)
    {level : Nat} (hlevel : level ≤ treeDepth) (key : Hash) :
    subtreeHash (smtHashes demoIdeal) leaves level key =
      nodeValue (nodeNumber leaves key₀ level key) := by
  obtain ⟨n, hn⟩ : ∃ n, n + level = treeDepth := ⟨treeDepth - level, by omega⟩
  induction n generalizing level key with
  | zero =>
    rw [show level = treeDepth by omega, subtreeHash_leaf]
    unfold leafHash
    cases hleaf : leaves key with
    | none =>
      have hoff : ¬ OnPath leaves key₀ treeDepth key := by
        rintro ⟨hsome, hagree⟩
        rw [← hagree.eq] at hsome
        exact hsome hleaf
      rw [nodeNumber_off hoff, Nat.sub_self]
      rfl
    | some value =>
      have hkey := honly key value hleaf
      have hon : OnPath leaves key₀ treeDepth key := by
        refine ⟨?_, hkey ▸ Agree.refl _ _⟩
        rw [← hkey, hleaf]
        simp
      rw [nodeNumber_on hon, Nat.sub_self]
      exact demoDigest_leaf key value
  | succ n ih =>
    have hlt : level < treeDepth := by omega
    have hchild (b : Bool) := @ih (level + 1) hlt (setBit key level b) (by omega)
    rw [subtreeHash_node _ _ _ hlt, hchild, hchild]
    show demoDigest (HashInput.node _ _).bytes = _
    have hle (k : Hash) := @nodeNumber_lt leaves key₀ (level + 1) k
    rw [demoDigest_node, numberOf_nodeValue (by have := hle (setBit key level false); omega),
      numberOf_nodeValue (by have := hle (setBit key level true); omega), nodeNumber_parent hlt]
    unfold nodeValue
    rw [if_neg]
    rw [← nodeNumber_parent hlt]
    omega

/-- A node of a level is known by its number. -/
theorem nodeNumber_inj {level level' : Nat} {key key' : Hash} (hlevel : level ≤ treeDepth)
    (hlevel' : level' ≤ treeDepth)
    (h : nodeNumber leaves key₀ level key = nodeNumber leaves key₀ level' key') :
    level = level' ∧ (OnPath leaves key₀ level key ↔ OnPath leaves key₀ level' key') := by
  have hdepth : treeDepth = 256 := rfl
  by_cases hpath : OnPath leaves key₀ level key <;>
    by_cases hpath' : OnPath leaves key₀ level' key'
  · rw [nodeNumber_on hpath, nodeNumber_on hpath'] at h
    exact ⟨by omega, iff_of_true hpath hpath'⟩
  · rw [nodeNumber_on hpath, nodeNumber_off hpath'] at h
    omega
  · rw [nodeNumber_off hpath, nodeNumber_on hpath'] at h
    omega
  · rw [nodeNumber_off hpath, nodeNumber_off hpath'] at h
    exact ⟨by omega, iff_of_false hpath hpath'⟩

/-- The number of what a tree hashes. -/
theorem treeInput_number (honly : ∀ key value, leaves key = some value → key = key₀)
    {input : HashInput} (h : TreeInput (smtHashes demoIdeal) leaves input) :
    (∃ value, leaves key₀ = some value ∧ input = .leaf key₀ value ∧
      demoDigest input.bytes = numbered 1000) ∨
    ∃ level key, level < treeDepth ∧ demoDigest input.bytes =
        numbered (nodeNumber leaves key₀ level key) ∧
      input = .node
        (nodeValue (nodeNumber leaves key₀ (level + 1) (setBit key level false)))
        (nodeValue (nodeNumber leaves key₀ (level + 1) (setBit key level true))) := by
  cases h with
  | leaf hleaf =>
    rename_i key value
    have hkey := honly key value hleaf
    rw [hkey] at hleaf ⊢
    exact .inl ⟨value, hleaf, rfl, demoDigest_leaf _ _⟩
  | node key hlevel =>
    rename_i level
    refine .inr ⟨level, key, hlevel, ?_, ?_⟩
    · have hnode := subtreeHash_nodeValue honly hlevel.le key
      rw [subtreeHash_node _ _ _ hlevel] at hnode
      have hne : nodeNumber leaves key₀ level key ≠ 0 := by
        rw [← nodeNumber_parent hlevel]
        omega
      unfold nodeValue at hnode
      rw [if_neg hne] at hnode
      exact hnode
    · rw [subtreeHash_nodeValue honly hlevel, subtreeHash_nodeValue honly hlevel]

theorem treeInput_inj (honly : ∀ key value, leaves key = some value → key = key₀)
    {a b : HashInput} (ha : TreeInput (smtHashes demoIdeal) leaves a)
    (hb : TreeInput (smtHashes demoIdeal) leaves b)
    (h : demoDigest a.bytes = demoDigest b.bytes) : a = b := by
  have hlt (level : Nat) (key : Hash) : nodeNumber leaves key₀ level key < 65536 := by
    have := @nodeNumber_lt leaves key₀ level key
    omega
  have hleafNode (level : Nat) (key : Hash) (hlevel : level < treeDepth) :
      nodeNumber leaves key₀ level key ≠ 1000 := by
    unfold nodeNumber treeDepth at *
    split <;> omega
  rcases treeInput_number honly ha with ⟨value, hv, rfl, hda⟩ | ⟨level, key, hlevel, hda, rfl⟩ <;>
    rcases treeInput_number honly hb with
      ⟨value', hv', rfl, hdb⟩ | ⟨level', key', hlevel', hdb, rfl⟩
  · rw [hv] at hv'
    cases hv'
    rfl
  · rw [hda, hdb] at h
    exact absurd (numbered_inj (by omega) (hlt _ _) h).symm (hleafNode _ _ hlevel')
  · rw [hda, hdb] at h
    exact absurd (numbered_inj (hlt _ _) (by omega) h) (hleafNode _ _ hlevel)
  · rw [hda, hdb] at h
    have hnum := numbered_inj (hlt _ _) (hlt _ _) h
    obtain ⟨rfl, hpath⟩ := nodeNumber_inj hlevel.le hlevel'.le hnum
    have hchild (b : Bool) : nodeNumber leaves key₀ (level + 1) (setBit key level b) =
        nodeNumber leaves key₀ (level + 1) (setBit key' level b) := by
      have hiff := @onPath_setBit leaves key₀ _ hlevel key b
      have hiff' := @onPath_setBit leaves key₀ _ hlevel key' b
      by_cases hon : OnPath leaves key₀ (level + 1) (setBit key level b)
      · rw [nodeNumber_on hon, nodeNumber_on (hiff'.mpr ((hiff.mp hon).imp_left hpath.mp))]
      · rw [nodeNumber_off hon,
          nodeNumber_off fun h ↦ hon (hiff.mpr ((hiff'.mp h).imp_left hpath.mpr))]
    rw [hchild, hchild]

theorem treeInput_small (honly : ∀ key value, leaves key = some value → key = key₀)
    {input : HashInput} (h : TreeInput (smtHashes demoIdeal) leaves input) :
    ∃ n < 2000, demoDigest input.bytes = numbered n := by
  rcases treeInput_number honly h with ⟨_, _, _, hdigest⟩ | ⟨level, key, _, hdigest, _⟩
  · exact ⟨1000, by omega, hdigest⟩
  · refine ⟨_, ?_, hdigest⟩
    unfold nodeNumber treeDepth
    split <;> omega

end SingleLeaf

/-- What the tree of one object hashes, with its number: the id, the preimage, or an input of the
tree. -/
def DemoHashed (leaves : Hash → Option Hash) (preimage : Bytes) (n k : Nat) (m : Bytes) : Prop :=
  k = 2020 ∧ m = asBytes demoObjectId ∨ k = n ∧ m = preimage ∨ k < 2000 ∧
    ∃ input, m = input.bytes ∧ TreeInput (smtHashes demoIdeal) leaves input

/-- Two stores of one object with one preimage hash nothing to the same value. -/
theorem collisionFree_single {s s' : StateStore} (hs : s.Mirrored demoIdeal {demoObjectId})
    (hs' : s'.Mirrored demoIdeal {demoObjectId}) (hleaves : s.smt.leaves = s'.smt.leaves)
    {preimage : Bytes} {n : Nat} (hdigest : demoDigest preimage = numbered n)
    (hn : 2020 < n ∧ n < 65536)
    (hpre : ∀ r : SmartObjectRecord, s.objects[demoObjectId]? = some r →
      objectPreimage demoIdeal r = preimage)
    (hpre' : ∀ r : SmartObjectRecord, s'.objects[demoObjectId]? = some r →
      objectPreimage demoIdeal r = preimage) : CollisionFree demoIdeal s s' := by
  have honly (key value : Hash) (hleaf : s.smt.leaves key = some value) :
      key = hashKey demoIdeal demoObjectId := by
    obtain ⟨id, r, hr, hkey, _⟩ := (hs.tracks.leaves key value).mp hleaf
    rw [← hkey, (hs.intact.object id r hr).2.2]
  have hkey : demoDigest (asBytes demoObjectId) = numbered 2020 := by decide
  have hkinds (m : Bytes) (hm : Hashed demoIdeal s m ∨ Hashed demoIdeal s' m) :
      ∃ k < 65536, demoDigest m = numbered k ∧ DemoHashed s.smt.leaves preimage n k m := by
    have hid {t : StateStore} (ht : t.Mirrored demoIdeal {demoObjectId}) {id : String}
        {r : SmartObjectRecord} (hr : t.objects[id]? = some r) : id = demoObjectId :=
      (ht.intact.object id r hr).2.2
    have htree {input : HashInput} (h : TreeInput (smtHashes demoIdeal) s.smt.leaves input) :
        ∃ k < 65536, demoDigest input.bytes = numbered k ∧
          DemoHashed s.smt.leaves preimage n k input.bytes := by
      obtain ⟨k, hk, hd⟩ := treeInput_small honly h
      exact ⟨k, by omega, hd, .inr (.inr ⟨hk, input, rfl, h⟩)⟩
    rcases hm with hm | hm
    · cases hm with
      | key hr => exact ⟨2020, by omega, hid hs hr ▸ hkey, .inl ⟨rfl, by rw [hid hs hr]⟩⟩
      | object hr =>
        have hp := hpre _ (hid hs hr ▸ hr)
        exact ⟨n, hn.2, hp ▸ hdigest, .inr (.inl ⟨rfl, hp⟩)⟩
      | tree hinput => exact htree hinput
    · cases hm with
      | key hr => exact ⟨2020, by omega, hid hs' hr ▸ hkey, .inl ⟨rfl, by rw [hid hs' hr]⟩⟩
      | object hr =>
        have hp := hpre' _ (hid hs' hr ▸ hr)
        exact ⟨n, hn.2, hp ▸ hdigest, .inr (.inl ⟨rfl, hp⟩)⟩
      | tree hinput => exact htree (hleaves ▸ hinput)
  refine ⟨fun a ha b hb hab ↦ ?_, fun m _ ↦ demoDigest_ne_zeroHash m⟩
  obtain ⟨k, hk, hda, hkind⟩ := hkinds a ha
  obtain ⟨k', hk', hdb, hkind'⟩ := hkinds b hb
  change demoDigest a = demoDigest b at hab
  rw [hda, hdb] at hab
  have hnum := numbered_inj hk hk' hab
  rcases hkind with ⟨hk, rfl⟩ | ⟨hk, rfl⟩ | ⟨hk, input, rfl, hinput⟩ <;>
    rcases hkind' with ⟨hk', hb'⟩ | ⟨hk', hb'⟩ | ⟨hk', input', rfl, hinput'⟩ <;>
    try omega
  · rw [hb']
  · rw [hb']
  · rw [treeInput_inj honly hinput hinput' (by rw [hda, hdb, hnum])]

/-! ## 4. Two sales of one object -/

namespace BlockProcessor

/-- A transaction that creates an object whose state is a number. -/
def demoCreateNumberTx (n : UInt64) : ElectrsTx :=
  { demoCreateTx with vout := [jsonOutput 1000 (demoCreateNumber n)] }

/-- A transaction that hands the object to somebody else. -/
def demoSaleTx (owner : String) : ElectrsTx :=
  { demoTransferTx with vout := [jsonOutput 900 (demoTransfer owner)] }

/-- The store after two gossiped transactions: one creates an object, one hands it over. -/
def demoSale (n : UInt64) (owner : String) : StateStore :=
  runTx demoIdeal demoProcessor 0
    (runTx demoIdeal demoProcessor 0 (empty demoIdeal) ⟨{}, 0, demoCreateNumberTx n⟩)
    ⟨{}, 0, demoSaleTx owner⟩

theorem demoIdeal_idealHash : IdealHash demoIdeal {demoObjectId} where
  injOn := Set.injOn_singleton _ _
  nonzero _ := demoDigest_ne_zeroHash _

theorem readable_of_all {X : Crates} {P : BlockProcessor} {s : StateStore} {tx : ElectrsTx}
    {blockHeight : Nat}
    (h : (plannedUpdate X P s tx blockHeight).all fun u ↦ u.undo.objectId == demoObjectId &&
      u.object.all fun obj ↦ obj.readable) :
    ∀ u, plannedUpdate X P s tx blockHeight = some u → u.Readable {demoObjectId} := by
  intro u hu
  rw [hu] at h
  simp only [Option.all_some, Bool.and_eq_true, beq_iff_eq] at h
  exact ⟨h.1, fun obj hobj ↦ by rw [hobj] at h; exact h.2⟩

def demoSalePreimage : Bytes :=
  asBytes (demoObjectId ++ "wasm_default" ++ sealOf demoTransferTx.txid 0) ++ beBytes 8 900 ++
    asBytes "alice12"

/-- Both transactions write readable records of the object, which `owner` has in the end. -/
abbrev SaleEvaluates (n : UInt64) (owner : String) : Prop :=
  ((plannedUpdate demoIdeal demoProcessor (empty demoIdeal) (demoCreateNumberTx n) 0).all
      fun u ↦ u.undo.objectId == demoObjectId && u.object.all fun obj ↦ obj.readable) = true ∧
    ((plannedUpdate demoIdeal demoProcessor (runTx demoIdeal demoProcessor 0
        (empty demoIdeal) ⟨{}, 0, demoCreateNumberTx n⟩) (demoSaleTx owner) 0).all
      fun u ↦ u.undo.objectId == demoObjectId && u.object.all fun obj ↦ obj.readable) = true ∧
    (demoSale n owner).objects[demoObjectId]?.map (fun r ↦
      (r.owner, objectPreimage demoIdeal r, r.satoshis, r.stateData.compact)) =
        some (owner, demoSalePreimage, 900, toString n.toNat)

section Sale

variable {n : UInt64} {owner : String} (h : SaleEvaluates n owner)
include h

theorem SaleEvaluates.run : Run demoIdeal {demoObjectId} (demoSale n owner) :=
  .processTx _ _ _ (.processTx _ _ _ .empty (readable_of_all h.1)) (readable_of_all h.2.1)

theorem SaleEvaluates.soldTo :
    (demoSale n owner).objects[demoObjectId]?.map (·.owner) = some owner := by
  have hsold := congrArg (Option.map (·.1)) h.2.2
  rwa [Option.map_map] at hsold

theorem SaleEvaluates.preimage :
    (demoSale n owner).objects[demoObjectId]?.map (objectPreimage demoIdeal) =
      some demoSalePreimage := by
  have hsold := congrArg (Option.map (·.2.1)) h.2.2
  rwa [Option.map_map] at hsold

theorem SaleEvaluates.fields :
    (demoSale n owner).objects[demoObjectId]?.map (fun r ↦ (r.satoshis, r.stateData.compact)) =
      some (900, toString n.toNat) := by
  have hsold := congrArg (Option.map (·.2.2)) h.2.2
  rwa [Option.map_map] at hsold

end Sale

theorem demoSales_evaluate : SaleEvaluates 12 "alice" ∧ SaleEvaluates 2 "alice1" := by
  decide +kernel

theorem demoSale_alice_evaluates : SaleEvaluates 12 "alice" := demoSales_evaluate.1

theorem demoSale_alice1_evaluates : SaleEvaluates 2 "alice1" := demoSales_evaluate.2

theorem demoSale_alice : Run demoIdeal {demoObjectId} (demoSale 12 "alice") :=
  SaleEvaluates.run demoSale_alice_evaluates

theorem demoSale_alice1 : Run demoIdeal {demoObjectId} (demoSale 2 "alice1") :=
  SaleEvaluates.run demoSale_alice1_evaluates

/-- The text of a number denotes that number only. -/
theorem eq_number_of_compact {j : Json} {n : UInt64} (hn : n ≠ 0)
    (h : j.compact = toString n.toNat) : j = .number (.posInt n) := by
  have hchar (c : Char) (hc : c ∈ j.compact.toList) : c.isDigit = true := by
    rw [h, Nat.toString_eq_repr, Nat.repr, String.toList_ofList] at hc
    exact Nat.isDigit_of_mem_toDigits (by omega) (by omega) hc
  cases j with
  | null => exact absurd (hchar 'n' (by decide)) (by decide)
  | bool b =>
    cases b with
    | true => exact absurd (hchar 't' (by decide)) (by decide)
    | false => exact absurd (hchar 'f' (by decide)) (by decide)
  | string text => exact absurd (hchar '"' (by simp [Json.compact])) (by decide)
  | array xs => exact absurd (hchar '[' (by simp [Json.compact])) (by decide)
  | object fields =>
    exact absurd (hchar '\x7b' (by simp [Json.compact])) (by decide)
  | number m =>
    have hzero : "0" ≠ toString n.toNat := by
      intro h0
      have hnat : (0 : Nat) = n.toNat := Nat.repr_inj.mp h0
      exact hn (UInt64.toNat_inj.mp hnat.symm)
    cases m with
    | posInt m =>
      have hnat : m.toNat = n.toNat := Nat.repr_inj.mp h
      rw [UInt64.toNat_inj.mp hnat]
    | negInt m => exact absurd h hzero
    | float bits => exact absurd h hzero

theorem demoSale_fits {s : StateStore} (hs : Run demoIdeal {demoObjectId} s) {n : UInt64}
    (hn : n ≠ 0) (hobj : s.objects[demoObjectId]?.map (fun r ↦ (r.satoshis, r.stateData.compact)) =
      some (900, toString n.toNat)) : FieldsFit demoIdeal s := by
  have hfields (id : String) (r : SmartObjectRecord) (hr : s.objects[id]? = some r) :
      r.satoshis = 900 ∧ r.stateData.compact = toString n.toNat := by
    have hid : id = demoObjectId :=
      ((hs.mirrored demoIdeal_idealHash).intact.object id r hr).2.2
    rw [← hid, hr] at hobj
    exact Prod.mk.injEq .. ▸ Option.some.inj hobj
  refine ⟨fun id r hr ↦ ?_, fun id r hr stateData htext ↦ ?_⟩
  · have hsat := (hfields id r hr).1
    omega
  · have hcompact := (hfields id r hr).2
    rw [eq_number_of_compact hn hcompact] at htext ⊢
    exact eq_number_of_compact hn (asBytes_injective htext)

theorem demoSale_related :
    Related (fun r r' ↦ objectPreimage demoIdeal r = objectPreimage demoIdeal r')
      (demoSale 12 "alice") (demoSale 2 "alice1") := by
  intro id
  have hpre := And.intro (SaleEvaluates.preimage demoSale_alice_evaluates)
    (SaleEvaluates.preimage demoSale_alice1_evaluates)
  have hid (s : StateStore) (hs : Run demoIdeal {demoObjectId} s) (r : SmartObjectRecord)
      (hr : s.objects[id]? = some r) : id = demoObjectId :=
    ((hs.mirrored demoIdeal_idealHash).intact.object id r hr).2.2
  cases hr : (demoSale 12 "alice").objects[id]? with
  | some r =>
    rw [← hid _ demoSale_alice r hr, hr] at hpre
    cases hr' : (demoSale 2 "alice1").objects[id]? with
    | some r' =>
      rw [hr'] at hpre
      exact .some ((Option.some.inj hpre.1).trans (Option.some.inj hpre.2).symm)
    | none =>
      rw [hr'] at hpre
      cases hpre.2
  | none =>
    cases hr' : (demoSale 2 "alice1").objects[id]? with
    | some r' =>
      rw [← hid _ demoSale_alice1 r' hr', hr] at hpre
      cases hpre.1
    | none => exact .none

theorem demoSale_collisionFree :
    CollisionFree demoIdeal (demoSale 12 "alice") (demoSale 2 "alice1") := by
  have hs := Run.mirrored demoSale_alice demoIdeal_idealHash
  have hs' := Run.mirrored demoSale_alice1 demoIdeal_idealHash
  have hstored {s : StateStore} {r : SmartObjectRecord}
      (hmap : s.objects[demoObjectId]?.map (objectPreimage demoIdeal) = some demoSalePreimage)
      (hr : s.objects[demoObjectId]? = some r) : objectPreimage demoIdeal r = demoSalePreimage := by
    rw [hr] at hmap
    exact Option.some.inj hmap
  have hdigest : demoDigest demoSalePreimage = numbered 2113 := by decide +kernel
  exact collisionFree_single hs hs' (leaves_of_related hs.tracks hs'.tracks demoSale_related)
    hdigest (by omega) (fun _ ↦ hstored (SaleEvaluates.preimage demoSale_alice_evaluates))
    fun _ ↦ hstored (SaleEvaluates.preimage demoSale_alice1_evaluates)

theorem demoSale_fits_alice : FieldsFit demoIdeal (demoSale 12 "alice") :=
  demoSale_fits demoSale_alice (by decide) (SaleEvaluates.fields demoSale_alice_evaluates)

theorem demoSale_fits_alice1 : FieldsFit demoIdeal (demoSale 2 "alice1") :=
  demoSale_fits demoSale_alice1 (by decide) (SaleEvaluates.fields demoSale_alice1_evaluates)

end BlockProcessor

/-! ## 5. The root binds the objects -/

namespace StateStore

variable {X : Crates} {ids : Set String} {s s' : StateStore}

/-- **What the state root binds.**  Over an ideal SHA-256 equal roots of two reachable stores mean
equal objects, except when the stores differ by a shift of bytes between neighbouring fields. -/
theorem rootBinds_iff (hideal : IdealHash X ids) (hs : Run X ids s) (hs' : Run X ids s')
    (hfree : CollisionFree X s s') (hfit : FieldsFit X s) (hfit' : FieldsFit X s') :
    RootBinds s s' ↔ ¬ Shifted X s s' := by
  have hm := hs.mirrored hideal
  have hm' := hs'.mirrored hideal
  constructor
  · rintro hbinds ⟨hpre, hlengths⟩
    have hroot := (stateRoot_eq_iff hm.tracks hm'.tracks).mpr
      (congrArg _ (leaves_of_related hm.tracks hm'.tracks hpre))
    exact hlengths ((hbinds hroot).imp fun id r r' _ _ hsame ↦ hsame.sameLengths)
  · intro hshifted hroot
    rw [stateRoot_eq_iff hm.tracks hm'.tracks] at hroot
    have hpre := related_of_leaves hm hm' hideal hfree
      (smtRoot_injective hfree.not_collision hroot)
    have hlengths : Related SameLengths s s' := not_not.mp fun hne ↦ hshifted ⟨hpre, hne⟩
    intro id
    have hid := hpre id
    have hlen := hlengths id
    generalize hr : s.objects[id]? = r? at hid hlen
    generalize hr' : s'.objects[id]? = r'? at hid hlen
    cases hid with
    | none => exact .none
    | some hpreimage =>
      rename_i r r'
      cases hlen with
      | some hlength =>
        have hids : r.objectId = r'.objectId :=
          (hm.intact.object id r hr).1.trans (hm'.intact.object id r' hr').1.symm
        exact .some (sameFields_of_preimage hids hpreimage hlength
          ⟨hfit.satoshis id r hr, hfit'.satoshis id r' hr'⟩ (hfit'.json id r' hr'))

end StateStore

open BlockProcessor

theorem rootBinds_iff_sale :
    RootBinds (demoSale 12 "alice") (demoSale 2 "alice1") ↔
      ¬ Shifted demoIdeal (demoSale 12 "alice") (demoSale 2 "alice1") :=
  rootBinds_iff demoIdeal_idealHash demoSale_alice demoSale_alice1 demoSale_collisionFree
    demoSale_fits_alice demoSale_fits_alice1

/-- `alice` with state `12` and `alice1` with state `2`: one root for two owners. -/
theorem root_binds_neither_owner :
    Run demoIdeal {demoObjectId} (demoSale 12 "alice") ∧
      Run demoIdeal {demoObjectId} (demoSale 2 "alice1") ∧
      CollisionFree demoIdeal (demoSale 12 "alice") (demoSale 2 "alice1") ∧
      (run currentStateRoot (demoSale 12 "alice")).2 =
        (run currentStateRoot (demoSale 2 "alice1")).2 ∧
      ¬ RootBinds (demoSale 12 "alice") (demoSale 2 "alice1") := by
  have hs := Run.mirrored demoSale_alice demoIdeal_idealHash
  have hs' := Run.mirrored demoSale_alice1 demoIdeal_idealHash
  have hroot := (stateRoot_eq_iff hs.tracks hs'.tracks).mpr
    (congrArg _ (leaves_of_related hs.tracks hs'.tracks demoSale_related))
  refine ⟨demoSale_alice, demoSale_alice1, demoSale_collisionFree, hroot, fun hbinds ↦ ?_⟩
  have howner := SaleEvaluates.soldTo demoSale_alice_evaluates
  have howner' := SaleEvaluates.soldTo demoSale_alice1_evaluates
  have hid := hbinds hroot demoObjectId
  generalize (demoSale 12 "alice").objects[demoObjectId]? = r? at hid howner
  generalize (demoSale 2 "alice1").objects[demoObjectId]? = r'? at hid howner'
  cases hid with
  | none => cases howner
  | some hsame =>
    have h : "alice" = "alice1" :=
      (Option.some.inj howner).symm.trans (hsame.owner.trans (Option.some.inj howner'))
    exact absurd h (by decide)

end UtxoVm
