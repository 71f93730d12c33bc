import UtxoVm.CrossChain.Accountability
import UtxoVm.Scanner.RootBinding
import UtxoVm.Reasoning.HashChain

/-!
# Genuine proofs

The tree of a node holds the hash of the fields of an object, written one after the other.  The
verifier hashes the JSON text of the object instead, so that a proof taken from a node as it stands
leads elsewhere.
-/

namespace UtxoVm

open RustStd StateStore Prog CrossChainVerifier ConsensusManager SparseMerkleTree BlockProcessor

/-- The JSON of a record, as `serde_json` makes it: the members in key order. -/
def SmartObjectRecord.toJson (obj : SmartObjectRecord) : Json :=
  .object
    [("code_hash", .string obj.codeHash),
      ("created_at_block", .number (.posInt (UInt64.ofNat obj.createdAtBlock))),
      ("object_id", .string obj.objectId), ("owner", .string obj.owner),
      ("satoshis", .number (.posInt (UInt64.ofNat obj.satoshis))), ("seal", .string obj.sealRef),
      ("state_data", obj.stateData),
      ("updated_at_block", .number (.posInt (UInt64.ofNat obj.updatedAtBlock)))]

variable {X : Crates} {ids : Set String} {consensus : ConsensusManager} {s : StateStore}
  {obj : SmartObjectRecord} {proof : CrossChainProof}

/-- What a node hands out for an object (`get_object_proof`, `get_state_proof` and
`current_state_root`), with the signatures of enough validators for its root. -/
structure Genuine (X : Crates) (consensus : ConsensusManager) (s : StateStore)
    (obj : SmartObjectRecord) (proof : CrossChainProof) : Prop where
  objectId : proof.objectId = obj.objectId
  objectData : proof.objectData = obj.toJson
  merkleProof : getStateProof X s obj.objectId = some proof.merkleProof
  sourceRoot : (run currentStateRoot s).2 = .ok proof.sourceRoot
  attested : ∀ att ∈ proof.attestations, att.chain = proof.sourceChain ∧
    att.blockHeight = proof.sourceHeight ∧ att.stateRoot = proof.sourceRoot ∧
    verifyAttestation X att = true
  vouched : Vouched X consensus proof.attestations proof.sourceChain proof.sourceHeight
    proof.sourceRoot

/-! ## 1. The path as a chain of digests -/

/-- The input of the hash one level up from `current`. -/
def climbInput (X : Crates) (t : SparseMerkleTree) (key : Hash) (bitIdx : Nat) (current : Hash) :
    Bytes :=
  let siblingHash := t.getSiblingHash (smtHashes X) key bitIdx
  if bitAt key bitIdx = 0 then asBytes "SMT_NODE" ++ current.toList ++ siblingHash.toList
  else asBytes "SMT_NODE" ++ siblingHash.toList ++ current.toList

/-- From the digest of a content to the root: the leaf, and the inner nodes upwards. -/
def provingSteps (X : Crates) (t : SparseMerkleTree) (key : Hash) : List (Hash → Bytes) :=
  (fun value ↦ asBytes "SMT_LEAF" ++ key.toList ++ value.toList) ::
    (List.range treeDepth).reverse.map (climbInput X t key)

theorem climb_eq_result (X : Crates) (t : SparseMerkleTree) (key : Hash) (n : Nat) (input : Bytes) :
    t.climb (smtHashes X) key n (X.sha256 input) =
      HashChain.result X.sha256 ((List.range n).reverse.map (climbInput X t key)) input := by
  induction n generalizing input with
  | zero => rfl
  | succ n ih =>
    rw [List.range_succ, List.reverse_append, List.reverse_singleton, List.singleton_append,
      List.map_cons]
    unfold climb HashChain.result
    rw [← ih]
    congr 1
    unfold parentHash climbInput smtHashes
    dsimp only
    split <;> rfl

theorem computeRootForKey_eq_result (X : Crates) (t : SparseMerkleTree) (key : Hash)
    (content : Bytes) :
    t.computeRootForKey (smtHashes X) key (X.sha256 content) =
      HashChain.result X.sha256 (provingSteps X t key) content := by
  unfold provingSteps HashChain.result
  rw [← climb_eq_result]
  rfl

theorem climbInput_injective (X : Crates) (t : SparseMerkleTree) (key : Hash) (bitIdx : Nat) :
    Function.Injective (climbInput X t key bitIdx) := by
  intro c c' h
  unfold climbInput at h
  dsimp only at h
  split at h
  · exact Vector.toList_inj.mp (by simpa using h)
  · exact Vector.toList_inj.mp (by simpa using h)

/-! ## 2. When the verifier accepts -/

/-- The verifier's chain, from the JSON text, and the tree's chain, from the fields, meet. -/
def Meets (X : Crates) (s : StateStore) (obj : SmartObjectRecord) : Prop :=
  let steps := provingSteps X s.smt (hashKey X obj.objectId)
  ∃ p ∈ (HashChain.inputs X.sha256 steps (canonicalJsonToVec X obj.toJson)).zip
      (HashChain.inputs X.sha256 steps (objectPreimage X obj)), X.sha256 p.1 = X.sha256 p.2

theorem getProof_proofPath {H : SmtHashes} {t : SparseMerkleTree} {key value : Hash}
    {p : SmtInclusionProof} (hvalue : t.leaves key = some value) (h : t.getProof H key = some p) :
    p.proofPath = t.proofPath H key := by
  unfold getProof at h
  rw [hvalue] at h
  cases h
  rfl

/-- The root is the end of the chain that starts from the fields of any object of the tree. -/
theorem root_eq_result (ht : s.smt.WellFormed (smtHashes X))
    (hleaf : s.smt.leaves (hashKey X obj.objectId) = some (hashObject X obj)) :
    s.smt.root.2 = HashChain.result X.sha256
      (provingSteps X s.smt (hashKey X obj.objectId)) (objectPreimage X obj) := by
  rw [← computeRootForKey_eq ht hleaf, ← computeRootForKey_eq_result]
  rfl

theorem verifyMerkle_genuine_iff (ht : s.smt.WellFormed (smtHashes X))
    (hleaf : s.smt.leaves (hashKey X obj.objectId) = some (hashObject X obj))
    (h : Genuine X consensus s obj proof) : verifyMerkle X proof = true ↔ Meets X s obj := by
  have hroot : proof.sourceRoot = hexEncode s.smt.root.2.toList := (Except.ok.inj h.sourceRoot).symm
  have hpath := getProof_proofPath hleaf h.merkleProof
  unfold Meets
  dsimp only
  rw [← HashChain.result_eq_iff, ← root_eq_result ht hleaf, ← computeRootForKey_eq_result]
  unfold verifyMerkle
  rw [hroot, hexHash_hexEncode, h.objectId, h.objectData, hpath]
  show (foldProof _ (proofPath _ _ _) _ == _) = true ↔ _
  unfold proofPath
  rw [foldProof_path]
  simp [computeRootForKey]

/-- **A genuine proof is accepted** exactly if there are validators and the chains meet. -/
theorem genuine_accepted_iff (hideal : IdealHash X ids) (hrun : Run X ids s)
    (hobj : s.objects[obj.objectId]? = some obj) (hgenuine : Genuine X consensus s obj proof) :
    (CrossChainVerifier.verifyProof X consensus proof).valid = true ↔
      0 < consensus.getValidatorCount ∧ Meets X s obj := by
  have hs := hrun.mirrored hideal
  have hleaf := (hs.tracks.leaves _ _).mpr ⟨obj.objectId, obj, hobj, rfl, rfl⟩
  rw [verifyProof_valid_iff, verifyMerkle_genuine_iff hs.tracks.wellFormed hleaf hgenuine]
  constructor
  · intro ⟨hquorum, hmeets, _⟩
    exact ⟨(verifyQuorum_pos hquorum).1, hmeets⟩
  · intro ⟨hn, hmeets⟩
    have hquorum := verifyQuorum_of_vouched hn (fun att hatt ↦ (hgenuine.attested att hatt).2.2.1)
      hgenuine.vouched
    exact ⟨hquorum, hmeets,
      verifyAttestationSignatures_iff.mpr ⟨(verifyQuorum_pos hquorum).2, hgenuine.attested⟩⟩

/-! ## 3. The two encodings -/

/-- What `serde_json::to_vec` writes: a string between quotes, escaped or not; an object with its
keys as strings, colons and braces. -/
structure CompactText (X : Crates) : Prop where
  string : ∀ text, (asBytes text).length + 2 ≤ (X.jsonToVec (.string text)).length
  object : ∀ fields : List (String × Json),
    (fields.map fun field ↦
      (X.jsonToVec (.string field.1)).length + 1 + (X.jsonToVec field.2).length).sum + 2 ≤
        (X.jsonToVec (.object fields)).length

theorem asBytes_append_length (a b : String) :
    (asBytes (a ++ b)).length = (asBytes a).length + (asBytes b).length := by
  simp [asBytes]

theorem compactFields_length (fields : List (String × Json)) :
    (fields.map fun field ↦ (asBytes (Json.compact (.string field.1))).length + 1 +
      (asBytes field.2.compact).length).sum ≤
        (asBytes (Json.compactFields fields)).length := by
  induction fields with
  | nil => simp [Json.compactFields]
  | cons field rest ih =>
    obtain ⟨key, v⟩ := field
    have hquote : (asBytes "\"").length = 1 := by decide
    have hcolon : (asBytes "\":").length = 2 := by decide
    rw [List.map_cons, List.sum_cons]
    cases rest with
    | nil =>
      simp only [Json.compactFields, Json.compact, asBytes_append_length, List.map_nil,
        List.sum_nil]
      omega
    | cons next rest =>
      rw [Json.compactFields]
      · simp only [asBytes_append_length]
        rw [show Json.compact (.string key) = "\"" ++ key ++ "\"" by rw [Json.compact]]
        simp only [asBytes_append_length]
        omega
      · exact List.cons_ne_nil _ _

theorem insertField_of_lt {key first : String} {v w : Json} {rest : List (String × Json)}
    (h : key < first) :
    Json.insertField key v ((first, w) :: rest) = (key, v) :: (first, w) :: rest := by
  unfold Json.insertField
  rw [if_neg h.ne, if_pos h]

theorem toJson_canonicalize (hstate : obj.stateData.canonicalize = obj.stateData) :
    obj.toJson.canonicalize = obj.toJson := by
  unfold SmartObjectRecord.toJson
  simp only [Json.canonicalize, Json.canonicalizeFields, hstate]
  rw [show Json.insertField "updated_at_block" _ [] = [_] from rfl, insertField_of_lt (by decide),
    insertField_of_lt (by decide), insertField_of_lt (by decide), insertField_of_lt (by decide),
    insertField_of_lt (by decide), insertField_of_lt (by decide), insertField_of_lt (by decide)]

/-- The JSON text of a record is longer than its fields, so it is another text. -/
theorem jsonText_ne_preimage (htext : CompactText X)
    (hstate : obj.stateData.canonicalize = obj.stateData) :
    canonicalJsonToVec X obj.toJson ≠ objectPreimage X obj := by
  have hobject := htext.object
    [("code_hash", .string obj.codeHash),
      ("created_at_block", .number (.posInt (UInt64.ofNat obj.createdAtBlock))),
      ("object_id", .string obj.objectId), ("owner", .string obj.owner),
      ("satoshis", .number (.posInt (UInt64.ofNat obj.satoshis))), ("seal", .string obj.sealRef),
      ("state_data", obj.stateData),
      ("updated_at_block", .number (.posInt (UInt64.ofNat obj.updatedAtBlock)))]
  have hcode := htext.string obj.codeHash
  have hid := htext.string obj.objectId
  have howner := htext.string obj.owner
  have hseal := htext.string obj.sealRef
  intro heq
  have hlength := congrArg List.length heq
  unfold canonicalJsonToVec objectPreimage at hlength
  rw [toJson_canonicalize hstate] at hlength
  simp only [SmartObjectRecord.toJson, List.length_append, beBytes_length] at hlength
  simp only [List.map_cons, List.map_nil, List.sum_cons, List.sum_nil] at hobject
  omega

/-- The chains start from different texts, so that they meet in a collision only. -/
theorem Meets.collision (htext : CompactText X)
    (hstate : obj.stateData.canonicalize = obj.stateData) (h : Meets X s obj) :
    let steps := provingSteps X s.smt (hashKey X obj.objectId)
    ∃ p ∈ (HashChain.inputs X.sha256 steps (canonicalJsonToVec X obj.toJson)).zip
        (HashChain.inputs X.sha256 steps (objectPreimage X obj)),
      p.1 ≠ p.2 ∧ X.sha256 p.1 = X.sha256 p.2 := by
  intro steps
  refine HashChain.exists_collision (List.forall₂_same.mpr fun step hstep ↦ ?_)
    (jsonText_ne_preimage htext hstate) (HashChain.result_eq_iff.mpr h)
  intro d d' heq
  rcases List.mem_cons.mp hstep with rfl | hmem
  · exact Vector.toList_inj.mp (by simpa using heq)
  · obtain ⟨bitIdx, -, rfl⟩ := List.mem_map.mp hmem
    exact climbInput_injective X s.smt _ bitIdx heq

/-! ## 4. A node of one object

The digest of a text is its largest byte here, so that a brace in the text shows in every digest
above it. -/

/-- A byte of the content stays below every digest of its chain. -/
theorem demo_le_result {steps : List (Hash → Bytes)}
    (hsteps : ∀ step ∈ steps, ∀ d : Hash, ∀ x ∈ d.toList, x ∈ step d) {content : Bytes} {x : UInt8}
    (hx : x ∈ content) :
    ∀ y ∈ (HashChain.result demoCrates.sha256 steps content).toList, x ≤ y := by
  induction steps generalizing content x with
  | nil =>
    intro y hy
    rw [mem_demoCrates_sha256.mp hy]
    exact UInt8.le_iff_toNat_le.mpr (le_maxByte hx)
  | cons step steps ih =>
    intro y hy
    have hmem : maxByte content ∈ step (demoCrates.sha256 content) :=
      hsteps step List.mem_cons_self _ _ (mem_demoCrates_sha256.mpr rfl)
    have hrest := ih (fun step hstep ↦ hsteps step (List.mem_cons_of_mem _ hstep)) hmem y hy
    exact UInt8.le_trans (UInt8.le_iff_toNat_le.mpr (le_maxByte hx)) hrest

theorem mem_provingSteps {t : SparseMerkleTree} {key : Hash} {step : Hash → Bytes}
    (hstep : step ∈ provingSteps X t key) (d : Hash) : ∀ x ∈ d.toList, x ∈ step d := by
  intro x hx
  rcases List.mem_cons.mp hstep with rfl | hmem
  · exact List.mem_append_right _ hx
  · obtain ⟨bitIdx, -, rfl⟩ := List.mem_map.mp hmem
    unfold climbInput
    dsimp only
    split <;> simp [hx]

theorem demo_le_root (t : SparseMerkleTree) (key : Hash) {content : Bytes} {x : UInt8}
    (hx : x ∈ content) :
    ∀ y ∈ (HashChain.result demoCrates.sha256 (provingSteps demoCrates t key) content).toList,
      x ≤ y :=
  demo_le_result (fun _ ↦ mem_provingSteps) hx

/-- A node that holds the object and nothing else. -/
def demoHolding (obj : SmartObjectRecord) : StateStore :=
  putObject demoCrates obj (empty demoCrates)

def demoGenuine (obj : SmartObjectRecord) : CrossChainProof :=
  let smt := (demoHolding obj).smt
  let key := hashKey demoCrates obj.objectId
  let value := hashObject demoCrates obj
  let root := hexEncode smt.root.2.toList
  { sourceChain := "JKC"
    sourceHeight := 5
    sourceRoot := root
    objectId := obj.objectId
    objectData := obj.toJson
    merkleProof :=
      { keyHex := hexEncode key.toList
        valueHex := hexEncode value.toList
        rootHex := hexEncode (smt.computeRootForKey (smtHashes demoCrates) key value).toList
        proofPath := smt.proofPath (smtHashes demoCrates) key
        verified := UtxoVm.verifyProof (smtHashes demoCrates)
          (smt.computeRootForKey (smtHashes demoCrates) key value) key value
          (smt.proofPath (smtHashes demoCrates) key) }
    attestations := [1, 2].map fun key ↦ demoAttestation key "b" root }

theorem demoCrates_idealHash (id : String) : IdealHash demoCrates {id} where
  injOn := Set.injOn_singleton _ _
  nonzero _ := demoCrates_sha256_ne_zero _

theorem demoHolding_run {obj : SmartObjectRecord} (hreadable : obj.readable = true) :
    Run demoCrates {obj.objectId} (demoHolding obj) := by
  have hempty : Run demoCrates {obj.objectId} (empty demoCrates) := .empty
  have hrun := hempty.saveObject true (Set.mem_singleton _) hreadable
  rw [run_saveObject] at hrun
  exact hrun

theorem demoHolding_object (obj : SmartObjectRecord) :
    (demoHolding obj).objects[obj.objectId]? = some obj := by
  unfold demoHolding
  rw [putObject_objects, if_pos rfl]

theorem demoHolding_leaves {obj : SmartObjectRecord} (hreadable : obj.readable = true)
    (key v : Hash) : (demoHolding obj).smt.leaves key = some v ↔
      hashKey demoCrates obj.objectId = key ∧ hashObject demoCrates obj = v := by
  have hs := (demoHolding_run hreadable).mirrored (demoCrates_idealHash obj.objectId)
  rw [hs.tracks.leaves]
  constructor
  · rintro ⟨id, r, hr, hkey, hv⟩
    unfold demoHolding at hr
    rw [putObject_objects] at hr
    split at hr
    · rename_i hid
      cases hr
      exact ⟨hid ▸ hkey, hv⟩
    · simp [empty] at hr
  · rintro ⟨hkey, hv⟩
    exact ⟨obj.objectId, obj, demoHolding_object obj, hkey, hv⟩

theorem demoGenuine_genuine {obj : SmartObjectRecord} (hreadable : obj.readable = true) :
    Genuine demoCrates (demoManager []) (demoHolding obj) obj (demoGenuine obj) where
  objectId := rfl
  objectData := rfl
  merkleProof := by
    unfold getStateProof getProof
    rw [(demoHolding_leaves hreadable _ _).mpr ⟨rfl, rfl⟩]
    rfl
  sourceRoot := rfl
  attested _ hatt := demoVouched_fields hatt
  vouched := demoVouched (by decide) (by decide) (by simp [demoValidators]) _

/-- An object without a brace in its fields. -/
def demoPlain : SmartObjectRecord := { demoObject 1 with satoshis := 5, stateData := .null }

theorem demoPlain_not_meets : ¬ Meets demoCrates (demoHolding demoPlain) demoPlain := by
  have hreadable : demoPlain.readable = true := by decide
  have hs := (demoHolding_run hreadable).mirrored (demoCrates_idealHash demoPlain.objectId)
  -- no byte of a leaf is as large as a brace
  have hhigh : ∀ x ∈ (demoHolding demoPlain).smt.root.2.toList, x ≤ 124 := by
    rw [root_eq hs.tracks.wellFormed]
    refine demo_subtreeHash_le (by decide) (fun key v hleaf x hx ↦ ?_) 0 zeroHash
    obtain ⟨rfl, rfl⟩ := (demoHolding_leaves hreadable key v).mp hleaf
    rcases List.mem_append.mp hx with hx | hx
    · rw [mem_demoCrates_sha256.mp hx]
      exact maxByte_le (by decide) (by decide +kernel)
    · rw [mem_demoCrates_sha256.mp hx]
      exact maxByte_le (by decide) (by decide +kernel)
  intro hmeets
  have hchain := HashChain.result_eq_iff.mpr hmeets
  have hbrace : (125 : UInt8) ∈ canonicalJsonToVec demoCrates demoPlain.toJson := by decide
  have hlow := demo_le_root (demoHolding demoPlain).smt (hashKey demoCrates demoPlain.objectId)
    hbrace
  rw [hchain, ← root_eq_result hs.tracks.wellFormed
    ((demoHolding_leaves hreadable _ _).mpr ⟨rfl, rfl⟩)] at hlow
  have hmem :
      (demoHolding demoPlain).smt.root.2[0] ∈ (demoHolding demoPlain).smt.root.2.toList := by
    simp
  exact absurd (UInt8.le_trans (hlow _ hmem) (hhigh _ hmem)) (by decide)

/-- With a brace among the fields the two texts have one largest byte, and the chains meet at
once. -/
def demoBraced : SmartObjectRecord := { demoObject 1 with satoshis := 5 }

theorem genuine_accepted_iff_braced :
    (CrossChainVerifier.verifyProof demoCrates (demoManager []) (demoGenuine demoBraced)).valid =
      true := by
  have hreadable : demoBraced.readable = true := by decide
  have hdigests : maxByte (canonicalJsonToVec demoCrates demoBraced.toJson) =
      maxByte (objectPreimage demoCrates demoBraced) := by decide +kernel
  refine (genuine_accepted_iff (demoCrates_idealHash demoBraced.objectId)
    (demoHolding_run hreadable) (demoHolding_object demoBraced)
    (demoGenuine_genuine hreadable)).mpr ⟨?_, ?_⟩
  · rw [demoManager_validators]
    decide
  · exact ⟨_, List.mem_cons_self, congrArg (Vector.replicate 32) hdigests⟩

/-- **A genuine proof is refused.** -/
theorem genuine_proof_refused :
    (demoHolding demoPlain).objects[demoPlain.objectId]? = some demoPlain ∧
      Genuine demoCrates (demoManager []) (demoHolding demoPlain) demoPlain
        (demoGenuine demoPlain) ∧
      (CrossChainVerifier.verifyProof demoCrates (demoManager []) (demoGenuine demoPlain)).valid =
        false := by
  have hreadable : demoPlain.readable = true := by decide
  have hs := (demoHolding_run hreadable).mirrored (demoCrates_idealHash demoPlain.objectId)
  refine ⟨demoHolding_object _, demoGenuine_genuine hreadable,
    Bool.eq_false_iff.mpr fun hvalid ↦ ?_⟩
  have hmerkle := (verifyProof_valid_iff.mp hvalid).2.1
  exact demoPlain_not_meets ((verifyMerkle_genuine_iff hs.tracks.wellFormed
    ((demoHolding_leaves hreadable _ _).mpr ⟨rfl, rfl⟩) (demoGenuine_genuine hreadable)).mp hmerkle)

end UtxoVm
