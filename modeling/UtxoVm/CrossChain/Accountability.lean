import UtxoVm.CrossChain.Verifier
import UtxoVm.Consensus.Agreement
import UtxoVm.Storage.SmtProofs

/-!
# Who answers for an accepted proof

An accepted proof carries signatures of two thirds of the registered validators.  Two accepted
proofs that contradict each other therefore expose a third of them.
-/

namespace UtxoVm

open RustStd ConsensusManager CrossChainVerifier

/-- A registered validator with a valid signature over the root at the chain and height, for some
block. -/
structure Vouches (X : Crates) (consensus : ConsensusManager)
    (attestations : List StateAttestation) (chain : String) (height : Nat)
    (root v : String) : Prop where
  registered : v ∈ consensus.knownValidators
  signed : ∃ att ∈ attestations, att.validatorPubkey = v ∧ att.chain = chain ∧
    att.blockHeight = height ∧ att.stateRoot = root ∧ verifyAttestation X att = true

/-- Two thirds of the registered validators, rounded up, vouch for the root. -/
def Vouched (X : Crates) (consensus : ConsensusManager) (attestations : List StateAttestation)
    (chain : String) (height : Nat) (root : String) : Prop :=
  ∃ signers : Finset String, (consensus.getValidatorCount * 2 + 2) / 3 ≤ signers.card ∧
    ∀ v ∈ signers, Vouches X consensus attestations chain height root v

variable {X : Crates} {consensus : ConsensusManager}
  {attestations attestations' : List StateAttestation} {chain chain' : String}
  {height height' : Nat} {root root' : String} {proof : CrossChainProof}

/-- Two thirds of the validators and two thirds of the validators have a third in common. -/
theorem Vouched.overlap (h : Vouched X consensus attestations chain height root)
    (h' : Vouched X consensus attestations' chain' height' root') :
    ∃ both : Finset String, (consensus.getValidatorCount + 2) / 3 ≤ both.card ∧
      ∀ v ∈ both, Vouches X consensus attestations chain height root v ∧
        Vouches X consensus attestations' chain' height' root' v := by
  obtain ⟨signers, hcard, hsigners⟩ := h
  obtain ⟨signers', hcard', hsigners'⟩ := h'
  refine ⟨signers ∩ signers', ?_, fun v hv ↦ ?_⟩
  · have hoverlap : signers.card + signers'.card ≤
        consensus.knownValidators.toFinset.card + (signers ∩ signers').card :=
      Quorum.card_overlap (fun v hv ↦ List.mem_toFinset.mpr (hsigners v hv).registered)
        fun v hv ↦ List.mem_toFinset.mpr (hsigners' v hv).registered
    have hdistinct := consensus.knownValidators.toFinset_card_le
    unfold getValidatorCount at *
    omega
  · obtain ⟨hmem, hmem'⟩ := Finset.mem_inter.mp hv
    exact ⟨hsigners v hmem, hsigners' v hmem'⟩

/-! ## 1. What the three checks establish -/

theorem countedAttestations_eq (known seen : List String) (l : List StateAttestation) :
    countedAttestations known seen l =
      Quorum.firstVotes (fun att ↦ decide (att.validatorPubkey ∈ known)) (·.validatorPubkey)
        seen l := by
  induction l generalizing seen with
  | nil => rfl
  | cons att rest ih =>
    unfold countedAttestations Quorum.firstVotes
    rw [ih, ih]
    by_cases hknown : att.validatorPubkey ∈ known <;>
      by_cases hseen : att.validatorPubkey ∈ seen <;> simp [hknown, hseen]

theorem verifyProof_valid_iff : (CrossChainVerifier.verifyProof X consensus proof).valid = true ↔
    verifyQuorum consensus proof = true ∧ verifyMerkle X proof = true ∧
      verifyAttestationSignatures X proof = true := by
  unfold CrossChainVerifier.verifyProof
  cases verifyQuorum consensus proof <;> cases verifyMerkle X proof <;>
    cases verifyAttestationSignatures X proof <;> simp

/-- The counted attestations for the root of the proof are two thirds of the validators. -/
theorem verifyQuorum_votes (h : verifyQuorum consensus proof = true) :
    (consensus.getValidatorCount * 2 + 2) / 3 ≤
      (Quorum.votesFor (·.stateRoot) proof.sourceRoot
        (countedAttestations consensus.knownValidators [] proof.attestations)).length := by
  unfold verifyQuorum at h
  simp only at h
  split at h
  · cases h
  split at h
  · cases h
  split at h
  · cases h
  split at h
  · cases h
  · rename_i hroot
    rw [Quorum.length_votesFor, ← not_not.mp hroot]
    exact of_decide_eq_true h

theorem verifyQuorum_pos (h : verifyQuorum consensus proof = true) :
    0 < consensus.getValidatorCount ∧ proof.attestations ≠ [] := by
  unfold verifyQuorum at h
  simp only at h
  split at h
  · cases h
  rename_i hnonempty
  split at h
  · cases h
  rename_i hn
  exact ⟨Nat.pos_of_ne_zero hn, by simpa using hnonempty⟩

theorem verifyMerkle_iff : verifyMerkle X proof = true ↔
    ∃ root, hexHash proof.sourceRoot = some root ∧
      UtxoVm.verifyProof (smtHashes X) root (X.sha256 (asBytes proof.objectId))
        (X.sha256 (canonicalJsonToVec X proof.objectData)) proof.merkleProof.proofPath = true := by
  unfold verifyMerkle StateStore.hashKey
  cases hexHash proof.sourceRoot <;> simp

/-- Every attestation of the list is a valid one over the chain, the height and the root. -/
theorem verifyAttestationSignatures_iff : verifyAttestationSignatures X proof = true ↔
    proof.attestations ≠ [] ∧ ∀ att ∈ proof.attestations, att.chain = proof.sourceChain ∧
      att.blockHeight = proof.sourceHeight ∧ att.stateRoot = proof.sourceRoot ∧
      verifyAttestation X att = true := by
  unfold verifyAttestationSignatures
  rw [Bool.and_eq_true_iff, List.all_eq_true]
  refine and_congr (by simp) (forall₂_congr fun att _ ↦ ?_)
  by_cases hchain : att.chain = proof.sourceChain <;>
    by_cases hheight : att.blockHeight = proof.sourceHeight <;>
    by_cases hroot : att.stateRoot = proof.sourceRoot <;> simp [hchain, hheight, hroot]

theorem vouched_of_valid (h : (CrossChainVerifier.verifyProof X consensus proof).valid = true) :
    Vouched X consensus proof.attestations proof.sourceChain proof.sourceHeight
      proof.sourceRoot := by
  obtain ⟨hquorum, -, hsigned⟩ := verifyProof_valid_iff.mp h
  have hvotes := verifyQuorum_votes hquorum
  rw [countedAttestations_eq] at hvotes
  let counted := Quorum.firstVotes (fun att ↦ decide (att.validatorPubkey ∈
    consensus.knownValidators)) (·.validatorPubkey) [] proof.attestations
  -- every validator is counted once, so that votes are validators
  have hnodup : (counted.map (·.validatorPubkey)).Nodup := Quorum.firstVotes_nodup
  refine ⟨(counted.map (·.validatorPubkey)).toFinset, ?_, fun v hv ↦ ?_⟩
  · rw [List.toFinset_card_of_nodup hnodup, List.length_map]
    exact hvotes.trans (List.length_filter_le _ _)
  · obtain ⟨att, hatt, rfl⟩ := List.mem_map.mp (List.mem_toFinset.mp hv)
    obtain ⟨hmem, hknown, -⟩ := Quorum.mem_firstVotes hatt
    exact ⟨of_decide_eq_true hknown, att, hmem, rfl,
      (verifyAttestationSignatures_iff.mp hsigned).2 att hmem⟩

/-! ## 2. What makes the three checks pass -/

/-- The winner is the root that is named most often, of several the largest. -/
theorem winningRoot_eq (roots : List String) :
    winningRoot roots = Quorum.maxBy (fun root ↦ toLex (roots.count root, root)) roots := by
  let rank (root : String) : Nat ×ₗ String := toLex (roots.count root, root)
  let beats (a b : String) : Bool :=
    roots.count b < roots.count a || (roots.count a == roots.count b && decide (b < a))
  have hbeats (a b : String) : beats a b = true ↔ rank b < rank a := by
    simp only [beats, rank, Prod.Lex.toLex_lt_toLex, Bool.or_eq_true, Bool.and_eq_true,
      decide_eq_true_eq, beq_iff_eq]
    exact or_congr_right (and_congr_left fun _ ↦ eq_comm)
  have hstep (l : List String) (b : String) :
      l.foldl (fun best root ↦ best.elim (some root) fun b ↦
        if beats root b then some root else some b) (some b) =
      some (l.foldl (fun b x ↦ if rank x < rank b then b else x) b) := by
    induction l generalizing b with
    | nil => rfl
    | cons x l ih =>
      rw [List.foldl_cons, List.foldl_cons, ← ih]
      congr 1
      rcases lt_trichotomy (rank x) (rank b) with hlt | heq | hgt
      · simp [hbeats, hlt, hlt.not_gt]
      · -- equal ranks are those of one root
        have hsame : x = b := congrArg (fun r ↦ (ofLex r).2) heq
        simp [hsame]
      · simp [hbeats, hgt, hgt.not_gt]
  have helim : winningRoot roots = roots.foldl (fun best root ↦ best.elim (some root) fun b ↦
      if beats root b then some root else some b) none := by
    unfold winningRoot
    dsimp only
    congr 1
    funext best root
    cases best <;> rfl
  rw [helim]
  cases roots with
  | nil => rfl
  | cons root rest => exact hstep rest root

theorem winningRoot_replicate (n : Nat) (root : String) :
    winningRoot (List.replicate (n + 1) root) = some root := by
  have hall : ∀ r ∈ List.replicate (n + 1) root, r = root := fun r ↦ List.eq_of_mem_replicate
  rw [winningRoot_eq, Quorum.maxBy_eq_some_iff fun a ha b hb _ ↦ (hall a ha).trans (hall b hb).symm]
  refine ⟨by simp, fun r hr ↦ ?_⟩
  rw [hall r hr]

/-- Attestations that all name the root of the proof reach the quorum if two thirds of the
validators have signed one. -/
theorem verifyQuorum_of_vouched (hn : 0 < consensus.getValidatorCount)
    (hroot : ∀ att ∈ proof.attestations, att.stateRoot = proof.sourceRoot)
    (hvouched : Vouched X consensus proof.attestations chain height root) :
    verifyQuorum consensus proof = true := by
  obtain ⟨signers, hcard, hsigners⟩ := hvouched
  let roots := (countedAttestations consensus.knownValidators [] proof.attestations).map
    (·.stateRoot)
  have hvotes : signers.card ≤ roots.length := by
    rw [List.length_map, countedAttestations_eq]
    refine Quorum.card_le_firstVotes fun v hv ↦ ?_
    obtain ⟨att, hmem, hkey, -⟩ := (hsigners v hv).signed
    exact ⟨att, hmem, decide_eq_true (hkey ▸ (hsigners v hv).registered), hkey⟩
  have hroots : roots = List.replicate roots.length proof.sourceRoot := by
    refine List.eq_replicate_of_mem fun r hr ↦ ?_
    obtain ⟨att, hatt, rfl⟩ := List.mem_map.mp hr
    rw [countedAttestations_eq] at hatt
    exact hroot att (Quorum.mem_firstVotes hatt).1
  obtain ⟨n, hlength⟩ : ∃ n, roots.length = n + 1 := Nat.exists_eq_add_one.mpr (by omega)
  have hnonempty : proof.attestations ≠ [] := by
    intro hnil
    have hzero : roots.length = 0 := by
      simp only [roots]
      rw [hnil]
      rfl
    omega
  rw [hlength] at hroots
  unfold verifyQuorum
  rw [if_neg (by simpa using hnonempty), if_neg hn.ne']
  have hwinner : winningRoot roots = some proof.sourceRoot := by
    rw [hroots, winningRoot_replicate]
  have hcount : roots.count proof.sourceRoot = n + 1 := by
    rw [hroots, List.count_replicate_self]
  simp only [roots] at hwinner hcount
  simp only [hwinner, hcount, ne_eq, not_true_eq_false, if_false, decide_eq_true_eq]
  omega

/-! ## 3. Accountability -/

/-- **Acceptance is accountable.**  An accepted proof is signed by two thirds of the registered
validators and holds the Merkle proof; with any other accepted proof it has a third of the
validators in common, whatever root that one vouches for. -/
theorem acceptance_accountable (X : Crates) (consensus : ConsensusManager)
    (proof : CrossChainProof)
    (hvalid : (CrossChainVerifier.verifyProof X consensus proof).valid = true) :
    Vouched X consensus proof.attestations proof.sourceChain proof.sourceHeight proof.sourceRoot ∧
      (∃ root, hexHash proof.sourceRoot = some root ∧
        UtxoVm.verifyProof (smtHashes X) root (X.sha256 (asBytes proof.objectId))
          (X.sha256 (canonicalJsonToVec X proof.objectData)) proof.merkleProof.proofPath = true) ∧
      ∀ proof' : CrossChainProof, (CrossChainVerifier.verifyProof X consensus proof').valid = true →
        proof'.sourceChain = proof.sourceChain → proof'.sourceHeight = proof.sourceHeight →
        proof'.sourceRoot ≠ proof.sourceRoot →
        ∃ both : Finset String, (consensus.getValidatorCount + 2) / 3 ≤ both.card ∧
          ∀ v ∈ both,
            Vouches X consensus proof.attestations proof.sourceChain proof.sourceHeight
              proof.sourceRoot v ∧
            Vouches X consensus proof'.attestations proof.sourceChain proof.sourceHeight
              proof'.sourceRoot v := by
  refine ⟨vouched_of_valid hvalid, verifyMerkle_iff.mp (verifyProof_valid_iff.mp hvalid).2.1, ?_⟩
  intro proof' hvalid' hchain hheight _
  have hvouched' := vouched_of_valid hvalid'
  rw [hchain, hheight] at hvouched'
  exact (vouched_of_valid hvalid).overlap hvouched'

/-! Three validators, and two proofs for one object, each signed by two of them. -/

/-- A tree with the object as its only leaf, its root signed under `keys`. -/
def demoProof (data : Json) (keys : List UInt8) : CrossChainProof :=
  let leaf := (smtHashes demoCrates).hashLeaf (demoCrates.sha256 (asBytes "o"))
    (demoCrates.sha256 (canonicalJsonToVec demoCrates data))
  let root := hexEncode leaf.toList
  { sourceChain := "JKC"
    sourceHeight := 5
    sourceRoot := root
    objectId := "o"
    objectData := data
    merkleProof :=
      { keyHex := "", valueHex := "", rootHex := root, proofPath := [], verified := true }
    attestations := keys.map fun key ↦ demoAttestation key "b" root }

theorem demoVouched {keys : List UInt8} (hnodup : keys.Nodup) (hlength : 2 ≤ keys.length)
    (hkeys : ∀ key ∈ keys, demoValidator key ∈ demoValidators) (root : String) :
    Vouched demoCrates (demoManager []) (keys.map fun key ↦ demoAttestation key "b" root) "JKC" 5
      root := by
  refine ⟨(keys.map demoValidator).toFinset, ?_, fun v hv ↦ ?_⟩
  · rw [demoManager_validators, List.toFinset_card_of_nodup
      (hnodup.map fun a b ↦ demoValidator_inj.mp), List.length_map]
    exact hlength
  · obtain ⟨key, hkey, rfl⟩ := List.mem_map.mp (List.mem_toFinset.mp hv)
    exact ⟨mem_registered (hkeys key hkey), _, List.mem_map.mpr ⟨key, hkey, rfl⟩, rfl, rfl, rfl,
      rfl, demoAttestation_valid _ _ _⟩

theorem demoVouched_fields {keys : List UInt8} {root : String} {att : StateAttestation}
    (hatt : att ∈ keys.map fun key ↦ demoAttestation key "b" root) :
    att.chain = "JKC" ∧ att.blockHeight = 5 ∧ att.stateRoot = root ∧
      verifyAttestation demoCrates att = true := by
  obtain ⟨key, -, rfl⟩ := List.mem_map.mp hatt
  exact ⟨rfl, rfl, rfl, demoAttestation_valid _ _ _⟩

theorem demoProof_valid (data : Json) (keys : List UInt8) (hnodup : keys.Nodup)
    (hlength : 2 ≤ keys.length) (hkeys : ∀ key ∈ keys, demoValidator key ∈ demoValidators) :
    (CrossChainVerifier.verifyProof demoCrates (demoManager []) (demoProof data keys)).valid =
      true := by
  have hquorum : verifyQuorum (demoManager []) (demoProof data keys) = true :=
    verifyQuorum_of_vouched (by rw [demoManager_validators]; decide)
      (fun att hatt ↦ (demoVouched_fields hatt).2.2.1) (demoVouched hnodup hlength hkeys _)
  refine verifyProof_valid_iff.mpr ⟨hquorum, ?_, ?_⟩
  · exact verifyMerkle_iff.mpr ⟨_, SparseMerkleTree.hexHash_hexEncode _,
      by simp [UtxoVm.verifyProof, foldProof, demoProof]⟩
  · exact verifyAttestationSignatures_iff.mpr
      ⟨(verifyQuorum_pos hquorum).2, fun att hatt ↦ demoVouched_fields hatt⟩

theorem demoProof_roots :
    (demoProof (.string "z") [2, 3]).sourceRoot ≠ (demoProof .null [1, 2]).sourceRoot := by
  intro h
  have hleaf := Vector.toList_inj.mp (hexEncode_injective h)
  exact absurd (congrArg (·[0]) hleaf) (by decide +kernel)

theorem acceptance_accountable_split :
    ∃ both : Finset String, 1 ≤ both.card ∧ ∀ v ∈ both,
      Vouches demoCrates (demoManager []) (demoProof .null [1, 2]).attestations "JKC" 5
        (demoProof .null [1, 2]).sourceRoot v ∧
      Vouches demoCrates (demoManager []) (demoProof (.string "z") [2, 3]).attestations "JKC" 5
        (demoProof (.string "z") [2, 3]).sourceRoot v := by
  have hvalid := demoProof_valid .null [1, 2] (by decide) (by decide)
    (by simp [demoValidators])
  have hvalid' := demoProof_valid (.string "z") [2, 3] (by decide) (by decide)
    (by simp [demoValidators])
  obtain ⟨-, -, hsplit⟩ := acceptance_accountable demoCrates (demoManager []) _ hvalid
  obtain ⟨both, hcard, hboth⟩ := hsplit _ hvalid' rfl rfl demoProof_roots
  rw [demoManager_validators] at hcard
  exact ⟨both, hcard, hboth⟩

end UtxoVm
