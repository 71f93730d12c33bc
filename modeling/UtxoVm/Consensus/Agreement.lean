import UtxoVm.Consensus.AttestationRun
import UtxoVm.Reasoning.KeySort

/-!
# What a quorum means

Every validator is counted once for each chain and height.  From this follow that one root at most
has a quorum, that honest validators are never on the wrong side of one, and when two nodes build
the same result from the same attestations.
-/

namespace UtxoVm

open RustStd ConsensusManager

variable {X : Crates} {m m' : ConsensusManager} {chain : String} {height : Nat}

/-! ## 1. One quorum for each key -/

/-- Votes of different validators, counted against a set that contains them all. -/
theorem ConsensusManager.WellKept.length_le (hm : m.WellKept X) {votes : List StateAttestation}
    (hvotes : votes.Sublist (m.attestations chain height)) {validators : List String}
    (hmem : ∀ a ∈ votes, a.validatorPubkey ∈ validators) : votes.length ≤ validators.length := by
  have hnodup : (votes.map (·.validatorPubkey)).Nodup :=
    (hm.once chain height).sublist (hvotes.map _)
  have hcard : votes.length ≤ validators.toFinset.card :=
    Quorum.length_le_card hnodup fun a ha ↦ List.mem_toFinset.mpr (hmem a ha)
  exact hcard.trans (List.toFinset_card_le validators)

theorem ConsensusManager.WellKept.quorum_unique (hm : m.WellKept X)
    (hmajority : m.getValidatorCount < 2 * m.quorumThreshold) {r r' : String}
    (hr : m.isQuorumReached chain height r = true)
    (hr' : m.isQuorumReached chain height r' = true) : r = r' := by
  by_contra hne
  have hvotes := (isQuorumReached_iff.mp hr).2
  have hvotes' := (isQuorumReached_iff.mp hr').2
  have hsum : (Quorum.votesFor (·.stateRoot) r (m.attestations chain height)).length +
      (Quorum.votesFor (·.stateRoot) r' (m.attestations chain height)).length ≤
        (m.attestations chain height).length := Quorum.votesFor_add_le hne _
  have htotal : (m.attestations chain height).length ≤ m.knownValidators.length :=
    hm.length_le (List.Sublist.refl _) fun a ha ↦ (hm.admitted chain height a ha).2
  unfold getValidatorCount at hmajority
  omega

/-- **Quorum agreement.**  If the threshold is more than half of the validators, one root at most
reaches it, and the result of a node is that root. -/
theorem quorum_agreement (X : Crates) (threshold : Nat) (calls : List ConsensusCall) :
    let m := (new threshold).run X calls
    m.getValidatorCount < 2 * m.quorumThreshold → ∀ chain height,
      (∀ r r', m.isQuorumReached chain height r = true →
        m.isQuorumReached chain height r' = true → r = r') ∧
      ∀ r, m.isQuorumReached chain height r = true ↔
        ∃ result, m.buildQuorumResult X chain height = some result ∧ result.stateRoot = r := by
  intro m hmajority chain height
  have hm : m.WellKept X := (new_wellKept threshold).run calls
  refine ⟨fun r r' ↦ hm.quorum_unique hmajority, fun r ↦ ⟨fun hr ↦ ?_, ?_⟩⟩
  · cases hresult : m.buildQuorumResult X chain height with
    | none =>
      rw [buildQuorumResult_eq_none.mp hresult r] at hr
      cases hr
    | some result =>
      exact ⟨result, rfl, hm.quorum_unique hmajority (buildQuorumResult_reached hresult) hr⟩
  · intro ⟨result, hresult, hroot⟩
    exact hroot ▸ buildQuorumResult_reached hresult

/-! Three validators and a threshold of two. -/

def demoValidators : List String := [demoValidator 1, demoValidator 2, demoValidator 3]

def demoCalls (submitted : List (StateAttestation × Int)) : List ConsensusCall :=
  demoValidators.map .register ++ submit submitted

def demoManager (submitted : List (StateAttestation × Int)) : ConsensusManager :=
  (registered demoCrates 2 demoValidators).run demoCrates (submit submitted)

theorem demoManager_run (submitted : List (StateAttestation × Int)) :
    (new 2).run demoCrates (demoCalls submitted) = demoManager submitted := by
  unfold demoManager registered demoCalls
  exact run_append _ _ _

theorem demoManager_threshold (submitted : List (StateAttestation × Int)) :
    (demoManager submitted).quorumThreshold = 2 := (run_submit _ _).2

theorem demoManager_known (submitted : List (StateAttestation × Int)) :
    (demoManager submitted).knownValidators = demoValidators.reverse := by
  rw [demoManager, (run_submit _ _).1]
  simp [registered, demoValidators, run, call, registerValidator, new, demoValidator_inj]

theorem demoManager_validators (submitted : List (StateAttestation × Int)) :
    (demoManager submitted).getValidatorCount = 3 := by
  rw [getValidatorCount, demoManager_known]
  rfl

theorem demoManager_attestations {submitted : List (StateAttestation × Int)}
    (hsigned : ∀ s ∈ submitted, ∃ key blockHash stateRoot,
      demoValidator key ∈ demoValidators ∧ s.1 = demoAttestation key blockHash stateRoot)
    (honce : ((submitted.map (·.1)).map (·.validatorPubkey)).Nodup) :
    (demoManager submitted).attestations "JKC" 5 = submitted.map (·.1) := by
  have hempty := registered_attestations demoCrates 2 demoValidators "JKC" 5
  have hadmits : ∀ s ∈ submitted,
      (registered demoCrates 2 demoValidators).Admits demoCrates s.1 := by
    intro s hs
    obtain ⟨key, blockHash, stateRoot, hkey, heq⟩ := hsigned s hs
    rw [heq]
    exact ⟨demoAttestation_valid key blockHash stateRoot, mem_registered hkey⟩
  have hplace : ∀ s ∈ submitted, s.1.chain = "JKC" ∧ s.1.blockHeight = 5 := by
    intro s hs
    obtain ⟨key, blockHash, stateRoot, -, heq⟩ := hsigned s hs
    rw [heq]
    exact ⟨rfl, rfl⟩
  rw [demoManager, accepted_in_order hadmits hplace (by rwa [hempty]), hempty, List.nil_append]

/-- Two of three validators agree; the third was first. -/
def demoMajority : List (StateAttestation × Int) :=
  [(demoAttestation 3 "b" "r2", 0), (demoAttestation 1 "b" "r1", 0),
    (demoAttestation 2 "b" "r1", 0)]

theorem demoMajority_attestations :
    (demoManager demoMajority).attestations "JKC" 5 = demoMajority.map (·.1) := by
  refine demoManager_attestations (fun s hs ↦ ?_) ?_
  · simp only [demoMajority, List.mem_cons, List.not_mem_nil, or_false] at hs
    rcases hs with rfl | rfl | rfl <;> exact ⟨_, _, _, by simp [demoValidators], rfl⟩
  · simp [demoMajority, demoAttestation_key, demoValidator_inj]

theorem quorum_agreement_two_of_three :
    ∃ result, (demoManager demoMajority).buildQuorumResult demoCrates "JKC" 5 = some result ∧
      result.stateRoot = "r1" := by
  have hagree := quorum_agreement demoCrates 2 (demoCalls demoMajority)
  simp only [demoManager_run] at hagree
  refine ((hagree ?_ "JKC" 5).2 "r1").mp ?_
  · rw [demoManager_validators, demoManager_threshold]
    decide
  · rw [isQuorumReached_iff, demoMajority_attestations, demoManager_threshold]
    simp [demoMajority, Quorum.votesFor, demoAttestation, signStateRoot]

/-! ## 2. Honest validators -/

/-- The validators of `honest` sign one root for each chain and height, and nobody else can sign for
them; `signed` is what they have signed. -/
structure Honest (X : Crates) (honest : Finset String) (root : String → Nat → String)
    (signed : String → String → Nat → String → String → Prop) : Prop where
  unforgeable : ∀ att, att.validatorPubkey ∈ honest → verifyAttestation X att = true →
    signed att.validatorPubkey att.chain att.blockHeight att.blockHash att.stateRoot
  agreed : ∀ v ∈ honest, ∀ chain height blockHash stateRoot,
    signed v chain height blockHash stateRoot → stateRoot = root chain height

variable {honest : Finset String} {root : String → Nat → String}
  {signed : String → String → Nat → String → String → Prop}

theorem Honest.stateRoot (hhonest : Honest X honest root signed) {att : StateAttestation}
    (hmem : att.validatorPubkey ∈ honest) (hvalid : verifyAttestation X att = true) :
    att.stateRoot = root att.chain att.blockHeight :=
  hhonest.agreed _ hmem _ _ _ _ (hhonest.unforgeable att hmem hvalid)

/-- A root that the honest validators have not signed is supported by faulty ones only. -/
theorem Honest.result_root (hhonest : Honest X honest root signed) (hm : m.WellKept X)
    (hfaulty : (m.knownValidators.filter (· ∉ honest)).length < m.quorumThreshold)
    {result : QuorumResult} (hresult : m.buildQuorumResult X chain height = some result) :
    result.stateRoot = root chain height := by
  by_contra hne
  obtain ⟨hwinner, hthreshold⟩ := buildQuorumResult_eq_some hresult
  obtain ⟨-, hvotes, -⟩ := Quorum.plurality_eq_some_iff.mp hwinner
  have hsub : result.supportingAttestations.Sublist (m.attestations chain height) :=
    hvotes ▸ List.filter_sublist
  have hcount : result.supportingAttestations.length ≤
      (m.knownValidators.filter (· ∉ honest)).length := hm.length_le hsub fun a ha ↦ by
    obtain ⟨hstored, hroot⟩ := Quorum.mem_votesFor.mp (hvotes ▸ ha)
    obtain ⟨hvalid, hknown⟩ := hm.admitted chain height a hstored
    obtain ⟨hchain, hheight⟩ := hm.placed chain height a hstored
    have hnot : a.validatorPubkey ∉ honest := fun hmem ↦ by
      rw [← hroot, hhonest.stateRoot hmem hvalid, hchain, hheight] at hne
      exact hne rfl
    exact List.mem_filter.mpr ⟨hknown, by simpa using hnot⟩
  omega

theorem Honest.not_accused (hhonest : Honest X honest root signed) (hm : m.WellKept X)
    {p : EquivocationProof} (hp : p ∈ m.slashingProofs) : p.validatorPubkey ∉ honest := by
  intro hmem
  obtain ⟨⟨hfirst, hsecond⟩, ⟨hchain, hchain', hheight, hheight'⟩, hroots, hsig, hsig'⟩ :=
    verifyEquivocationProof_iff.mp (hm.proven p hp)
  have hroot : p.firstAttestation.stateRoot = root p.chain p.blockHeight := by
    rw [hhonest.stateRoot (hfirst ▸ hmem) (by rw [verifyAttestation, hfirst, hsig]), hchain,
      hheight]
  have hroot' : p.secondAttestation.stateRoot = root p.chain p.blockHeight := by
    rw [hhonest.stateRoot (hsecond ▸ hmem) (by rw [verifyAttestation, hsecond, hsig']), hchain',
      hheight']
  exact hroots (hroot.trans hroot'.symm)

/-- **Honest validators are never accused**, as long as the faulty ones are fewer than the
threshold. -/
theorem honest_never_accused (hhonest : Honest X honest root signed) (threshold : Nat)
    (calls : List ConsensusCall) :
    let m := (new threshold).run X calls
    (m.knownValidators.filter (· ∉ honest)).length < m.quorumThreshold →
      (∀ chain height,
        m.buildQuorumResult X chain height = none ∨
          ∃ result, m.buildQuorumResult X chain height = some result ∧
            result.stateRoot = root chain height ∧
            ∀ att now, att.validatorPubkey ∈ honest → verifyAttestation X att = true →
              att.chain = chain → att.blockHeight = height →
              detectDivergence att result now = none) ∧
      ∀ p ∈ m.slashingProofs, p.validatorPubkey ∉ honest := by
  intro m hfaulty
  have hm : m.WellKept X := (new_wellKept threshold).run calls
  refine ⟨fun chain height ↦ ?_, fun p hp ↦ hhonest.not_accused hm hp⟩
  cases hresult : m.buildQuorumResult X chain height with
  | none => exact .inl rfl
  | some result =>
    have hroot := hhonest.result_root hm hfaulty hresult
    refine .inr ⟨result, rfl, hroot, fun att now hmem hvalid hchain hheight ↦ ?_⟩
    unfold detectDivergence
    rw [hhonest.stateRoot hmem hvalid, hchain, hheight, hroot, if_pos rfl]

/-- Crates under which two validators have signed `r1` and nothing else, and the third signs
whatever it likes. -/
def demoHonestCrates : Crates :=
  { demoCrates with
    sha256 := fun message ↦
      if message = serializeAttestationPreimage "JKC" 5 "b" "r1" then Vector.replicate 32 1
      else Vector.replicate 32 2
    verifySchnorr := fun sig digest key ↦
      sig == key ++ digest.toList &&
        (key == List.replicate 32 3 || digest == Vector.replicate 32 1) }

theorem demoHonest : Honest demoHonestCrates {demoValidator 1, demoValidator 2}
    (fun _ _ ↦ "r1") fun _ _ _ _ stateRoot ↦ stateRoot = "r1" := by
  refine ⟨fun att hmem hvalid ↦ ?_, fun _ _ _ _ _ _ h ↦ h⟩
  have hkey : ∃ key : UInt8, key ≠ 3 ∧ att.validatorPubkey = demoValidator key := by
    rcases Finset.mem_insert.mp hmem with h | h
    · exact ⟨1, by decide, h⟩
    · exact ⟨2, by decide, Finset.mem_singleton.mp h⟩
  obtain ⟨key, hne, hkey⟩ := hkey
  unfold verifyAttestation verifyAttestationSig at hvalid
  rw [hkey, demoValidator, hexDecode_hexEncode] at hvalid
  cases hsig : hexDecode att.signatureHex with
  | none => simp [hsig] at hvalid
  | some sig =>
    -- only one digest passes under the key, and only one payload has it
    have hdigest : demoHonestCrates.sha256 (serializeAttestationPreimage att.chain att.blockHeight
        att.blockHash att.stateRoot) = Vector.replicate 32 1 := by
      have hnot : List.replicate 32 key ≠ List.replicate 32 3 := fun h ↦
        hne ((List.replicate_inj.mp h).2.resolve_left (by decide))
      simp only [hsig, demoHonestCrates, Bool.and_eq_true, Bool.or_eq_true, beq_iff_eq] at hvalid
      exact hvalid.2.2.2.resolve_left hnot
    have hpayload : serializeAttestationPreimage "JKC" 5 "b" "r1" =
        serializeAttestationPreimage att.chain att.blockHeight att.blockHash att.stateRoot := by
      by_contra hne
      rw [demoHonestCrates] at hdigest
      simp only [if_neg (Ne.symm hne)] at hdigest
      exact absurd (congrArg (·[0]) hdigest) (by decide)
    exact (serializeAttestationPreimage_inj (by decide +kernel) hpayload).2.2.2.symm

/-- The faulty validator is first, with another root and with both roots. -/
def demoFaultySubmitted : List (StateAttestation × Int) :=
  let sign (key : UInt8) (stateRoot : String) : StateAttestation :=
    signStateRoot demoHonestCrates (List.replicate 32 key) [] "JKC" 5 "b" stateRoot 0
  [(sign 3 "r2", 1), (sign 3 "r1", 2), (sign 1 "r1", 3), (sign 2 "r1", 4)]

def demoFaulty : ConsensusManager :=
  (registered demoHonestCrates 2 demoValidators).run demoHonestCrates (submit demoFaultySubmitted)

theorem demoFaulty_eq : demoFaulty = (registered demoHonestCrates 2 demoValidators).run
    demoHonestCrates (submit demoFaultySubmitted) := rfl

theorem demoFaulty_run : (new 2).run demoHonestCrates
    (demoValidators.map .register ++ submit demoFaultySubmitted) = demoFaulty := by
  unfold demoFaulty registered
  exact run_append _ _ _

theorem honest_never_accused_demo :
    (demoFaulty.buildQuorumResult demoHonestCrates "JKC" 5 = none ∨
        ∃ result, demoFaulty.buildQuorumResult demoHonestCrates "JKC" 5 = some result ∧
          result.stateRoot = "r1") ∧
      ∀ p ∈ demoFaulty.slashingProofs,
        p.validatorPubkey ∉ ({demoValidator 1, demoValidator 2} : Finset String) := by
  have hnever := honest_never_accused demoHonest 2
    (demoValidators.map .register ++ submit demoFaultySubmitted)
  simp only [demoFaulty_run] at hnever
  have hfaulty : (demoFaulty.knownValidators.filter
      (· ∉ ({demoValidator 1, demoValidator 2} : Finset String))).length <
        demoFaulty.quorumThreshold := by
    rw [demoFaulty_eq, (run_submit _ _).1, (run_submit _ _).2]
    simp [registered, demoValidators, run, call, registerValidator, new, demoValidator_inj]
  obtain ⟨hresult, hproofs⟩ := hnever hfaulty
  refine ⟨(hresult "JKC" 5).imp_right fun hsome ↦ ?_, hproofs⟩
  obtain ⟨result, h, hroot, -⟩ := hsome
  exact ⟨result, h, hroot⟩

/-! ## 3. The same result on every node -/

structure SameArtifact (r r' : QuorumResult) : Prop where
  stateRoot : r.stateRoot = r'.stateRoot
  blockHash : r.blockHash = r'.blockHash
  merkleRoot : r.merkleRoot = r'.merkleRoot
  supportCount : r.supportCount = r'.supportCount
  supporting : ∀ a, a ∈ r.supportingAttestations ↔ a ∈ r'.supportingAttestations

/-- A result counts its supporters, and they all vouch for its block. -/
structure Exact (r : QuorumResult) : Prop where
  supportCount : r.supportCount = r.supportingAttestations.length
  blockHash : ∀ a ∈ r.supportingAttestations, a.blockHash = r.blockHash

def AgreeOnResult : Option QuorumResult → Option QuorumResult → Prop
  | some r, some r' => SameArtifact r r' ∧ Exact r ∧ Exact r'
  | none, none => True
  | _, _ => False

/-- No root has the votes, or all attestations name one root and one block. -/
def Undivided (threshold : Nat) (attestations : List StateAttestation) : Prop :=
  (∀ root, (Quorum.votesFor (·.stateRoot) root attestations).length < threshold) ∨
    ∀ a ∈ attestations, ∀ b ∈ attestations,
      a.stateRoot = b.stateRoot ∧ a.blockHash = b.blockHash

/-- The Merkle root does not depend on the order of the attestations. -/
theorem computeAttestationMerkleRoot_perm {l l' : List StateAttestation} (hperm : l.Perm l')
    (honce : (l.map (·.validatorPubkey)).Nodup) :
    computeAttestationMerkleRoot X l = computeAttestationMerkleRoot X l' := by
  let le (a b : StateAttestation) : Bool := decide (a.validatorPubkey ≤ b.validatorPubkey)
  have hsort : l.mergeSort le = l'.mergeSort le :=
    KeySort.mergeSort_eq_of_perm (·.validatorPubkey) hperm fun a ha b hb hkeys ↦
      List.inj_on_of_nodup_map honce ha hb hkeys
  unfold computeAttestationMerkleRoot
  rw [hperm.isEmpty_eq]
  split
  · rfl
  · show hexEncode (merkleTop X ((l.mergeSort le).map _)).toList = _
    rw [hsort]

variable {result result' : QuorumResult}

/-- Whether there is a result does not depend on the order, nor do the parts of it that are not
taken from its first attestation. -/
theorem buildQuorumResult_perm (hthreshold : m.quorumThreshold = m'.quorumThreshold)
    (hperm : (m.attestations chain height).Perm (m'.attestations chain height))
    (h : m.buildQuorumResult X chain height = some result) :
    ∃ result', m'.buildQuorumResult X chain height = some result' ∧
      result.stateRoot = result'.stateRoot ∧ result.supportCount = result'.supportCount ∧
      result.supportingAttestations.Perm result'.supportingAttestations := by
  obtain ⟨hwinner, hvotes⟩ := buildQuorumResult_eq_some h
  obtain ⟨supporting, hwinner', hsupporting⟩ := Quorum.plurality_perm hperm hwinner
  cases hresult' : m'.buildQuorumResult X chain height with
  | none =>
    have hreached : m'.isQuorumReached chain height result.stateRoot = true := by
      obtain ⟨hmem, heq, -⟩ := Quorum.plurality_eq_some_iff.mp hwinner'
      refine isQuorumReached_iff.mpr ⟨fun hempty ↦ ?_, ?_⟩
      · rw [hempty] at hmem
        cases hmem
      · rw [← heq, ← hthreshold, ← hsupporting.length_eq]
        exact hvotes
    rw [buildQuorumResult_eq_none.mp hresult'] at hreached
    cases hreached
  | some result' =>
    obtain ⟨hwinner'', -⟩ := buildQuorumResult_eq_some hresult'
    have hsame := Option.some.inj (hwinner'.symm.trans hwinner'')
    rw [Prod.mk.injEq] at hsame
    refine ⟨result', rfl, hsame.1, ?_, hsame.2 ▸ hsupporting⟩
    rw [(buildQuorumResult_fields h).2.2, (buildQuorumResult_fields hresult').2.2,
      hperm.length_eq]

/-- An exact result is supported by every attestation, and all of them vouch for one block. -/
theorem Exact.undivided (h : m.buildQuorumResult X chain height = some result)
    (hexact : Exact result) : ∀ a ∈ m.attestations chain height,
      a.stateRoot = result.stateRoot ∧ a.blockHash = result.blockHash := by
  obtain ⟨hwinner, -⟩ := buildQuorumResult_eq_some h
  obtain ⟨-, hvotes, -⟩ := Quorum.plurality_eq_some_iff.mp hwinner
  have hlength : (Quorum.votesFor (·.stateRoot) result.stateRoot
      (m.attestations chain height)).length = (m.attestations chain height).length := by
    rw [← hvotes, ← hexact.supportCount, (buildQuorumResult_fields h).2.2]
  have hall := List.length_filter_eq_length_iff.mp hlength
  intro a ha
  have hroot : a.stateRoot = result.stateRoot := of_decide_eq_true (hall a ha)
  refine ⟨hroot, hexact.blockHash a ?_⟩
  rw [hvotes]
  exact Quorum.mem_votesFor.mpr ⟨ha, hroot⟩

/-- If all attestations name one root and one block, a result is exact. -/
theorem exact_of_uniform (h : m.buildQuorumResult X chain height = some result)
    (huniform : ∀ a ∈ m.attestations chain height, ∀ b ∈ m.attestations chain height,
      a.stateRoot = b.stateRoot ∧ a.blockHash = b.blockHash) :
    Exact result ∧ ∀ a ∈ m.attestations chain height, a.blockHash = result.blockHash := by
  obtain ⟨hwinner, -⟩ := buildQuorumResult_eq_some h
  obtain ⟨hmem, hvotes, -⟩ := Quorum.plurality_eq_some_iff.mp hwinner
  obtain ⟨hblock, -, hcount⟩ := buildQuorumResult_fields h
  obtain ⟨b, hb, hroot⟩ := List.mem_map.mp hmem
  have hsupporting : result.supportingAttestations = m.attestations chain height := by
    rw [hvotes]
    refine List.filter_eq_self.mpr fun a ha ↦ ?_
    simpa [hroot] using (huniform a ha b hb).1
  have hhash : result.blockHash = b.blockHash := by
    rw [hblock, hsupporting]
    cases hlist : m.attestations chain height with
    | nil =>
      rw [hlist] at hb
      cases hb
    | cons a rest => exact (huniform a (hlist ▸ List.mem_cons_self) b hb).2
  have hall : ∀ a ∈ m.attestations chain height, a.blockHash = result.blockHash := fun a ha ↦
    ((huniform a ha b hb).2).trans hhash.symm
  exact ⟨⟨by rw [hcount, hsupporting], fun a ha ↦ hall a (hsupporting ▸ ha)⟩, hall⟩

theorem AgreeOnResult.undivided
    (h : AgreeOnResult (m.buildQuorumResult X chain height)
      (m'.buildQuorumResult X chain height)) :
    Undivided m.quorumThreshold (m.attestations chain height) := by
  cases hresult : m.buildQuorumResult X chain height with
  | none =>
    by_cases hempty : m.attestations chain height = []
    · exact .inr fun a ha ↦ by
        rw [hempty] at ha
        cases ha
    · refine .inl fun root ↦ not_le.mp fun hle ↦ ?_
      have hreached := isQuorumReached_iff.mpr ⟨hempty, hle⟩
      rw [buildQuorumResult_eq_none.mp hresult root] at hreached
      cases hreached
  | some result =>
    rw [hresult] at h
    cases hresult' : m'.buildQuorumResult X chain height with
    | none =>
      rw [hresult'] at h
      exact h.elim
    | some result' =>
      rw [hresult'] at h
      have hall := Exact.undivided hresult h.2.1
      exact .inr fun a ha b hb ↦
        ⟨(hall a ha).1.trans (hall b hb).1.symm, (hall a ha).2.trans (hall b hb).2.symm⟩

/-- **When the result is the same artifact on every node.** -/
theorem quorum_result_agrees_iff (X : Crates) {m m' : ConsensusManager}
    (hthreshold : m.quorumThreshold = m'.quorumThreshold) (chain : String) (height : Nat)
    (hperm : (m.attestations chain height).Perm (m'.attestations chain height))
    (honce : ((m.attestations chain height).map (·.validatorPubkey)).Nodup) :
    AgreeOnResult (m.buildQuorumResult X chain height) (m'.buildQuorumResult X chain height) ↔
      Undivided m.quorumThreshold (m.attestations chain height) := by
  refine ⟨AgreeOnResult.undivided, fun hundivided ↦ ?_⟩
  cases hresult : m.buildQuorumResult X chain height with
  | none =>
    cases hresult' : m'.buildQuorumResult X chain height with
    | none => exact trivial
    | some result' =>
      obtain ⟨result, h, -⟩ := buildQuorumResult_perm hthreshold.symm hperm.symm hresult'
      cases hresult.symm.trans h
  | some result =>
    obtain ⟨result', hresult', hroot, hcount, hsupporting⟩ :=
      buildQuorumResult_perm hthreshold hperm hresult
    rw [hresult']
    -- there is a quorum, so the attestations are uniform
    have huniform := hundivided.resolve_left fun hfew ↦ by
      obtain ⟨-, hvotes⟩ := isQuorumReached_iff.mp (buildQuorumResult_reached hresult)
      exact absurd (hfew result.stateRoot) (not_lt.mpr hvotes)
    obtain ⟨hexact, hall⟩ := exact_of_uniform hresult huniform
    obtain ⟨hexact', hall'⟩ := exact_of_uniform hresult' fun a ha b hb ↦
      huniform a (hperm.mem_iff.mpr ha) b (hperm.mem_iff.mpr hb)
    obtain ⟨hwinner, -⟩ := buildQuorumResult_eq_some hresult
    obtain ⟨hmem, hvotes, -⟩ := Quorum.plurality_eq_some_iff.mp hwinner
    obtain ⟨b, hb, -⟩ := List.mem_map.mp hmem
    have hsub : result.supportingAttestations.Sublist (m.attestations chain height) :=
      hvotes ▸ List.filter_sublist
    refine ⟨⟨hroot, ?_, ?_, hcount, fun a ↦ hsupporting.mem_iff⟩, hexact, hexact'⟩
    · exact (hall b hb).symm.trans (hall' b (hperm.mem_iff.mp hb))
    · rw [(buildQuorumResult_fields hresult).2.1, (buildQuorumResult_fields hresult').2.1]
      exact computeAttestationMerkleRoot_perm hsupporting (honce.sublist (hsub.map _))

/-- Two validators that agree on the root. -/
def demoPair (b b' : String) : List (StateAttestation × Int) :=
  [(demoAttestation 1 b "r1", 0), (demoAttestation 2 b' "r1", 0)]

theorem demoPair_attestations (b b' : String) :
    (demoManager (demoPair b b')).attestations "JKC" 5 = (demoPair b b').map (·.1) := by
  refine demoManager_attestations (fun s hs ↦ ?_) ?_
  · rcases List.mem_pair.mp hs with rfl | rfl <;> exact ⟨_, _, _, by simp [demoValidators], rfl⟩
  · simp [demoPair, demoAttestation_key, demoValidator_inj]

theorem demoPair_reverse_attestations (b b' : String) :
    (demoManager (demoPair b b').reverse).attestations "JKC" 5 =
      (demoPair b b').reverse.map (·.1) := by
  refine demoManager_attestations (fun s hs ↦ ?_) ?_
  · rcases List.mem_pair.mp (List.mem_reverse.mp hs) with rfl | rfl <;>
      exact ⟨_, _, _, by simp [demoValidators], rfl⟩
  · simp [demoPair, demoAttestation_key, demoValidator_inj]

theorem demoPair_perm (b b' : String) :
    ((demoManager (demoPair b b')).attestations "JKC" 5).Perm
      ((demoManager (demoPair b b').reverse).attestations "JKC" 5) := by
  rw [demoPair_attestations, demoPair_reverse_attestations]
  exact ((demoPair b b').reverse_perm.map _).symm

theorem demoPair_threshold (b b' : String) : (demoManager (demoPair b b')).quorumThreshold =
    (demoManager (demoPair b b').reverse).quorumThreshold := by
  rw [demoManager_threshold, demoManager_threshold]

theorem mem_demoPair {b b' : String} {a : StateAttestation} :
    a ∈ (demoPair b b').map (·.1) ↔ a = demoAttestation 1 b "r1" ∨ a = demoAttestation 2 b' "r1" :=
  List.mem_pair

/-- Both attestations name the root, so only the blocks can divide them. -/
theorem demoPair_undivided_iff {b b' : String} :
    Undivided 2 ((demoPair b b').map (·.1)) ↔ b = b' := by
  constructor
  · rintro (hfew | huniform)
    · exact absurd (hfew "r1")
        (by simp [Quorum.votesFor, demoPair, demoAttestation, signStateRoot])
    · exact (huniform _ (mem_demoPair.mpr (.inl rfl)) _ (mem_demoPair.mpr (.inr rfl))).2
  · intro heq
    refine .inr fun a ha a' ha' ↦ ?_
    have hfields : ∀ a ∈ (demoPair b b').map (·.1), a.stateRoot = "r1" ∧ a.blockHash = b := by
      intro a ha
      rcases mem_demoPair.mp ha with rfl | rfl
      · exact ⟨rfl, rfl⟩
      · exact ⟨rfl, heq.symm⟩
    obtain ⟨hroot, hblock⟩ := hfields a ha
    obtain ⟨hroot', hblock'⟩ := hfields a' ha'
    exact ⟨hroot.trans hroot'.symm, hblock.trans hblock'.symm⟩

theorem demoPair_undivided (b b' : String) :
    Undivided (demoManager (demoPair b b')).quorumThreshold
      ((demoManager (demoPair b b')).attestations "JKC" 5) ↔ b = b' := by
  rw [demoPair_attestations, demoManager_threshold]
  exact demoPair_undivided_iff

/-- **Two nodes, two artifacts.**  Each node reports the block of the attestation that it has
received first. -/
theorem quorum_result_depends_on_order :
    ((demoManager (demoPair "b1" "b2")).attestations "JKC" 5).Perm
        ((demoManager (demoPair "b1" "b2").reverse).attestations "JKC" 5) ∧
      ¬ AgreeOnResult ((demoManager (demoPair "b1" "b2")).buildQuorumResult demoCrates "JKC" 5)
        ((demoManager (demoPair "b1" "b2").reverse).buildQuorumResult demoCrates "JKC" 5) := by
  have hblocks : ("b1" : String) ≠ "b2" := by decide
  exact ⟨demoPair_perm _ _,
    mt AgreeOnResult.undivided (mt (demoPair_undivided _ _).mp hblocks)⟩

theorem quorum_result_agrees_iff_uniform :
    ((demoManager (demoPair "b" "b")).attestations "JKC" 5).Perm
        ((demoManager (demoPair "b" "b").reverse).attestations "JKC" 5) ∧
      AgreeOnResult ((demoManager (demoPair "b" "b")).buildQuorumResult demoCrates "JKC" 5)
        ((demoManager (demoPair "b" "b").reverse).buildQuorumResult demoCrates "JKC" 5) := by
  have honce : (((demoManager (demoPair "b" "b")).attestations "JKC" 5).map
      (·.validatorPubkey)).Nodup := by
    rw [demoPair_attestations]
    simp [demoPair, demoAttestation_key, demoValidator_inj]
  refine ⟨demoPair_perm _ _, ?_⟩
  rw [quorum_result_agrees_iff demoCrates (demoPair_threshold _ _) "JKC" 5 (demoPair_perm _ _)
    honce]
  exact (demoPair_undivided _ _).mpr rfl

end UtxoVm
