import UtxoVm.CrossChain.Relay

/-!
# What the nodes of a network decide

Every node has a consensus manager and a relay of its own, and takes a root as settled in one of
three ways: its manager has a quorum, it accepts a cross-chain proof, or a relay is verified.
Attestations travel between the nodes in any order; they are lost, repeated and made up.  Two
contradicting decisions, wherever they are taken, expose the validators that have signed for both.
-/

namespace UtxoVm

open RustStd ConsensusManager

/-! ## 1. Certificates -/

/-- There is a valid signature of the validator over the root at the chain and height. -/
def Signs (X : Crates) (v chain : String) (height : Nat) (root : String) : Prop :=
  ∃ att : StateAttestation, att.validatorPubkey = v ∧ att.chain = chain ∧
    att.blockHeight = height ∧ att.stateRoot = root ∧ verifyAttestation X att = true

/-- `count` of the validators have signed the root. -/
def Certified (X : Crates) (validators : Finset String) (chain : String) (height : Nat)
    (root : String) (count : Nat) : Prop :=
  ∃ signers ⊆ validators, count ≤ signers.card ∧ ∀ v ∈ signers, Signs X v chain height root

/-- A proof against the validator, for the chain and height, that anyone can check. -/
def Exposed (X : Crates) (v chain : String) (height : Nat) : Prop :=
  ∃ p : EquivocationProof, p.validatorPubkey = v ∧ p.chain = chain ∧ p.blockHeight = height ∧
    verifyEquivocationProof X p = true

variable {X : Crates} {validators : Finset String} {chain : String} {height : Nat}
  {root root' v : String} {k k' : Nat}

theorem Signs.exposed (h : Signs X v chain height root) (h' : Signs X v chain height root')
    (hne : root ≠ root') : Exposed X v chain height := by
  obtain ⟨att, rfl, rfl, rfl, rfl, hvalid⟩ := h
  obtain ⟨att', hkey, hchain, hheight, rfl, hvalid'⟩ := h'
  let p : EquivocationProof :=
    { chain := att.chain, blockHeight := att.blockHeight
      validatorPubkey := att.validatorPubkey
      firstAttestation := att, secondAttestation := att', detectedAt := 0 }
  refine ⟨p, rfl, rfl, rfl, verifyEquivocationProof_iff.mpr ?_⟩
  unfold verifyAttestation at hvalid hvalid'
  rw [hkey] at hvalid'
  exact ⟨⟨rfl, hkey⟩, ⟨rfl, hchain, rfl, hheight⟩, hne, hvalid, hvalid'⟩

/-- Certificates have signers in common. -/
theorem Certified.common (h : Certified X validators chain height root k)
    (h' : Certified X validators chain height root' k') :
    ∃ both ⊆ validators, k + k' ≤ validators.card + both.card ∧
      ∀ v ∈ both, Signs X v chain height root ∧ Signs X v chain height root' := by
  obtain ⟨signers, hsub, hcard, hsigns⟩ := h
  obtain ⟨signers', hsub', hcard', hsigns'⟩ := h'
  refine ⟨signers ∩ signers', fun v hv ↦ hsub (Finset.mem_inter.mp hv).1, ?_, fun v hv ↦ ?_⟩
  · have hoverlap := Quorum.card_overlap hsub hsub'
    omega
  · obtain ⟨hmem, hmem'⟩ := Finset.mem_inter.mp hv
    exact ⟨hsigns v hmem, hsigns' v hmem'⟩

/-- Honest validators sign the agreed root. -/
theorem Signs.agreed {honest : Finset String} {agreed : String → Nat → String}
    {signed : String → String → Nat → String → String → Prop} (h : Signs X v chain height root)
    (hhonest : Honest X honest agreed signed) (hmem : v ∈ honest) : root = agreed chain height := by
  obtain ⟨att, rfl, rfl, rfl, rfl, hvalid⟩ := h
  exact hhonest.stateRoot hmem hvalid

/-! ## 2. Peers -/

/-- A node, as far as it takes part in the consensus of the network. -/
structure Peer where
  consensus : ConsensusManager
  relay : StateRelay

/-- What a node is asked to do.  The store of the node is whatever it is when a relay message is
made from it. -/
inductive PeerCall where
  | attest (att : StateAttestation) (now : Int)
  | relay (store : StateStore) (sourceChain : String) (blockHeight : Nat) (destChain : String)
      (now relayedAt : Int)
  | verify (recordId : String) (now : Int)

namespace Peer

variable (X)

def start (threshold : Nat) (validators : List String) : Peer where
  consensus := registered X threshold validators
  relay := .new

def call (p : Peer) : PeerCall → Peer
  | .attest att now => { p with consensus := (addAttestation X p.consensus att now).1 }
  | .relay store sourceChain blockHeight destChain now relayedAt =>
      match StateRelay.createRelayMessage store p.consensus sourceChain blockHeight with
      | .ok message =>
          { p with relay := (p.relay.relayToChain message destChain now relayedAt).1 }
      | .error _ => p
  | .verify recordId now =>
      match StateRelay.verifyRelay X p.relay p.consensus recordId now with
      | .ok (relay, _) => { p with relay }
      | .error _ => p

/-- What a node takes as settled, and how many validators it asks for. -/
inductive Decided (p : Peer) : String → Nat → String → Nat → Prop
  | quorum {chain root : String} {height : Nat} :
      p.consensus.isQuorumReached chain height root = true →
      Decided p chain height root p.consensus.quorumThreshold
  | result {chain : String} {height : Nat} {result : QuorumResult} :
      p.consensus.buildQuorumResult X chain height = some result →
      Decided p chain height result.stateRoot p.consensus.quorumThreshold
  | proof {proof : CrossChainProof} :
      (CrossChainVerifier.verifyProof X p.consensus proof).valid = true →
      Decided p proof.sourceChain proof.sourceHeight proof.sourceRoot
        ((p.consensus.getValidatorCount * 2 + 2) / 3)
  | relay {id : String} {record : RelayRecord} : p.relay.records id = some record →
      record.status = .verified →
      Decided p record.message.sourceChain record.message.blockHeight record.message.stateRoot
        ((p.consensus.getValidatorCount * 2 + 2) / 3)

/-- The manager is well kept and knows the validators, relays carry attestations that it has
admitted, and verified ones are certified. -/
structure Sound (validators : Finset String) (threshold : Nat) (p : Peer) : Prop where
  wellKept : p.consensus.WellKept X
  known : ∀ v, v ∈ p.consensus.knownValidators ↔ v ∈ validators
  threshold : p.consensus.quorumThreshold = threshold
  created : ∀ id record, p.relay.records id = some record → ∀ att ∈ record.message.attestations,
    att.validatorPubkey ∈ validators ∧ att.chain = record.message.sourceChain ∧
      att.blockHeight = record.message.blockHeight
  verified : ∀ id record, p.relay.records id = some record → record.status = .verified →
    Certified X validators record.message.sourceChain record.message.blockHeight
      record.message.stateRoot ((validators.card * 2 + 2) / 3)

variable {X} {p : Peer} {threshold : Nat}

theorem Sound.count (h : p.Sound X validators threshold) :
    p.consensus.getValidatorCount = validators.card := by
  have heq : p.consensus.knownValidators.toFinset = validators := by
    ext v
    rw [List.mem_toFinset, h.known]
  rw [getValidatorCount, ← heq, List.toFinset_card_of_nodup h.wellKept.distinct]

/-- The attestations that the manager has stored for one root are of different validators. -/
theorem Sound.voters (h : p.Sound X validators threshold) (hcount : k ≤
    (Quorum.votesFor (·.stateRoot) root (p.consensus.attestations chain height)).length) :
    ∃ signers ⊆ validators, k ≤ signers.card ∧ ∀ v ∈ signers,
      ∃ att ∈ p.consensus.attestations chain height,
        att.validatorPubkey = v ∧ att.stateRoot = root := by
  let votes := Quorum.votesFor (·.stateRoot) root (p.consensus.attestations chain height)
  have hnodup : (votes.map (·.validatorPubkey)).Nodup :=
    (h.wellKept.once chain height).sublist (List.filter_sublist.map _)
  refine ⟨(votes.map (·.validatorPubkey)).toFinset, fun v hv ↦ ?_, ?_, fun v hv ↦ ?_⟩
  · obtain ⟨a, ha, rfl⟩ := List.mem_map.mp (List.mem_toFinset.mp hv)
    have hmem := (Quorum.mem_votesFor.mp ha).1
    exact (h.known _).mp (h.wellKept.admitted chain height a hmem).2
  · rw [List.toFinset_card_of_nodup hnodup, List.length_map]
    exact hcount
  · obtain ⟨a, ha, rfl⟩ := List.mem_map.mp (List.mem_toFinset.mp hv)
    obtain ⟨hmem, hroot⟩ := Quorum.mem_votesFor.mp ha
    exact ⟨a, hmem, rfl, hroot⟩

theorem Sound.certified_votes (h : p.Sound X validators threshold) (hcount : k ≤
    (Quorum.votesFor (·.stateRoot) root (p.consensus.attestations chain height)).length) :
    Certified X validators chain height root k := by
  obtain ⟨signers, hsub, hcard, hstored⟩ := h.voters hcount
  refine ⟨signers, hsub, hcard, fun v hv ↦ ?_⟩
  obtain ⟨att, hmem, hkey, hroot⟩ := hstored v hv
  obtain ⟨hchain, hheight⟩ := h.wellKept.placed chain height att hmem
  exact ⟨att, hkey, hchain, hheight, hroot, (h.wellKept.admitted chain height att hmem).1⟩

theorem Sound.certified_vouched (h : p.Sound X validators threshold)
    {attestations : List StateAttestation}
    (hvouched : Vouched X p.consensus attestations chain height root) :
    Certified X validators chain height root ((validators.card * 2 + 2) / 3) := by
  obtain ⟨signers, hcard, hsigners⟩ := hvouched
  rw [h.count] at hcard
  refine ⟨signers, fun v hv ↦ (h.known v).mp (hsigners v hv).registered, hcard, fun v hv ↦ ?_⟩
  obtain ⟨att, -, hsigned⟩ := (hsigners v hv).signed
  exact ⟨att, hsigned⟩

/-- Whatever a node decides is certified. -/
theorem Sound.certified (h : p.Sound X validators threshold)
    (hdecided : p.Decided X chain height root k) : Certified X validators chain height root k := by
  cases hdecided with
  | quorum hquorum => exact h.certified_votes (isQuorumReached_iff.mp hquorum).2
  | result hresult =>
    exact h.certified_votes (isQuorumReached_iff.mp (buildQuorumResult_reached hresult)).2
  | proof hvalid =>
    rw [h.count]
    exact h.certified_vouched (vouched_of_valid hvalid)
  | relay hrecord hverified =>
    rw [h.count]
    exact h.verified _ _ hrecord hverified

/-! ## 3. Every call keeps a node sound -/

theorem run_register (m : ConsensusManager) (vs : List String) :
    (m.run X (vs.map .register)).quorumThreshold = m.quorumThreshold ∧
      ∀ v, v ∈ (m.run X (vs.map .register)).knownValidators ↔ v ∈ vs ∨ v ∈ m.knownValidators := by
  induction vs generalizing m with
  | nil => exact ⟨rfl, fun v ↦ (or_iff_right List.not_mem_nil).symm⟩
  | cons w vs ih =>
    obtain ⟨hthreshold, hknown⟩ := ih (m.registerValidator w)
    refine ⟨hthreshold, fun v ↦ (hknown v).trans ?_⟩
    have hinsert : v ∈ (m.registerValidator w).knownValidators ↔
        v = w ∨ v ∈ m.knownValidators := List.mem_insert_iff
    rw [hinsert, List.mem_cons]
    tauto

theorem start_sound (threshold : Nat) (validators : List String) :
    (start X threshold validators).Sound X validators.toFinset threshold where
  wellKept := registered_wellKept X threshold validators
  known v := by
    apply ((run_register (new threshold) validators).2 v).trans
    rw [List.mem_toFinset]
    exact or_iff_left List.not_mem_nil
  threshold := (run_register (X := X) (new threshold) validators).1
  created _ _ hrecord := by cases hrecord
  verified _ _ hrecord := by cases hrecord

theorem Sound.attest (h : p.Sound X validators threshold) (att : StateAttestation) (now : Int) :
    (p.call X (.attest att now)).Sound X validators threshold := by
  have hkept := run_submit (X := X) p.consensus [(att, now)]
  exact
    { wellKept := h.wellKept.call (.add att now)
      known := fun v ↦ (iff_of_eq (congrArg (v ∈ ·) hkept.1)).trans (h.known v)
      threshold := hkept.2.trans h.threshold
      created := h.created
      verified := h.verified }

/-- A record with attestations of validators for its block, certified if it is verified. -/
theorem Sound.insert (h : p.Sound X validators threshold) {id : String} {record : RelayRecord}
    (hcreated : ∀ att ∈ record.message.attestations, att.validatorPubkey ∈ validators ∧
      att.chain = record.message.sourceChain ∧ att.blockHeight = record.message.blockHeight)
    (hverified : record.status = .verified → Certified X validators record.message.sourceChain
      record.message.blockHeight record.message.stateRoot ((validators.card * 2 + 2) / 3)) :
    Peer.Sound X validators threshold { p with relay := p.relay.insert id record } := by
  have hcases (id' : String) (record' : RelayRecord)
      (hrecord : (p.relay.insert id record).records id' = some record') :
      record' = record ∨ p.relay.records id' = some record' := by
    unfold StateRelay.insert at hrecord
    dsimp only at hrecord
    split at hrecord
    · exact .inl (Option.some.inj hrecord).symm
    · exact .inr hrecord
  refine { h with created := fun id' record' hrecord ↦ ?_
                  verified := fun id' record' hrecord ↦ ?_ }
  · rcases hcases id' record' hrecord with rfl | hold
    · exact hcreated
    · exact h.created id' record' hold
  · rcases hcases id' record' hrecord with rfl | hold
    · exact hverified
    · exact h.verified id' record' hold

theorem Sound.relay (h : p.Sound X validators threshold) (store : StateStore)
    (sourceChain : String) (blockHeight : Nat) (destChain : String) (now relayedAt : Int) :
    (p.call X (.relay store sourceChain blockHeight destChain now relayedAt)).Sound X validators
      threshold := by
  unfold call
  dsimp only
  cases hmessage : StateRelay.createRelayMessage store p.consensus sourceChain blockHeight with
  | error e => exact h
  | ok message =>
    refine h.insert (fun att hatt ↦ ?_) fun hverified ↦ by cases hverified
    -- the message carries what the manager has stored for the block
    unfold StateRelay.createRelayMessage at hmessage
    split at hmessage
    · cases hmessage
    · cases hmessage
      have hadmits := h.wellKept.admitted sourceChain blockHeight att hatt
      exact ⟨(h.known _).mp hadmits.2, h.wellKept.placed sourceChain blockHeight att hatt⟩

theorem Sound.verify (h : p.Sound X validators threshold) (recordId : String) (now : Int) :
    (p.call X (.verify recordId now)).Sound X validators threshold := by
  unfold call StateRelay.verifyRelay
  dsimp only
  cases hrecord : p.relay.records recordId with
  | none => exact h
  | some record =>
    have hcreated := h.created recordId record hrecord
    by_cases hpasses : StateRelay.passes X p.consensus record.message = true
    · simp only [hpasses, if_true]
      refine h.insert hcreated fun _ ↦
        h.certified_vouched (StateRelay.vouched_of_passes (fun att hatt _ _ ↦ ?_) hpasses)
      obtain ⟨hmem, hplace⟩ := hcreated att hatt
      exact ⟨(h.known _).mpr hmem, hplace⟩
    · simp only [hpasses]
      exact h.insert hcreated fun hverified ↦ by cases hverified

theorem Sound.call (h : p.Sound X validators threshold) (c : PeerCall) :
    (p.call X c).Sound X validators threshold := by
  cases c with
  | attest att now => exact h.attest att now
  | relay store sourceChain blockHeight destChain now relayedAt =>
    exact h.relay store sourceChain blockHeight destChain now relayedAt
  | verify recordId now => exact h.verify recordId now

theorem extends_call (p : Peer) (c : PeerCall) : Extends p.consensus (p.call X c).consensus := by
  cases c with
  | attest att now => exact ConsensusManager.extends_call p.consensus (.add att now)
  | relay store sourceChain blockHeight destChain now relayedAt =>
    unfold call
    dsimp only
    split <;> exact Extends.refl _
  | verify recordId now =>
    unfold call
    dsimp only
    split <;> exact Extends.refl _

end Peer

/-! ## 4. Runs of the network -/

/-- The nodes by name. -/
abbrev Network (ι : Type) := ι → Peer

namespace Network

variable {ι : Type} [DecidableEq ι] (X)

def start (threshold : ι → Nat) (validators : List String) : Network ι :=
  fun i ↦ .start X (threshold i) validators

/-- One of the nodes is asked to do something. -/
def step (net : Network ι) (c : ι × PeerCall) : Network ι :=
  Function.update net c.1 ((net c.1).call X c.2)

/-- Calls reach the nodes one by one, in any order. -/
def run (net : Network ι) (calls : List (ι × PeerCall)) : Network ι := calls.foldl (step X) net

variable {X} {net : Network ι} {threshold : ι → Nat} {calls calls' : List (ι × PeerCall)} {i j : ι}

def Sound (X : Crates) (validators : Finset String) (threshold : ι → Nat) (net : Network ι) :
    Prop := ∀ i, (net i).Sound X validators (threshold i)

theorem Sound.step (h : net.Sound X validators threshold) (c : ι × PeerCall) :
    (net.step X c).Sound X validators threshold := by
  intro i
  unfold Network.step
  by_cases hi : i = c.1
  · rw [hi, Function.update_self]
    exact (h c.1).call c.2
  · rw [Function.update_of_ne hi]
    exact h i

theorem Sound.run (h : net.Sound X validators threshold) (calls : List (ι × PeerCall)) :
    (net.run X calls).Sound X validators threshold :=
  List.foldlRecOn calls (Network.step X) h fun _ hnet c _ ↦ hnet.step c

theorem start_sound (threshold : ι → Nat) (validators : List String)
    (calls : List (ι × PeerCall)) :
    ((start X threshold validators).run X calls).Sound X validators.toFinset threshold :=
  Sound.run (fun i ↦ Peer.start_sound (threshold i) validators) calls

theorem extends_step (net : Network ι) (c : ι × PeerCall) (i : ι) :
    Extends (net i).consensus (net.step X c i).consensus := by
  unfold step
  by_cases hi : i = c.1
  · rw [hi, Function.update_self]
    exact Peer.extends_call _ _
  · rw [Function.update_of_ne hi]
    exact Extends.refl _

theorem extends_run (net : Network ι) (calls : List (ι × PeerCall)) (i : ι) :
    Extends (net i).consensus (net.run X calls i).consensus := by
  induction calls generalizing net with
  | nil => exact Extends.refl _
  | cons c calls ih => exact (extends_step net c i).trans (ih (net.step X c))

/-- A valid attestation of a validator that has reached a node has been noticed there. -/
theorem noticed_run (h : net.Sound X validators threshold) {att : StateAttestation} {now : Int}
    (hreached : (i, .attest att now) ∈ calls) (hvalid : verifyAttestation X att = true)
    (hmem : att.validatorPubkey ∈ validators) :
    (net.run X calls i).consensus.Noticed att := by
  induction calls generalizing net with
  | nil => cases hreached
  | cons c calls ih =>
    rcases List.mem_cons.mp hreached with rfl | hlater
    · have hnoticed : ((net.step X (i, .attest att now)) i).consensus.Noticed att := by
        unfold Network.step
        rw [Function.update_self]
        exact ConsensusManager.noticed_call ⟨hvalid, ((h i).known _).mpr hmem⟩ now
      exact hnoticed.extends (extends_run _ calls i)
    · exact ih (h.step c) hlater

/-! ## 5. Contradicting decisions -/

/-- A quorum stays. -/
theorem quorum_stays (threshold : ι → Nat) (validators : List String)
    (hreached : ((start X threshold validators).run X calls i).consensus.isQuorumReached chain
      height root = true) (calls' : List (ι × PeerCall)) :
    ((start X threshold validators).run X (calls ++ calls') i).consensus.isQuorumReached chain
      height root = true := by
  obtain ⟨hne, hcount⟩ := isQuorumReached_iff.mp hreached
  have hext := (extends_run (X := X) ((start X threshold validators).run X calls) calls'
    i).attestations chain height
  rw [run, List.foldl_append, isQuorumReached_iff]
  refine ⟨fun hempty ↦ hne (List.prefix_nil.mp (hempty ▸ hext)), ?_⟩
  -- the threshold is the same, and the votes are only ever added to
  have hthreshold := ((start_sound (X := X) threshold validators calls).run calls' i).threshold
  have hthreshold' := (start_sound (X := X) threshold validators calls i).threshold
  apply le_trans (le_of_eq (hthreshold.trans hthreshold'.symm))
  exact hcount.trans (hext.sublist.filter _).length_le

/-- **Two decisions anywhere expose whoever signed for both.**  Whatever reaches the nodes of a
network in whatever order, if a node takes one root as settled and a node of the same validators,
in this run or in another one, takes another root as settled for the same chain and height, then as
many validators as the two decisions must have in common can be proved to have equivocated. -/
theorem decisions_expose (X : Crates) (validators : List String) (threshold threshold' : ι → Nat)
    (calls calls' : List (ι × PeerCall)) (i j : ι)
    (hi : ((start X threshold validators).run X calls i).Decided X chain height root k)
    (hj : ((start X threshold' validators).run X calls' j).Decided X chain height root' k')
    (hne : root ≠ root') :
    ∃ both ⊆ validators.toFinset, k + k' ≤ validators.toFinset.card + both.card ∧
      ∀ v ∈ both, Exposed X v chain height := by
  obtain ⟨both, hsub, hcard, hsigns⟩ := ((start_sound threshold validators calls i).certified
    hi).common ((start_sound threshold' validators calls' j).certified hj)
  exact ⟨both, hsub, hcard, fun v hv ↦ (hsigns v hv).1.exposed (hsigns v hv).2 hne⟩

variable {validators : List String} {honest : Finset String}
  {signed : String → String → Nat → String → String → Prop}
  {agreed : String → Nat → String}

/-- **Network agreement.**  With too few faulty validators to fill what two decisions must have in
common, all decisions of all nodes agree. -/
theorem network_agreement (hhonest : Honest X honest agreed signed) (threshold : ι → Nat)
    (calls : List (ι × PeerCall)) (i j : ι)
    (hi : ((start X threshold validators).run X calls i).Decided X chain height root k)
    (hj : ((start X threshold validators).run X calls j).Decided X chain height root' k')
    (hfaulty : validators.toFinset.card + (validators.toFinset \ honest).card < k + k') :
    root = root' := by
  obtain ⟨both, hsub, hcard, hsigns⟩ := ((start_sound threshold validators calls i).certified
    hi).common ((start_sound threshold validators calls j).certified hj)
  -- the signers of both roots are not all faulty
  have hmore : (validators.toFinset \ honest).card < both.card := by omega
  obtain ⟨v, hv, hnot⟩ := Finset.exists_mem_notMem_of_card_lt_card hmore
  have hmem : v ∈ honest := by
    by_contra h
    exact hnot (Finset.mem_sdiff.mpr ⟨hsub hv, h⟩)
  obtain ⟨hroot, hroot'⟩ := hsigns v hv
  exact (hroot.agreed hhonest hmem).trans (hroot'.agreed hhonest hmem).symm

/-- **Gossip finds the culprits.**  When two nodes have reached their quorums for different roots,
and what the first one has stored for the block has reached the second one, before or after, then
the second one holds a proof against every validator that signed for both. -/
theorem gossip_accuses (X : Crates) (validators : List String) (threshold : ι → Nat)
    (calls : List (ι × PeerCall)) (i j : ι)
    (hi : ((start X threshold validators).run X calls i).consensus.isQuorumReached chain height
      root = true)
    (hj : ((start X threshold validators).run X calls j).consensus.isQuorumReached chain height
      root' = true)
    (hne : root ≠ root')
    (hreached : ∀ att ∈ ((start X threshold validators).run X calls i).consensus.attestations chain
      height, ∃ now, (j, .attest att now) ∈ calls) :
    ∃ both ⊆ validators.toFinset, threshold i + threshold j ≤ validators.toFinset.card + both.card ∧
      ∀ v ∈ both,
        ((start X threshold validators).run X calls j).consensus.Accuses v chain height := by
  have hsound := start_sound (X := X) threshold validators calls
  obtain ⟨signers, hsub, hcard, hstored⟩ := (hsound i).voters (isQuorumReached_iff.mp hi).2
  obtain ⟨signers', hsub', hcard', hstored'⟩ := (hsound j).voters (isQuorumReached_iff.mp hj).2
  rw [(hsound i).threshold] at hcard
  rw [(hsound j).threshold] at hcard'
  refine ⟨signers ∩ signers', fun v hv ↦ hsub (Finset.mem_inter.mp hv).1, ?_, fun v hv ↦ ?_⟩
  · have hoverlap := Quorum.card_overlap hsub hsub'
    omega
  obtain ⟨hmem, hmem'⟩ := Finset.mem_inter.mp hv
  obtain ⟨first, hfirst, hkey, hroot⟩ := hstored v hmem
  obtain ⟨second, hsecond, rfl, hroot'⟩ := hstored' v hmem'
  obtain ⟨hchain, hheight⟩ := (hsound i).wellKept.placed chain height first hfirst
  obtain ⟨hchain', hheight'⟩ := (hsound j).wellKept.placed chain height second hsecond
  -- the one was delivered here, the other is stored here
  obtain ⟨now, hdelivered⟩ := hreached first hfirst
  have hadmits := (hsound i).wellKept.admitted chain height first hfirst
  have hnoticed := noticed_run (fun i ↦ Peer.start_sound (threshold i) validators) hdelivered
    hadmits.1 (((hsound i).known _).mp hadmits.2)
  have hnoticed' : ((start X threshold validators).run X calls j).consensus.Noticed second :=
    ⟨second, by rwa [hchain', hheight'], rfl, fun h ↦ absurd rfl h⟩
  have haccuses := hnoticed.accuses (hsound j).wellKept hnoticed' hkey
    (hchain.trans hchain'.symm) (hheight.trans hheight'.symm)
    (by rw [hroot, hroot']; exact hne)
  rwa [hkey, hchain, hheight] at haccuses

/-! Three validators, and two nodes with a threshold of two. -/

/-- Attestations that reach a node one after the other. -/
def deliver (i : ι) (submitted : List (StateAttestation × Int)) : List (ι × PeerCall) :=
  submitted.map fun s ↦ (i, .attest s.1 s.2)

omit [DecidableEq ι] in
theorem mem_deliver {submitted : List (StateAttestation × Int)} {s : StateAttestation × Int}
    (hs : s ∈ submitted) : (i, .attest s.1 s.2) ∈ deliver i submitted :=
  List.mem_map.mpr ⟨s, hs, rfl⟩

theorem run_deliver (net : Network ι) (i : ι) (submitted : List (StateAttestation × Int)) :
    (net.run X (deliver i submitted)) = Function.update net i
      { net i with consensus := (net i).consensus.run X (submit submitted) } := by
  induction submitted generalizing net with
  | nil => exact (Function.update_eq_self i net).symm
  | cons s submitted ih =>
    show run X (net.step X (i, .attest s.1 s.2)) (deliver i submitted) = _
    rw [ih, step, Function.update_self, Function.update_idem]
    rfl

/-- Enough valid attestations of different validators make a quorum at a node that has just
started. -/
theorem deliver_quorum (net : Network ι) (i : ι) {validators : List String} {threshold : Nat}
    (hnet : net i = .start X threshold validators) {submitted : List (StateAttestation × Int)}
    (hsigned : ∀ s ∈ submitted, verifyAttestation X s.1 = true ∧ s.1.validatorPubkey ∈ validators ∧
      s.1.chain = chain ∧ s.1.blockHeight = height ∧ s.1.stateRoot = root)
    (honce : ((submitted.map (·.1)).map (·.validatorPubkey)).Nodup) (hne : submitted ≠ [])
    (hcount : threshold ≤ submitted.length) :
    (net.run X (deliver i submitted) i).consensus.isQuorumReached chain height root = true ∧
      (net.run X (deliver i submitted) i).consensus.attestations chain height =
        submitted.map (·.1) := by
  have hempty := registered_attestations X threshold validators chain height
  have hthreshold := (run_submit (X := X) (registered X threshold validators) submitted).2
  rw [run_deliver, Function.update_self, hnet]
  show ((registered X threshold validators).run X (submit submitted)).isQuorumReached _ _ _ = true ∧
    ((registered X threshold validators).run X (submit submitted)).attestations _ _ = _
  rw [isQuorumReached_iff, hthreshold, accepted_in_order
    (fun s hs ↦ ⟨(hsigned s hs).1, mem_registered (hsigned s hs).2.1⟩)
    (fun s hs ↦ ⟨(hsigned s hs).2.2.1, (hsigned s hs).2.2.2.1⟩) (by rwa [hempty]), hempty,
    List.nil_append]
  refine ⟨⟨fun h ↦ hne (List.map_eq_nil_iff.mp h), ?_⟩, rfl⟩
  have hall : Quorum.votesFor (·.stateRoot) root (submitted.map (·.1)) = submitted.map (·.1) := by
    refine List.filter_eq_self.mpr fun a ha ↦ decide_eq_true ?_
    obtain ⟨s, hs, rfl⟩ := List.mem_map.mp ha
    exact (hsigned s hs).2.2.2.2
  rw [hall, List.length_map]
  exact (Peer.start_sound (X := X) threshold validators).threshold.le.trans hcount

/-- The attestations of two validators for one root. -/
def demoVotes (key key' : UInt8) (root : String) : List (StateAttestation × Int) :=
  [(demoAttestation key "b" root, 0), (demoAttestation key' "b" root, 0)]

theorem demoVotes_quorum (net : Network Bool) (i : Bool) (key key' : UInt8) (root : String)
    (hnet : net i = .start demoCrates 2 demoValidators) (hkey : demoValidator key ∈ demoValidators)
    (hkey' : demoValidator key' ∈ demoValidators) (hne : key ≠ key') :
    (net.run demoCrates (deliver i (demoVotes key key' root)) i).consensus.isQuorumReached "JKC" 5
        root = true ∧
      (net.run demoCrates (deliver i (demoVotes key key' root)) i).consensus.attestations "JKC" 5 =
        (demoVotes key key' root).map (·.1) := by
  refine deliver_quorum net i hnet (fun s hs ↦ ?_) ?_ (List.cons_ne_nil _ _) le_rfl
  · rcases List.mem_pair.mp hs with rfl | rfl
    · exact ⟨demoAttestation_valid _ _ _, hkey, rfl, rfl, rfl⟩
    · exact ⟨demoAttestation_valid _ _ _, hkey', rfl, rfl, rfl⟩
  · simp [demoVotes, demoAttestation_key, demoValidator_inj, hne]

theorem demoValidators_card : demoValidators.toFinset.card = 3 := by
  rw [List.toFinset_card_of_nodup (by simp [demoValidators, demoValidator_inj])]
  rfl

abbrev demoNet (X : Crates) (threshold : Nat) : Network Bool :=
  start X (fun _ ↦ threshold) demoValidators

/-- The validator `2` votes for `r1` at one node and for `r2` at the other. -/
theorem decisions_expose_split : ∃ both ⊆ demoValidators.toFinset, 2 + 2 ≤ 3 + both.card ∧
    ∀ v ∈ both, Exposed demoCrates v "JKC" 5 := by
  have hfirst := (demoVotes_quorum (demoNet demoCrates 2) false 1 2 "r1" rfl
    (by simp [demoValidators]) (by simp [demoValidators]) (by decide)).1
  have hsecond := (demoVotes_quorum (demoNet demoCrates 2) true 2 3 "r2" rfl
    (by simp [demoValidators]) (by simp [demoValidators]) (by decide)).1
  have hexpose := decisions_expose demoCrates demoValidators (fun _ : Bool ↦ 2) (fun _ ↦ 2) _ _
    false true (.quorum hfirst) (.quorum hsecond) (by decide)
  rw [demoValidators_card, (start_sound _ _ _ _).threshold, (start_sound _ _ _ _).threshold]
    at hexpose
  exact hexpose

/-- What the first node has stored reaches the second one at the end. -/
def demoSplit : List (Bool × PeerCall) :=
  (deliver false (demoVotes 1 2 "r1") ++ deliver true (demoVotes 2 3 "r2")) ++
    deliver true (demoVotes 1 2 "r1")

theorem gossip_accuses_split : ∃ both ⊆ demoValidators.toFinset, 2 + 2 ≤ 3 + both.card ∧
    ∀ v ∈ both,
      ((demoNet demoCrates 2).run demoCrates demoSplit true).consensus.Accuses v "JKC" 5 := by
  obtain ⟨hfirst, hstored⟩ := demoVotes_quorum (demoNet demoCrates 2) false 1 2 "r1" rfl
    (by simp [demoValidators]) (by simp [demoValidators]) (by decide)
  have hsecond := (demoVotes_quorum
    ((demoNet demoCrates 2).run demoCrates (deliver false (demoVotes 1 2 "r1"))) true 2 3 "r2"
    (by rw [run_deliver]; rfl) (by simp [demoValidators]) (by simp [demoValidators])
    (by decide)).1
  rw [run, run, ← List.foldl_append] at hsecond
  have hquorum : ((demoNet demoCrates 2).run demoCrates demoSplit
      true).consensus.isQuorumReached "JKC" 5 "r2" = true :=
    quorum_stays (fun _ ↦ 2) demoValidators hsecond _
  -- the other deliveries do not reach the first node
  have hothers : ((demoNet demoCrates 2).run demoCrates demoSplit false).consensus =
      ((demoNet demoCrates 2).run demoCrates (deliver false (demoVotes 1 2 "r1"))
        false).consensus := by
    rw [demoSplit, run, List.foldl_append, List.foldl_append]
    show ((run demoCrates (run demoCrates (run demoCrates (demoNet demoCrates 2) _) _) _)
      false).consensus = _
    rw [run_deliver, Function.update_of_ne (by decide), run_deliver _ true,
      Function.update_of_ne (by decide)]
  rw [← hothers] at hfirst hstored
  have hreached : ∀ att ∈ ((demoNet demoCrates 2).run demoCrates demoSplit
      false).consensus.attestations "JKC" 5,
      ∃ now, (true, PeerCall.attest att now) ∈ demoSplit := by
    intro att hatt
    rw [hstored] at hatt
    obtain ⟨s, hs, rfl⟩ := List.mem_map.mp hatt
    rw [demoSplit]
    exact ⟨s.2, List.mem_append_right _ (mem_deliver hs)⟩
  unfold demoNet at *
  have haccuses := gossip_accuses demoCrates demoValidators (fun _ ↦ 2) demoSplit false true hfirst
    hquorum (by decide) hreached
  rwa [demoValidators_card] at haccuses

/-- Two validators are honest, and both nodes ask for all three. -/
def demoHonestVotes : List (StateAttestation × Int) :=
  let sign (key : UInt8) : StateAttestation :=
    signStateRoot demoHonestCrates (List.replicate 32 key) [] "JKC" 5 "b" "r1" 0
  [(sign 1, 0), (sign 2, 0), (sign 3, 0)]

theorem demoHonestVotes_quorum (net : Network Bool) (i : Bool)
    (hnet : net i = .start demoHonestCrates 3 demoValidators) :
    (net.run demoHonestCrates (deliver i demoHonestVotes) i).consensus.isQuorumReached "JKC" 5
      "r1" = true := by
  have hvalid (key : UInt8) : verifyAttestation demoHonestCrates
      (signStateRoot demoHonestCrates (List.replicate 32 key) [] "JKC" 5 "b" "r1" 0) = true := by
    unfold verifyAttestation verifyAttestationSig signStateRoot
    simp [hexDecode_hexEncode, demoHonestCrates, demoCrates, hashAttestationPayload]
  refine (deliver_quorum net i hnet (fun s hs ↦ ?_) ?_ (List.cons_ne_nil _ _) le_rfl).1
  · simp only [List.mem_cons, List.not_mem_nil, or_false] at hs
    rcases hs with rfl | rfl | rfl <;>
      exact ⟨hvalid _, by simp [demoValidators, signStateRoot, demoValidator, demoHonestCrates,
        demoCrates], rfl, rfl, rfl⟩
  · show [demoValidator 1, demoValidator 2, demoValidator 3].Nodup
    simp [demoValidator_inj]

theorem network_agreement_three :
    ((demoNet demoHonestCrates 3).run demoHonestCrates (deliver false demoHonestVotes)
      false).Decided demoHonestCrates "JKC" 5 "r1" 3 ∧ "r1" = "r1" := by
  have hquorum := demoHonestVotes_quorum (demoNet demoHonestCrates 3) false rfl
  have hdecided := Peer.Decided.quorum (X := demoHonestCrates) hquorum
  unfold demoNet at *
  rw [(start_sound (fun _ : Bool ↦ 3) demoValidators (deliver false demoHonestVotes)
    false).threshold] at hdecided
  have hfaulty : demoValidators.toFinset.card + (demoValidators.toFinset \
      ({demoValidator 1, demoValidator 2} : Finset String)).card < 3 + 3 := by
    have hsub : demoValidators.toFinset \ {demoValidator 1, demoValidator 2} ⊆
        {demoValidator 3} := by
      intro v hv
      simp only [demoValidators, Finset.mem_sdiff, List.mem_toFinset, List.mem_cons,
        List.not_mem_nil, or_false, Finset.mem_insert, Finset.mem_singleton] at hv ⊢
      obtain ⟨h | h | h, hnot⟩ := hv
      · exact absurd (.inl h) hnot
      · exact absurd (.inr h) hnot
      · exact h
    have hcard := Finset.card_le_card hsub
    rw [Finset.card_singleton] at hcard
    rw [demoValidators_card]
    omega
  exact ⟨hdecided, network_agreement demoHonest (fun _ ↦ 3) (deliver false demoHonestVotes) false
    false hdecided hdecided hfaulty⟩

end Network

end UtxoVm
