import UtxoVm.CrossChain.Accountability

/-!
# The state relay (`cross_chain/relay.rs`)

A message carries the state root of a block to another chain, with attestations.  A relayed message
is verified against the registered validators by a second implementation of the quorum rule, which
counts valid signatures only, but those of strangers and for other blocks as well.
-/

namespace UtxoVm

open RustStd ConsensusManager

structure StateRelayMessage where
  sourceChain : String
  blockHeight : Nat
  blockHash : String
  stateRoot : String
  timestamp : Int
  attestations : List StateAttestation

inductive RelayStatus where
  | pending
  | relayed
  | verified
  | failed
  deriving DecidableEq, Repr

structure RelayRecord where
  id : String
  message : StateRelayMessage
  destChain : String
  status : RelayStatus
  relayedAt : Option Int
  verifiedAt : Option Int

/-- The relay.  Its store and its consensus manager are arguments of the operations that read
them. -/
structure StateRelay where
  records : String → Option RelayRecord

namespace StateRelay

/-! ## 1. The operations -/

def new : StateRelay := { records := fun _ ↦ none }

def insert (relay : StateRelay) (recordId : String) (record : RelayRecord) : StateRelay :=
  { relay with records := fun id ↦ if id = recordId then some record else relay.records id }

def createRelayMessage (store : StateStore) (consensus : ConsensusManager) (sourceChain : String)
    (blockHeight : Nat) : Except String StateRelayMessage :=
  match store.blocks[blockKey sourceChain blockHeight]? with
  | none => .error ("Block not found at height " ++ toString blockHeight)
  | some block =>
      .ok
        { sourceChain, blockHeight
          blockHash := block.blockHash
          stateRoot := block.stateRoot
          timestamp := block.timestamp
          attestations := consensus.getAttestations sourceChain blockHeight }

/-- `relay_to_chain`, with the two times at which it reads the clock. -/
def relayToChain (relay : StateRelay) (message : StateRelayMessage) (destChain : String)
    (now relayedAt : Int) : StateRelay × RelayRecord :=
  let record : RelayRecord :=
    { id := message.sourceChain ++ "_" ++ destChain ++ "_" ++ toString message.blockHeight ++ "_" ++
        toString now
      message, destChain
      status := .relayed
      relayedAt := some relayedAt
      verifiedAt := none }
  (relay.insert record.id record, record)

variable (X : Crates)

/-- The attestations that count: those with a valid signature, the first of each key. -/
def countedSignatures (message : StateRelayMessage) : List StateAttestation :=
  Quorum.firstVotes (verifyAttestation X) (·.validatorPubkey) [] message.attestations

/-- The checks of `verify_relay`. -/
def passes (consensus : ConsensusManager) (message : StateRelayMessage) : Bool :=
  let totalValidators := consensus.getValidatorCount
  if totalValidators = 0 then false
  else
    match Quorum.plurality (·.stateRoot) (countedSignatures X message) with
    | none => false
    | some (winningRoot, supporting) =>
        decide (winningRoot = message.stateRoot ∧
          (totalValidators * 2 + 2) / 3 ≤ supporting.length)

def verifyRelay (relay : StateRelay) (consensus : ConsensusManager) (recordId : String)
    (now : Int) : Except String (StateRelay × RelayRecord) :=
  match relay.records recordId with
  | none => .error ("Relay record not found: " ++ recordId)
  | some record =>
      let record :=
        if passes X consensus record.message then
          { record with status := .verified, verifiedAt := some now }
        else { record with status := .failed }
      .ok (relay.insert recordId record, record)

/-! ## 2. Who has signed -/

/-- Every valid signature over the root is by a registered validator, for the chain and height. -/
def OwnSigned (consensus : ConsensusManager) (pool : List StateAttestation) (chain : String)
    (height : Nat) (root : String) : Prop :=
  ∀ att ∈ pool, att.stateRoot = root → verifyAttestation X att = true →
    att.validatorPubkey ∈ consensus.knownValidators ∧ att.chain = chain ∧ att.blockHeight = height

variable {X} {consensus : ConsensusManager} {message : StateRelayMessage}
  {pool : List StateAttestation} {chain root : String} {height : Nat}

/-- What the checks establish: the root leads among the counted signatures, and has enough. -/
theorem passes_iff : passes X consensus message = true ↔
    consensus.getValidatorCount ≠ 0 ∧
    (consensus.getValidatorCount * 2 + 2) / 3 ≤
      (Quorum.votesFor (·.stateRoot) message.stateRoot (countedSignatures X message)).length ∧
    ∀ root, toLex ((Quorum.votesFor (·.stateRoot) root
        (countedSignatures X message)).length, root) ≤
      toLex ((Quorum.votesFor (·.stateRoot) message.stateRoot
        (countedSignatures X message)).length, message.stateRoot) := by
  unfold passes
  dsimp only
  split
  · rename_i hzero
    simp [hzero]
  rename_i hn
  cases hwinner : Quorum.plurality (·.stateRoot) (countedSignatures X message) with
  | none =>
    -- without votes there is no quorum, as it is at least one
    rw [Quorum.plurality_eq_none.mp hwinner]
    simp only [Bool.false_eq_true, Quorum.votesFor, List.filter_nil, List.length_nil, false_iff]
    omega
  | some winner =>
    obtain ⟨root, supporting⟩ := winner
    simp only [decide_eq_true_eq]
    constructor
    · rintro ⟨rfl, hcount⟩
      have hvotes := (Quorum.plurality_eq_some_iff.mp hwinner).2.1
      exact ⟨hn, hvotes ▸ hcount, hvotes ▸ Quorum.plurality_leads hwinner⟩
    · rintro ⟨-, hcount, hleads⟩
      have hwins := Quorum.plurality_of_leads (by omega) hleads
      rw [hwinner, Option.some.injEq, Prod.mk.injEq] at hwins
      exact ⟨hwins.1, hwins.2 ▸ hcount⟩

theorem countedFor_nodup : ((Quorum.votesFor (·.stateRoot) root
    (countedSignatures X message)).map (·.validatorPubkey)).Nodup :=
  Quorum.firstVotes_nodup.sublist (List.filter_sublist.map _)

theorem mem_countedFor {att : StateAttestation}
    (h : att ∈ Quorum.votesFor (·.stateRoot) root (countedSignatures X message)) :
    att ∈ message.attestations ∧ att.stateRoot = root ∧ verifyAttestation X att = true := by
  obtain ⟨hcounted, hroot⟩ := Quorum.mem_votesFor.mp h
  obtain ⟨hmem, hvalid, -⟩ := Quorum.mem_firstVotes hcounted
  exact ⟨hmem, hroot, hvalid⟩

/-- Signatures of registered validators for the block of the message are a quorum if they pass. -/
theorem vouched_of_passes
    (hown : OwnSigned X consensus message.attestations message.sourceChain message.blockHeight
      message.stateRoot) (hpasses : passes X consensus message = true) :
    Vouched X consensus message.attestations message.sourceChain message.blockHeight
      message.stateRoot := by
  obtain ⟨-, hcount, -⟩ := passes_iff.mp hpasses
  refine ⟨((Quorum.votesFor (·.stateRoot) message.stateRoot
    (countedSignatures X message)).map (·.validatorPubkey)).toFinset, ?_, fun v hv ↦ ?_⟩
  · rw [List.toFinset_card_of_nodup countedFor_nodup, List.length_map]
    exact hcount
  · obtain ⟨att, hatt, rfl⟩ := List.mem_map.mp (List.mem_toFinset.mp hv)
    obtain ⟨hmem, hroot, hvalid⟩ := mem_countedFor hatt
    obtain ⟨hknown, hchain, hheight⟩ := hown att hmem hroot hvalid
    exact ⟨hknown, att, hmem, rfl, hchain, hheight, hroot, hvalid⟩

/-- The messages that the relay creates itself. -/
theorem createRelayMessage_ownSigned {store : StateStore} (hm : consensus.WellKept X)
    (h : createRelayMessage store consensus chain height = .ok message) :
    OwnSigned X consensus message.attestations message.sourceChain message.blockHeight
      message.stateRoot := by
  unfold createRelayMessage at h
  cases hblock : store.blocks[blockKey chain height]? with
  | none => simp [hblock] at h
  | some block =>
    rw [hblock] at h
    cases h
    intro att hatt _ _
    exact ⟨(hm.admitted chain height att hatt).2, hm.placed chain height att hatt⟩

inductive RelayCall where
  | relay (message : StateRelayMessage) (destChain : String) (now relayedAt : Int)
  | verify (recordId : String) (now : Int)

def call (X : Crates) (consensus : ConsensusManager) (relay : StateRelay) : RelayCall → StateRelay
  | .relay message destChain now relayedAt =>
      (relay.relayToChain message destChain now relayedAt).1
  | .verify recordId now =>
      match verifyRelay X relay consensus recordId now with
      | .ok (relay', _) => relay'
      | .error _ => relay

def run (X : Crates) (consensus : ConsensusManager) (relay : StateRelay) (calls : List RelayCall) :
    StateRelay := calls.foldl (call X consensus) relay

/-- Records are marked as verified by the checks only. -/
def Judged (X : Crates) (consensus : ConsensusManager) (relay : StateRelay) : Prop :=
  ∀ id record, relay.records id = some record → record.status = .verified →
    passes X consensus record.message = true

theorem Judged.insert {relay : StateRelay} (h : relay.Judged X consensus) {id : String}
    {record : RelayRecord}
    (hnew : record.status = .verified → passes X consensus record.message = true) :
    (relay.insert id record).Judged X consensus := by
  intro id' record' hrecord' hverified
  simp only [StateRelay.insert] at hrecord'
  split at hrecord'
  · cases hrecord'
    exact hnew hverified
  · exact h id' record' hrecord' hverified

theorem Judged.call {relay : StateRelay} (h : relay.Judged X consensus) (c : RelayCall) :
    (relay.call X consensus c).Judged X consensus := by
  cases c with
  | relay message destChain now relayedAt =>
    exact h.insert fun hverified ↦ by cases hverified
  | verify recordId now =>
    cases hrecord : relay.records recordId with
    | none => simpa [StateRelay.call, verifyRelay, hrecord] using h
    | some record =>
      simp only [StateRelay.call, verifyRelay, hrecord]
      refine h.insert fun hverified ↦ ?_
      cases hpasses : passes X consensus record.message <;> simp [hpasses] at hverified ⊢

/-- In every state that the relay reaches, verified records of messages without foreign signatures
have a registered quorum. -/
theorem run_vouched (calls : List RelayCall) {id : String} {record : RelayRecord}
    (hrecord : (new.run X consensus calls).records id = some record)
    (hverified : record.status = .verified)
    (hown : OwnSigned X consensus record.message.attestations record.message.sourceChain
      record.message.blockHeight record.message.stateRoot) :
    Vouched X consensus record.message.attestations record.message.sourceChain
      record.message.blockHeight record.message.stateRoot := by
  have hjudged : (new.run X consensus calls).Judged X consensus :=
    List.foldlRecOn calls (StateRelay.call X consensus) (fun _ _ h ↦ by cases h)
      fun relay h c _ ↦ Judged.call h c
  exact vouched_of_passes hown (hjudged id record hrecord hverified)

end StateRelay

end UtxoVm
