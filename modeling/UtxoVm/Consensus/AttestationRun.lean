import UtxoVm.Consensus.Quorum

/-!
# Runs of the consensus manager

Any sequence of registrations and attestations.  One spec lemma says what `add_attestation` can do;
from it come what the table holds, and that conflicting signatures always leave a proof.
-/

namespace UtxoVm

open RustStd

inductive ConsensusCall where
  | register (pubkeyHex : String)
  | add (att : StateAttestation) (now : Int)

/-- What an accepted proof shows, in full. -/
theorem verifyEquivocationProof_iff {X : Crates} {p : EquivocationProof} :
    verifyEquivocationProof X p = true ↔
      (p.firstAttestation.validatorPubkey = p.validatorPubkey ∧
        p.secondAttestation.validatorPubkey = p.validatorPubkey) ∧
      (p.firstAttestation.chain = p.chain ∧ p.secondAttestation.chain = p.chain ∧
        p.firstAttestation.blockHeight = p.blockHeight ∧
        p.secondAttestation.blockHeight = p.blockHeight) ∧
      p.firstAttestation.stateRoot ≠ p.secondAttestation.stateRoot ∧
      verifyAttestationSig X p.validatorPubkey p.firstAttestation = true ∧
      verifyAttestationSig X p.validatorPubkey p.secondAttestation = true := by
  simp only [verifyEquivocationProof]
  by_cases hkeys : p.firstAttestation.validatorPubkey = p.validatorPubkey ∧
      p.secondAttestation.validatorPubkey = p.validatorPubkey
  swap
  · rw [if_pos (by tauto)]
    simp [hkeys]
  by_cases hplace : p.firstAttestation.chain = p.chain ∧ p.secondAttestation.chain = p.chain ∧
      p.firstAttestation.blockHeight = p.blockHeight ∧
      p.secondAttestation.blockHeight = p.blockHeight
  swap
  · rw [if_neg (by tauto), if_pos (by tauto)]
    simp [hplace]
  rw [if_neg (by tauto), if_neg (by tauto)]
  by_cases hroots : p.firstAttestation.stateRoot = p.secondAttestation.stateRoot
  · simp [hroots]
  · simp [hkeys, hplace, hroots]

namespace ConsensusManager

variable (X : Crates)

def call (m : ConsensusManager) : ConsensusCall → ConsensusManager
  | .register pubkeyHex => m.registerValidator pubkeyHex
  | .add att now => (addAttestation X m att now).1

def run (calls : List ConsensusCall) (m : ConsensusManager) : ConsensusManager :=
  calls.foldl (call X) m

/-- Attestations, each with the time at which it arrives. -/
def submit (submitted : List (StateAttestation × Int)) : List ConsensusCall :=
  submitted.map fun s ↦ .add s.1 s.2

/-! ## 1. What one attestation does -/

/-- Signed by the validator that it names, which is registered. -/
def Admits (m : ConsensusManager) (att : StateAttestation) : Prop :=
  verifyAttestation X att = true ∧ att.validatorPubkey ∈ m.knownValidators

def enter (m : ConsensusManager) (att : StateAttestation) : ConsensusManager :=
  { m with
    attestations := fun chain height ↦
      if chain = att.chain ∧ height = att.blockHeight then
        m.attestations att.chain att.blockHeight ++ [att]
      else m.attestations chain height }

def accuse (m : ConsensusManager) (first second : StateAttestation) (now : Int) :
    ConsensusManager :=
  { m with
    slashingProofs := m.slashingProofs ++
      [{ chain := second.chain, blockHeight := second.blockHeight
         validatorPubkey := second.validatorPubkey
         firstAttestation := first, secondAttestation := second, detectedAt := now }] }

/-- The four ways in which `add_attestation` ends. -/
inductive Adds (m : ConsensusManager) (att : StateAttestation) (now : Int) :
    ConsensusManager → Prop
  | rejected : ¬ m.Admits X att → Adds m att now m
  | entered : m.Admits X att →
      (∀ a ∈ m.attestations att.chain att.blockHeight,
        a.validatorPubkey ≠ att.validatorPubkey) → Adds m att now (m.enter att)
  | repeated {first : StateAttestation} : m.Admits X att →
      first ∈ m.attestations att.chain att.blockHeight →
      first.validatorPubkey = att.validatorPubkey → first.stateRoot = att.stateRoot →
      Adds m att now m
  | accused {first : StateAttestation} : m.Admits X att →
      first ∈ m.attestations att.chain att.blockHeight →
      first.validatorPubkey = att.validatorPubkey → first.stateRoot ≠ att.stateRoot →
      Adds m att now (m.accuse first att now)

theorem adds_addAttestation (m : ConsensusManager) (att : StateAttestation) (now : Int) :
    Adds X m att now (addAttestation X m att now).1 := by
  unfold addAttestation
  by_cases hvalid : verifyAttestation X att = false
  · rw [if_pos hvalid]
    exact .rejected fun h ↦ absurd (hvalid.symm.trans h.1) (by simp)
  rw [if_neg hvalid]
  by_cases hempty : m.knownValidators.isEmpty = true
  · rw [if_pos hempty]
    refine .rejected fun h ↦ ?_
    have hmem := h.2
    rw [List.isEmpty_iff.mp hempty] at hmem
    cases hmem
  rw [if_neg hempty]
  by_cases hknown : att.validatorPubkey ∈ m.knownValidators
  swap
  · rw [if_pos hknown]
    exact .rejected fun h ↦ hknown h.2
  rw [if_neg (not_not.mpr hknown)]
  have hadmits : m.Admits X att := ⟨by simpa using hvalid, hknown⟩
  dsimp only
  cases hfind : (m.attestations att.chain att.blockHeight).find?
      (·.validatorPubkey == att.validatorPubkey) with
  | none =>
    refine .entered hadmits fun a ha ↦ ?_
    have hne := List.find?_eq_none.mp hfind a ha
    simpa using hne
  | some first =>
    have hmem := List.mem_of_find?_eq_some hfind
    have hsame : first.validatorPubkey = att.validatorPubkey := by
      simpa using List.find?_some hfind
    dsimp only
    by_cases hroot : first.stateRoot = att.stateRoot
    · rw [if_neg (not_not.mpr hroot)]
      exact .repeated hadmits hmem hsame hroot
    · rw [if_pos hroot]
      exact .accused hadmits hmem hsame hroot

/-! ## 2. What the manager holds after any run -/

/-- Every stored attestation is signed by a registered validator for the key under which it is
stored, no validator has two, and every proof verifies. -/
structure WellKept (m : ConsensusManager) : Prop where
  distinct : m.knownValidators.Nodup
  admitted : ∀ chain height, ∀ a ∈ m.attestations chain height, m.Admits X a
  placed : ∀ chain height, ∀ a ∈ m.attestations chain height,
    a.chain = chain ∧ a.blockHeight = height
  once : ∀ chain height, ((m.attestations chain height).map (·.validatorPubkey)).Nodup
  proven : ∀ p ∈ m.slashingProofs, verifyEquivocationProof X p = true

variable {X} {m m' : ConsensusManager} {att : StateAttestation} {now : Int}

theorem enter_attestations (m : ConsensusManager) (att : StateAttestation) (chain : String)
    (height : Nat) : (m.enter att).attestations chain height =
      if chain = att.chain ∧ height = att.blockHeight then m.attestations chain height ++ [att]
      else m.attestations chain height := by
  show (if _ then _ else _) = _
  split
  · rename_i hkey
    rw [hkey.1, hkey.2]
  · rfl

theorem new_wellKept (threshold : Nat) : (new threshold).WellKept X := by
  constructor <;> simp [new]

theorem WellKept.registerValidator (h : m.WellKept X) (pubkeyHex : String) :
    (m.registerValidator pubkeyHex).WellKept X :=
  { distinct := h.distinct.insert
    admitted := fun chain height a ha ↦
      ⟨(h.admitted chain height a ha).1, List.mem_insert_of_mem (h.admitted chain height a ha).2⟩
    placed := h.placed
    once := h.once
    proven := h.proven }

theorem WellKept.enter (h : m.WellKept X) (hadmits : m.Admits X att)
    (hfirst : ∀ a ∈ m.attestations att.chain att.blockHeight,
      a.validatorPubkey ≠ att.validatorPubkey) : (m.enter att).WellKept X := by
  have hmem (chain : String) (height : Nat) (a : StateAttestation)
      (ha : a ∈ (m.enter att).attestations chain height) :
      a ∈ m.attestations chain height ∨ a = att ∧ chain = att.chain ∧ height = att.blockHeight := by
    rw [enter_attestations] at ha
    split at ha
    · rename_i hkey
      rcases List.mem_append.mp ha with hold | hnew
      · exact .inl hold
      · exact .inr ⟨List.mem_singleton.mp hnew, hkey⟩
    · exact .inl ha
  refine { distinct := h.distinct, admitted := ?_, placed := ?_, once := ?_, proven := h.proven }
  · intro chain height a ha
    rcases hmem chain height a ha with hold | ⟨rfl, -⟩
    · exact h.admitted chain height a hold
    · exact hadmits
  · intro chain height a ha
    rcases hmem chain height a ha with hold | ⟨rfl, hchain, hheight⟩
    · exact h.placed chain height a hold
    · exact ⟨hchain.symm, hheight.symm⟩
  · intro chain height
    rw [enter_attestations]
    split
    · rename_i hkey
      rw [List.map_append, List.map_singleton, List.nodup_append]
      refine ⟨h.once chain height, List.nodup_singleton _, fun v hv w hw ↦ ?_⟩
      obtain ⟨a, ha, rfl⟩ := List.mem_map.mp hv
      rw [List.mem_singleton.mp hw]
      rw [hkey.1, hkey.2] at ha
      exact hfirst a ha
    · exact h.once chain height

theorem WellKept.accuse (h : m.WellKept X) {first : StateAttestation} (hadmits : m.Admits X att)
    (hmem : first ∈ m.attestations att.chain att.blockHeight)
    (hsame : first.validatorPubkey = att.validatorPubkey) (hroot : first.stateRoot ≠ att.stateRoot)
    (now : Int) : (m.accuse first att now).WellKept X := by
  refine { distinct := h.distinct, admitted := h.admitted, placed := h.placed, once := h.once,
           proven := fun p hp ↦ ?_ }
  rcases List.mem_append.mp hp with hold | hnew
  · exact h.proven p hold
  · rw [List.mem_singleton.mp hnew, verifyEquivocationProof_iff]
    obtain ⟨hchain, hheight⟩ := h.placed _ _ first hmem
    have hsig := (h.admitted _ _ first hmem).1
    unfold verifyAttestation at hsig
    rw [hsame] at hsig
    exact ⟨⟨hsame, rfl⟩, ⟨hchain, rfl, hheight, rfl⟩, hroot, hsig, hadmits.1⟩

theorem WellKept.call (h : m.WellKept X) (c : ConsensusCall) : (m.call X c).WellKept X := by
  cases c with
  | register pubkeyHex => exact h.registerValidator pubkeyHex
  | add att now =>
    have hadds := adds_addAttestation X m att now
    show (addAttestation X m att now).1.WellKept X
    generalize (addAttestation X m att now).1 = m' at hadds ⊢
    cases hadds with
    | rejected => exact h
    | entered hadmits hfirst => exact h.enter hadmits hfirst
    | repeated => exact h
    | accused hadmits hmem hsame hroot => exact h.accuse hadmits hmem hsame hroot now

theorem WellKept.run (h : m.WellKept X) (calls : List ConsensusCall) :
    (m.run X calls).WellKept X := by
  induction calls generalizing m with
  | nil => exact h
  | cons c calls ih => exact ih (h.call c)

/-! ## 3. Nothing is forgotten -/

/-- Attestations and proofs are only ever added. -/
structure Extends (m m' : ConsensusManager) : Prop where
  attestations : ∀ chain height, m.attestations chain height <+: m'.attestations chain height
  slashingProofs : m.slashingProofs <+: m'.slashingProofs
  knownValidators : m.knownValidators ⊆ m'.knownValidators

theorem Extends.refl (m : ConsensusManager) : Extends m m :=
  ⟨fun _ _ ↦ List.prefix_rfl, List.prefix_rfl, List.Subset.refl _⟩

theorem Extends.trans {m₁ m₂ m₃ : ConsensusManager} (h : Extends m₁ m₂) (h' : Extends m₂ m₃) :
    Extends m₁ m₃ :=
  ⟨fun chain height ↦ (h.attestations chain height).trans (h'.attestations chain height),
    h.slashingProofs.trans h'.slashingProofs,
    List.Subset.trans h.knownValidators h'.knownValidators⟩

theorem extends_call (m : ConsensusManager) (c : ConsensusCall) : Extends m (m.call X c) := by
  cases c with
  | register pubkeyHex =>
    exact ⟨fun _ _ ↦ List.prefix_rfl, List.prefix_rfl, fun v hv ↦ List.mem_insert_of_mem hv⟩
  | add att now =>
    have hadds := adds_addAttestation X m att now
    show Extends m (addAttestation X m att now).1
    generalize (addAttestation X m att now).1 = m' at hadds ⊢
    cases hadds with
    | rejected => exact Extends.refl m
    | entered =>
      refine ⟨fun chain height ↦ ?_, List.prefix_rfl, List.Subset.refl _⟩
      rw [enter_attestations]
      split
      · exact List.prefix_append _ _
      · exact List.prefix_rfl
    | repeated => exact Extends.refl m
    | accused => exact ⟨fun _ _ ↦ List.prefix_rfl, List.prefix_append _ _, List.Subset.refl _⟩

theorem extends_run (m : ConsensusManager) (calls : List ConsensusCall) :
    Extends m (m.run X calls) := by
  induction calls generalizing m with
  | nil => exact Extends.refl m
  | cons c calls ih => exact (extends_call m c).trans (ih _)

/-- A proof names the validator, for this chain and height. -/
def Accuses (m : ConsensusManager) (validator chain : String) (height : Nat) : Prop :=
  ∃ p ∈ m.slashingProofs, p.validatorPubkey = validator ∧ p.chain = chain ∧ p.blockHeight = height

/-- The validator's first attestation for the key is stored, and one with another root has been
noticed. -/
def Noticed (m : ConsensusManager) (att : StateAttestation) : Prop :=
  ∃ first ∈ m.attestations att.chain att.blockHeight,
    first.validatorPubkey = att.validatorPubkey ∧
      (first.stateRoot ≠ att.stateRoot →
        m.Accuses att.validatorPubkey att.chain att.blockHeight)

theorem Noticed.extends (h : m.Noticed att) (hext : Extends m m') : m'.Noticed att := by
  obtain ⟨first, hmem, hsame, haccuses⟩ := h
  refine ⟨first, (hext.attestations _ _).subset hmem, hsame, fun hroot ↦ ?_⟩
  obtain ⟨p, hp, hnames⟩ := haccuses hroot
  exact ⟨p, hext.slashingProofs.subset hp, hnames⟩

theorem noticed_call (hadmits : m.Admits X att) (now : Int) :
    (m.call X (.add att now)).Noticed att := by
  have hadds := adds_addAttestation X m att now
  show (addAttestation X m att now).1.Noticed att
  generalize (addAttestation X m att now).1 = m' at hadds ⊢
  cases hadds with
  | rejected hnot => exact absurd hadmits hnot
  | entered =>
    refine ⟨att, ?_, rfl, fun hne ↦ absurd rfl hne⟩
    rw [enter_attestations, if_pos ⟨rfl, rfl⟩]
    exact List.mem_append_right _ List.mem_cons_self
  | repeated _ hmem hsame hroot => exact ⟨_, hmem, hsame, fun hne ↦ absurd hroot hne⟩
  | accused _ hmem hsame hroot =>
    exact ⟨_, hmem, hsame, fun _ ↦ ⟨_, List.mem_append_right _ List.mem_cons_self, rfl, rfl, rfl⟩⟩

theorem noticed_run {calls : List ConsensusCall} (hsubmitted : .add att now ∈ calls)
    (hadmits : m.Admits X att) : (m.run X calls).Noticed att := by
  induction calls generalizing m with
  | nil => cases hsubmitted
  | cons c calls ih =>
    rcases List.mem_cons.mp hsubmitted with rfl | hlater
    · exact (noticed_call hadmits now).extends (extends_run _ calls)
    · exact ih hlater ⟨hadmits.1, (extends_call m c).knownValidators hadmits.2⟩

/-- Of two noticed attestations with different roots one differs from the stored one. -/
theorem Noticed.accuses {a b : StateAttestation} (hm : m.WellKept X) (ha : m.Noticed a)
    (hb : m.Noticed b) (hsame : a.validatorPubkey = b.validatorPubkey) (hchain : a.chain = b.chain)
    (hheight : a.blockHeight = b.blockHeight) (hroots : a.stateRoot ≠ b.stateRoot) :
    m.Accuses a.validatorPubkey a.chain a.blockHeight := by
  obtain ⟨first, hmem, hkey, haccuses⟩ := ha
  obtain ⟨first', hmem', hkey', haccuses'⟩ := hb
  rw [← hsame, ← hchain, ← hheight] at haccuses'
  rw [← hchain, ← hheight] at hmem'
  have heq : first = first' := List.inj_on_of_nodup_map (hm.once _ _) hmem hmem'
    (hkey.trans (hsame.trans hkey'.symm))
  by_cases hroot : first.stateRoot = a.stateRoot
  · apply haccuses'
    rw [← heq, hroot]
    exact hroots
  · exact haccuses hroot

/-- A first attestation of its validator for the key is accepted. -/
theorem call_enter (hadmits : m.Admits X att)
    (hfirst : ∀ a ∈ m.attestations att.chain att.blockHeight,
      a.validatorPubkey ≠ att.validatorPubkey) (now : Int) :
    m.call X (.add att now) = m.enter att := by
  have hadds := adds_addAttestation X m att now
  show (addAttestation X m att now).1 = _
  generalize (addAttestation X m att now).1 = m' at hadds ⊢
  cases hadds with
  | rejected hnot => exact absurd hadmits hnot
  | entered => rfl
  | repeated _ hmem hsame => exact absurd hsame (hfirst _ hmem)
  | accused _ hmem hsame => exact absurd hsame (hfirst _ hmem)

theorem run_append (m : ConsensusManager) (calls calls' : List ConsensusCall) :
    m.run X (calls ++ calls') = (m.run X calls).run X calls' := List.foldl_append

/-- Attestations do not change the validators. -/
theorem run_submit (m : ConsensusManager) (submitted : List (StateAttestation × Int)) :
    (m.run X (submit submitted)).knownValidators = m.knownValidators ∧
      (m.run X (submit submitted)).quorumThreshold = m.quorumThreshold := by
  induction submitted generalizing m with
  | nil => exact ⟨rfl, rfl⟩
  | cons s submitted ih =>
    have hadds := adds_addAttestation X m s.1 s.2
    show ((addAttestation X m s.1 s.2).1.run X (submit submitted)).knownValidators = _ ∧
      ((addAttestation X m s.1 s.2).1.run X (submit submitted)).quorumThreshold = _
    rw [(ih _).1, (ih _).2]
    generalize (addAttestation X m s.1 s.2).1 = m' at hadds ⊢
    cases hadds <;> exact ⟨rfl, rfl⟩

/-- Attestations of different validators for one key are all accepted, and kept in the order in
which they arrive. -/
theorem accepted_in_order {chain : String} {height : Nat}
    {submitted : List (StateAttestation × Int)} (hadmits : ∀ s ∈ submitted, m.Admits X s.1)
    (hkey : ∀ s ∈ submitted, s.1.chain = chain ∧ s.1.blockHeight = height)
    (honce : ((m.attestations chain height ++ submitted.map (·.1)).map
      (·.validatorPubkey)).Nodup) :
    (m.run X (submit submitted)).attestations chain height =
      m.attestations chain height ++ submitted.map (·.1) := by
  induction submitted generalizing m with
  | nil => exact (List.append_nil _).symm
  | cons s submitted ih =>
    obtain ⟨hchain, hheight⟩ := hkey s List.mem_cons_self
    have hcall : m.call X (.add s.1 s.2) = m.enter s.1 := by
      refine call_enter (hadmits s List.mem_cons_self) (fun a ha heq ↦ ?_) s.2
      rw [hchain, hheight] at ha
      rw [List.map_append, List.nodup_append] at honce
      exact honce.2.2 _ (List.mem_map.mpr ⟨a, ha, rfl⟩) _
        (List.mem_map.mpr ⟨s.1, List.mem_cons_self, rfl⟩) heq
    have hentered : (m.enter s.1).attestations chain height =
        m.attestations chain height ++ [s.1] := by
      rw [enter_attestations, if_pos ⟨hchain.symm, hheight.symm⟩]
    show ((m.call X (.add s.1 s.2)).run X (submit submitted)).attestations chain height = _
    rw [hcall, ih, hentered, List.append_assoc]
    · rfl
    · exact fun a ha ↦ hadmits a (List.mem_cons_of_mem _ ha)
    · exact fun a ha ↦ hkey a (List.mem_cons_of_mem _ ha)
    · rw [hentered, List.append_assoc]
      exact honce

end ConsensusManager

open ConsensusManager

/-- A manager with a fixed set of validators and nothing else. -/
def registered (X : Crates) (threshold : Nat) (validators : List String) : ConsensusManager :=
  (new threshold).run X (validators.map .register)

theorem mem_registered {X : Crates} {threshold : Nat} {validators : List String} {v : String}
    (hv : v ∈ validators) : v ∈ (registered X threshold validators).knownValidators := by
  unfold registered
  generalize new threshold = m
  induction validators generalizing m with
  | nil => cases hv
  | cons w validators ih =>
    rcases List.mem_cons.mp hv with rfl | hv
    · exact (extends_run (m.registerValidator v) _).knownValidators List.mem_insert_self
    · exact ih hv _

theorem registered_attestations (X : Crates) (threshold : Nat) (validators : List String)
    (chain : String) (height : Nat) :
    (registered X threshold validators).attestations chain height = [] := by
  have hkeeps (m : ConsensusManager) :
      (m.run X (validators.map .register)).attestations = m.attestations := by
    induction validators generalizing m with
    | nil => rfl
    | cons v validators ih => exact ih (m.registerValidator v)
  exact congrFun (congrFun (hkeeps (new threshold)) chain) height

theorem registered_wellKept (X : Crates) (threshold : Nat) (validators : List String) :
    (registered X threshold validators).WellKept X := (new_wellKept threshold).run _

/-- Two submitted signatures of a registered validator over different roots. -/
theorem registered_accuses {X : Crates} {threshold : Nat} {validators : List String}
    {submitted : List (StateAttestation × Int)} {a b : StateAttestation} {now now' : Int}
    (ha : (a, now) ∈ submitted) (hb : (b, now') ∈ submitted) (hvalid : verifyAttestation X a = true)
    (hvalid' : verifyAttestation X b = true) (hregistered : a.validatorPubkey ∈ validators)
    (hsame : a.validatorPubkey = b.validatorPubkey) (hchain : a.chain = b.chain)
    (hheight : a.blockHeight = b.blockHeight) (hroots : a.stateRoot ≠ b.stateRoot) :
    ((registered X threshold validators).run X (submit submitted)).Accuses a.validatorPubkey
      a.chain a.blockHeight := by
  have hm := (registered_wellKept X threshold validators).run (submit submitted)
  have hknown : a.validatorPubkey ∈ (registered X threshold validators).knownValidators :=
    mem_registered hregistered
  have hnoticed : ((registered X threshold validators).run X (submit submitted)).Noticed a :=
    noticed_run (List.mem_map.mpr ⟨(a, now), ha, rfl⟩) ⟨hvalid, hknown⟩
  have hnoticed' : ((registered X threshold validators).run X (submit submitted)).Noticed b :=
    noticed_run (List.mem_map.mpr ⟨(b, now'), hb, rfl⟩) ⟨hvalid', hsame ▸ hknown⟩
  exact hnoticed.accuses hm hnoticed' hsame hchain hheight hroots

/-- **Equivocation detection is sound and complete.**  Whatever is submitted in whatever order,
every recorded proof verifies, and two valid signatures of a registered validator over different
roots for one chain and height leave a proof that names it. -/
theorem equivocations_detected (X : Crates) (threshold : Nat) (validators : List String)
    (submitted : List (StateAttestation × Int)) :
    let m := (registered X threshold validators).run X (submit submitted)
    (∀ p ∈ m.slashingProofs, verifyEquivocationProof X p = true) ∧
      ∀ a b now now', (a, now) ∈ submitted → (b, now') ∈ submitted →
        verifyAttestation X a = true → verifyAttestation X b = true →
        a.validatorPubkey ∈ validators → a.validatorPubkey = b.validatorPubkey →
        a.chain = b.chain → a.blockHeight = b.blockHeight → a.stateRoot ≠ b.stateRoot →
        m.Accuses a.validatorPubkey a.chain a.blockHeight := by
  refine ⟨((registered_wellKept X threshold validators).run _).proven, ?_⟩
  intro a b now now' ha hb hvalid hvalid' hregistered hsame hchain hheight hroots
  exact registered_accuses ha hb hvalid hvalid' hregistered hsame hchain hheight hroots

/-- An attestation of the validator whose key is 32 times the byte `key`. -/
def demoAttestation (key : UInt8) (blockHash stateRoot : String) : StateAttestation :=
  signStateRoot demoCrates (List.replicate 32 key) [] "JKC" 5 blockHash stateRoot 0

def demoValidator (key : UInt8) : String := hexEncode (List.replicate 32 key)

theorem demoAttestation_valid (key : UInt8) (blockHash stateRoot : String) :
    verifyAttestation demoCrates (demoAttestation key blockHash stateRoot) = true := by
  unfold verifyAttestation verifyAttestationSig demoAttestation signStateRoot
  simp [hexDecode_hexEncode, demoCrates]

theorem demoAttestation_key (key : UInt8) (blockHash stateRoot : String) :
    (demoAttestation key blockHash stateRoot).validatorPubkey = demoValidator key := rfl

theorem demoValidator_inj {key key' : UInt8} :
    demoValidator key = demoValidator key' ↔ key = key' := by
  constructor
  · intro h
    have hkeys := hexEncode_injective h
    exact (List.replicate_inj.mp hkeys).2.resolve_left (by decide)
  · intro h
    rw [h]

/-- The conflicting signature arrives first, and once more at the end. -/
theorem equivocations_detected_pair :
    ((registered demoCrates 1 [demoValidator 1]).run demoCrates
      (submit [(demoAttestation 1 "b" "r2", 7), (demoAttestation 1 "b" "r1", 8),
        (demoAttestation 1 "b" "r2", 9)])).Accuses
      (demoValidator 1) "JKC" 5 :=
  (equivocations_detected demoCrates 1 [demoValidator 1] _).2 (demoAttestation 1 "b" "r1")
    (demoAttestation 1 "b" "r2") 8 9 (by simp) (by simp) (demoAttestation_valid 1 "b" "r1")
    (demoAttestation_valid 1 "b" "r2") List.mem_cons_self rfl rfl rfl (by decide)

end UtxoVm
