import UtxoVm.Sdk.LightLineage

/-!
# What the light client's check of a lineage shows

Every transaction of an accepted history spends the seal of the step before it.  That the new seal
of a step is an output of the step's own transaction is not checked: it holds of the seals that name
their own transaction.
-/

namespace UtxoVm

open RustStd

/-! ## 1. The chain -/

/-- A transaction on L1: the outputs that it spends, and how many it makes. -/
structure L1Tx where
  inputs : List (String × UInt32)
  outputs : UInt32

/-- The transactions on L1 by their ids.  Whoever spends a transaction spends one of its outputs. -/
structure L1 where
  tx : String → Option L1Tx
  spends_output : ∀ {txid t input parent}, tx txid = some t → input ∈ t.inputs →
    tx input.1 = some parent → input.2 < parent.outputs

/-- The inputs as the chain's API shows them: its `prevout` names no outpoint. -/
def L1Tx.vin (t : L1Tx) : List FetchedInput :=
  t.inputs.map fun input ↦ ⟨some input.1, some input.2.toNat, none, none⟩

/-- What is fetched is the true transaction. -/
def FetchesFrom (chain : L1) (fetchTx : String → Except String (List FetchedInput)) : Prop :=
  ∀ txid vin, fetchTx txid = .ok vin → ∃ t, chain.tx txid = some t ∧ vin = t.vin

/-- The outpoint that a seal names, as the verifier reads it. -/
def sealOutpoint (sealRef : String) : Option (String × Int) :=
  (splitOn sealRef ':')[0]?.bind fun txid ↦
    ((splitOn sealRef ':')[1]?.bind parseInt10).map fun vout ↦ (txid, vout)

/-- The transaction that a seal names. -/
def sealTxid (sealRef : String) : Option String := (splitOn sealRef ':')[0]?

namespace L1

variable (chain : L1)

/-- The transaction spends the seal. -/
def Spends (txid sealRef : String) : Prop :=
  ∃ t, chain.tx txid = some t ∧
    ∃ input ∈ t.inputs, sealOutpoint sealRef = some (input.1, (input.2.toNat : Int))

/-- The seal is an output of the transaction. -/
def Makes (txid sealRef : String) : Prop :=
  ∃ t, chain.tx txid = some t ∧
    ∃ vout < t.outputs, sealOutpoint sealRef = some (txid, (vout.toNat : Int))

/-- A chain of spends leads from one seal to the other. -/
def Descends : String → String → Prop :=
  Relation.ReflTransGen fun parent child ↦
    ∃ txid, chain.Spends txid parent ∧ chain.Makes txid child

/-- Every step's transaction spends the previous seal. -/
def SpendsPrevious : String → List LineageTransition → Prop
  | _, [] => True
  | previous, step :: rest => chain.Spends step.txid previous ∧ SpendsPrevious step.newSeal rest

/-- Every step's transaction spends the previous seal and makes the new one. -/
def StepsSound : String → List LineageTransition → Prop
  | _, [] => True
  | previous, step :: rest =>
      chain.Spends step.txid previous ∧ chain.Makes step.txid step.newSeal ∧
        StepsSound step.newSeal rest

end L1

/-- The new seal of the last step. -/
def tipOf (first : String) : List LineageTransition → String
  | [] => first
  | step :: rest => tipOf step.newSeal rest

/-! ## 2. What the seals name -/

section

variable {chain : L1} {fetchTx : String → Except String (List FetchedInput)}
  {objectId genesisSeal first sealRef txid : String} {steps : List LineageTransition}

theorem sealTxid_of_sealOutpoint {vout : Int} (h : sealOutpoint sealRef = some (txid, vout)) :
    sealTxid sealRef = some txid := by
  unfold sealOutpoint at h
  unfold sealTxid
  obtain ⟨prevTxid, htxid, h⟩ := Option.bind_eq_some_iff.mp h
  obtain ⟨prevVout, -, heq⟩ := Option.map_eq_some_iff.mp h
  cases heq
  exact htxid

/-- The comparison with an input of a true transaction. -/
theorem spendsSeal_vin {t : L1Tx} (h : spendsSeal t.vin sealRef = true) :
    ∃ input ∈ t.inputs, sealOutpoint sealRef = some (input.1, (input.2.toNat : Int)) := by
  unfold spendsSeal at h
  unfold sealOutpoint
  dsimp only at h
  cases htxid : (splitOn sealRef ':')[0]? with
  | none =>
    rw [htxid] at h
    cases h
  | some prevTxid =>
    cases hvout : (splitOn sealRef ':')[1]?.bind parseInt10 with
    | none =>
      rw [htxid, hvout] at h
      cases h
    | some prevVout =>
      rw [htxid, hvout] at h
      obtain ⟨v, hv, hmatch⟩ := List.any_eq_true.mp h
      obtain ⟨input, hinput, rfl⟩ := List.mem_map.mp hv
      have hsame : input.1 = prevTxid ∧ (input.2.toNat : Int) = prevVout := by simpa using hmatch
      refine ⟨input, hinput, ?_⟩
      rw [hsame.1, hsame.2]
      rfl

theorem L1.Makes.sealTxid (h : chain.Makes txid sealRef) : sealTxid sealRef = some txid := by
  obtain ⟨t, -, vout, -, hseal⟩ := h
  exact sealTxid_of_sealOutpoint hseal

/-- A seal that is spent is an output of the transaction that it names. -/
theorem L1.Spends.makes {next : String} (hspends : chain.Spends next sealRef)
    (hname : UtxoVm.sealTxid sealRef = some txid) {t : L1Tx} (ht : chain.tx txid = some t) :
    chain.Makes txid sealRef := by
  obtain ⟨child, hchild, input, hinput, hseal⟩ := hspends
  have hnamed : input.1 = txid :=
    Option.some.inj ((sealTxid_of_sealOutpoint hseal).symm.trans hname)
  have hparent : chain.tx input.1 = some t := by rwa [hnamed]
  exact ⟨t, ht, input.2, chain.spends_output hchild hinput hparent, by rw [hseal, hnamed]⟩

/-! ## 3. What an accepted history shows -/

theorem verifySteps_verified (hfetch : FetchesFrom chain fetchTx) {i : Nat}
    (h : (verifySteps fetchTx objectId genesisSeal i first steps).verified = true) :
    chain.SpendsPrevious first steps ∧
      (verifySteps fetchTx objectId genesisSeal i first steps).genesisSeal = genesisSeal ∧
      (verifySteps fetchTx objectId genesisSeal i first steps).tipSeal = tipOf first steps := by
  induction steps generalizing i first with
  | nil => exact ⟨trivial, rfl, rfl⟩
  | cons step rest ih =>
    unfold verifySteps at h ⊢
    dsimp only at h ⊢
    -- the two ways to be rejected, and the step that goes on
    by_cases hconsumed : step.consumedSeal ≠ first
    · rw [if_pos hconsumed] at h
      cases h
    · rw [if_neg hconsumed] at h ⊢
      rw [ne_eq, not_not] at hconsumed
      cases hvin : fetchTx step.txid with
      | error message =>
        rw [hvin] at h
        cases h
      | ok vin =>
        rw [hvin] at h
        dsimp only at h ⊢
        by_cases hspent : spendsSeal vin step.consumedSeal = true
        · rw [if_pos hspent] at h ⊢
          obtain ⟨hrest, hgenesis, htip⟩ := ih h
          obtain ⟨t, ht, rfl⟩ := hfetch step.txid vin hvin
          refine ⟨⟨⟨t, ht, ?_⟩, hrest⟩, hgenesis, htip⟩
          rw [← hconsumed]
          exact spendsSeal_vin hspent
        · rw [if_neg hspent] at h
          cases h

/-- The seals that name their own transaction are its outputs: all but the last are spent by the
next step. -/
theorem L1.SpendsPrevious.sound (h : chain.SpendsPrevious first steps)
    (hown : ∀ step ∈ steps, UtxoVm.sealTxid step.newSeal = some step.txid)
    (htip : ∀ step, steps.getLast? = some step → chain.Makes step.txid step.newSeal) :
    chain.StepsSound first steps := by
  induction steps generalizing first with
  | nil => trivial
  | cons step rest ih =>
    obtain ⟨hspends, hrest⟩ := h
    rw [List.forall_mem_cons] at hown
    cases rest with
    | nil => exact ⟨hspends, htip step rfl, trivial⟩
    | cons next rest =>
      obtain ⟨t, ht, -⟩ := id hspends
      refine ⟨hspends, hrest.1.makes hown.1 ht, ih hrest hown.2 fun last hlast ↦ htip last ?_⟩
      rwa [List.getLast?_cons_cons]

theorem L1.StepsSound.makes (h : chain.StepsSound first steps) :
    ∀ step ∈ steps, chain.Makes step.txid step.newSeal := by
  induction steps generalizing first with
  | nil => exact fun step hstep ↦ absurd hstep List.not_mem_nil
  | cons step rest ih =>
    obtain ⟨-, hmakes, hrest⟩ := h
    exact List.forall_mem_cons.mpr ⟨hmakes, ih hrest⟩

theorem L1.StepsSound.descends (h : chain.StepsSound first steps) :
    chain.Descends first (tipOf first steps) := by
  induction steps generalizing first with
  | nil => exact .refl
  | cons step rest ih =>
    obtain ⟨hspends, hmakes, hrest⟩ := h
    exact .head ⟨step.txid, hspends, hmakes⟩ (ih hrest)

end

/-- **The light client does not look at the new seals.**  Where it accepts a history, every step
spends the previous seal and makes the next one, so that the tip descends from the genesis seal,
exactly if every new seal names the step's own transaction and the last one is one of its
outputs. -/
theorem light_lineage_sound_iff (chain : L1)
    (fetchTx : String → Except String (List FetchedInput)) (hfetch : FetchesFrom chain fetchTx)
    (objectId : String) (history : List LineageTransition)
    (hverified : (verifyObjectLineage fetchTx objectId history).verified = true) :
    (chain.StepsSound (verifyObjectLineage fetchTx objectId history).genesisSeal history.tail ∧
        chain.Descends (verifyObjectLineage fetchTx objectId history).genesisSeal
          (verifyObjectLineage fetchTx objectId history).tipSeal) ↔
      (∀ step ∈ history.tail, sealTxid step.newSeal = some step.txid) ∧
        ∀ step, history.tail.getLast? = some step → chain.Makes step.txid step.newSeal := by
  cases history with
  | nil => cases hverified
  | cons genesis steps =>
    obtain ⟨hspends, hgenesis, htip⟩ := verifySteps_verified hfetch hverified
    unfold verifyObjectLineage
    rw [hgenesis, htip, List.tail_cons]
    constructor
    · intro ⟨hsound, _⟩
      constructor
      · exact fun step hstep ↦ (hsound.makes step hstep).sealTxid
      · exact fun step hlast ↦ hsound.makes step (List.mem_of_getLast? hlast)
    · intro ⟨hown, hlast⟩
      have hsound := hspends.sound hown hlast
      exact ⟨hsound, hsound.descends⟩

/-- Two lineages: `a` spends `g:0`, and `b` spends `z:0`. -/
def demoL1Tx (txid : String) : Option L1Tx :=
  if txid = "a" then some ⟨[("g", 0)], 1⟩
  else if txid = "b" then some ⟨[("z", 0)], 1⟩
  else if txid = "g" ∨ txid = "z" then some ⟨[], 1⟩
  else none

theorem demoL1Tx_cases {txid : String} {t : L1Tx} (h : demoL1Tx txid = some t) :
    t.outputs = 1 ∧ ∀ input ∈ t.inputs,
      (txid = "a" ∧ input = ("g", 0)) ∨ (txid = "b" ∧ input = ("z", 0)) := by
  unfold demoL1Tx at h
  split at h
  · rename_i ha
    cases h
    simp [ha]
  · split at h
    · rename_i hb
      cases h
      simp [hb]
    · split at h
      · cases h
        simp
      · cases h

def demoL1 : L1 where
  tx := demoL1Tx
  spends_output := by
    intro txid t input parent ht hinput hparent
    rw [(demoL1Tx_cases hparent).1]
    rcases (demoL1Tx_cases ht).2 input hinput with ⟨-, rfl⟩ | ⟨-, rfl⟩ <;> decide

def demoFetch (txid : String) : Except String (List FetchedInput) :=
  match demoL1Tx txid with
  | some t => .ok t.vin
  | none => .error "404"

theorem demoFetch_true : FetchesFrom demoL1 demoFetch := by
  intro txid vin h
  unfold demoFetch at h
  cases ht : demoL1Tx txid with
  | none =>
    rw [ht] at h
    cases h
  | some t =>
    rw [ht] at h
    exact ⟨t, ht, (Except.ok.inj h).symm⟩

theorem demo_outpoints :
    sealOutpoint "g:0" = some ("g", 0) ∧ sealOutpoint "a:0" = some ("a", 0) ∧
      sealOutpoint "b:0" = some ("b", 0) ∧ sealOutpoint "z:0" = some ("z", 0) := by
  decide +kernel

theorem light_lineage_sound_demo :
    demoL1.StepsSound "g:0" [⟨"a", "g:0", "a:0"⟩] ∧ demoL1.Descends "g:0" "a:0" := by
  have hverified : verifyObjectLineage demoFetch "obj"
      [⟨"g", "", "g:0"⟩, ⟨"a", "g:0", "a:0"⟩] = ⟨true, "obj", "g:0", "a:0", 2, none⟩ := by
    decide +kernel
  have hsound := light_lineage_sound_iff demoL1 demoFetch demoFetch_true "obj"
    [⟨"g", "", "g:0"⟩, ⟨"a", "g:0", "a:0"⟩] (by rw [hverified])
  rw [hverified] at hsound
  have hname := sealTxid_of_sealOutpoint demo_outpoints.2.1
  have hmakes : demoL1.Makes "a" "a:0" :=
    ⟨⟨[("g", 0)], 1⟩, rfl, 0, by decide, demo_outpoints.2.1⟩
  exact hsound.mpr ⟨by simpa using hname, by simpa using hmakes⟩

/-- What descends from `g:0` is `g:0` or `a:0`. -/
theorem demoL1_descends {sealRef : String} (h : demoL1.Descends "g:0" sealRef) :
    sealOutpoint sealRef = some ("g", 0) ∨ sealOutpoint sealRef = some ("a", 0) := by
  induction h with
  | refl => exact .inl demo_outpoints.1
  | tail past step ih =>
    obtain ⟨txid, ⟨t, ht, input, hinput, hspent⟩, ⟨t', ht', vout, hvout, hmade⟩⟩ := step
    -- nothing spends `a:0`, and only `a` spends `g:0`
    rcases (demoL1Tx_cases ht).2 input hinput with ⟨rfl, -⟩ | ⟨-, rfl⟩
    · right
      change demoL1Tx "a" = some t' at ht'
      rw [(demoL1Tx_cases ht').1, UInt32.lt_iff_toNat_lt, UInt32.toNat_one, Nat.lt_one_iff] at hvout
      rw [hmade, hvout]
      rfl
    · rw [hspent] at ih
      exact absurd ih (by decide)

/-- The history goes on in the lineage of another object. -/
def demoForeign : List LineageTransition :=
  [⟨"g", "", "g:0"⟩, ⟨"a", "g:0", "z:0"⟩, ⟨"b", "z:0", "b:0"⟩]

theorem foreign_tip_verified :
    FetchesFrom demoL1 demoFetch ∧
      verifyObjectLineage demoFetch "obj" demoForeign = ⟨true, "obj", "g:0", "b:0", 3, none⟩ ∧
      ¬ demoL1.Makes "a" "z:0" ∧ ¬ demoL1.Descends "g:0" "b:0" := by
  obtain ⟨-, -, hb, hz⟩ := demo_outpoints
  refine ⟨demoFetch_true, by decide +kernel, fun hmakes ↦ ?_, fun hdescends ↦ ?_⟩
  · have hname := hmakes.sealTxid.symm.trans (sealTxid_of_sealOutpoint hz)
    exact absurd hname (by decide)
  · have hreached := demoL1_descends hdescends
    rw [hb] at hreached
    exact absurd hreached (by decide)

end UtxoVm
