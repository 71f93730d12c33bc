import UtxoVm.Consensus.CovenantRun

/-!
# What the equivocation covenant proves about an operator

Completeness: does the covenant accept the witness that the builder makes from two conflicting
attestations?  Soundness: does an accepted witness show that the operator signed two state roots at
one height?
-/

namespace UtxoVm

open RustStd Tapscript

/-! ## 1. Completeness -/

/-- Two attestations of one `(chain, height)`. -/
structure Conflict where
  chain : String
  height : Nat
  blockHash1 : String
  stateRoot1 : String
  sig1 : Bytes
  blockHash2 : String
  stateRoot2 : String
  sig2 : Bytes

namespace Conflict

def preimage1 (c : Conflict) : Bytes :=
  serializeAttestationPreimage c.chain c.height c.blockHash1 c.stateRoot1

def preimage2 (c : Conflict) : Bytes :=
  serializeAttestationPreimage c.chain c.height c.blockHash2 c.stateRoot2

/-- The stack of `build_equivocation_witness`, without the script leaf. -/
def stack (c : Conflict) (scriptLeaf : Bytes) : List Bytes :=
  (buildEquivocationWitness (asBytes c.stateRoot1) (asBytes c.stateRoot2) c.chain c.height
    c.blockHash1 c.stateRoot1 c.sig1 c.blockHash2 c.stateRoot2 c.sig2 scriptLeaf).dropLast

end Conflict

/-- `OP_CHECKSIGVERIFY` consults an oracle on signature and key. -/
def oracleHost (sha256 : Bytes → Bytes) (oracle : Bytes → Bytes → Bool) : Host :=
  { sha256, checkSig := fun pk sig _ ↦ oracle sig pk }

/-- What the covenant has to do with the builder's witness for one conflict. -/
structure Completes (sha256 : Bytes → Bytes) (oracle : Bytes → Bytes → Bool) (pk script : Bytes)
    (c : Conflict) : Prop where
  feeds : (finalState (run (oracleHost sha256 oracle) script (c.stack script))).trace.hashed =
    [c.preimage1, c.preimage2]
  checks : (finalState (run (oracleHost sha256 oracle) script (c.stack script))).trace.checked =
    [(c.sig1, pk), (c.sig2, pk)]
  compares :
    (finalState (run (oracleHost sha256 oracle) script (c.stack script))).trace.compared =
      [(asBytes c.stateRoot1, asBytes c.stateRoot2)] ∨
    (finalState (run (oracleHost sha256 oracle) script (c.stack script))).trace.compared =
      [(asBytes c.stateRoot2, asBytes c.stateRoot1)]
  succeeds : oracle c.sig1 pk = true → oracle c.sig2 pk = true →
    Succeeds (run (oracleHost sha256 oracle) script (c.stack script))

/-- **The covenant completes on no input.**  A run that reaches the comparison has consumed all
twelve items and leaves an empty stack, which BIP-342 rejects. -/
theorem covenant_never_completes (sha256 : Bytes → Bytes) (oracle : Bytes → Bytes → Bool)
    {pk script : Bytes} (hscript : buildEquivocationCovenant pk = .ok script) (c : Conflict) :
    ¬ Completes sha256 oracle pk script c := by
  intro h
  let w : CovenantItems :=
    { root1 := asBytes c.stateRoot1, root2 := asBytes c.stateRoot2
      chain1 := lenPrefixed c.chain, height1 := beBytes 8 c.height
      blockHash1 := lenPrefixed c.blockHash1, stateRoot1 := lenPrefixed c.stateRoot1
      sig1 := c.sig1, chain2 := lenPrefixed c.chain, height2 := beBytes 8 c.height
      blockHash2 := lenPrefixed c.blockHash2, stateRoot2 := lenPrefixed c.stateRoot2
      sig2 := c.sig2 }
  have hstack : c.stack script = [] ++ w.toList := rfl
  have hnot : ¬ Succeeds (run (oracleHost sha256 oracle) script (c.stack script)) := by
    rintro ⟨s, x, hrun, hs, -⟩
    by_cases hw : w.Accepted (oracleHost sha256 oracle) pk []
    · rw [hstack, run_covenant_accepted _ hscript w [] hw] at hrun
      cases hrun
      cases hs
    · obtain ⟨e, he, -⟩ := run_covenant_failed _ hscript w [] hw
      rw [hstack, he] at hrun
      cases hrun
  -- the comparison is reached only when the oracle has accepted what was presented to it
  obtain ⟨h1, h2, htrace⟩ : oracle w.blockHash1 pk = true ∧ oracle w.blockHash2 pk = true ∧
      (finalState (run (oracleHost sha256 oracle) script (c.stack script))).trace =
        w.finalTrace pk := by
    by_cases hw : w.Accepted (oracleHost sha256 oracle) pk []
    · refine ⟨hw.sig1, hw.sig2, ?_⟩
      rw [hstack, run_covenant_accepted _ hscript w [] hw]
      rfl
    · obtain ⟨e, he, hcmp | ⟨htr, h1, h2⟩⟩ := run_covenant_failed _ hscript w [] hw
      · have hcompares := h.compares
        rw [hstack, he] at hcompares
        simp [finalState, hcmp] at hcompares
      · exact ⟨h1, h2, by rw [hstack, he]; exact htr⟩
  have hchecked := h.checks
  rw [htrace] at hchecked
  simp only [CovenantItems.finalTrace, List.cons.injEq, Prod.mk.injEq, and_true] at hchecked
  exact hnot (h.succeeds (hchecked.1 ▸ h1) (hchecked.2 ▸ h2))

private def demoKey : Bytes := List.replicate 32 2

private def demoConflict : Conflict :=
  { chain := "JKC", height := 100
    blockHash1 := "hash1", stateRoot1 := "root1", sig1 := List.replicate 64 4
    blockHash2 := "hash2", stateRoot2 := "root2", sig2 := List.replicate 64 6 }

private def demoScript : Bytes :=
  List.replicate 12 opToAltStack ++ covenantPhase demoKey ++ covenantPhase demoKey ++
    [opFromAltStack, opFromAltStack, opEqual, opNot, opVerify]

theorem covenant_never_completes_demo :
    ¬ Completes id (fun _ _ ↦ true) demoKey demoScript demoConflict :=
  covenant_never_completes id (fun _ _ ↦ true) rfl demoConflict

/-- A real conflict, an oracle that accepts every signature, and still no success. -/
theorem covenant_rejects_conflict :
    buildEquivocationCovenant demoKey = .ok demoScript ∧
      demoConflict.stateRoot1 ≠ demoConflict.stateRoot2 ∧
      demoConflict.preimage1.length ≤ maxElement ∧ demoConflict.preimage2.length ≤ maxElement ∧
      ¬ Completes id (fun _ _ ↦ true) demoKey demoScript demoConflict := by
  refine ⟨rfl, by decide, by decide, by decide, fun h ↦ ?_⟩
  obtain ⟨s, x, hrun, hs, -⟩ := h.succeeds rfl rfl
  have hempty : (finalState (run (oracleHost id fun _ _ ↦ true) demoScript
      (demoConflict.stack demoScript))).stack = [] := by decide +kernel
  rw [hrun] at hempty
  simp [finalState, hs] at hempty

/-! ## 2. Soundness -/

/-- The reading that the module documents: `OP_CHECKSIGVERIFY` checks the signature against the
digest the script has just computed, which is the item below the signature.  The operator's
signatures are the pairs `(message, signature)` that it has issued; no other signature verifies. -/
def attestationHost (sha256 : Bytes → Bytes) (operator : Bytes) (issued : List (Bytes × Bytes)) :
    Host :=
  { sha256
    checkSig := fun pk sig below ↦
      match below with
      | digest :: _ => pk == operator && issued.any fun (m, s) ↦ s == sig && sha256 m == digest
      | [] => false }

/-- The operator signed two preimages of one chain and height with different state roots. -/
def Equivocates (issued : List (Bytes × Bytes)) : Prop :=
  ∃ chain height bh1 r1 sig1 bh2 r2 sig2, r1 ≠ r2 ∧
    (serializeAttestationPreimage chain height bh1 r1, sig1) ∈ issued ∧
    (serializeAttestationPreimage chain height bh2 r2, sig2) ∈ issued

/-- A signed message that a phase of the script can rebuild: the domain separator occurs in it
somewhere, and it fits in a stack element. -/
def Rebuildable (m : Bytes) : Prop :=
  m.length ≤ maxElement ∧ ∃ u v, m = u ++ attestationDomain ++ v

private theorem checkSig_issued {sha256 : Bytes → Bytes} (hsha : Function.Injective sha256)
    {pk sig m : Bytes} {issued : List (Bytes × Bytes)} {below : List Bytes} :
    (attestationHost sha256 pk issued).checkSig pk sig (sha256 m :: below) = true ↔
      (m, sig) ∈ issued := by
  simp [attestationHost, hsha.eq_iff]

/-- **When an accepted witness proves an equivocation.**  The items compared at the end are not
bound to the signed roots, so one rebuildable signed message, used in both phases, satisfies the
script: the covenant is sound exactly against an operator who has really equivocated or has signed
nothing rebuildable, in particular no attestation of at most 520 bytes. -/
theorem covenant_sound_iff (sha256 : Bytes → Bytes) (hsha : Function.Injective sha256)
    {pk script : Bytes} (hscript : buildEquivocationCovenant pk = .ok script)
    (issued : List (Bytes × Bytes)) :
    (∀ witness, Passes (run (attestationHost sha256 pk issued) script witness) →
        Equivocates issued) ↔
      (Equivocates issued ∨ ∀ m sig, (m, sig) ∈ issued → ¬ Rebuildable m) := by
  constructor
  · intro hsound
    by_contra hcon
    push Not at hcon
    obtain ⟨hhonest, m, sig, hmem, hlen, u, v, rfl⟩ := hcon
    -- `u`, `v` around the domain separator, twice, then two different items
    let w : CovenantItems :=
      { root1 := u, root2 := v, chain1 := [], height1 := [], blockHash1 := sig
        stateRoot1 := u, sig1 := v, chain2 := [], height2 := [], blockHash2 := sig
        stateRoot2 := [], sig2 := [0] }
    have hmsg : phaseMessage u v [] [] = u ++ attestationDomain ++ v := by simp [phaseMessage]
    have hw : w.Accepted (attestationHost sha256 pk issued) pk [] :=
      { length1 := by rw [CovenantItems.message1, hmsg]; exact hlen
        sig1 := by rw [CovenantItems.message1, hmsg]; exact (checkSig_issued hsha).mpr hmem
        length2 := by rw [CovenantItems.message2, hmsg]; exact hlen
        sig2 := by rw [CovenantItems.message2, hmsg]; exact (checkSig_issued hsha).mpr hmem
        differ := by simp [w] }
    refine hhonest (hsound ([] ++ w.toList) ?_)
    rw [run_covenant_accepted _ hscript w [] hw]
    exact passes_ok _
  · rintro (heq | hnone) witness hpass
    · exact heq
    exfalso
    by_cases hlen : 12 ≤ witness.length
    · obtain ⟨below, w, rfl⟩ := exists_covenantItems witness hlen
      by_cases hw : w.Accepted (attestationHost sha256 pk issued) pk below.reverse
      · refine hnone _ _ ((checkSig_issued hsha).mp hw.sig1) ⟨hw.length1, w.root1, ?_⟩
        exact ⟨w.root2 ++ w.chain1 ++ w.height1, by
          simp [CovenantItems.message1, phaseMessage]⟩
      · obtain ⟨e, he, -⟩ := run_covenant_failed _ hscript w below hw
        rw [he] at hpass
        exact not_passes_error e hpass
    · obtain ⟨e, he, -⟩ := run_covenant_short (attestationHost sha256 pk issued) hscript witness
        (by omega)
      rw [he] at hpass
      exact not_passes_error e hpass

/-- Against an operator who has signed nothing, no witness passes. -/
theorem covenant_sound_iff_silent :
    ¬ ∃ witness, Passes (run (attestationHost id demoKey []) demoScript witness) := by
  rintro ⟨witness, hpass⟩
  obtain ⟨chain, height, bh1, r1, sig1, bh2, r2, sig2, -, hmem, -⟩ :=
    (covenant_sound_iff id Function.injective_id rfl []).mpr (.inr fun _ _ h ↦ nomatch h) witness
      hpass
  cases hmem

private def honestMessage : Bytes := serializeAttestationPreimage "JKC" 100 "hash1" "root1"

private def honestSig : Bytes := List.replicate 64 4

/-- The one signed preimage twice, then two different items to compare. -/
private def slashingItems : CovenantItems :=
  { root1 := [], root2 := honestMessage.drop 22, chain1 := [], height1 := []
    blockHash1 := honestSig
    stateRoot1 := [], sig1 := honestMessage.drop 22, chain2 := [], height2 := []
    blockHash2 := honestSig
    stateRoot2 := [], sig2 := [0] }

private theorem slashingItems_accepted :
    slashingItems.Accepted (attestationHost id demoKey [(honestMessage, honestSig)]) demoKey
      [[1]] :=
  { length1 := by decide, sig1 := by decide, length2 := by decide, sig2 := by decide
    differ := by decide }

/-- One attestation is enough to slash its signer; with a true element below the items the run even
succeeds under BIP-342. -/
theorem covenant_slashes_honest_operator :
    Succeeds (run (attestationHost id demoKey [(honestMessage, honestSig)]) demoScript
        ([[1]] ++ slashingItems.toList)) ∧
      ¬ Equivocates [(honestMessage, honestSig)] := by
  constructor
  · exact ⟨_, [1], run_covenant_accepted _ rfl slashingItems [[1]] slashingItems_accepted, rfl, rfl⟩
  · rintro ⟨chain, height, bh1, r1, sig1, bh2, r2, sig2, hne, h1, h2⟩
    simp only [List.mem_singleton, Prod.mk.injEq] at h1 h2
    refine hne (serializeAttestationPreimage_inj ?_ (h1.1.trans h2.1.symm)).2.2.2
    rw [h1.1]
    decide

end UtxoVm
