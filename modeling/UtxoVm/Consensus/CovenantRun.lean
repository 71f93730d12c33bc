import UtxoVm.Consensus.Covenants

/-!
# Running the equivocation covenant

What the script does on an arbitrary witness stack.  Phase 1 moves twelve items to the altstack, so
`root_1` comes back first: each rebuilt string starts with the item below the domain separator, and
every later item is used one place too early.
-/

namespace UtxoVm

open RustStd Tapscript

variable (H : Host)

/-! ## 1. One phase -/

/-- The string that a phase hashes when it finds `a`, `b`, `c`, `d` on the altstack. -/
def phaseMessage (a b c d : Bytes) : Bytes := a ++ attestationDomain ++ b ++ c ++ d

def phaseTrace (tr : Trace) (pk msg sig : Bytes) : Trace :=
  { tr with hashed := tr.hashed ++ [msg], checked := tr.checked ++ [(sig, pk)] }

theorem exec_phase_ok (pk a b c d sig : Bytes) (st al : List Bytes) (tr : Trace) (ops : List Op)
    (hpk : pk.length = 32) (hlen : (phaseMessage a b c d).length ≤ maxElement)
    (hsig : H.checkSig pk sig (H.sha256 (phaseMessage a b c d) :: st) = true) :
    exec H (phaseOps pk ++ ops) ⟨st, a :: b :: c :: d :: sig :: al, tr⟩ =
      exec H ops ⟨st, al, phaseTrace tr pk (phaseMessage a b c d) sig⟩ := by
  have hdom : attestationDomain.length ≤ maxElement := by decide
  have hkey : pk.length ≤ maxElement := by
    rw [hpk]
    decide
  simp only [phaseMessage, List.length_append] at hlen
  have h1 : (a ++ attestationDomain).length ≤ maxElement := by
    rw [List.length_append]
    omega
  have h2 : (a ++ attestationDomain ++ b).length ≤ maxElement := by
    simp only [List.length_append]
    omega
  have h3 : (a ++ attestationDomain ++ b ++ c).length ≤ maxElement := by
    simp only [List.length_append]
    omega
  have h4 : (a ++ attestationDomain ++ b ++ c ++ d).length ≤ maxElement := by
    simp only [List.length_append]
    omega
  rw [phaseMessage] at hsig
  simp only [phaseOps, List.cons_append, List.nil_append, exec, step, Except.bind, hdom, hkey, h1,
    h2, h3, h4, hsig, if_true, phaseTrace, phaseMessage]

/-- A phase that fails stops before anything is compared. -/
theorem exec_phase_error (pk a b c d sig : Bytes) (st al : List Bytes) (tr : Trace)
    (ops : List Op) (hpk : pk.length = 32)
    (hbad : ¬ ((phaseMessage a b c d).length ≤ maxElement ∧
      H.checkSig pk sig (H.sha256 (phaseMessage a b c d) :: st) = true)) :
    ∃ e, exec H (phaseOps pk ++ ops) ⟨st, a :: b :: c :: d :: sig :: al, tr⟩ = .error e ∧
      e.trace.compared = tr.compared := by
  have hdom : attestationDomain.length ≤ maxElement := by decide
  have hkey : pk.length ≤ maxElement := by
    rw [hpk]
    decide
  rw [phaseMessage] at hbad
  simp only [phaseOps, List.cons_append, List.nil_append, exec, step, Except.bind, hdom, if_true]
  by_cases h1 : (a ++ attestationDomain).length ≤ maxElement
  swap
  · exact ⟨_, by rw [if_neg h1], rfl⟩
  by_cases h2 : (a ++ attestationDomain ++ b).length ≤ maxElement
  swap
  · exact ⟨_, by simp only [if_pos h1, if_neg h2]; rfl, rfl⟩
  by_cases h3 : (a ++ attestationDomain ++ b ++ c).length ≤ maxElement
  swap
  · exact ⟨_, by simp only [if_pos h1, if_pos h2, if_neg h3]; rfl, rfl⟩
  by_cases h4 : (a ++ attestationDomain ++ b ++ c ++ d).length ≤ maxElement
  swap
  · exact ⟨_, by simp only [if_pos h1, if_pos h2, if_pos h3, if_neg h4]; rfl, rfl⟩
  exact ⟨_, by
    simp only [if_pos h1, if_pos h2, if_pos h3, if_pos h4, if_pos hkey,
      if_neg fun hsig ↦ hbad ⟨h4, hsig⟩]
    rfl, rfl⟩

/-! ## 2. The whole script -/

/-- The twelve items that the script moves to the altstack, named as the witness builder names
them. -/
structure CovenantItems where
  root1 : Bytes
  root2 : Bytes
  chain1 : Bytes
  height1 : Bytes
  blockHash1 : Bytes
  stateRoot1 : Bytes
  sig1 : Bytes
  chain2 : Bytes
  height2 : Bytes
  blockHash2 : Bytes
  stateRoot2 : Bytes
  sig2 : Bytes

namespace CovenantItems

/-- In witness order. -/
def toList (w : CovenantItems) : List Bytes :=
  [w.root1, w.root2, w.chain1, w.height1, w.blockHash1, w.stateRoot1, w.sig1,
    w.chain2, w.height2, w.blockHash2, w.stateRoot2, w.sig2]

/-- The strings that the two `OP_SHA256` see. -/
def message1 (w : CovenantItems) : Bytes := phaseMessage w.root1 w.root2 w.chain1 w.height1
def message2 (w : CovenantItems) : Bytes := phaseMessage w.stateRoot1 w.sig1 w.chain2 w.height2

/-- What the script needs to run to its end.  The items used as signatures are the two block-hash
fields, and the items compared are the last two. -/
structure Accepted (w : CovenantItems) (pk : Bytes) (below : List Bytes) : Prop where
  length1 : w.message1.length ≤ maxElement
  sig1 : H.checkSig pk w.blockHash1 (H.sha256 w.message1 :: below) = true
  length2 : w.message2.length ≤ maxElement
  sig2 : H.checkSig pk w.blockHash2 (H.sha256 w.message2 :: below) = true
  differ : w.stateRoot2 ≠ w.sig2

def finalTrace (w : CovenantItems) (pk : Bytes) : Trace :=
  { hashed := [w.message1, w.message2]
    checked := [(w.blockHash1, pk), (w.blockHash2, pk)]
    compared := [(w.stateRoot2, w.sig2)] }

end CovenantItems

/-- Any witness of at least twelve items ends in twelve named items. -/
theorem exists_covenantItems (witness : List Bytes) (h : 12 ≤ witness.length) :
    ∃ below w, witness = below ++ CovenantItems.toList w := by
  refine ⟨witness.take (witness.length - 12), ?_⟩
  have hlen : (witness.drop (witness.length - 12)).length = 12 := by
    rw [List.length_drop]
    omega
  match hd : witness.drop (witness.length - 12), hlen with
  | [r1, r2, c1, h1, b1, s1, g1, c2, h2, b2, s2, g2], _ =>
    refine ⟨⟨r1, r2, c1, h1, b1, s1, g1, c2, h2, b2, s2, g2⟩, ?_⟩
    conv_lhs => rw [← List.take_append_drop (witness.length - 12) witness, hd]
    rfl

private theorem exec_covenant_start (pk : Bytes) (w : CovenantItems) (below : List Bytes) :
    exec H (covenantOps pk) { stack := (below ++ w.toList).reverse } =
      exec H (phaseOps pk ++ (phaseOps pk ++ [.fromAltStack, .fromAltStack, .equal, .not, .verify]))
        ⟨below.reverse, w.toList, {}⟩ := by
  have hlen : w.toList.reverse.length = 12 := rfl
  rw [covenantOps, List.reverse_append, ← hlen, exec_toAltStack, List.reverse_reverse,
    List.append_nil]

/-- **An accepted run.**  All twelve items are consumed and nothing is left in their place. -/
theorem run_covenant_accepted {pk script : Bytes}
    (hscript : buildEquivocationCovenant pk = .ok script) (w : CovenantItems)
    (below : List Bytes) (hw : w.Accepted H pk below.reverse) :
    run H script (below ++ w.toList) = .ok ⟨below.reverse, [], w.finalTrace pk⟩ := by
  obtain ⟨hpk, hdecode⟩ := decode_covenant hscript
  have hneq : (w.sig2 == w.stateRoot2) = false := by
    rw [beq_eq_false_iff_ne]
    exact hw.differ.symm
  rw [run, hdecode]
  simp only
  rw [exec_covenant_start, CovenantItems.toList]
  rw [exec_phase_ok H pk _ _ _ _ _ _ _ _ _ hpk hw.length1 hw.sig1,
    exec_phase_ok H pk _ _ _ _ _ _ _ _ _ hpk hw.length2 hw.sig2]
  simp only [exec, step, Except.bind, hneq, ofBool_length_le, castToBool_ofBool, Bool.not_false,
    if_true, phaseTrace, CovenantItems.finalTrace, CovenantItems.message1, CovenantItems.message2,
    List.nil_append, List.cons_append]

/-- **A failed run.**  When a check fails before the roots are compared, nothing is compared; when
the comparison fails, both signature checks have succeeded. -/
theorem run_covenant_failed {pk script : Bytes}
    (hscript : buildEquivocationCovenant pk = .ok script) (w : CovenantItems)
    (below : List Bytes) (hw : ¬ w.Accepted H pk below.reverse) :
    ∃ e, run H script (below ++ w.toList) = .error e ∧
      (e.trace.compared = [] ∨ e.trace = w.finalTrace pk ∧
        H.checkSig pk w.blockHash1 (H.sha256 w.message1 :: below.reverse) = true ∧
        H.checkSig pk w.blockHash2 (H.sha256 w.message2 :: below.reverse) = true) := by
  obtain ⟨hpk, hdecode⟩ := decode_covenant hscript
  rw [run, hdecode]
  simp only
  rw [exec_covenant_start, CovenantItems.toList]
  by_cases h1 : w.message1.length ≤ maxElement ∧
      H.checkSig pk w.blockHash1 (H.sha256 w.message1 :: below.reverse) = true
  swap
  · obtain ⟨e, he, hcmp⟩ := exec_phase_error H pk _ _ _ _ _ _
      (w.stateRoot1 :: w.sig1 :: w.chain2 :: w.height2 :: w.blockHash2 :: w.stateRoot2 ::
        [w.sig2]) {} (phaseOps pk ++ [.fromAltStack, .fromAltStack, .equal, .not, .verify]) hpk h1
    exact ⟨e, he, .inl hcmp⟩
  rw [exec_phase_ok H pk _ _ _ _ _ _ _ _ _ hpk h1.1 h1.2]
  by_cases h2 : w.message2.length ≤ maxElement ∧
      H.checkSig pk w.blockHash2 (H.sha256 w.message2 :: below.reverse) = true
  swap
  · obtain ⟨e, he, hcmp⟩ := exec_phase_error H pk _ _ _ _ _ _ [w.stateRoot2, w.sig2]
      (phaseTrace {} pk w.message1 w.blockHash1)
      [.fromAltStack, .fromAltStack, .equal, .not, .verify] hpk h2
    exact ⟨e, he, .inl hcmp⟩
  rw [exec_phase_ok H pk _ _ _ _ _ _ _ _ _ hpk h2.1 h2.2]
  have heq : (w.sig2 == w.stateRoot2) = true := by
    rw [beq_iff_eq]
    by_contra hne
    exact hw ⟨h1.1, h1.2, h2.1, h2.2, fun h ↦ hne h.symm⟩
  refine ⟨_, by simp only [exec, step, Except.bind, heq, ofBool_length_le, castToBool_ofBool,
    Bool.not_true, if_true]; rfl, .inr ⟨rfl, h1.2, h2.2⟩⟩

/-- A witness of fewer than twelve items fails in phase 1. -/
theorem run_covenant_short {pk script : Bytes} (hscript : buildEquivocationCovenant pk = .ok script)
    (witness : List Bytes) (hshort : witness.length < 12) :
    ∃ e, run H script witness = .error e ∧ e.trace = {} := by
  rw [run, (decode_covenant hscript).2]
  exact exec_toAltStack_short H 12 _ _ _ _ (by simpa using hshort)

end UtxoVm
