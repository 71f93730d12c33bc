import UtxoVm.Reasoning.RustStd

/-!
# The light client (`sdk/src/light_verifier.ts`)

`verifyObjectLineage` walks through the history of an object: every step has to consume the seal
that the step before has made, and its transaction has to spend that seal.
-/

namespace UtxoVm

open RustStd

structure LineageTransition where
  txid : String
  consumedSeal : String
  newSeal : String
  deriving DecidableEq, Repr

structure LineageVerificationResult where
  verified : Bool
  objectId : String
  genesisSeal : String
  tipSeal : String
  transitionsVerified : Nat
  error : Option String
  deriving DecidableEq, Repr

/-- An input of a fetched transaction, as far as the verifier reads it; any field may be missing. -/
structure FetchedInput where
  txid : Option String
  vout : Option Int
  prevoutTxid : Option String
  prevoutVout : Option Int
  deriving DecidableEq, Repr

/-! ## 1. `parseInt` -/

/-- The white space that `parseInt` skips. -/
def isJsWhitespace (c : Char) : Bool := (isWhitespace c && c.toNat != 0x85) || c.toNat == 0xFEFF

/-- The number that the leading digits denote. -/
def leadingDigits (cs : List Char) : Option Nat :=
  let digits := cs.takeWhile Char.isDigit
  if digits = [] then none else some (Nat.ofDigitChars 10 digits 0)

/-- `parseInt(s, 10)`; `none` is `NaN`. -/
def parseInt10 (s : String) : Option Int :=
  match s.toList.dropWhile isJsWhitespace with
  | '-' :: cs => (leadingDigits cs).map fun n ↦ -(n : Int)
  | '+' :: cs => (leadingDigits cs).map Int.ofNat
  | cs => (leadingDigits cs).map Int.ofNat

theorem digit_not_whitespace {c : Char} (h : c.isDigit = true) : isJsWhitespace c = false := by
  simp only [Char.isDigit, Bool.and_eq_true, decide_eq_true_eq, ge_iff_le,
    UInt32.le_iff_toNat_le] at h
  have hlow : 48 ≤ c.toNat := h.1
  have hhigh : c.toNat ≤ 57 := h.2
  unfold isJsWhitespace isWhitespace
  grind

/-- A decimal number is read back. -/
theorem parseInt10_toString (n : Nat) : parseInt10 (toString n) = some (n : Int) := by
  have hdigits (c : Char) (hc : c ∈ Nat.toDigits 10 n) : c.isDigit = true :=
    Nat.isDigit_of_mem_toDigits (by decide) (by decide) hc
  have hleading : leadingDigits (Nat.toDigits 10 n) = some n := by
    unfold leadingDigits
    rw [List.takeWhile_eq_self_iff.mpr hdigits]
    dsimp only
    rw [if_neg Nat.toDigits_ne_nil, Nat.ofDigitChars_ten_toDigits]
  have hlist : (toString n).toList = Nat.toDigits 10 n := by simp
  have hdrop : (Nat.toDigits 10 n).dropWhile isJsWhitespace = Nat.toDigits 10 n := by
    rw [List.dropWhile_eq_self_iff]
    intro hpos
    rw [digit_not_whitespace (hdigits _ (List.getElem_mem hpos))]
    exact Bool.false_ne_true
  unfold parseInt10
  rw [hlist, hdrop]
  -- the first digit is not a sign
  split
  · rename_i cs hcs
    exact absurd (hdigits '-' (by rw [hcs]; exact List.mem_cons_self)) (by decide)
  · rename_i cs hcs
    exact absurd (hdigits '+' (by rw [hcs]; exact List.mem_cons_self)) (by decide)
  · rw [hleading]
    rfl

/-! ## 2. The check -/

/-- An input spends the seal: `split(":")` and the comparison of the two parts. -/
def spendsSeal (vin : List FetchedInput) (consumedSeal : String) : Bool :=
  let parts := splitOn consumedSeal ':'
  match parts[0]?, parts[1]?.bind parseInt10 with
  | some prevTxid, some prevVout =>
      vin.any fun v ↦
        (v.txid == some prevTxid || v.prevoutTxid == some prevTxid) &&
          (v.vout == some prevVout || v.prevoutVout == some prevVout)
  -- nothing equals `NaN`
  | _, _ => false

/-- The loop from step `i` on; `fetchTx` gives the inputs of a transaction or the message of an
error. -/
def verifySteps (fetchTx : String → Except String (List FetchedInput))
    (objectId genesisSeal : String) :
    Nat → String → List LineageTransition → LineageVerificationResult
  | i, expectedSeal, [] =>
      { verified := true, objectId, genesisSeal, tipSeal := expectedSeal, transitionsVerified := i
        error := none }
  | i, expectedSeal, step :: rest =>
      let rejected (error : String) : LineageVerificationResult :=
        { verified := false, objectId, genesisSeal, tipSeal := expectedSeal
          transitionsVerified := i, error := some error }
      if step.consumedSeal ≠ expectedSeal then
        rejected ("Seal discontinuity at step " ++ toString i ++ ": expected consumed seal " ++
          expectedSeal ++ ", got " ++ step.consumedSeal)
      else
        match fetchTx step.txid with
        | .error message =>
            rejected ("Blockchain verification failed for tx " ++ step.txid ++ ": " ++ message)
        | .ok vin =>
            if spendsSeal vin step.consumedSeal then
              verifySteps fetchTx objectId genesisSeal (i + 1) step.newSeal rest
            else
              rejected ("Fraudulent seal: tx " ++ step.txid ++ " did not spend seal " ++
                step.consumedSeal ++ " on-chain")

def verifyObjectLineage (fetchTx : String → Except String (List FetchedInput)) (objectId : String) :
    List LineageTransition → LineageVerificationResult
  | [] =>
      { verified := false, objectId, genesisSeal := "", tipSeal := "", transitionsVerified := 0
        error := some "Empty history" }
  | genesis :: rest => verifySteps fetchTx objectId genesis.newSeal 1 genesis.newSeal rest

/-! ## 3. Histories that are accepted -/

/-- Every step consumes the seal made before it, from `first` to `tip`. -/
def Continuous (first : String) : List LineageTransition → String → Prop
  | [], tip => first = tip
  | step :: rest, tip => step.consumedSeal = first ∧ Continuous step.newSeal rest tip

/-- The seal of an output of a transaction whose id has no separator in it. -/
theorem spendsSeal_of_mem {vin : List FetchedInput} {v : FetchedInput} (hv : v ∈ vin)
    {txid : String} (hcolon : ':' ∉ txid.toList) {vout : Nat} (htxid : v.txid = some txid)
    (hvout : v.vout = some (vout : Int)) :
    spendsSeal vin (txid ++ ":" ++ toString vout) = true := by
  have hchars : (txid ++ ":" ++ toString vout).toList =
      txid.toList ++ ':' :: Nat.toDigits 10 vout := by simp
  have hparts : splitOn (txid ++ ":" ++ toString vout) ':' = [txid, toString vout] := by
    unfold splitOn
    rw [hchars, splitChars_append hcolon, splitChars_of_not_mem (colon_not_mem_toDigits vout)]
    show [String.ofList txid.toList, String.ofList (Nat.toDigits 10 vout)] = _
    rw [String.ofList_toList, ← Nat.toString_eq_ofList_toDigits]
  unfold spendsSeal
  rw [hparts]
  dsimp only [List.getElem?_cons_zero, List.getElem?_cons_succ, Option.bind_some]
  rw [parseInt10_toString]
  dsimp only
  rw [List.any_eq_true]
  exact ⟨v, hv, by simp [htxid, hvout]⟩

/-- **A continuous history is accepted** when the fetched transactions spend the consumed seals. -/
theorem verifySteps_accepts {fetchTx : String → Except String (List FetchedInput)}
    {objectId genesisSeal first tip : String} {steps : List LineageTransition}
    (hcontinuous : Continuous first steps tip)
    (hspends : ∀ step ∈ steps, ∃ vin, fetchTx step.txid = .ok vin ∧
      spendsSeal vin step.consumedSeal = true) (i : Nat) :
    (verifySteps fetchTx objectId genesisSeal i first steps).verified = true ∧
      (verifySteps fetchTx objectId genesisSeal i first steps).tipSeal = tip := by
  induction steps generalizing i first with
  | nil => exact ⟨rfl, hcontinuous⟩
  | cons step rest ih =>
    obtain ⟨hconsumed, hrest⟩ := hcontinuous
    obtain ⟨vin, hfetch, hspent⟩ := hspends step List.mem_cons_self
    unfold verifySteps
    dsimp only
    rw [if_neg (by simpa using hconsumed), hfetch]
    dsimp only
    rw [if_pos hspent]
    exact ih hrest (fun step' hstep' ↦ hspends step' (List.mem_cons_of_mem _ hstep')) (i + 1)

end UtxoVm
