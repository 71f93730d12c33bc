import UtxoVm.Scanner.ParserSafety
import UtxoVm.Scanner.Update

/-!
# Where `process_tx` panics

The create branch slices the transaction id at byte 16 without a check; its undo record, and the
undo record of a call, read the first eight bytes with `get`.
-/

namespace UtxoVm

open RustStd StateStore Prog CheckedParser

namespace BlockProcessor

variable (X : Crates) (P : BlockProcessor)

/-- The transaction comes to a create or deploy: its first output that is acted on carries one, and
the fee is paid. -/
def ComesToCreate (s : StateStore) (tx : ElectrsTx) : Prop :=
  ∃ voutIdx out envelope, selectAction X P s tx = .ok (some (.create voutIdx out envelope))

theorem outputEnvelope_total (out : ElectrsTxOutput) : ∃ r, outputEnvelope X out = .ok r := by
  unfold outputEnvelope
  cases hexDecode (out.scriptpubkeyHex.getD out.scriptpubkey) with
  | some scriptBytes => exact parseEnvelope_total X scriptBytes
  | none => exact ⟨none, rfl⟩

/-- Every script is read without a fault, so every transaction asks for something or for nothing. -/
theorem selectAction_total (s : StateStore) (tx : ElectrsTx) :
    ∃ action, selectAction X P s tx = .ok action := by
  unfold selectAction
  generalize 0 = voutIdx
  induction tx.vout generalizing voutIdx with
  | nil => exact ⟨none, rfl⟩
  | cons out rest ih =>
    obtain ⟨envelope?, henvelope⟩ := outputEnvelope_total X out
    unfold selectOutput
    rw [henvelope]
    cases envelope? with
    | none => exact ih (voutIdx + 1)
    | some envelope =>
      dsimp only
      split
      · split
        · exact ⟨_, rfl⟩
        · exact ⟨_, rfl⟩
      · split
        · cases target s tx.vin with
          | some obj => exact ⟨_, rfl⟩
          | none => exact ih (voutIdx + 1)
        · exact ⟨_, rfl⟩

theorem createdObjectId_ok {txid head : String} (h : strGetTo txid 16 = some head) :
    createdObjectId txid = .ok ("obj_" ++ head) := by
  unfold createdObjectId
  rw [h]

theorem createdObjectId_panics {txid : String} (h : strGetTo txid 16 = none) :
    createdObjectId txid = .error .panic := by
  unfold createdObjectId
  rw [h]

/-- A create panics at the slice and nowhere else. -/
theorem processCreate_panics_iff (w : Writes) (tx : ElectrsTx) (blockHeight voutIdx : Nat)
    (out : ElectrsTxOutput) (envelope : UtxoVmEnvelope) (s : StateStore) :
    (run (processCreate X P w tx blockHeight voutIdx out envelope) s).2 = .error .panic ↔
      strGetTo tx.txid 16 = none := by
  rw [run_processCreate]
  cases hhead : strGetTo tx.txid 16 with
  | none => simp [createdObjectId_panics hhead]
  | some head =>
    rw [createdObjectId_ok hhead]
    cases w.undo <;> cases w.object <;> simp [storageError]

theorem callOutcome_no_panic (s : StateStore) (obj : SmartObjectRecord) (method : String)
    (args : Json) (caller : String) (satoshis : Nat) :
    callOutcome X P s obj method args caller satoshis ≠ .error .panic := by
  unfold callOutcome
  dsimp only
  split
  · simp
  split
  · simp
  split <;> simp

theorem processCall_no_panic (w : Writes) (now : Int) (tx : ElectrsTx) (blockHeight voutIdx : Nat)
    (out : ElectrsTxOutput) (envelope : UtxoVmEnvelope) (obj : SmartObjectRecord)
    (s : StateStore) :
    (run (processCall X P w now tx blockHeight voutIdx out envelope obj) s).2 ≠
      .error .panic := by
  have hcall := callOutcome_no_panic X P s obj (methodOf (metadataOf envelope))
    (argsOf (metadataOf envelope)) (sender tx) out.value
  rw [run_processCall]
  dsimp only
  split
  · split
    · rename_i e herror
      rw [herror] at hcall
      simpa using hcall
    · simp
    · cases w.object <;> cases w.transition <;> simp [storageError]
  · simp [storageError]

/-- **`process_tx` returns** unless it comes to a create and the transaction id has no character
boundary at byte 16. -/
theorem processTx_returns_iff (w : Writes) (now : Int) (tx : ElectrsTx) (blockHeight : Nat)
    (s : StateStore) :
    (run (processTx X P w now tx blockHeight) s).2 ≠ .error .panic ↔
      (ComesToCreate X P s tx → (strGetTo tx.txid 16).isSome) := by
  obtain ⟨action?, haction⟩ := selectAction_total X P s tx
  unfold ComesToCreate
  rw [run_processTx, haction]
  cases action? with
  | none => simp [performAction]
  | some action =>
    cases action with
    | create voutIdx out envelope =>
      unfold performAction
      rw [ne_eq, processCreate_panics_iff, ← ne_eq, Option.ne_none_iff_isSome]
      exact ⟨fun h _ ↦ h, fun h ↦ h ⟨voutIdx, out, envelope, rfl⟩⟩
    | call voutIdx out envelope obj =>
      apply iff_of_true
      · exact processCall_no_panic X P w now tx blockHeight voutIdx out envelope obj s
      · rintro ⟨_, _, _, h⟩
        cases h

/-- A create with a transaction id of two characters. -/
def demoShortTx : ElectrsTx := { demoCreateTx with txid := "ab" }

theorem processTx_panics_at_short_txid :
    (run (processTx demoCrates demoProcessor {} 0 demoShortTx 0) (.empty demoCrates)).2 =
      .error .panic := by
  decide +kernel

end BlockProcessor

end UtxoVm
