import UtxoVm.Scanner.Processor
import UtxoVm.Storage.DbRun

/-!
# Sequential runs of `process_tx`

`selectAction` is what a transaction will do in a given store; the rules below say how the store
changes, write by write.  Everything proved about runs of the processor goes through them.
-/

namespace UtxoVm

open RustStd StateStore Prog

namespace BlockProcessor

variable (X : Crates) (P : BlockProcessor)

/-- The object whose seal a transaction spends. -/
def target (s : StateStore) : List ElectrsTxInput → Option SmartObjectRecord
  | [] => none
  | vin :: rest =>
      match lookupSeal s (sealOf vin.txid vin.vout) with
      | .ok (some obj) => some obj
      | _ => target s rest

theorem run_findTarget (vins : List ElectrsTxInput) (s : StateStore) :
    run (findTarget vins) s = (s, .ok (target s vins)) := by
  induction vins with
  | nil => rfl
  | cons vin rest ih =>
    unfold findTarget target
    rw [run_bind, run_attempt, run_getObjectBySeal, andThen_ok]
    dsimp only
    cases lookupSeal s (sealOf vin.txid vin.vout) with
    | error e => exact ih
    | ok obj? =>
      cases obj? with
      | none => exact ih
      | some obj => rfl

/-! ## 1. The action -/

inductive Action where
  | create (voutIdx : Nat) (out : ElectrsTxOutput) (envelope : UtxoVmEnvelope)
  | call (voutIdx : Nat) (out : ElectrsTxOutput) (envelope : UtxoVmEnvelope)
      (obj : SmartObjectRecord)

/-- What the outputs from index `voutIdx` on ask for; nothing when the fee is missing. -/
def selectOutput (s : StateStore) (tx : ElectrsTx) :
    Nat → List ElectrsTxOutput → Except Exit (Option Action)
  | _, [] => .ok none
  | voutIdx, out :: rest =>
      match outputEnvelope X out with
      | .error e => .error e
      | .ok none => selectOutput s tx (voutIdx + 1) rest
      | .ok (some envelope) =>
          if isCreate envelope then
            if P.validateFee tx then .ok (some (.create voutIdx out envelope)) else .ok none
          else if P.validateFee tx then
            match target s tx.vin with
            | some obj => .ok (some (.call voutIdx out envelope obj))
            | none => selectOutput s tx (voutIdx + 1) rest
          else .ok none

def selectAction (s : StateStore) (tx : ElectrsTx) : Except Exit (Option Action) :=
  selectOutput X P s tx 0 tx.vout

/-- Run the selected action. -/
def performAction (w : Writes) (now : Int) (tx : ElectrsTx) (blockHeight : Nat) (s : StateStore) :
    Except Exit (Option Action) → StateStore × Except Exit (Option String)
  | .error e => (s, .error e)
  | .ok none => (s, .ok none)
  | .ok (some (.create voutIdx out envelope)) =>
      run (processCreate X P w tx blockHeight voutIdx out envelope) s
  | .ok (some (.call voutIdx out envelope obj)) =>
      run (processCall X P w now tx blockHeight voutIdx out envelope obj) s

private theorem run_processOutputs (w : Writes) (now : Int) (tx : ElectrsTx) (blockHeight : Nat)
    (voutIdx : Nat) (outs : List ElectrsTxOutput) (s : StateStore) :
    run (processOutputs X P w now tx blockHeight voutIdx outs) s =
      performAction X P w now tx blockHeight s (selectOutput X P s tx voutIdx outs) := by
  induction outs generalizing voutIdx with
  | nil => rfl
  | cons out rest ih =>
    unfold processOutputs selectOutput
    cases outputEnvelope X out with
    | error e => rfl
    | ok envelope? =>
      cases envelope? with
      | none => exact ih (voutIdx + 1)
      | some envelope =>
        dsimp only
        split
        · split <;> rfl
        · split
          · rw [run_bind, run_findTarget, andThen_ok]
            cases target s tx.vin with
            | none => exact ih (voutIdx + 1)
            | some obj => rfl
          · rfl

theorem run_processTx (w : Writes) (now : Int) (tx : ElectrsTx) (blockHeight : Nat)
    (s : StateStore) :
    run (processTx X P w now tx blockHeight) s =
      performAction X P w now tx blockHeight s (selectAction X P s tx) :=
  run_processOutputs X P w now tx blockHeight 0 tx.vout s

/-! ## 2. Create -/

/-- The store after the blob of a deploy was stored, or the attempt failed. -/
def afterBlob (w : Writes) (envelope : UtxoVmEnvelope) (s : StateStore) : StateStore :=
  if (isWasm envelope && !envelope.payload.isEmpty) && w.wasm then
    putWasm (wasmHash X envelope.payload) envelope.payload s
  else s

theorem run_storeBlob (w : Writes) (envelope : UtxoVmEnvelope) (s : StateStore) :
    run (storeBlob X w envelope) s = (afterBlob X w envelope s, .ok ()) := by
  unfold storeBlob afterBlob
  cases isWasm envelope && !envelope.payload.isEmpty with
  | false => rfl
  | true =>
    rw [if_pos rfl, run_bind, run_attempt, run_saveWasm_self, andThen_ok, run_pure]
    cases w.wasm <;> rfl

theorem run_processCreate (w : Writes) (tx : ElectrsTx) (blockHeight voutIdx : Nat)
    (out : ElectrsTxOutput) (envelope : UtxoVmEnvelope) (s : StateStore) :
    run (processCreate X P w tx blockHeight voutIdx out envelope) s =
      let s₀ := afterBlob X w envelope s
      match createdObjectId tx.txid with
      | .error e => (s₀, .error e)
      | .ok objId =>
          if w.undo then
            let s₁ := putUndo (P.createUndo tx blockHeight voutIdx objId) s₀
            if w.object then
              (putObject X (createdObject X tx blockHeight voutIdx out envelope objId) s₁,
                .ok (some objId))
            else (s₁, .error storageError)
          else (s₀, .error storageError) := by
  unfold processCreate
  rw [run_bind, run_storeBlob, andThen_ok, run_bind, run_ofExcept]
  cases createdObjectId tx.txid with
  | error e => rfl
  | ok objId =>
    rw [andThen_ok, run_bind, run_saveUndoLog]
    cases w.undo with
    | false => rfl
    | true =>
      rw [if_pos rfl, andThen_ok, run_bind, run_saveObject]
      cases w.object <;> rfl

/-! ## 3. Call -/

/-- The new state and gas of a call in the store `s`, or nothing when it is reverted. -/
def callOutcome (s : StateStore) (obj : SmartObjectRecord) (method : String) (args : Json)
    (caller : String) (satoshis : Nat) : Except Exit (Option (Json × Nat)) :=
  if obj.codeHash = "wasm_default" then
    .ok (some (placeholderState obj.stateData method caller, 21500))
  else
    let wasm? := if obj.codeHash = "" then some [] else s.wasmBlobs[obj.codeHash]?
    match wasm? with
    | none => .error (.err (.message ("WASM_MISSING:" ++ obj.codeHash)))
    | some wasmBytes =>
        match executeWasm X P obj method args caller satoshis wasmBytes with
        | .ok result => .ok (some result)
        | .error _ => .ok none

theorem missingWasmHash_missing (codeHash : String) :
    missingWasmHash (.err (.message ("WASM_MISSING:" ++ codeHash))) = some (trim codeHash) := by
  simp [missingWasmHash]

theorem run_callResult (obj : SmartObjectRecord) (method : String) (args : Json) (caller : String)
    (satoshis : Nat) (s : StateStore) :
    run (callResult X P obj method args caller satoshis) s =
      (s, callOutcome X P s obj method args caller satoshis) := by
  unfold callResult callOutcome
  by_cases hdefault : obj.codeHash = "wasm_default"
  · rw [if_neg (by simpa using hdefault), if_pos hdefault, run_pure]
  rw [if_pos hdefault, if_neg hdefault, run_bind, run_attempt, andThen_ok]
  have hrun (wasmBytes : Bytes) :
      run (match executeWasm X P obj method args caller satoshis wasmBytes with
        | .ok result => (pure (some result) : StoreProg (Option (Json × Nat)))
        | .error _ => pure none) s =
      (s, match executeWasm X P obj method args caller satoshis wasmBytes with
        | .ok result => .ok (some result)
        | .error _ => .ok none) := by
    cases executeWasm X P obj method args caller satoshis wasmBytes <;> rfl
  unfold getWasmBytes
  by_cases hempty : obj.codeHash = ""
  · rw [if_pos (.inr hempty), if_pos hempty]
    exact hrun []
  rw [if_neg (by simp [hdefault, hempty]), if_neg hempty, run_bind, run_getWasm, andThen_ok]
  cases s.wasmBlobs[obj.codeHash]? with
  | some wasmBytes => exact hrun wasmBytes
  | none =>
    show run (if (missingWasmHash _).isSome then _ else _) s = _
    rw [missingWasmHash_missing]
    rfl

/-- A call looks at the store once, for the code. -/
theorem callResult_once (obj : SmartObjectRecord) (method : String) (args : Json) (caller : String)
    (satoshis : Nat) : Once (callResult X P obj method args caller satoshis) := by
  unfold callResult
  split
  · refine Once.bind (Once.attempt ?_) fun r ↦ ?_
    · unfold getWasmBytes
      split
      · trivial
      · refine Once.bind (fun _ ↦ trivial) fun bytes? ↦ ?_
        cases bytes? <;> trivial
    · cases r with
      | error e =>
        dsimp only
        split <;> trivial
      | ok wasmBytes =>
        dsimp only
        split <;> trivial
  · trivial

/-- The transition record of a call. -/
def callTransition (now : Int) (tx : ElectrsTx) (blockHeight voutIdx : Nat) (out : ElectrsTxOutput)
    (envelope : UtxoVmEnvelope) (obj : SmartObjectRecord) (result : Json × Nat) :
    StateTransitionRecord :=
  { txid := tx.txid
    objectId := obj.objectId
    prevSeal := obj.sealRef
    newSeal := sealOf tx.txid voutIdx
    caller := sender tx
    method := methodOf (metadataOf envelope)
    args := argsOf (metadataOf envelope)
    newState := result.1
    satoshis := out.value
    blockHeight
    gasConsumed := result.2
    timestamp := now }

theorem run_processCall (w : Writes) (now : Int) (tx : ElectrsTx) (blockHeight voutIdx : Nat)
    (out : ElectrsTxOutput) (envelope : UtxoVmEnvelope) (obj : SmartObjectRecord) (s : StateStore) :
    run (processCall X P w now tx blockHeight voutIdx out envelope obj) s =
      if w.undo then
        let s₁ := putUndo (P.updateUndo tx blockHeight voutIdx obj) s
        match callOutcome X P s obj (methodOf (metadataOf envelope)) (argsOf (metadataOf envelope))
            (sender tx) out.value with
        | .error e => (s₁, .error e)
        | .ok none => (s₁, .ok none)
        | .ok (some result) =>
            if w.object then
              let s₂ := putObject X (calledObject obj blockHeight (sealOf tx.txid voutIdx) out.value
                (argsOf (metadataOf envelope)) result.1) s₁
              if w.transition then
                (putTransition
                  (callTransition now tx blockHeight voutIdx out envelope obj result) s₂,
                  .ok (some obj.objectId))
              else (s₂, .error storageError)
            else (s₁, .error storageError)
      else (s, .error storageError) := by
  unfold processCall
  dsimp only
  rw [run_bind, run_saveUndoLog]
  cases w.undo with
  | false => rfl
  | true =>
    rw [if_pos rfl, if_pos rfl, andThen_ok, run_bind, run_callResult]
    -- the undo record does not bear on the call
    rw [show callOutcome X P (putUndo (P.updateUndo tx blockHeight voutIdx obj) s) obj
        (methodOf (metadataOf envelope)) (argsOf (metadataOf envelope)) (sender tx) out.value =
      callOutcome X P s obj (methodOf (metadataOf envelope)) (argsOf (metadataOf envelope))
        (sender tx) out.value from rfl]
    cases callOutcome X P s obj (methodOf (metadataOf envelope)) (argsOf (metadataOf envelope))
        (sender tx) out.value with
    | error e => rfl
    | ok result? =>
      cases result? with
      | none => rfl
      | some result =>
        rw [andThen_ok]
        dsimp only
        rw [run_bind, run_saveObject]
        cases w.object with
        | false => rfl
        | true =>
          rw [if_pos rfl, if_pos rfl, andThen_ok, run_bind, run_saveTransition]
          cases w.transition <;> rfl

/-! ## 4. What the reads leave alone -/

section

variable {γ : Type} {f : StateStore → γ}

theorem keeps_storeBlob {w : Writes} {envelope : UtxoVmEnvelope}
    (hput : ∀ s codeHash wasmBytes, f (putWasm codeHash wasmBytes s) = f s) :
    Keeps f (storeBlob X w envelope) := by
  unfold storeBlob
  split
  · exact (keeps_saveWasm fun s ↦ hput s _ _).attempt.bind fun _ ↦ .pure _
  · exact .pure _

theorem keeps_findTarget (vins : List ElectrsTxInput) : Keeps f (findTarget vins) := by
  induction vins with
  | nil => exact .pure _
  | cons vin rest ih =>
    refine (keeps_getObjectBySeal _).attempt.bind fun r ↦ ?_
    rcases r with e | _ | obj
    · exact ih
    · exact ih
    · exact .pure _

theorem keeps_callResult (obj : SmartObjectRecord) (method : String) (args : Json) (caller : String)
    (satoshis : Nat) : Keeps f (P.callResult X obj method args caller satoshis) := by
  unfold callResult
  split
  · refine Keeps.bind (Keeps.attempt ?_) fun r ↦ ?_
    · unfold getWasmBytes
      split
      · exact .pure _
      · refine (Keeps.read _).bind fun bytes? ↦ ?_
        cases bytes? with
        | none => trivial
        | some bytes => exact .pure _
    · cases r with
      | error e =>
        dsimp only
        split
        · trivial
        · exact .pure _
      | ok wasmBytes =>
        dsimp only
        split <;> exact .pure _
  · exact .pure _

end

end BlockProcessor

end UtxoVm
