import UtxoVm.CoreVm.Runtime
import UtxoVm.Scanner.Electrs
import UtxoVm.Scanner.Parser

/-!
# The block processor (`scanner/processor.rs`)

`process_tx` looks for the first output that carries an envelope it can act on: a create or deploy
stores a new object, a call updates the object whose seal the transaction spends.
-/

namespace UtxoVm

open RustStd StateStore

structure BlockProcessor where
  chain : String
  runtime : VmRuntime
  minExecutionFee : Nat
  feeCollector : Option String

/-- Which write transactions of one call of `process_tx` commit. -/
structure Writes where
  wasm : Bool := true
  undo : Bool := true
  object : Bool := true
  transition : Bool := true

/-- The text of a `WASM_MISSING:<hash>` error. -/
def missingWasmHash : Exit → Option String
  | .err (.message text) => (stripPrefix text "WASM_MISSING:").map trim
  | _ => none

/-- `format!("{}:{}", txid, vout)`. -/
def sealOf (txid : String) (vout : Nat) : String := txid ++ ":" ++ toString vout

/-- The undo key: height and output index, xored with the first eight hex digits of the txid. -/
def undoId (blockHeight voutIdx : Nat) (txid : String) : Nat :=
  (((blockHeight <<< 32) ||| voutIdx) ^^^
    (fromStrRadix16 ((strGetTo txid 8).getD "0")).getD 0) % 2 ^ 64

/-- `&tx.txid[..16]` behind `obj_`. -/
def createdObjectId (txid : String) : Except Exit String :=
  match strGetTo txid 16 with
  | some head => .ok ("obj_" ++ head)
  | none => .error .panic

namespace BlockProcessor

variable (X : Crates) (P : BlockProcessor)

/-! ## 1. What an output asks for -/

/-- `validate_fee`: with a collector its script must match exactly. -/
def validateFee (tx : ElectrsTx) : Bool :=
  P.minExecutionFee == 0 ||
    tx.vout.any fun out ↦
      P.minExecutionFee ≤ out.value &&
        match P.feeCollector with
        | some collector => out.scriptpubkey == collector
        | none => true

/-- The envelope of an output, if its script is hex and contains one. -/
def outputEnvelope (out : ElectrsTxOutput) : Except Exit (Option UtxoVmEnvelope) :=
  match hexDecode (out.scriptpubkeyHex.getD out.scriptpubkey) with
  | some scriptBytes => parseEnvelope X scriptBytes
  | none => .ok none

def sender (tx : ElectrsTx) : String :=
  match tx.vin with
  | vin :: _ => sealOf vin.txid vin.vout
  | [] => "coinbase"

def metadataOf (envelope : UtxoVmEnvelope) : Json := envelope.metadata.getD .null

/-- `metadata.get(key).and_then(|v| v.as_str())`. -/
def strField (metadata : Json) (key : String) : Option String :=
  (metadata.get? key).bind Json.asStr?

def isWasm (envelope : UtxoVmEnvelope) : Bool :=
  envelope.contentType == asBytes "application/wasm"

/-- WASM payloads are deploys; JSON envelopes name their operation, `call` by default. -/
def opOf (envelope : UtxoVmEnvelope) : String :=
  if isWasm envelope then "deploy" else (strField (metadataOf envelope) "op").getD "call"

def isCreate (envelope : UtxoVmEnvelope) : Bool :=
  opOf envelope == "create" || opOf envelope == "deploy"

/-! ## 2. Create and deploy -/

def createdCodeHash (envelope : UtxoVmEnvelope) : String :=
  match strField (metadataOf envelope) "code_hash" with
  | some codeHash => codeHash
  | none => if isWasm envelope then wasmHash X envelope.payload else "wasm_default"

def createdObject (tx : ElectrsTx) (blockHeight voutIdx : Nat) (out : ElectrsTxOutput)
    (envelope : UtxoVmEnvelope) (objId : String) : SmartObjectRecord :=
  { objectId := objId
    codeHash := createdCodeHash X envelope
    sealRef := sealOf tx.txid voutIdx
    satoshis := out.value
    owner := sender tx
    stateData := ((metadataOf envelope).get? "state").getD
      (.object [("initialized", .bool true), ("owner", .string (sender tx))])
    createdAtBlock := blockHeight
    updatedAtBlock := blockHeight }

def createUndo (tx : ElectrsTx) (blockHeight voutIdx : Nat) (objId : String) : UndoLogRecord :=
  { id := undoId blockHeight voutIdx tx.txid
    chain := P.chain
    blockHeight
    objectId := objId
    action := "CREATE"
    prevCodeHash := none
    prevSeal := none
    prevSatoshis := none
    prevOwner := none
    prevStateData := none
    prevUpdatedAtBlock := none
    prevCreatedAtBlock := none }

/-- Store the payload of a deploy under its hash; a failure is only logged. -/
def storeBlob (w : Writes) (envelope : UtxoVmEnvelope) : StoreProg Unit :=
  if isWasm envelope && !envelope.payload.isEmpty then do
    let _ ← (saveWasm X w.wasm (wasmHash X envelope.payload) envelope.payload).attempt
    pure ()
  else pure ()

def processCreate (w : Writes) (tx : ElectrsTx) (blockHeight voutIdx : Nat) (out : ElectrsTxOutput)
    (envelope : UtxoVmEnvelope) : StoreProg (Option String) := do
  storeBlob X w envelope
  let objId ← .ofExcept (createdObjectId tx.txid)
  saveUndoLog w.undo (P.createUndo tx blockHeight voutIdx objId)
  saveObject X w.object (createdObject X tx blockHeight voutIdx out envelope objId)
  pure (some objId)

/-! ## 3. Call -/

/-- The first input whose seal belongs to a readable object. -/
def findTarget : List ElectrsTxInput → StoreProg (Option SmartObjectRecord)
  | [] => pure none
  | vin :: rest => do
      match ← (getObjectBySeal (sealOf vin.txid vin.vout)).attempt with
      | .ok (some obj) => pure (some obj)
      | _ => findTarget rest

def updateUndo (tx : ElectrsTx) (blockHeight voutIdx : Nat) (obj : SmartObjectRecord) :
    UndoLogRecord :=
  { id := undoId blockHeight voutIdx tx.txid
    chain := P.chain
    blockHeight
    objectId := obj.objectId
    action := "UPDATE"
    prevCodeHash := some obj.codeHash
    prevSeal := some obj.sealRef
    prevSatoshis := some obj.satoshis
    prevOwner := some obj.owner
    prevStateData := some obj.stateData
    prevUpdatedAtBlock := some obj.updatedAtBlock
    prevCreatedAtBlock := some obj.createdAtBlock }

def getWasmBytes (codeHash : String) : StoreProg Bytes :=
  if codeHash = "wasm_default" ∨ codeHash = "" then pure []
  else do
    match ← getWasm codeHash with
    | some bytes => pure bytes
    | none => .fail (.err (.message ("WASM_MISSING:" ++ codeHash)))

/-- The state handed to the runtime: the seal text is split into txid and output index. -/
def vmState (obj : SmartObjectRecord) (satoshis : Nat) : SmartObjectState :=
  let sealParts := splitOn obj.sealRef ':'
  { objectId := obj.objectId
    codeHash := obj.codeHash
    sealRef :=
      { txid := (sealParts[0]?).getD ""
        vout := ((sealParts[1]?).bind parseU32).getD 0 }
    satoshis
    ownerPubkey := obj.owner
    stateData := X.jsonToVec obj.stateData }

/-- `execute_wasm`: the new state and the gas; an error of the runtime and a result that is not JSON
are both errors. -/
def executeWasm (obj : SmartObjectRecord) (method : String) (args : Json) (caller : String)
    (satoshis : Nat) (wasmBytes : Bytes) : Except String (Json × Nat) := do
  let execResult ← P.runtime.execute wasmBytes (vmState X obj satoshis) caller method
    (X.jsonToVec args)
  match X.jsonFromSlice execResult.updatedStateData with
  | some newState => .ok (newState, execResult.gasConsumed)
  | none => .error "VM returned non-JSON state data"

/-- The placeholder contract only records the method and the caller. -/
def placeholderState (stateData : Json) (method caller : String) : Json :=
  match stateData with
  | .object fields =>
      .object (Json.insertField "last_caller" (.string caller)
        (Json.insertField "last_method" (.string method) fields))
  | other => other

/-- The new state and the gas of a call; `none` when the call is reverted. -/
def callResult (obj : SmartObjectRecord) (method : String) (args : Json) (caller : String)
    (satoshis : Nat) : StoreProg (Option (Json × Nat)) :=
  if obj.codeHash ≠ "wasm_default" then do
    match ← (getWasmBytes obj.codeHash).attempt with
    | .error e => if (missingWasmHash e).isSome then .fail e else pure none
    | .ok wasmBytes =>
        match executeWasm X P obj method args caller satoshis wasmBytes with
        | .ok result => pure (some result)
        | .error _ => pure none
  else pure (some (placeholderState obj.stateData method caller, 21500))

def methodOf (metadata : Json) : String := (strField metadata "method").getD "transfer"

def argsOf (metadata : Json) : Json := (metadata.get? "args").getD (.object [])

/-- The object after a call: a new seal and value, and a new owner when `args.to` is a string. -/
def calledObject (obj : SmartObjectRecord) (blockHeight : Nat) (newSeal : String) (satoshis : Nat)
    (args newState : Json) : SmartObjectRecord :=
  { obj with
    sealRef := newSeal
    satoshis
    owner := (strField args "to").getD obj.owner
    stateData := newState
    updatedAtBlock := blockHeight }

def processCall (w : Writes) (now : Int) (tx : ElectrsTx) (blockHeight voutIdx : Nat)
    (out : ElectrsTxOutput) (envelope : UtxoVmEnvelope) (obj : SmartObjectRecord) :
    StoreProg (Option String) := do
  let method := methodOf (metadataOf envelope)
  let args := argsOf (metadataOf envelope)
  saveUndoLog w.undo (P.updateUndo tx blockHeight voutIdx obj)
  match ← callResult X P obj method args (sender tx) out.value with
  | none => pure none
  | some (newState, gasConsumed) => do
      let newSeal := sealOf tx.txid voutIdx
      saveObject X w.object (calledObject obj blockHeight newSeal out.value args newState)
      saveTransition w.transition
        { txid := tx.txid
          objectId := obj.objectId
          prevSeal := obj.sealRef
          newSeal
          caller := sender tx
          method
          args
          newState
          satoshis := out.value
          blockHeight
          gasConsumed
          timestamp := now }
      pure (some obj.objectId)

/-! ## 4. Processing a transaction -/

/-- The loop over the outputs from index `voutIdx` on. -/
def processOutputs (w : Writes) (now : Int) (tx : ElectrsTx) (blockHeight : Nat) :
    Nat → List ElectrsTxOutput → StoreProg (Option String)
  | _, [] => pure none
  | voutIdx, out :: rest =>
      match outputEnvelope X out with
      | .error e => .fail e
      | .ok none => processOutputs w now tx blockHeight (voutIdx + 1) rest
      | .ok (some envelope) =>
          if isCreate envelope then
            if P.validateFee tx then processCreate X P w tx blockHeight voutIdx out envelope
            else pure none
          else if P.validateFee tx then do
            match ← findTarget tx.vin with
            | some obj => processCall X P w now tx blockHeight voutIdx out envelope obj
            | none => processOutputs w now tx blockHeight (voutIdx + 1) rest
          else pure none

def processTx (w : Writes) (now : Int) (tx : ElectrsTx) (blockHeight : Nat) :
    StoreProg (Option String) :=
  processOutputs X P w now tx blockHeight 0 tx.vout

end BlockProcessor

end UtxoVm
