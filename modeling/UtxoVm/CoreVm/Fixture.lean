import UtxoVm.Consensus.Attestation
import UtxoVm.CoreVm.Execute
import UtxoVm.Reasoning.Keyed

/-!
# Replayable fixtures (`core-vm/src/fixture.rs`)

A fixture lists deploys and calls.  Replaying it threads the states of the objects, and the root
over the final states is what two replays compare.
-/

namespace UtxoVm

open RustStd

/-- The field `type` is `opType` here, as in the source. -/
structure FixtureOp where
  opType : String
  wasmHex : Option String := none
  caller : Option String := none
  sealTxid : Option String := none
  sealVout : Option Nat := none
  satoshis : Option Nat := none
  initArgsHex : Option String := none
  method : Option String := none
  argsHex : Option String := none
  objectId : Option String := none
  deriving DecidableEq, Repr

structure Fixture where
  version : Nat
  operations : List FixtureOp
  deriving DecidableEq, Repr

/-- An element of `objects`. -/
structure FixtureObject where
  objectId : String
  stateData : Bytes
  wasm : Bytes
  deriving DecidableEq, Repr

structure FixtureReport where
  stateRoot : String
  opsExecuted : Nat
  totalGas : Nat
  objectCount : Nat
  runtimeVersion : String
  runtimeHash : String
  deriving DecidableEq, Repr

/-- What the replay calls: the runtime, `serde_json` and the error texts of `hex`. -/
structure FixtureHost extends VmRuntime where
  deploy : Bytes → String → SingleUseSeal → Nat → Bytes → Except String ExecutionResult
  fromSlice : Bytes → Except String Fixture
  hexError : String → String
  version : String
  runtimeHash : String

/-! ## 1. The state root -/

/-- What is hashed of one object. -/
def fixtureEntry (entry : String × Bytes) : Bytes :=
  lenPrefixed entry.1 ++ beBytes 4 entry.2.length ++ entry.2

/-- `sort_by` on the ids, which is stable. -/
def sortById (states : List (String × Bytes)) : List (String × Bytes) :=
  states.mergeSort fun a b ↦ decide (a.1 ≤ b.1)

def fixturePreimage (states : List (String × Bytes)) : Bytes :=
  asBytes "UTXOVM_STATE_ROOT_V1" ++ (sortById states).flatMap fixtureEntry

variable (X : Crates)

def computeFixtureStateRoot (states : List (String × Bytes)) : String :=
  hexEncode (X.sha256 (fixturePreimage states)).toList

/-! ## 2. The replay -/

/-- `u64::saturating_add`. -/
def saturatingAdd (a b : Nat) : Nat := min (a + b) (2 ^ 64 - 1)

namespace FixtureOp

/-- The text of an error at the operation. -/
def ctx (i : Nat) (what : String) : String := "op[" ++ toString i ++ "] " ++ what

variable (op : FixtureOp)

def sealRef : SingleUseSeal :=
  ⟨op.sealTxid.getD (String.ofList (List.replicate 64 '0')), op.sealVout.getD 0⟩

def callerOrUnknown : String := op.caller.getD "unknown"

end FixtureOp

variable (host : FixtureHost)

def hexToBytes (s : String) : Except String Bytes :=
  match hexDecode s with
  | some bytes => .ok bytes
  | none => .error ("invalid hex: " ++ host.hexError s)

/-- `None` is no bytes. -/
def optionalBytes : Option String → Except String Bytes
  | some s => hexToBytes host s
  | none => .ok []

/-- `ok_or_else`. -/
def orError {α : Type} (message : String) : Option α → Except String α
  | some a => .ok a
  | none => .error message

/-- The deployed object, and the gas. -/
def replayDeploy (i : Nat) (op : FixtureOp) : Except String (FixtureObject × Nat) := do
  let wasm ← hexToBytes host (← orError (FixtureOp.ctx i "missing wasm_hex") op.wasmHex)
  let objectId := op.objectId.getD (Vm.calculateCodeHash X wasm)
  let initArgs ← optionalBytes host op.initArgsHex
  let res ← (host.deploy wasm op.callerOrUnknown op.sealRef (op.satoshis.getD 0) initArgs).mapError
    (FixtureOp.ctx i)
  pure (⟨objectId, res.updatedStateData, wasm⟩, res.gasConsumed)

/-- The state that `execute` is given. -/
def priorState (op : FixtureOp) (prior : FixtureObject) : SmartObjectState where
  objectId := prior.objectId
  codeHash := Vm.calculateCodeHash X prior.wasm
  sealRef := op.sealRef
  satoshis := op.satoshis.getD 0
  ownerPubkey := op.callerOrUnknown
  stateData := prior.stateData

/-- The object as the call leaves it, and the gas. -/
def replayCall (i : Nat) (op : FixtureOp) (prior : FixtureObject) :
    Except String (FixtureObject × Nat) := do
  let args ← optionalBytes host op.argsHex
  let method ← orError (FixtureOp.ctx i "missing method") op.method
  let res ←
    (host.execute prior.wasm (priorState X op prior) op.callerOrUnknown method args).mapError
      (FixtureOp.ctx i)
  pure ({ prior with stateData := res.updatedStateData }, res.gasConsumed)

/-- What an operation does: it leaves an object, a new one or one that was there before. -/
inductive FixtureEffect where
  | deployed (object : FixtureObject)
  | called (prior object : FixtureObject)

/-- The object as the operation leaves it. -/
def FixtureEffect.left : FixtureEffect → FixtureObject
  | .deployed object => object
  | .called _ object => object

/-- A deploy always appends; a call changes the first object with the id. -/
def FixtureEffect.apply (objects : List FixtureObject) : FixtureEffect → List FixtureObject
  | .deployed object => objects ++ [object]
  | .called _ object => Keyed.replace FixtureObject.objectId object objects

/-- One operation, with the gas that it takes. -/
def replayOp (i : Nat) (op : FixtureOp) (objects : List FixtureObject) :
    Except String (FixtureEffect × Nat) :=
  if op.opType = "deploy" then do
    let (object, gas) ← replayDeploy X host i op
    pure (.deployed object, gas)
  else if op.opType = "call" then do
    let objectId ← orError (FixtureOp.ctx i "missing object_id") op.objectId
    let prior ← orError (FixtureOp.ctx i ("unknown object_id '" ++ objectId ++ "'"))
      (Keyed.lookup FixtureObject.objectId objectId objects)
    let (object, gas) ← replayCall X host i op prior
    pure (.called prior object, gas)
  else .error (FixtureOp.ctx i ("unknown op type '" ++ op.opType ++ "'"))

/-- The variables of the loop. -/
structure Replay where
  objects : List FixtureObject
  totalGas : Nat
  opsExecuted : Nat

/-- The pairs that the root is over. -/
def statesOf (objects : List FixtureObject) : List (String × Bytes) :=
  objects.map fun o ↦ (o.objectId, o.stateData)

def replayFrom (i : Nat) (r : Replay) : List FixtureOp → Except String Replay
  | [] => .ok r
  | op :: ops => do
      let (effect, gas) ← replayOp X host i op r.objects
      replayFrom (i + 1)
        { objects := effect.apply r.objects
          totalGas := saturatingAdd r.totalGas gas
          opsExecuted := r.opsExecuted + 1 } ops

def verifyFixture (fixtureBytes : Bytes) : Except String FixtureReport := do
  let fixture ← (host.fromSlice fixtureBytes).mapError ("invalid fixture JSON: " ++ ·)
  if fixture.version ≠ 1 then
    .error ("unsupported fixture version " ++ toString fixture.version)
  else do
    let r ← replayFrom X host 0 ⟨[], 0, 0⟩ fixture.operations
    pure
      { stateRoot := computeFixtureStateRoot X (statesOf r.objects)
        opsExecuted := r.opsExecuted
        totalGas := r.totalGas
        objectCount := (statesOf r.objects).length
        runtimeVersion := host.version
        runtimeHash := host.runtimeHash }

end UtxoVm
