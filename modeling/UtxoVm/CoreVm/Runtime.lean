import UtxoVm.Types

/-!
# The interface of the contract runtime (`core-vm`)
-/

namespace UtxoVm

open RustStd

structure SingleUseSeal where
  txid : String
  vout : Nat
  deriving DecidableEq, Repr

structure SmartObjectState where
  objectId : String
  codeHash : String
  sealRef : SingleUseSeal
  satoshis : Nat
  ownerPubkey : String
  stateData : Bytes
  deriving DecidableEq, Repr

/-- The fields of `ExecutionResult` that describe the call itself. -/
structure ExecutionResult where
  gasConsumed : Nat
  returnCode : Int
  updatedStateData : Bytes
  deriving DecidableEq, Repr

/-- `VmRuntime::execute` on the WASM bytes, the object's state, the caller, the method and the
arguments. -/
structure VmRuntime where
  execute : Bytes → SmartObjectState → String → String → Bytes → Except String ExecutionResult

end UtxoVm
