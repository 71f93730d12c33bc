import UtxoVm.CoreVm.Guest
import UtxoVm.Reasoning.Prog

/-!
# Deploying and executing contracts (`VmRuntime` in `core-vm/src/runtime.rs`)

`deploy` runs `init` of a fresh instance; `execute` restores the state of an object, runs `call` and
reads the new state back.  An error drops the instance with all that the guest has done.
-/

namespace UtxoVm

open RustStd

/-- Code that runs on one instance. -/
abbrev VmProg := Prog VmStore String

/-- `ExecutionResult`. -/
structure VmOutcome extends ExecutionResult where
  events : List EventLog
  createdObjects : List CreatedObject
  stealthSettlements : List StealthSettlement
  mwebPegOuts : List StealthSettlement
  deriving DecidableEq, Repr

namespace Vm

/-- `calculate_code_hash`. -/
def calculateCodeHash (X : Crates) (wasmBytes : Bytes) : String :=
  hexEncode (X.sha256 wasmBytes).toList

def missingAllocate : String :=
  "Module does not implement required ABI: missing 'allocate' export"

/-- `MemoryAccessError`. -/
def outOfBounds : String := "out of bounds memory access"

/-- `GET_STATE_BUF_SIZE`. -/
def getStateBufSize : Int32 := 65536

/-- The cap on the buffer for `get_state`. -/
def maxStateBuf : Int32 := 1048576

/-! ## 1. Calling into the guest -/

/-- Call an export; a trap fails the program under the given text. -/
def guestCall {α : Type} (context : String) (code : GuestCode α) : VmProg α :=
  .act (fun s ↦ (code.run s).1) fun s ↦
    match (code.run s).2 with
    | .ok a => .done a
    | .error message => .fail (context ++ message)

/-- `.unwrap_or(0)`. -/
def orZero : Except String Int32 → Int32
  | .ok n => n
  | .error _ => 0

/-- `.call(..).unwrap_or(0)`. -/
def guestCallOrZero (code : GuestCode Int32) : VmProg Int32 := do
  let result ← (guestCall "" code).attempt
  pure (orZero result)

def writeMemory (context : String) (ptr : Int32) (bytes : Bytes) : VmProg Unit :=
  .act (fun s ↦ (s.memoryWrite (VmStore.usize ptr) bytes).getD s) fun s ↦
    match s.memoryWrite (VmStore.usize ptr) bytes with
    | some _ => .done ()
    | none => .fail (context ++ outOfBounds)

def readMemory (context : String) (ptr : Int32) (len : Nat) : VmProg Bytes := do
  match ← .read (·.memoryRead (VmStore.usize ptr) len) with
  | some bytes => pure bytes
  | none => .fail (context ++ outOfBounds)

variable (m : Module)

def instantiate : VmProg Unit :=
  match m.linkError with
  | some message => .fail ("Instantiation error: " ++ message)
  | none => guestCall "Instantiation error: " m.start

def allocateGuest (context : String) (size : Int32) : VmProg Int32 :=
  match m.allocate with
  | some allocate => guestCall context (allocate size)
  | none => .fail missingAllocate

/-- A trap in `deallocate` is ignored. -/
def deallocateGuest (ptr size : Int32) : VmProg Unit :=
  match m.deallocate with
  | some deallocate => do
      let _ ← (guestCall "" (deallocate ptr size)).attempt
      pure ()
  | none => pure ()

/-! ## 2. Reading the state back -/

/-- The buffer for `get_state`: what `get_state_size` reports, within bounds. -/
def stateBufSize : VmProg Int32 :=
  match m.getStateSize with
  | some getStateSize => do
      let actual ← guestCallOrZero getStateSize
      pure (if 0 < actual then min actual maxStateBuf else getStateBufSize)
  | none => pure getStateBufSize

/-- The texts of `deploy` and `execute` for the same failures. -/
structure ReadTexts where
  allocate : String
  overflow : String

def deployTexts : ReadTexts where
  allocate := "allocate() for get_state error: "
  overflow := " Contract state exceeds maximum allowed size."

def executeTexts : ReadTexts where
  allocate := "allocate() error: "
  overflow := ""

/-- The bytes that `get_state` has reported; `prior` when it has reported no length. -/
def readReported (texts : ReadTexts) (prior : Bytes) (bufSize stateOutPtr len : Int32) :
    VmProg Bytes :=
  if 0 < len ∧ len ≤ bufSize then readMemory "Memory read error: " stateOutPtr len.toInt.toNat
  else if bufSize < len then
    .fail ("State overflow: guest returned " ++ toString len.toInt ++ " bytes but only " ++
      toString bufSize.toInt ++ " allocated." ++ texts.overflow)
  else pure prior

/-- Read the state that the guest exports; `prior` when there is none. -/
def readState (texts : ReadTexts) (prior : Bytes) : VmProg Bytes :=
  match m.getState with
  | none => pure prior
  | some getState => do
      let bufSize ← stateBufSize m
      let stateOutPtr ← allocateGuest m texts.allocate bufSize
      let len ← guestCallOrZero (getState stateOutPtr)
      let stateData ← readReported texts prior bufSize stateOutPtr len
      deallocateGuest m stateOutPtr bufSize
      pure stateData

/-- The fields that are taken from the store at the end. -/
def outcome (config : VmConfig) (returnCode : Int32) (updatedStateData : Bytes) (s : VmStore) :
    VmOutcome where
  gasConsumed := config.maxGas - s.fuel
  returnCode := returnCode.toInt
  updatedStateData
  events := s.host.events
  createdObjects := s.host.createdObjects
  stealthSettlements := s.host.stealthSettlements
  mwebPegOuts := s.host.mwebPegOuts

/-- A fresh store for an instance of the module. -/
def newStore (config : VmConfig) (host : HostContext) : VmStore where
  memory := m.memory
  exportsMemory := m.exportsMemory
  globals := m.globals
  fuel := config.maxGas
  host

/-! ## 3. `deploy` -/

def runInit (initArgs : Bytes) : VmProg Int32 :=
  match m.init with
  | none => pure 0
  | some init => do
      let argsLen := Int32.ofNat initArgs.length
      let argsPtr ←
        if initArgs.isEmpty then pure 0
        else do
          let ptr ← allocateGuest m "allocate() error: " argsLen
          writeMemory "Memory write error: " ptr initArgs
          pure ptr
      let returnCode ← guestCall "Init execution error: " (init argsPtr argsLen)
      if initArgs.isEmpty then pure ()
      else deallocateGuest m argsPtr argsLen
      pure returnCode

def deploySession (config : VmConfig) (initArgs : Bytes) : VmProg VmOutcome := do
  instantiate m
  if m.exportsMemory then pure () else .fail "Memory not found"
  let returnCode ← runInit m initArgs
  let stateData ← readState m deployTexts []
  .read (outcome config returnCode (if stateData.isEmpty then initArgs else stateData))

def deploy (engine : Engine) (config : VmConfig) (wasmBytes : Bytes) (caller : String)
    (sealRef : SingleUseSeal) (satoshis : Nat) (initArgs : Bytes) : Except String VmOutcome :=
  match engine.compile wasmBytes with
  | .error message => .error ("Module compilation error: " ++ message)
  | .ok m =>
      ((deploySession m config initArgs).run
        (newStore m config (HostContext.new caller sealRef satoshis))).2

/-! ## 4. `execute` -/

/-- The exports that a call needs. -/
def checkAbi (stateData args : Bytes) : Except String Unit :=
  if !m.exportsMemory then .error "Module does not export 'memory'"
  else if (!args.isEmpty || !stateData.isEmpty) && m.allocate.isNone then .error missingAllocate
  else if m.getState.isSome && m.allocate.isNone then .error missingAllocate
  else if m.call.isSome && m.allocate.isNone then .error missingAllocate
  else .ok ()

/-- Hand the state to the guest; the return code of `restore_state` is not looked at by
`execute`. -/
def restoreState (stateData : Bytes) : VmProg Int32 :=
  if stateData.isEmpty then pure 0
  else do
    let stateLen := Int32.ofNat stateData.length
    let statePtr ← allocateGuest m "allocate() error: " stateLen
    writeMemory "Failed to write state to guest memory: " statePtr stateData
    let returnCode ←
      match m.restoreState with
      | some restore => guestCall "State restore error: " (restore statePtr stateLen)
      | none => pure 0
    deallocateGuest m statePtr stateLen
    pure returnCode

/-- The method name, terminated by a zero byte. -/
def writeMethod (method : String) : VmProg (Int32 × Int32) :=
  if m.allocate.isSome then do
    let methodBytes := asBytes method ++ [0]
    let len := Int32.ofNat methodBytes.length
    let ptr ← allocateGuest m "allocate() error: " len
    writeMemory "Failed to write method to guest memory: " ptr methodBytes
    pure (ptr, len)
  else pure (0, 0)

def writeArgs (args : Bytes) : VmProg Int32 :=
  if args.isEmpty then pure 0
  else do
    let ptr ← allocateGuest m "allocate() error: " (Int32.ofNat args.length)
    writeMemory "Failed to write args to guest memory: " ptr args
    pure ptr

/-- Everything up to the call of `restore_state`. -/
def restoreSession (stateData args : Bytes) : VmProg Int32 := do
  instantiate m
  .ofExcept (checkAbi m stateData args)
  restoreState m stateData

/-- Run the method; the return code of `call`. -/
def callMethod (method : String) (args : Bytes) : VmProg Int32 := do
  let (methodPtr, methodLen) ← writeMethod m method
  let argsPtr ← writeArgs m args
  let argsLen := Int32.ofNat args.length
  let returnCode ←
    match m.call with
    | some call => guestCall "Call execution trapped: " (call methodPtr argsPtr argsLen)
    | none => pure 0
  if methodPtr ≠ 0 then deallocateGuest m methodPtr methodLen else pure ()
  if args.isEmpty then pure () else deallocateGuest m argsPtr argsLen
  pure returnCode

/-- Everything up to the point where the state is read back. -/
def callSession (method : String) (stateData args : Bytes) : VmProg Int32 := do
  let _ ← restoreSession m stateData args
  callMethod m method args

def executeSession (config : VmConfig) (method : String) (stateData args : Bytes) :
    VmProg VmOutcome := do
  let returnCode ← callSession m method stateData args
  let updatedStateData ← readState m executeTexts stateData
  .read (outcome config returnCode updatedStateData)

def execute (X : Crates) (engine : Engine) (config : VmConfig) (wasmBytes : Bytes)
    (state : SmartObjectState) (caller method : String) (args : Bytes) : Except String VmOutcome :=
  if !state.codeHash.isEmpty && calculateCodeHash X wasmBytes != state.codeHash then
    .error ("Code hash mismatch: expected=" ++ state.codeHash ++ ", actual=" ++
      calculateCodeHash X wasmBytes)
  else
    match engine.compile wasmBytes with
    | .error message => .error ("Module compilation error: " ++ message)
    | .ok m =>
        ((executeSession m config method state.stateData args).run
          (newStore m config (HostContext.fromState state caller))).2

/-- The runtime that the block processor calls. -/
def runtime (X : Crates) (engine : Engine) (config : VmConfig) : VmRuntime where
  execute wasmBytes state caller method args :=
    (execute X engine config wasmBytes state caller method args).map (·.toExecutionResult)

end Vm

end UtxoVm
