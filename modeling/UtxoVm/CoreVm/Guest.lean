import UtxoVm.CoreVm.Runtime

/-!
# Guest — contract code and the host functions it can call (`core-vm/src/runtime.rs`)

A guest is whatever its exports do: they compute on linear memory and globals, use up fuel, call the
host, and return or trap.  What the host functions do is fixed by `build_linker`.
-/

namespace UtxoVm

open RustStd

/-- `fuel_costs`. -/
def hostGetCallerCost : Nat := 100
def hostGetSatoshisCost : Nat := 100
def hostGetSealCost : Nat := 100
def hostEmitEventCost : Nat := 500
def hostCreateObjectCost : Nat := 1000
def hostStealthSettleCost : Nat := 500
def hostMwebPegOutCost : Nat := 500

/-- `MAX_STATE_SIZE` of the runtime. -/
def maxStateSize : Nat := 1024 * 1024

/-! ## 1. The host's side -/

/-! Texts that come out of guest memory are kept as the bytes they are decoded from. -/

structure EventLog where
  topic : Bytes
  data : Bytes
  deriving DecidableEq, Repr

structure CreatedObject where
  codeHash : Bytes
  initialState : Bytes
  satoshis : UInt64
  deriving DecidableEq, Repr

structure StealthSettlement where
  stealthAddress : Bytes
  satoshis : UInt64
  deriving DecidableEq, Repr

structure HostContext where
  caller : String
  sealRef : SingleUseSeal
  satoshis : Nat
  events : List EventLog
  createdObjects : List CreatedObject
  stealthSettlements : List StealthSettlement
  mwebPegOuts : List StealthSettlement
  deriving DecidableEq, Repr

def HostContext.new (caller : String) (sealRef : SingleUseSeal) (satoshis : Nat) : HostContext :=
  { caller, sealRef, satoshis, events := [], createdObjects := [], stealthSettlements := []
    mwebPegOuts := [] }

def HostContext.fromState (state : SmartObjectState) (caller : String) : HostContext :=
  new caller state.sealRef state.satoshis

/-- An instance with its store: linear memory (exported as `memory` or not), globals, the fuel that
is left, and the host context. -/
structure VmStore where
  memory : Bytes
  exportsMemory : Bool
  globals : List UInt64
  fuel : Nat
  host : HostContext
  deriving DecidableEq, Repr

namespace VmStore

/-- `i32 as usize`: sign extension to 64 bits. -/
def usize (ptr : Int32) : Nat := (ptr.toInt % 2 ^ 64).toNat

/-- `Memory::write`: all of the bytes fit, or nothing is written. -/
def memoryWrite (s : VmStore) (offset : Nat) (bytes : Bytes) : Option VmStore :=
  if offset + bytes.length ≤ s.memory.length then
    some { s with
      memory := s.memory.take offset ++ bytes ++ s.memory.drop (offset + bytes.length) }
  else none

/-- `Memory::read` of `len` bytes. -/
def memoryRead (s : VmStore) (offset len : Nat) : Option Bytes :=
  if offset + len ≤ s.memory.length then some ((s.memory.drop offset).take len) else none

/-- `read_guest_string`: up to the first zero byte, `maxLen` bytes at most. -/
def readGuestString (s : VmStore) (ptr maxLen : Nat) : Bytes :=
  ((s.memory.drop ptr).take maxLen).takeWhile (· ≠ 0)

/-- `caller.set_fuel(fuel.saturating_sub(cost))`. -/
def charge (s : VmStore) (cost : Nat) : VmStore := { s with fuel := s.fuel - cost }

end VmStore

/-! ## 2. Host functions -/

inductive HostCall where
  | getCaller (outPtr : Int32)
  | getSatoshis
  | getSeal (outPtr : Int32)
  | emitEvent (topicPtr dataPtr len : Int32)
  | createObject (codeHashPtr statePtr stateLen : Int32) (satoshis : UInt64)
  | stealthSettle (stealthAddrPtr : Int32) (satoshis : UInt64)
  | mwebPegOut (stealthAddrPtr : Int32) (satoshis : UInt64)
  | abort
  deriving DecidableEq, Repr

namespace HostCall

/-- Write a text to guest memory; its length, or `0` when that fails. -/
def writeText (text : Bytes) (outPtr : Int32) (s : VmStore) : VmStore × UInt64 :=
  if s.exportsMemory then
    match s.memoryWrite (VmStore.usize outPtr) text with
    | some s' => (s', UInt64.ofNat text.length)
    | none => (s, 0)
  else (s, 0)

/-- `SingleUseSeal` as text. -/
def sealText (sealRef : SingleUseSeal) : String := sealRef.txid ++ ":" ++ toString sealRef.vout

/-- A host function: the store after it, and what it returns or the message it traps with. -/
def perform : HostCall → VmStore → VmStore × Except String UInt64
  | getCaller outPtr, s =>
      let (s, len) := writeText (asBytes s.host.caller) outPtr (s.charge hostGetCallerCost)
      (s, .ok len)
  | getSatoshis, s => (s.charge hostGetSatoshisCost, .ok (UInt64.ofNat s.host.satoshis))
  | getSeal outPtr, s =>
      let (s, len) := writeText (asBytes (sealText s.host.sealRef)) outPtr
        (s.charge hostGetSealCost)
      (s, .ok len)
  | emitEvent topicPtr dataPtr len, s =>
      let s := s.charge hostEmitEventCost
      if s.exportsMemory then
        let topic := s.readGuestString (VmStore.usize topicPtr) 64
        match s.memoryRead (VmStore.usize dataPtr) len.toInt.toNat with
        | some data =>
            ({ s with host := { s.host with events := s.host.events ++ [⟨topic, data⟩] } }, .ok 0)
        | none => (s, .ok 0)
      else (s, .ok 0)
  | createObject codeHashPtr statePtr stateLen satoshis, s =>
      let s := s.charge hostCreateObjectCost
      if stateLen < 0 ∨ maxStateSize < VmStore.usize stateLen then
        (s, .error ("host_create_object: state size " ++ toString stateLen.toInt ++
          " exceeds MAX_STATE_SIZE (" ++ toString maxStateSize ++ ") or is negative"))
      else if s.exportsMemory then
        let codeHash := s.readGuestString (VmStore.usize codeHashPtr) 64
        match s.memoryRead (VmStore.usize statePtr) (VmStore.usize stateLen) with
        | some initialState =>
            ({ s with host := { s.host with
                createdObjects := s.host.createdObjects ++ [⟨codeHash, initialState, satoshis⟩] } },
              .ok 1)
        | none =>
            (s, .error "host_create_object: failed to read guest memory: out of bounds memory access")
      else (s, .error "host_create_object: missing memory export")
  | stealthSettle stealthAddrPtr satoshis, s =>
      let s := s.charge hostStealthSettleCost
      if s.exportsMemory then
        let stealthAddress := s.readGuestString (VmStore.usize stealthAddrPtr) 128
        ({ s with host := { s.host with
            stealthSettlements := s.host.stealthSettlements ++ [⟨stealthAddress, satoshis⟩] } },
          .ok 1)
      else (s, .ok 0)
  | mwebPegOut stealthAddrPtr satoshis, s =>
      let s := s.charge hostMwebPegOutCost
      if s.exportsMemory then
        let stealthAddress := s.readGuestString (VmStore.usize stealthAddrPtr) 128
        ({ s with host := { s.host with
            mwebPegOuts := s.host.mwebPegOuts ++ [⟨stealthAddress, satoshis⟩] } }, .ok 1)
      else (s, .ok 0)
  | abort, s => (s, .error "AssemblyScript abort called")

end HostCall

/-! ## 3. Guest code -/

/-- What an export does on one call.  A `step` uses fuel and turns memory and globals into new ones;
what follows may depend on everything the guest can see. -/
inductive GuestCode (α : Type) where
  | ret (a : α)
  | trap (message : String)
  | step (cost : Nat) (write : Bytes → List UInt64 → Bytes × List UInt64)
      (next : Bytes → List UInt64 → GuestCode α)
  | host (call : HostCall) (next : UInt64 → GuestCode α)

namespace GuestCode

/-- `Trap::OutOfFuel`. -/
def outOfFuel : String := "all fuel consumed by WebAssembly"

/-- Run guest code: it returns, or it traps; memory and host context stay as it left them. -/
def run {α : Type} : GuestCode α → VmStore → VmStore × Except String α
  | ret a, s => (s, .ok a)
  | trap message, s => (s, .error message)
  | step cost write next, s =>
      if s.fuel < cost then ({ s with fuel := 0 }, .error outOfFuel)
      else
        let (memory, globals) := write s.memory s.globals
        (next s.memory s.globals).run { s with memory, globals, fuel := s.fuel - cost }
  | host call next, s =>
      match call.perform s with
      | (s', .ok v) => (next v).run s'
      | (s', .error message) => (s', .error message)

end GuestCode

/-- A compiled module: what instantiation does, and the functions it exports under the names and
types of the contract interface (`none` when there is no such export).  The result of `deallocate`,
if it has one, is never looked at. -/
structure Module where
  /-- An import that the linker does not provide. -/
  linkError : Option String
  memory : Bytes
  exportsMemory : Bool
  globals : List UInt64
  start : GuestCode Unit
  allocate : Option (Int32 → GuestCode Int32)
  deallocate : Option (Int32 → Int32 → GuestCode Unit)
  init : Option (Int32 → Int32 → GuestCode Int32)
  restoreState : Option (Int32 → Int32 → GuestCode Int32)
  call : Option (Int32 → Int32 → Int32 → GuestCode Int32)
  getState : Option (Int32 → GuestCode Int32)
  getStateSize : Option (GuestCode Int32)

/-- The compiler of the engine. -/
structure Engine where
  compile : Bytes → Except String Module

structure VmConfig where
  maxGas : Nat := 25000000

end UtxoVm
