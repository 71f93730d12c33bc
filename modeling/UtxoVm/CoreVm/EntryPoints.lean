import UtxoVm.CoreVm.ExportedState
import UtxoVm.CoreVm.FixtureReplay

/-!
# Entry points of the VM (`core-vm/src/ffi.rs`, `core-vm/src/bin/main.rs`)

The C interface, the command line and the fixture verifier run the same contracts from different
requests.  A caller of the C interface that threads the states itself gets the root that the
verifier reports; the command line does what the C interface does, but for a call it has no satoshis.
-/

namespace UtxoVm

open RustStd

/-- What the entry points call: the engine, `serde_json` and the error texts of `hex`. -/
structure VmLibrary where
  engine : Engine
  fromSlice : Bytes → Except String Json
  fixtureFromSlice : Bytes → Except String Fixture
  hexError : String → String
  version : String
  runtimeHash : String

section

variable (X : Crates) (lib : VmLibrary)

/-- The runtime with its default configuration, as the fixture verifier uses it. -/
def VmLibrary.host : FixtureHost where
  execute := (Vm.runtime X lib.engine {}).execute
  deploy wasmBytes caller sealRef satoshis initArgs :=
    (Vm.deploy lib.engine {} wasmBytes caller sealRef satoshis initArgs).map (·.toExecutionResult)
  fromSlice := lib.fixtureFromSlice
  hexError := lib.hexError
  version := lib.version
  runtimeHash := lib.runtimeHash

/-- The members of a result that the command line prints. -/
structure PrintedResult where
  gasConsumed : Nat
  returnCode : Int
  updatedStateHex : String
  events : List EventLog
  createdObjects : Nat
  stealthSettlements : Nat
  deriving DecidableEq

/-- The members of `exec_result_json`. -/
structure ExecResultJson extends PrintedResult where
  mwebPegOuts : Nat
  deriving DecidableEq

def execResultJson (r : VmOutcome) : ExecResultJson where
  gasConsumed := r.gasConsumed
  returnCode := r.returnCode
  updatedStateHex := hexEncode r.updatedStateData
  events := r.events
  createdObjects := r.createdObjects.length
  stealthSettlements := r.stealthSettlements.length
  mwebPegOuts := r.mwebPegOuts.length

def zeroTxid : String := String.ofList (List.replicate 64 '0')

/-! ## 1. The C interface -/

namespace Ffi

def getStr (v : Json) (key : String) : Except String String :=
  match (v.get? key).bind Json.asStr? with
  | some s => .ok s
  | none => .error ("missing field '" ++ key ++ "'")

def getStrOr (v : Json) (key default : String) : String :=
  ((v.get? key).bind Json.asStr?).getD default

def getU64 (v : Json) (key : String) : Nat :=
  (((v.get? key).bind Json.asU64?).map UInt64.toNat).getD 0

/-- `as u32` keeps the low half. -/
def sealFromJson (v : Json) : SingleUseSeal :=
  ⟨getStrOr v "seal_txid" zeroTxid, getU64 v "seal_vout" % 2 ^ 32⟩

def hexField (v : Json) (key : String) : Except String Bytes :=
  let s := getStrOr v key ""
  if s = "" then .ok [] else hexToBytes (lib.host X) s

def doDeploy (args : Json) : Except String ExecResultJson := do
  let wasmBytes ← hexToBytes (lib.host X) (← getStr args "wasm_hex")
  let initArgs ← hexField X lib args "init_args_hex"
  let result ← Vm.deploy lib.engine {} wasmBytes (getStrOr args "caller" "unknown")
    (sealFromJson args) (getU64 args "satoshis") initArgs
  pure (execResultJson result)

def doExecute (args : Json) : Except String ExecResultJson := do
  let wasmBytes ← hexToBytes (lib.host X) (← getStr args "wasm_hex")
  let caller := getStrOr args "caller" "unknown"
  let stateData ← hexField X lib args "state_hex"
  let state : SmartObjectState :=
    { objectId := getStrOr args "object_id" ""
      codeHash := Vm.calculateCodeHash X wasmBytes
      sealRef := sealFromJson args
      satoshis := getU64 args "satoshis"
      ownerPubkey := caller
      stateData }
  let method ← getStr args "method"
  let methodArgs ← hexField X lib args "args_hex"
  let result ← Vm.execute X lib.engine {} wasmBytes state caller method methodArgs
  pure (execResultJson result)

/-- `FfiResponse`. -/
structure Response (α : Type) where
  success : Bool
  result : Option α
  error : Option String

def Response.of {α : Type} : Except String α → Response α
  | .ok result => ⟨true, some result, none⟩
  | .error e => ⟨false, none, some e⟩

def runFfi {α : Type} (input : Bytes) (f : Json → Except String α) : Response α :=
  .of ((lib.fromSlice input).mapError ("invalid JSON request: " ++ ·) >>= f)

def utxovmDeploy (req : Bytes) : Response ExecResultJson := runFfi lib req (doDeploy X lib)

def utxovmExecute (req : Bytes) : Response ExecResultJson := runFfi lib req (doExecute X lib)

def utxovmVerify (fixture : Bytes) : Response FixtureReport :=
  .of (verifyFixture X (lib.host X) fixture)

end Ffi

/-! ## 2. The command line -/

namespace Cli

/-- `args[key].as_str()`: indexing gives `Null` where there is no such member. -/
def str (args : Json) (key : String) : Option String := (args.get? key).bind Json.asStr?

def u64 (args : Json) (key : String) : Option Nat :=
  ((args.get? key).bind Json.asU64?).map UInt64.toNat

def hexToBytes (hex : String) : Except String Bytes :=
  match hexDecode hex with
  | some bytes => .ok bytes
  | none => .error ("Invalid hex: " ++ lib.hexError hex)

def orMissing (message : String) : Option String → Except String String
  | some s => .ok s
  | none => .error message

def optionalHex (hex : String) : Except String Bytes :=
  if hex = "" then .ok [] else hexToBytes lib hex

/-- The result without the peg-outs. -/
def printed (r : VmOutcome) : PrintedResult where
  gasConsumed := r.gasConsumed
  returnCode := r.returnCode
  updatedStateHex := hexEncode r.updatedStateData
  events := r.events
  createdObjects := r.createdObjects.length
  stealthSettlements := r.stealthSettlements.length

def handleDeploy (args : Json) : Except String PrintedResult := do
  let wasmHex ← orMissing "Missing wasm_hex" (str args "wasm_hex")
  let wasmBytes ← hexToBytes lib wasmHex
  let caller := (str args "caller").getD "unknown"
  let sealTxid := (str args "seal_txid").getD zeroTxid
  let sealVout := (u64 args "seal_vout").getD 0 % 2 ^ 32
  let satoshis := (u64 args "satoshis").getD 0
  let initArgs ← optionalHex lib ((str args "init_args_hex").getD "")
  let result ← Vm.deploy lib.engine {} wasmBytes caller ⟨sealTxid, sealVout⟩ satoshis initArgs
  pure (printed result)

def handleExecute (args : Json) : Except String PrintedResult := do
  let wasmHex ← orMissing "Missing wasm_hex" (str args "wasm_hex")
  let wasmBytes ← hexToBytes lib wasmHex
  let stateData ← optionalHex lib ((str args "state_hex").getD "")
  let caller := (str args "caller").getD "unknown"
  let method ← orMissing "Missing method" (str args "method")
  let methodArgs ← optionalHex lib ((str args "args_hex").getD "")
  let sealTxid := (str args "seal_txid").getD zeroTxid
  let sealVout := (u64 args "seal_vout").getD 0 % 2 ^ 32
  let state : SmartObjectState :=
    { objectId := "", codeHash := "", sealRef := ⟨sealTxid, sealVout⟩, satoshis := 0
      ownerPubkey := caller, stateData }
  let result ← Vm.execute X lib.engine {} wasmBytes state caller method methodArgs
  pure (printed result)

end Cli

end

/-! ## 3. Successes, apart from the texts of errors -/

theorem toOption_bind {ε α β : Type} (x : Except ε α) (f : α → Except ε β) :
    (x >>= f).toOption = x.toOption.bind fun a ↦ (f a).toOption := by
  cases x <;> rfl

theorem toOption_map {ε α β : Type} (x : Except ε α) (f : α → β) :
    (x.map f).toOption = x.toOption.map f := by
  cases x <;> rfl

theorem toOption_mapError {ε ε' α : Type} (x : Except ε α) (f : ε → ε') :
    (x.mapError f).toOption = x.toOption := by
  cases x <;> rfl

section

variable {X : Crates} {lib : VmLibrary}

theorem toOption_hexToBytes (host : FixtureHost) (s : String) :
    (hexToBytes host s).toOption = hexDecode s := by
  unfold hexToBytes
  cases hexDecode s <;> rfl

theorem Cli.toOption_hexToBytes (s : String) :
    (Cli.hexToBytes lib s).toOption = hexDecode s := by
  unfold Cli.hexToBytes
  cases hexDecode s <;> rfl

theorem hexDecode_empty : hexDecode "" = some [] := by rfl

/-- No hex at all is read like the empty text. -/
theorem Cli.toOption_optionalHex (s : String) :
    (Cli.optionalHex lib s).toOption = hexDecode s := by
  unfold Cli.optionalHex
  split
  · rename_i hempty
    rw [hempty, hexDecode_empty]
    rfl
  · exact Cli.toOption_hexToBytes s

theorem Ffi.toOption_hexField (v : Json) (key : String) :
    (Ffi.hexField X lib v key).toOption = hexDecode ((Cli.str v key).getD "") := by
  unfold Ffi.hexField Ffi.getStrOr
  dsimp only
  split
  · rename_i hempty
    show some [] = hexDecode (((v.get? key).bind Json.asStr?).getD "")
    rw [hempty, hexDecode_empty]
  · exact UtxoVm.toOption_hexToBytes _ _

theorem Ffi.toOption_getStr (v : Json) (key : String) :
    (Ffi.getStr v key).toOption = Cli.str v key := by
  unfold Ffi.getStr Cli.str
  cases (v.get? key).bind Json.asStr? <;> rfl

theorem Cli.toOption_orMissing (message : String) (o : Option String) :
    (Cli.orMissing message o).toOption = o := by
  cases o <;> rfl

/-! ## 4. The command line and the C interface -/

/-- The request without its satoshis. -/
def withoutSatoshis : Json → Json
  | .object fields => .object (fields.filter fun field ↦ field.1 ≠ "satoshis")
  | j => j

theorem get?_withoutSatoshis (v : Json) (key : String) :
    (withoutSatoshis v).get? key = if key = "satoshis" then none else v.get? key := by
  cases v with
  | object fields =>
    show ((fields.filter _).find? _).map _ = if key = "satoshis" then none else (fields.find? _).map _
    rw [List.find?_filter]
    split
    · rename_i hkey
      rw [List.find?_eq_none.mpr]
      · rfl
      · intro a _
        rw [hkey]
        simp
    · rename_i hkey
      congr 2
      funext a
      by_cases ha : a.1 = key
      · simp [ha, hkey]
      · simp [ha]
  | _ => split <;> rfl

/-- The VM does not look at the id, and a code hash that is that of the code is as good as none. -/
theorem execute_codeHash (X : Crates) (engine : Engine) (config : VmConfig) (wasmBytes : Bytes)
    (objectId : String) (sealRef : SingleUseSeal) (satoshis : Nat) (ownerPubkey : String)
    (stateData : Bytes) (caller method : String) (args : Bytes) :
    Vm.execute X engine config wasmBytes
        ⟨objectId, Vm.calculateCodeHash X wasmBytes, sealRef, satoshis, ownerPubkey, stateData⟩
        caller method args =
      Vm.execute X engine config wasmBytes ⟨"", "", sealRef, satoshis, ownerPubkey, stateData⟩
        caller method args := by
  unfold Vm.execute
  rw [if_neg (by simp), if_neg (by simp)]
  rfl

theorem str_withoutSatoshis (v : Json) {key : String} (hkey : key ≠ "satoshis") :
    Cli.str (withoutSatoshis v) key = Cli.str v key := by
  unfold Cli.str
  rw [get?_withoutSatoshis, if_neg hkey]

/-- The seal and the satoshis of a request, read by both. -/
theorem getU64_eq (v : Json) (key : String) : Ffi.getU64 v key = (Cli.u64 v key).getD 0 := rfl

theorem getStrOr_eq (v : Json) (key default : String) :
    Ffi.getStrOr v key default = (Cli.str v key).getD default := rfl

/-- The handlers agree on a deploy as it is, on a call as if the request had no satoshis. -/
theorem handlers_agree (args : Json) :
    (Cli.handleDeploy lib args).toOption =
        (Ffi.doDeploy X lib args).toOption.map (·.toPrintedResult) ∧
      (Cli.handleExecute X lib args).toOption =
        (Ffi.doExecute X lib (withoutSatoshis args)).toOption.map (·.toPrintedResult) := by
  constructor
  · unfold Cli.handleDeploy Ffi.doDeploy
    simp only [toOption_bind, Cli.toOption_orMissing, Cli.toOption_hexToBytes,
      Cli.toOption_optionalHex, Ffi.toOption_getStr, toOption_hexToBytes, Ffi.toOption_hexField,
      getStrOr_eq, Ffi.sealFromJson, getU64_eq, Option.map_bind, Function.comp_def]
    rfl
  · unfold Cli.handleExecute Ffi.doExecute
    have hsatoshis : Ffi.getU64 (withoutSatoshis args) "satoshis" = 0 := by
      unfold Ffi.getU64
      rw [get?_withoutSatoshis, if_pos rfl]
      rfl
    have hvout : Ffi.getU64 (withoutSatoshis args) "seal_vout" =
        (Cli.u64 args "seal_vout").getD 0 := by
      unfold Ffi.getU64 Cli.u64
      rw [get?_withoutSatoshis, if_neg (by decide)]
    simp (disch := decide) only [toOption_bind, Cli.toOption_orMissing, Cli.toOption_hexToBytes,
      Cli.toOption_optionalHex, Ffi.toOption_getStr, toOption_hexToBytes, Ffi.toOption_hexField,
      getStrOr_eq, Ffi.sealFromJson, hsatoshis, hvout, Option.map_bind, Function.comp_def,
      str_withoutSatoshis]
    simp only [execute_codeHash]
    rfl

theorem Ffi.result_of {α : Type} (r : Except String α) : (Ffi.Response.of r).result = r.toOption := by
  cases r <;> rfl

/-- A library whose requests have lost their satoshis. -/
def VmLibrary.dropsSatoshis (lib : VmLibrary) : VmLibrary :=
  { lib with fromSlice := fun req ↦ (lib.fromSlice req).map withoutSatoshis }

/-- **The command line agrees with the C interface**, for every request: on a deploy as it is, on a
call as if the request had no satoshis.  Only the texts of the errors differ, and the peg-outs are
not printed. -/
theorem cli_agrees_with_ffi (X : Crates) (lib : VmLibrary) (req : Bytes) :
    ((lib.fromSlice req).toOption.bind fun args ↦ (Cli.handleDeploy lib args).toOption) =
        (Ffi.utxovmDeploy X lib req).result.map (·.toPrintedResult) ∧
      ((lib.fromSlice req).toOption.bind fun args ↦ (Cli.handleExecute X lib args).toOption) =
        (Ffi.utxovmExecute X lib.dropsSatoshis req).result.map (·.toPrintedResult) := by
  have hread : lib.dropsSatoshis.fromSlice req = (lib.fromSlice req).map withoutSatoshis := rfl
  unfold Ffi.utxovmDeploy Ffi.utxovmExecute Ffi.runFfi
  rw [Ffi.result_of, Ffi.result_of, hread]
  cases lib.fromSlice req with
  | error message => exact ⟨rfl, rfl⟩
  | ok args => exact handlers_agree args

/-! ## 5. Replaying a fixture through the C interface -/

/-- The members that are there. -/
def fieldsOf : List (String × Option Json) → List (String × Json)
  | [] => []
  | (name, some v) :: members => (name, v) :: fieldsOf members
  | (_, none) :: members => fieldsOf members

theorem name_of_mem_fieldsOf {members : List (String × Option Json)} {field : String × Json}
    (h : field ∈ fieldsOf members) : field.1 ∈ members.map (·.1) := by
  induction members with
  | nil => exact absurd h List.not_mem_nil
  | cons m members ih =>
    obtain ⟨name, _ | v⟩ := m
    · exact List.mem_cons_of_mem _ (ih h)
    · rcases List.mem_cons.mp h with rfl | h
      · exact List.mem_cons_self
      · exact List.mem_cons_of_mem _ (ih h)

theorem get?_fieldsOf {members : List (String × Option Json)} (hnodup : (members.map (·.1)).Nodup)
    {key : String} {v : Option Json} (hmem : (key, v) ∈ members) :
    (Json.object (fieldsOf members)).get? key = v := by
  show ((fieldsOf members).find? fun field ↦ field.1 == key).map (·.2) = v
  induction members with
  | nil => exact absurd hmem List.not_mem_nil
  | cons m members ih =>
    rw [List.map_cons, List.nodup_cons] at hnodup
    rcases List.mem_cons.mp hmem with rfl | hrest
    · cases v with
      | none =>
        -- the other members have other names
        rw [List.find?_eq_none.mpr]
        · rfl
        · intro field hfield hname
          rw [← beq_iff_eq.mp hname] at hnodup
          exact hnodup.1 (name_of_mem_fieldsOf hfield)
      | some j =>
        show (((key, j) :: fieldsOf members).find? _).map _ = _
        rw [List.find?_cons_of_pos (by simp)]
        rfl
    · obtain ⟨name, _ | j⟩ := m
      · exact ih hnodup.2 hrest
      · have hne : name ≠ key := by
          rintro rfl
          exact hnodup.1 (List.mem_map.mpr ⟨_, hrest, rfl⟩)
        show (((name, j) :: fieldsOf members).find? _).map _ = _
        rw [List.find?_cons_of_neg (by simpa using hne)]
        exact ih hnodup.2 hrest

def jsonU64 (n : Nat) : Json := .number (.posInt (.ofNat n))

namespace FixtureOp

variable (op : FixtureOp)

/-- What `u32` and `u64` promise. -/
structure Typed : Prop where
  sealVout : ∀ n, op.sealVout = some n → n < 2 ^ 32
  satoshis : ∀ n, op.satoshis = some n → n < 2 ^ 64

/-- The request of the C interface for a deploy of a fixture. -/
def deployRequest : Json :=
  .object (fieldsOf
    [("caller", op.caller.map .string), ("init_args_hex", op.initArgsHex.map .string),
      ("satoshis", op.satoshis.map jsonU64), ("seal_txid", op.sealTxid.map .string),
      ("seal_vout", op.sealVout.map jsonU64), ("wasm_hex", op.wasmHex.map .string)])

/-- The request for a call, on the code and the state of the object. -/
def executeRequest (prior : FixtureObject) : Json :=
  .object (fieldsOf
    [("args_hex", op.argsHex.map .string), ("caller", op.caller.map .string),
      ("method", op.method.map .string), ("object_id", some (.string prior.objectId)),
      ("satoshis", op.satoshis.map jsonU64), ("seal_txid", op.sealTxid.map .string),
      ("seal_vout", op.sealVout.map jsonU64),
      ("state_hex", some (.string (hexEncode prior.stateData))),
      ("wasm_hex", some (.string (hexEncode prior.wasm)))])

end FixtureOp

theorem str_fieldsOf {members : List (String × Option Json)} (hnodup : (members.map (·.1)).Nodup)
    {key : String} {s : Option String} (hmem : (key, s.map Json.string) ∈ members) :
    Cli.str (.object (fieldsOf members)) key = s := by
  unfold Cli.str
  rw [get?_fieldsOf hnodup hmem]
  cases s <;> rfl

theorem u64_fieldsOf {members : List (String × Option Json)} (hnodup : (members.map (·.1)).Nodup)
    {key : String} {n : Option Nat} (hn : ∀ m, n = some m → m < 2 ^ 64)
    (hmem : (key, n.map jsonU64) ∈ members) : Cli.u64 (.object (fieldsOf members)) key = n := by
  unfold Cli.u64
  rw [get?_fieldsOf hnodup hmem]
  cases n with
  | none => rfl
  | some m => exact congrArg some (UInt64.toNat_ofNat_of_lt' (hn m rfl))

theorem toOption_optionalBytes (host : FixtureHost) (o : Option String) :
    (optionalBytes host o).toOption = hexDecode (o.getD "") := by
  cases o with
  | none => exact hexDecode_empty.symm
  | some s => exact toOption_hexToBytes host s

theorem toOption_orError {α : Type} (message : String) (o : Option α) :
    (orError message o).toOption = o := by
  cases o <;> rfl

/-- What a request of the C interface says about the seal and the satoshis. -/
structure Says (request : Json) (op : FixtureOp) : Prop where
  caller : Cli.str request "caller" = op.caller
  sealTxid : Cli.str request "seal_txid" = op.sealTxid
  sealVout : Cli.u64 request "seal_vout" = op.sealVout
  satoshis : Cli.u64 request "satoshis" = op.satoshis

theorem Says.sealFromJson {request : Json} {op : FixtureOp} (h : Says request op)
    (htyped : op.Typed) : Ffi.sealFromJson request = op.sealRef := by
  unfold Ffi.sealFromJson FixtureOp.sealRef
  rw [getStrOr_eq, getU64_eq, h.sealTxid, h.sealVout]
  have hvout : op.sealVout.getD 0 % 2 ^ 32 = op.sealVout.getD 0 := by
    apply Nat.mod_eq_of_lt
    cases hv : op.sealVout with
    | none => decide
    | some n => exact htyped.sealVout n hv
  rw [hvout]
  rfl

/-- What a caller learns from a response: the state that the object is left with, and the gas. -/
def leftState (r : Except String ExecResultJson) : Option (Bytes × Nat) :=
  r.toOption.bind fun result ↦ (hexDecode result.updatedStateHex).map (·, result.gasConsumed)

theorem toOption_hostDeploy (X : Crates) (lib : VmLibrary) (wasm : Bytes) (caller : String)
    (sealRef : SingleUseSeal) (satoshis : Nat) (initArgs : Bytes) :
    ((lib.host X).deploy wasm caller sealRef satoshis initArgs).toOption =
      (Vm.deploy lib.engine {} wasm caller sealRef satoshis initArgs).toOption.map
        (·.toExecutionResult) :=
  toOption_map _ _

theorem toOption_hostExecute (X : Crates) (lib : VmLibrary) (wasm : Bytes)
    (state : SmartObjectState) (caller method : String) (args : Bytes) :
    ((lib.host X).execute wasm state caller method args).toOption =
      (Vm.execute X lib.engine {} wasm state caller method args).toOption.map
        (·.toExecutionResult) :=
  toOption_map _ _

/-- The state comes back out of the hex of the response. -/
theorem leftState_result (r : VmOutcome) :
    (hexDecode (execResultJson r).updatedStateHex).map (·, (execResultJson r).gasConsumed) =
      some (r.updatedStateData, r.gasConsumed) := by
  show (hexDecode (hexEncode r.updatedStateData)).map _ = _
  rw [hexDecode_hexEncode]
  rfl

section

variable {op : FixtureOp} (htyped : op.Typed)
include htyped

theorem FixtureOp.says_deployRequest :
    Says op.deployRequest op ∧ Cli.str op.deployRequest "wasm_hex" = op.wasmHex ∧
      Cli.str op.deployRequest "init_args_hex" = op.initArgsHex := by
  have hvout (n : Nat) (hn : op.sealVout = some n) : n < 2 ^ 64 :=
    (htyped.sealVout n hn).trans (by decide)
  unfold deployRequest
  refine ⟨⟨?_, ?_, ?_, ?_⟩, ?_, ?_⟩
  · exact str_fieldsOf (by simp) (by simp)
  · exact str_fieldsOf (by simp) (by simp)
  · exact u64_fieldsOf (by simp) hvout (by simp)
  · exact u64_fieldsOf (by simp) htyped.satoshis (by simp)
  · exact str_fieldsOf (by simp) (by simp)
  · exact str_fieldsOf (by simp) (by simp)

theorem FixtureOp.says_executeRequest (prior : FixtureObject) :
    let request := op.executeRequest prior
    Says request op ∧ Cli.str request "wasm_hex" = some (hexEncode prior.wasm) ∧
      Cli.str request "state_hex" = some (hexEncode prior.stateData) ∧
      Cli.str request "object_id" = some prior.objectId ∧
      Cli.str request "method" = op.method ∧ Cli.str request "args_hex" = op.argsHex := by
  have hvout (n : Nat) (hn : op.sealVout = some n) : n < 2 ^ 64 :=
    (htyped.sealVout n hn).trans (by decide)
  have hgiven {members : List (String × Option Json)} (hnodup : (members.map (·.1)).Nodup)
      {key s : String} (hmem : (key, some (Json.string s)) ∈ members) :
      Cli.str (.object (fieldsOf members)) key = some s := by
    have hmem' : (key, (some s).map Json.string) ∈ members := hmem
    exact str_fieldsOf hnodup hmem'
  unfold executeRequest
  refine ⟨⟨?_, ?_, ?_, ?_⟩, ?_, ?_, ?_, ?_, ?_⟩
  · exact str_fieldsOf (by simp) (by simp)
  · exact str_fieldsOf (by simp) (by simp)
  · exact u64_fieldsOf (by simp) hvout (by simp)
  · exact u64_fieldsOf (by simp) htyped.satoshis (by simp)
  · exact hgiven (by simp) (by simp)
  · exact hgiven (by simp) (by simp)
  · exact hgiven (by simp) (by simp)
  · exact str_fieldsOf (by simp) (by simp)
  · exact str_fieldsOf (by simp) (by simp)

variable (X : Crates) (lib : VmLibrary)

/-- **A deploy** through the C interface leaves what the replay leaves. -/
theorem leftState_deploy (i : Nat) :
    leftState (Ffi.doDeploy X lib op.deployRequest) =
      (replayDeploy X (lib.host X) i op).toOption.map fun r ↦ (r.1.stateData, r.2) := by
  obtain ⟨hrequest, hwasm, hinit⟩ := op.says_deployRequest htyped
  have hpure (r : VmOutcome) : (pure (execResultJson r) : Except String ExecResultJson).toOption =
      some (execResultJson r) := rfl
  unfold leftState Ffi.doDeploy replayDeploy
  simp only [toOption_bind, Ffi.toOption_getStr, toOption_hexToBytes, Ffi.toOption_hexField,
    toOption_orError, toOption_optionalBytes, toOption_mapError, toOption_hostDeploy, getStrOr_eq,
    getU64_eq, hrequest.sealFromJson htyped, hrequest.caller, hrequest.satoshis, hwasm, hinit,
    Option.map_bind, Option.bind_assoc, Option.bind_map, Function.comp_def, hpure,
    Option.bind_some, leftState_result]
  rfl

/-- **A call** through the C interface leaves what the replay leaves. -/
theorem leftState_execute (i : Nat) (prior : FixtureObject) :
    leftState (Ffi.doExecute X lib (op.executeRequest prior)) =
      (replayCall X (lib.host X) i op prior).toOption.map fun r ↦ (r.1.stateData, r.2) := by
  obtain ⟨hrequest, hwasm, hstate, hid, hmethod, hargs⟩ := op.says_executeRequest htyped prior
  have hpure (r : VmOutcome) : (pure (execResultJson r) : Except String ExecResultJson).toOption =
      some (execResultJson r) := rfl
  unfold leftState Ffi.doExecute replayCall
  simp only [toOption_bind, Ffi.toOption_getStr, toOption_hexToBytes, Ffi.toOption_hexField,
    toOption_orError, toOption_optionalBytes, toOption_mapError, toOption_hostExecute, getStrOr_eq,
    getU64_eq, hrequest.sealFromJson htyped, hrequest.caller, hrequest.satoshis, hwasm, hstate, hid,
    hmethod, hargs, Option.getD_some, hexDecode_hexEncode, Option.map_bind, Option.bind_assoc,
    Option.bind_map, Function.comp_def, hpure, Option.bind_some, leftState_result]
  -- the method and the arguments are read in the other order
  rw [Option.bind_comm]
  rfl

end

variable (X lib)

/-- What a caller of the C interface does for an operation of a fixture. -/
def sessionStep (op : FixtureOp) (objects : List FixtureObject) : Option FixtureEffect :=
  if op.opType = "deploy" then do
    let wasm ← op.wasmHex.bind hexDecode
    let (stateData, _) ← leftState (Ffi.doDeploy X lib op.deployRequest)
    some (.deployed ⟨op.objectId.getD (Vm.calculateCodeHash X wasm), stateData, wasm⟩)
  else if op.opType = "call" then do
    let objectId ← op.objectId
    let prior ← Keyed.lookup FixtureObject.objectId objectId objects
    let (stateData, _) ← leftState (Ffi.doExecute X lib (op.executeRequest prior))
    some (.called prior { prior with stateData })
  else none

/-- A caller that threads the states of the objects through the C interface. -/
def session : List FixtureOp → List FixtureObject → Option (List FixtureObject)
  | [], objects => some objects
  | op :: ops, objects => do
      let effect ← sessionStep X lib op objects
      session ops (effect.apply objects)

variable {X lib}

/-- The code and the id of a deployed object. -/
theorem replayDeploy_code {host : FixtureHost} {i : Nat} {op : FixtureOp} {object : FixtureObject}
    {gas : Nat} (h : replayDeploy X host i op = .ok (object, gas)) :
    op.wasmHex.bind hexDecode = some object.wasm ∧
      object.objectId = op.objectId.getD (Vm.calculateCodeHash X object.wasm) := by
  unfold replayDeploy at h
  obtain ⟨wasmHex, hhex, h⟩ := bind_eq_ok h
  obtain ⟨wasm, hwasm, h⟩ := bind_eq_ok h
  obtain ⟨initArgs, -, h⟩ := bind_eq_ok h
  obtain ⟨res, -, h⟩ := bind_eq_ok h
  cases h
  rw [orError_eq_ok hhex]
  exact ⟨hexToBytes_eq_ok hwasm, rfl⟩

/-- **One operation.** -/
theorem sessionStep_eq {op : FixtureOp} (htyped : op.Typed) (i : Nat)
    (objects : List FixtureObject) :
    sessionStep X lib op objects =
      (replayOp X (lib.host X) i op objects).toOption.map (·.1) := by
  unfold sessionStep replayOp
  by_cases hdeploy : op.opType = "deploy"
  · rw [if_pos hdeploy, if_pos hdeploy, leftState_deploy htyped X lib i]
    cases hreplay : replayDeploy X (lib.host X) i op with
    | error message => cases op.wasmHex.bind hexDecode <;> rfl
    | ok left =>
      obtain ⟨hwasm, hid⟩ := replayDeploy_code hreplay
      rw [hwasm]
      show some (FixtureEffect.deployed ⟨_, left.1.stateData, left.1.wasm⟩) = some (.deployed left.1)
      rw [← hid]
  · rw [if_neg hdeploy, if_neg hdeploy]
    by_cases hcall : op.opType = "call"
    · rw [if_pos hcall, if_pos hcall]
      cases op.objectId with
      | none => rfl
      | some objectId =>
        show (Keyed.lookup _ objectId objects).bind _ = Option.map _
          (Except.toOption (orError _ (Keyed.lookup _ objectId objects) >>= _))
        cases Keyed.lookup FixtureObject.objectId objectId objects with
        | none => rfl
        | some prior =>
          show (leftState (Ffi.doExecute X lib (op.executeRequest prior))).bind _ =
            Option.map _ (Except.toOption (replayCall X (lib.host X) i op prior >>= _))
          rw [leftState_execute htyped X lib i prior]
          cases hreplay : replayCall X (lib.host X) i op prior with
          | error message => rfl
          | ok left =>
            obtain ⟨hid, hwasm⟩ := replayCall_keeps hreplay
            show some (FixtureEffect.called prior ⟨prior.objectId, left.1.stateData, prior.wasm⟩) =
              some (.called prior left.1)
            rw [← hid, ← hwasm]
    · rw [if_neg hcall, if_neg hcall]
      rfl

/-- **All operations**, with the objects so far. -/
theorem session_eq {ops : List FixtureOp} (htyped : ∀ op ∈ ops, op.Typed) (i : Nat) (r : Replay) :
    session X lib ops r.objects =
      (replayFrom X (lib.host X) i r ops).toOption.map (·.objects) := by
  induction ops generalizing i r with
  | nil => rfl
  | cons op ops ih =>
    unfold session replayFrom
    rw [sessionStep_eq (htyped op List.mem_cons_self) i]
    cases replayOp X (lib.host X) i op r.objects with
    | error message => rfl
    | ok left =>
      exact ih (fun op hop ↦ htyped op (List.mem_cons_of_mem _ hop)) (i + 1)
        ⟨left.1.apply r.objects, saturatingAdd r.totalGas left.2, r.opsExecuted + 1⟩

/-- **The C interface replays fixtures.**  A caller that makes the requests of a fixture one after
the other, and hands every object the state that the last response left it with, succeeds exactly
when the verifier accepts the fixture, and then has the root that the verifier reports. -/
theorem ffi_replays_fixture {fixtureBytes : Bytes} {fixture : Fixture}
    (hfixture : lib.fixtureFromSlice fixtureBytes = .ok fixture) (hversion : fixture.version = 1)
    (htyped : ∀ op ∈ fixture.operations, op.Typed) :
    (session X lib fixture.operations []).map (fun objects ↦
        computeFixtureStateRoot X (statesOf objects)) =
      (Ffi.utxovmVerify X lib fixtureBytes).result.map (·.stateRoot) := by
  have hread : (lib.host X).fromSlice fixtureBytes = .ok fixture := hfixture
  unfold Ffi.utxovmVerify verifyFixture
  rw [Ffi.result_of, hread]
  show _ = Option.map _ (Except.toOption (if fixture.version ≠ 1 then _ else _))
  rw [if_neg (not_not.mpr hversion), session_eq htyped 0 ⟨[], 0, 0⟩]
  cases replayFrom X (lib.host X) 0 ⟨[], 0, 0⟩ fixture.operations <;> rfl

end

/-- Two objects of the contract with the digit seven, one of them called. -/
def demoSession : List FixtureOp :=
  [demoDeploy "obj1" "0a", demoDeploy "obj2" "0b", demoFixtureCall "obj1"]

def demoVmLibrary : VmLibrary where
  engine := Vm.demoEngine (Vm.demoModule 0 Vm.demoGetState)
  fromSlice _ := .error "expected value at line 1 column 1"
  fixtureFromSlice _ := .ok ⟨1, demoSession⟩
  hexError _ := "Odd number of digits"
  version := "1"
  runtimeHash := ""

theorem ffi_replays_fixture_demo :
    session demoCrates demoVmLibrary demoSession [] =
        some [⟨"obj1", [55], [10]⟩, ⟨"obj2", [55], [11]⟩] ∧
      (session demoCrates demoVmLibrary demoSession []).map (fun objects ↦
          computeFixtureStateRoot demoCrates (statesOf objects)) =
        (Ffi.utxovmVerify demoCrates demoVmLibrary []).result.map (·.stateRoot) := by
  have hnone : ∀ op ∈ demoSession, op.sealVout = none ∧ op.satoshis = none := by decide
  have htyped : ∀ op ∈ demoSession, op.Typed := by
    intro op hop
    obtain ⟨hvout, hsatoshis⟩ := hnone op hop
    constructor
    · intro n hn
      rw [hvout] at hn
      cases hn
    · intro n hn
      rw [hsatoshis] at hn
      cases hn
  have hread : demoVmLibrary.fixtureFromSlice [] = .ok ⟨1, demoSession⟩ := rfl
  constructor
  · decide
  · exact ffi_replays_fixture hread rfl htyped

end UtxoVm
