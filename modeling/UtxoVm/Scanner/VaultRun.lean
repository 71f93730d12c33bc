import UtxoVm.Contracts.TokenRun
import UtxoVm.Scanner.Update

/-!
# Scanner/VaultRun — what a vault has locked and what its seal is worth

A deposit adds the value of the output that the vault is sealed to.  The state that it writes names
no type, so that every later call is answered with an error code: `process_tx` does not look at it
and seals the vault to the next output, whatever that is worth.
-/

namespace UtxoVm.Contracts

open RustStd AsStd StateStore Prog BlockProcessor JsonParser

/-! ## 1. States as the contract reads them -/

/-- What the contract reads when it is given a state. -/
def readState (X : Crates) (stateData : Json) : Except Text JsonValue :=
  parseFields (decode (X.jsonToVec stateData))

/-- The values have the same fields. -/
def JsonValue.Alike (v v' : JsonValue) : Prop := ∀ key, v'.get key = v.get key

theorem JsonValue.Alike.detectType {v v' : JsonValue} (h : v.Alike v') :
    detectType v' = detectType v := by
  unfold Contracts.detectType getString
  rw [h, h]

theorem JsonValue.Alike.vaultOf {v v' : JsonValue} (h : v.Alike v') : vaultOf v' = vaultOf v := by
  unfold Contracts.vaultOf getInt getString
  rw [h, h]

/-- What the contract relies on in the node's JSON library: a state that is written, and read and
written again, has the same fields, and so has the state of a vault. -/
structure SerdeKeeps (X : Crates) : Prop where
  written : ∀ j v bytes j', readState X j = .ok v →
    (bytes = X.jsonToVec j ∨ bytes = encode (decode (X.jsonToVec j))) →
    X.jsonFromSlice bytes = some j' → ∃ v', readState X j' = .ok v' ∧ v.Alike v'
  vault : ∀ (vault : NativeVault) j, X.jsonFromSlice (encode vault.toJson) = some j →
    ∃ v, readState X j = .ok v ∧ (objectOf [] vault.members).Alike v

/-! ## 2. One call -/

/-- An execution of the bytecode that succeeds restores the state in a fresh instance of the
contract module, calls it and reports the state that it exports, or the one from before if it
exports none. -/
structure RunsContracts (R : VmRuntime) (wasmBytes : Bytes) : Prop where
  answers : ∀ state caller method args outcome,
    R.execute wasmBytes state caller method args = .ok outcome →
    ∃ h rest reply, h.satoshis = UInt64.ofNat state.satoshis ∧
      call h (restoreState .fresh state.stateData).contract (asBytes method ++ 0 :: rest) args =
        .ok reply ∧
      (outcome.updatedStateData = getState reply.contract ∨
        outcome.updatedStateData = state.stateData)

theorem callNativeVault_cases {h : Host} {json json' method : Text} {state args : JsonValue}
    {events : List Event} {code : Int32}
    (hrun : callNativeVault h json method state args = .ok (json', events, code)) :
    json' = json ∨ ∃ vault event, json' = vault.toJson ∧
      ((vaultOf state).deposit h = .ok (vault, event) ∨
        ∃ stealthAddress amount,
          (vaultOf state).withdrawToStealth h stealthAddress amount = .ok (vault, event)) := by
  unfold callNativeVault at hrun
  dsimp only at hrun
  split at hrun
  · obtain ⟨vault, event, hstep, rfl⟩ := (stored_eq_ok hrun).2
    exact .inr ⟨vault, event, rfl, .inl hstep⟩
  split at hrun
  · obtain ⟨vault, event, hstep, rfl⟩ := (stored_eq_ok hrun).2
    exact .inr ⟨vault, event, rfl, .inr ⟨_, _, hstep⟩⟩
  · cases hrun
    exact .inl rfl

/-- A vault without anything locked, or the state that a deposit has left. -/
def Open (v : JsonValue) : Prop :=
  (detectType v = lit "NativeVault" ∧ (vaultOf v).totalLockedSatoshis = 0) ∨ detectType v = []

/-- A call of a fresh instance leaves the state text, or it is the first deposit. -/
theorem call_open {h : Host} {bytes method args : Bytes} {reply : Reply} {v : JsonValue}
    (hread : parseFields (decode bytes) = .ok v) (hopen : Open v)
    (hcall : call h (restoreState .fresh bytes).contract method args = .ok reply) :
    reply.contract.globalStateJson = decode bytes ∨
      (vaultOf v).totalLockedSatoshis = 0 ∧ ∃ vault : NativeVault,
        reply.contract.globalStateJson = vault.toJson ∧ vault.totalLockedSatoshis = h.satoshis := by
  rw [restored_of_parse hread] at hcall
  rcases (call_handled hcall).2 with ⟨-, hjson⟩ | ⟨k, state, fields, events, hk, hs, -, hrun⟩
  · exact .inl hjson
  cases hread.symm.trans hs
  dsimp only at hk hrun
  rcases hopen with ⟨htype, hzero⟩ | htype
  · have hvault : kindOf (lit "NativeVault") = some .nativeVault := by decide
    rw [htype, hvault] at hk
    cases hk
    rcases callNativeVault_cases hrun with hjson | ⟨vault, event, hjson, hstep⟩
    · exact .inl hjson
    refine .inr ⟨hzero, vault, hjson, ?_⟩
    rcases hstep with hdeposit | ⟨stealthAddress, amount, hwithdraw⟩
    · obtain ⟨-, hr⟩ := NativeVault.deposit_eq_ok.mp hdeposit
      cases hr
      show (vaultOf v).totalLockedSatoshis + h.satoshis = h.satoshis
      rw [hzero, UInt64.zero_add]
    · -- there is nothing to withdraw
      obtain ⟨-, hle, hpos, -⟩ := NativeVault.withdrawToStealth_eq_ok.mp hwithdraw
      rw [hzero] at hle
      exact absurd (UInt64.lt_of_lt_of_le hpos hle) (UInt64.lt_irrefl 0)
  · rw [htype, kindOf_nil] at hk
    cases hk

/-! ## 3. Calls through `process_tx` -/

/-- What the contract reads as locked. -/
def lockedOf (X : Crates) (r : SmartObjectRecord) : UInt64 :=
  match readState X r.stateData with
  | .ok v => (vaultOf v).totalLockedSatoshis
  | .error _ => 0

theorem lockedOf_eq {X : Crates} {r : SmartObjectRecord} {v : JsonValue}
    (h : readState X r.stateData = .ok v) : lockedOf X r = (vaultOf v).totalLockedSatoshis := by
  unfold lockedOf
  rw [h]

/-- The seal is worth what is locked. -/
def Solvent (X : Crates) (r : SmartObjectRecord) : Prop := (lockedOf X r).toNat ≤ r.satoshis

/-- The object is a vault with nothing locked. -/
structure EmptyVault (X : Crates) (r : SmartObjectRecord) : Prop where
  code : r.codeHash ≠ "wasm_default"
  state : ∃ v, readState X r.stateData = .ok v ∧ detectType v = lit "NativeVault" ∧
    (vaultOf v).totalLockedSatoshis = 0

/-- A call of the object: its records before and after, the value of the output, and whether
`process_tx` reports the object as executed. -/
structure VaultStep where
  before : SmartObjectRecord
  value : Nat
  successful : Prop
  after : SmartObjectRecord

/-- The transaction calls the object in some store, and the object runs the contracts' code. -/
structure VaultStep.Taken (X : Crates) (P : BlockProcessor) (step : VaultStep) : Prop where
  taken : ∃ s w now tx blockHeight voutIdx out envelope,
    s.objects[step.before.objectId]? = some step.before ∧
    selectAction X P s tx = .ok (some (.call voutIdx out envelope step.before)) ∧
    out.value = step.value ∧
    (∀ wasmBytes, (if step.before.codeHash = "" then some []
      else s.wasmBlobs[step.before.codeHash]?) = some wasmBytes →
        RunsContracts P.runtime wasmBytes) ∧
    (step.successful ↔
      (run (processTx X P w now tx blockHeight) s).2 = .ok (some step.before.objectId)) ∧
    (run (processTx X P w now tx blockHeight) s).1.objects[step.before.objectId]? = some step.after

/-- What holds of a vault between its calls. -/
structure Vault (X : Crates) (r : SmartObjectRecord) : Prop where
  code : r.codeHash ≠ "wasm_default"
  state : ∃ v, readState X r.stateData = .ok v ∧ Open v

/-- The record has kept what was locked, or the value of the output was locked on nothing. -/
structure Sealed (X : Crates) (step : VaultStep) : Prop where
  satoshis : step.after.satoshis = step.value
  locked : lockedOf X step.after = lockedOf X step.before ∨
    lockedOf X step.before = 0 ∧ lockedOf X step.after = UInt64.ofNat step.value

variable {X : Crates} {P : BlockProcessor}

/-- The state that a call of a vault reports. -/
theorem executeWasm_vault (hserde : SerdeKeeps X) {r : SmartObjectRecord} {wasmBytes : Bytes}
    (hruns : RunsContracts P.runtime wasmBytes) {v : JsonValue}
    (hread : readState X r.stateData = .ok v) (hopen : Open v) {method caller : String}
    {args : Json} {value : Nat} {result : Json × Nat}
    (hexec : executeWasm X P r method args caller value wasmBytes = .ok result) :
    ∃ v', readState X result.1 = .ok v' ∧ Open v' ∧
      ((vaultOf v').totalLockedSatoshis = (vaultOf v).totalLockedSatoshis ∨
        (vaultOf v).totalLockedSatoshis = 0 ∧
          (vaultOf v').totalLockedSatoshis = UInt64.ofNat value) := by
  have hkept {bytes : Bytes}
      (hbytes : bytes = X.jsonToVec r.stateData ∨
        bytes = encode (decode (X.jsonToVec r.stateData)))
      (hparse : X.jsonFromSlice bytes = some result.1) :
      ∃ v', readState X result.1 = .ok v' ∧ Open v' ∧
        (vaultOf v').totalLockedSatoshis = (vaultOf v).totalLockedSatoshis := by
    obtain ⟨v', hv', halike⟩ := hserde.written _ _ _ _ hread hbytes hparse
    refine ⟨v', hv', ?_, by rw [halike.vaultOf]⟩
    unfold Open
    rw [halike.detectType, halike.vaultOf]
    exact hopen
  unfold executeWasm at hexec
  cases hrun : P.runtime.execute wasmBytes (vmState X r value) caller method (X.jsonToVec args) with
  | error message =>
    rw [hrun] at hexec
    cases hexec
  | ok outcome =>
    rw [hrun] at hexec
    simp only [Bind.bind, Except.bind] at hexec
    cases hparse : X.jsonFromSlice outcome.updatedStateData with
    | none =>
      rw [hparse] at hexec
      cases hexec
    | some newState =>
      rw [hparse] at hexec
      cases hexec
      obtain ⟨h, rest, reply, hsatoshis, hcall, hupdated⟩ := hruns.answers _ _ _ _ _ hrun
      rcases hupdated with hupdated | hupdated
      · rcases call_open hread hopen hcall with hjson | ⟨hzero, vault, hjson, htotal⟩
        · have hbytes : outcome.updatedStateData = encode (decode (X.jsonToVec r.stateData)) := by
            rw [hupdated]
            exact congrArg encode hjson
          obtain ⟨v', hv', hopen', hlocked⟩ := hkept (.inr hbytes) hparse
          exact ⟨v', hv', hopen', .inl hlocked⟩
        · have hbytes : outcome.updatedStateData = encode vault.toJson := by
            rw [hupdated]
            exact congrArg encode hjson
          rw [hbytes] at hparse
          obtain ⟨v', hv', halike⟩ := hserde.vault vault _ hparse
          have htype : detectType (objectOf [] vault.members) = [] := by
            have hno (key : Text) (hkey : key ∉ NativeVault.keys) :
                (objectOf [] vault.members).getString key = [] := by
              rw [← vault.members_keys] at hkey
              exact getString_objectOf hkey
            unfold detectType
            rw [hno _ (by decide), hno _ (by decide)]
            rfl
          refine ⟨v', hv', .inr (halike.detectType.trans htype), .inr ⟨hzero, ?_⟩⟩
          rw [halike.vaultOf, vault.vaultOf_members, htotal, hsatoshis]
          rfl
      · obtain ⟨v', hv', hopen', hlocked⟩ := hkept (.inl hupdated) hparse
        exact ⟨v', hv', hopen', .inl hlocked⟩

/-- The record that a call stores. -/
theorem sealed_calledObject (hserde : SerdeKeeps X) {r : SmartObjectRecord} (hvault : Vault X r)
    {wasmBytes : Bytes} (hruns : RunsContracts P.runtime wasmBytes) {method caller : String}
    {args args' : Json} {out : ElectrsTxOutput} {result : Json × Nat}
    (hexec : executeWasm X P r method args caller out.value wasmBytes = .ok result)
    (blockHeight : Nat) (newSeal : String) (successful : Prop) :
    Vault X (calledObject r blockHeight newSeal out.value args' result.1) ∧
      Sealed X ⟨r, out.value, successful,
        calledObject r blockHeight newSeal out.value args' result.1⟩ := by
  obtain ⟨v, hread, hopen⟩ := hvault.state
  obtain ⟨v', hread', hopen', hlocked⟩ := executeWasm_vault hserde hruns hread hopen hexec
  refine ⟨⟨hvault.code, v', hread', hopen'⟩, rfl, ?_⟩
  dsimp only
  rw [lockedOf_eq hread, lockedOf_eq (show readState X
    (calledObject r blockHeight newSeal out.value args' result.1).stateData = .ok v' from hread')]
  exact hlocked

/-- A call leaves the record as it is and does not succeed, or it seals the vault to the output. -/
theorem VaultStep.Taken.sealed (hserde : SerdeKeeps X) {step : VaultStep} (h : step.Taken X P)
    (hvault : Vault X step.before) :
    (step.after = step.before ∧ ¬ step.successful) ∨ (Vault X step.after ∧ Sealed X step) := by
  obtain ⟨before, value, successful, after⟩ := step
  obtain ⟨s, w, now, tx, blockHeight, voutIdx, out, envelope, hstored, haction, rfl, hruns, hdone,
    hafter⟩ := h.taken
  dsimp only at hstored haction hruns hdone hafter hvault ⊢
  have hunchanged {t : StateStore} {e : Except Exit (Option String)}
      (hrun : run (processTx X P w now tx blockHeight) s = (t, e)) (ht : t.objects = s.objects)
      (he : e ≠ .ok (some before.objectId)) : after = before ∧ ¬ successful := by
    rw [hrun] at hdone hafter
    rw [hdone]
    dsimp only at hafter
    rw [ht, hstored] at hafter
    exact ⟨(Option.some.inj hafter).symm, he⟩
  have hrun := run_processTx X P w now tx blockHeight s
  rw [haction] at hrun
  change _ = run (processCall X P w now tx blockHeight voutIdx out envelope before) s at hrun
  rw [run_processCall] at hrun
  cases hundo : w.undo with
  | false =>
    rw [hundo] at hrun
    exact .inl (hunchanged hrun rfl (fun h ↦ by cases h))
  | true =>
    rw [hundo, if_pos rfl] at hrun
    unfold callOutcome at hrun
    rw [if_neg hvault.code] at hrun
    dsimp only at hrun
    cases hblob : (if before.codeHash = "" then some [] else s.wasmBlobs[before.codeHash]?) with
    | none =>
      rw [hblob] at hrun
      exact .inl (hunchanged hrun rfl (fun h ↦ by cases h))
    | some wasmBytes =>
      rw [hblob] at hrun
      dsimp only at hrun
      cases hexec : executeWasm X P before (methodOf (metadataOf envelope))
          (argsOf (metadataOf envelope)) (sender tx) out.value wasmBytes with
      | error message =>
        rw [hexec] at hrun
        exact .inl (hunchanged hrun rfl (fun h ↦ by cases h))
      | ok result =>
        rw [hexec] at hrun
        dsimp only at hrun
        cases hobject : w.object with
        | false =>
          rw [hobject] at hrun
          exact .inl (hunchanged hrun rfl (fun h ↦ by cases h))
        | true =>
          rw [hobject, if_pos rfl] at hrun
          have hget : (run (processTx X P w now tx blockHeight) s).1.objects[before.objectId]? =
              some (calledObject before blockHeight (sealOf tx.txid voutIdx) out.value
                (argsOf (metadataOf envelope)) result.1) := by
            rw [hrun]
            cases w.transition <;> exact (Table.get_insert ..).trans (if_pos rfl)
          rw [hget] at hafter
          cases hafter
          exact .inr (sealed_calledObject hserde hvault (hruns wasmBytes hblob) hexec _ _ _)

/-! ## 4. Runs -/

/-- Calls of the object one after the other. -/
inductive VaultRun (X : Crates) (P : BlockProcessor) (first : SmartObjectRecord) :
    List VaultStep → SmartObjectRecord → Prop
  | start : VaultRun X P first [] first
  | call {steps : List VaultStep} {step : VaultStep} : VaultRun X P first steps step.before →
      step.Taken X P → VaultRun X P first (steps ++ [step]) step.after

theorem EmptyVault.vault {r : SmartObjectRecord} (h : EmptyVault X r) : Vault X r := by
  obtain ⟨v, hread, htype, hzero⟩ := h.state
  exact ⟨h.code, v, hread, .inl ⟨htype, hzero⟩⟩

theorem VaultRun.vault (hserde : SerdeKeeps X) {first last : SmartObjectRecord}
    (hfirst : Vault X first) {steps : List VaultStep} (hrun : VaultRun X P first steps last) :
    Vault X last := by
  induction hrun with
  | start => exact hfirst
  | call _ htaken ih =>
    rcases htaken.sealed hserde ih with ⟨hkept, -⟩ | ⟨hvault, -⟩
    · rw [hkept]
      exact ih
    · exact hvault

/-- After a call that seals the vault, the seal is worth what is locked exactly when the output is
worth what was locked before. -/
theorem Sealed.solvent_iff {step : VaultStep} (h : Sealed X step) :
    Solvent X step.after ↔ (lockedOf X step.before).toNat ≤ step.value := by
  unfold Solvent
  rw [h.satoshis]
  rcases h.locked with hkept | ⟨hzero, hfirst⟩
  · rw [hkept]
  · rw [hfirst, hzero]
    refine iff_of_true ?_ (Nat.zero_le _)
    rw [UInt64.toNat_ofNat']
    exact Nat.mod_le ..

/-- **Vault solvency.**  After every successful call the seal is worth what is locked exactly when
every successful call seals the vault to an output that is worth what was locked before it. -/
theorem vault_solvent_iff (hserde : SerdeKeeps X) {first last : SmartObjectRecord}
    (hfirst : EmptyVault X first) {steps : List VaultStep} (hrun : VaultRun X P first steps last) :
    (∀ step ∈ steps, step.successful → Solvent X step.after) ↔
      ∀ step ∈ steps, step.successful → (lockedOf X step.before).toNat ≤ step.value := by
  induction hrun with
  | start => simp
  | @call steps step hrun htaken ih =>
    simp only [List.forall_mem_append, List.forall_mem_singleton]
    refine and_congr ih (imp_congr_right fun hsuccessful ↦ ?_)
    rcases htaken.sealed hserde (hrun.vault hserde hfirst.vault) with ⟨-, hfailed⟩ | ⟨-, hsealed⟩
    · exact absurd hsuccessful hfailed
    · exact hsealed.solvent_iff

/-! ## 5. Two deposits -/

/-- A host that attaches a value. -/
def valueHost (satoshis : Nat) : Host where
  caller := lit "a"
  satoshis := UInt64.ofNat satoshis
  stealthSettle _ _ := false

def contractResult (reply : Reply) : ExecutionResult where
  gasConsumed := 1
  returnCode := reply.code.toInt
  updatedStateData := getState reply.contract

/-- A runtime that runs the contract module, whatever the bytecode. -/
def contractRuntime : VmRuntime where
  execute _ state _ method args :=
    ((call (valueHost state.satoshis)
      (restoreState .fresh state.stateData).contract (asBytes method ++ [0]) args).mapError
        fun _ ↦ "Call execution trapped").map contractResult

theorem contractRuntime_runs (wasmBytes : Bytes) : RunsContracts contractRuntime wasmBytes where
  answers state caller method args outcome hrun := by
    unfold contractRuntime at hrun
    dsimp only at hrun
    cases hcall : call (valueHost state.satoshis)
        (restoreState .fresh state.stateData).contract (asBytes method ++ [0]) args with
    | error message =>
      rw [hcall] at hrun
      cases hrun
    | ok reply =>
      rw [hcall] at hrun
      cases hrun
      exact ⟨_, [], reply, rfl, hcall, .inl rfl⟩

def demoDeposit : Json := .object [("method", .string "deposit")]

/-- The state of a vault before anything is deposited. -/
def demoEmpty : Json :=
  .object [("totalLockedSatoshis", .string "0"), ("type", .string "NativeVault"),
    ("vaultOwner", .string "a")]

/-- The state after the first deposit. -/
def demoLocked : Json :=
  .object [("totalLockedSatoshis", .string "1000"), ("vaultOwner", .string "a")]

def demoVaultCrates : Crates :=
  { demoCrates with
    jsonFromSlice := fun text ↦ [demoDeposit, demoLocked].find? fun j ↦ text == asBytes j.compact }

theorem demoVaultCrates_parsed {bytes : Bytes} {j : Json}
    (h : demoVaultCrates.jsonFromSlice bytes = some j) :
    demoVaultCrates.jsonToVec j = bytes ∧ ∃ v, readState demoVaultCrates j = .ok v := by
  change List.find? _ _ = some j at h
  have hread : [demoDeposit, demoLocked].all
      (fun j ↦ (readState demoVaultCrates j).toOption.isSome) = true := by decide +kernel
  have hj := List.all_eq_true.mp hread j (List.mem_of_find?_eq_some h)
  have hbytes := List.find?_some h
  refine ⟨(beq_iff_eq.mp hbytes).symm, ?_⟩
  cases hstate : readState demoVaultCrates j with
  | error message =>
    rw [hstate] at hj
    cases hj
  | ok v => exact ⟨v, rfl⟩

theorem demoVaultCrates_keeps : SerdeKeeps demoVaultCrates where
  written j v bytes j' hread hbytes hparse := by
    obtain ⟨hto, v', hread'⟩ := demoVaultCrates_parsed hparse
    refine ⟨v', hread', ?_⟩
    unfold readState at hread hread'
    rw [hto] at hread'
    rcases hbytes with rfl | rfl
    · cases hread.symm.trans hread'
      exact fun key ↦ rfl
    · rw [decode_encode] at hread'
      rw [untilNul_of_read hread hread'] at hread'
      cases hread.symm.trans hread'
      exact fun key ↦ rfl
  vault vault j hparse := by
    obtain ⟨hto, v, hread⟩ := demoVaultCrates_parsed hparse
    refine ⟨v, hread, ?_⟩
    unfold readState at hread
    rw [hto, decode_encode, vault.toJson_eq] at hread
    obtain ⟨-, rfl, -⟩ :=
      parseFields_written true NativeVault.keys_untyped vault.members_keys hread
    exact fun key ↦ rfl

def demoVaultProcessor : BlockProcessor := { demoProcessor with runtime := contractRuntime }

/-- The vault, with a seal, a value and a state. -/
def demoVault (sealRef : String) (satoshis updatedAtBlock : Nat) (stateData : Json) :
    SmartObjectRecord where
  objectId := demoObjectId
  codeHash := wasmHash demoVaultCrates [0x61]
  sealRef
  satoshis
  owner := "a"
  stateData
  createdAtBlock := 1
  updatedAtBlock

/-- A deposit that seals the vault to an output of the given value. -/
def demoDepositTx (txid : String) (vin : ElectrsTxInput) (value : Nat) : ElectrsTx where
  txid
  vin := [vin]
  vout := [jsonOutput value demoDeposit]

def demoDepositEnvelope : UtxoVmEnvelope :=
  mkEnvelope demoVaultCrates 1 (asBytes "application/json") (asBytes demoDeposit.compact)

theorem demoDeposit_envelope (value : Nat) :
    outputEnvelope demoVaultCrates (jsonOutput value demoDeposit) =
      .ok (some demoDepositEnvelope) := by
  have hclosed : outputEnvelope demoVaultCrates (jsonOutput 0 demoDeposit) =
      .ok (some demoDepositEnvelope) := by
    set_option maxRecDepth 4000 in
    rfl
  rw [← hclosed]
  unfold outputEnvelope jsonOutput
  simp only [Option.getD_none]

/-- A store with the vault and its code. -/
def demoVaultStore (r : SmartObjectRecord) : StateStore :=
  putObject demoVaultCrates r
    (putWasm (wasmHash demoVaultCrates [0x61]) [0x61] (empty demoVaultCrates))

theorem demoVaultStore_selected {r : SmartObjectRecord} {vin : ElectrsTxInput}
    (hseal : r.sealRef = sealOf vin.txid vin.vout) (hreadable : r.readable = true) (txid : String)
    (value : Nat) :
    selectAction demoVaultCrates demoVaultProcessor (demoVaultStore r)
        (demoDepositTx txid vin value) =
      .ok (some (.call 0 (jsonOutput value demoDeposit) demoDepositEnvelope r)) := by
  have hlookup : lookupSeal (demoVaultStore r) (sealOf vin.txid vin.vout) = .ok (some r) := by
    have hid : (demoVaultStore r).seals[sealOf vin.txid vin.vout]? = some r.objectId := by
      rw [← hseal]
      exact (Table.get_insert ..).trans (if_pos rfl)
    have hobj : (demoVaultStore r).objects[r.objectId]? = some r :=
      (Table.get_insert ..).trans (if_pos rfl)
    unfold lookupSeal
    rw [hid]
    dsimp only
    rw [hobj]
    exact if_pos hreadable
  have htarget : target (demoVaultStore r) [vin] = some r := by
    unfold target
    rw [hlookup]
  have hcreate : isCreate demoDepositEnvelope = false := by decide
  unfold selectAction demoDepositTx selectOutput
  dsimp only
  rw [demoDeposit_envelope, htarget]
  dsimp only
  rw [hcreate]
  rfl

/-- What the runtime answers to a deposit on a state. -/
def demoDepositReply (value : Nat) (stateData : Json) : Option Text :=
  (call (valueHost value)
    (restoreState .fresh (demoVaultCrates.jsonToVec stateData)).contract (asBytes "deposit" ++ [0])
    (demoVaultCrates.jsonToVec (.object []))).toOption.map fun reply ↦
      reply.contract.globalStateJson

theorem demoDeposit_locks :
    [demoDepositReply 1000 demoEmpty, demoDepositReply 500 demoLocked].all
      (fun json? ↦ json?.map encode == some (asBytes demoLocked.compact)) = true := by
  decide

theorem demoDeposit_executed {r : SmartObjectRecord} {value : Nat}
    (hreply : (demoDepositReply value r.stateData).map encode =
      some (asBytes demoLocked.compact)) (caller : String) :
    executeWasm demoVaultCrates demoVaultProcessor r "deposit" (.object []) caller value [0x61] =
      .ok (demoLocked, 1) := by
  have hparse : demoVaultCrates.jsonFromSlice (asBytes demoLocked.compact) = some demoLocked := rfl
  unfold demoDepositReply at hreply
  cases hcall : call (valueHost value)
      (restoreState .fresh (demoVaultCrates.jsonToVec r.stateData)).contract
      (asBytes "deposit" ++ [0]) (demoVaultCrates.jsonToVec (.object [])) with
  | error message =>
    rw [hcall] at hreply
    cases hreply
  | ok reply =>
    rw [hcall] at hreply
    have hstate : getState reply.contract = asBytes demoLocked.compact := Option.some.inj hreply
    have hrun : demoVaultProcessor.runtime.execute [0x61] (vmState demoVaultCrates r value) caller
        "deposit" (demoVaultCrates.jsonToVec (.object [])) = .ok (contractResult reply) := by
      show ((call (valueHost value) (restoreState .fresh
        (demoVaultCrates.jsonToVec r.stateData)).contract (asBytes "deposit" ++ [0])
        (demoVaultCrates.jsonToVec (.object []))).mapError _).map contractResult = _
      rw [hcall]
      rfl
    unfold executeWasm
    rw [hrun]
    simp only [Bind.bind, Except.bind]
    rw [show (contractResult reply).updatedStateData = _ from hstate, hparse]
    rfl

/-- The deposit on a vault is a step of a run. -/
theorem demoDeposit_taken (r : SmartObjectRecord) (value : Nat) (vin : ElectrsTxInput)
    (hseal : r.sealRef = sealOf vin.txid vin.vout) (hreadable : r.readable = true)
    (hcode : r.codeHash = wasmHash demoVaultCrates [0x61])
    (hreply : (demoDepositReply value r.stateData).map encode =
      some (asBytes demoLocked.compact)) (txid : String) :
    (VaultStep.mk r value True
      (calledObject r 2 (sealOf txid 0) value (.object []) demoLocked)).Taken demoVaultCrates
        demoVaultProcessor := by
  have hmetadata : metadataOf demoDepositEnvelope = demoDeposit := rfl
  have hmethod : methodOf demoDeposit = "deposit" := rfl
  have hargs : argsOf demoDeposit = .object [] := rfl
  have hhash : wasmHash demoVaultCrates [0x61] ≠ "wasm_default" ∧
      wasmHash demoVaultCrates [0x61] ≠ "" := by decide
  have hblob : (demoVaultStore r).wasmBlobs[wasmHash demoVaultCrates [0x61]]? = some [0x61] :=
    (Table.get_insert ..).trans (if_pos rfl)
  have hselected := demoVaultStore_selected hseal hreadable txid value
  have hrun := run_processTx demoVaultCrates demoVaultProcessor {} 0
    (demoDepositTx txid vin value) 2 (demoVaultStore r)
  rw [hselected] at hrun
  change _ = run (processCall demoVaultCrates demoVaultProcessor {} 0
    (demoDepositTx txid vin value) 2 0 (jsonOutput value demoDeposit) demoDepositEnvelope r)
    (demoVaultStore r) at hrun
  rw [run_processCall, hmetadata, hmethod, hargs] at hrun
  unfold callOutcome at hrun
  rw [hcode, if_neg hhash.1, if_neg hhash.2, hblob] at hrun
  dsimp only at hrun
  have hexec : executeWasm demoVaultCrates demoVaultProcessor r "deposit" (.object [])
      (sender (demoDepositTx txid vin value)) (jsonOutput value demoDeposit).value [0x61] =
        .ok (demoLocked, 1) := demoDeposit_executed hreply _
  rw [hexec] at hrun
  refine ⟨demoVaultStore r, {}, 0, demoDepositTx txid vin value, 2, 0, jsonOutput value demoDeposit,
    demoDepositEnvelope, (Table.get_insert ..).trans (if_pos rfl), hselected, rfl,
    fun wasmBytes _ ↦ contractRuntime_runs wasmBytes, ?_, ?_⟩
  · rw [hrun]
    exact iff_of_true trivial rfl
  · rw [hrun]
    exact (Table.get_insert ..).trans (if_pos rfl)

/-- The vault as it was created, after the first deposit, and after the second. -/
def demoVault₀ : SmartObjectRecord := demoVault (sealOf demoCreateTx.txid 0) 546 1 demoEmpty

def demoVault₁ : SmartObjectRecord := demoVault (sealOf demoCallTx.txid 0) 1000 2 demoLocked

def demoVault₂ : SmartObjectRecord := demoVault (sealOf demoTransferTx.txid 0) 500 2 demoLocked

def demoVaultSteps : List VaultStep :=
  [⟨demoVault₀, 1000, True, demoVault₁⟩, ⟨demoVault₁, 500, True, demoVault₂⟩]

theorem demoVault_run : VaultRun demoVaultCrates demoVaultProcessor demoVault₀ demoVaultSteps
    demoVault₂ := by
  have hlocks := List.all_eq_true.mp demoDeposit_locks
  have hfirst := demoDeposit_taken demoVault₀ 1000 ⟨demoCreateTx.txid, 0⟩ rfl rfl rfl
    (beq_iff_eq.mp (hlocks _ List.mem_cons_self)) demoCallTx.txid
  have hsecond := demoDeposit_taken demoVault₁ 500 ⟨demoCallTx.txid, 0⟩ rfl rfl rfl
    (beq_iff_eq.mp (hlocks _ (List.mem_cons_of_mem _ List.mem_cons_self)))
    demoTransferTx.txid
  exact (VaultRun.start.call hfirst).call hsecond

theorem demoVault_empty : EmptyVault demoVaultCrates demoVault₀ := by
  have hstate : (readState demoVaultCrates demoEmpty).toOption.any (fun v ↦
      detectType v == lit "NativeVault" && (vaultOf v).totalLockedSatoshis == 0) = true := by
    decide
  have hcode : wasmHash demoVaultCrates [0x61] ≠ "wasm_default" := by decide
  refine ⟨hcode, ?_⟩
  show ∃ v, readState demoVaultCrates demoEmpty = .ok v ∧ _
  cases hread : readState demoVaultCrates demoEmpty with
  | error message =>
    rw [hread] at hstate
    cases hstate
  | ok v =>
    rw [hread] at hstate
    obtain ⟨htype, hzero⟩ := Bool.and_eq_true_iff.mp hstate
    exact ⟨v, rfl, beq_iff_eq.mp htype, beq_iff_eq.mp hzero⟩

theorem vault_solvent_iff_deposits :
    (∀ step ∈ demoVaultSteps, step.successful → Solvent demoVaultCrates step.after) ↔
      ∀ step ∈ demoVaultSteps, step.successful →
        (lockedOf demoVaultCrates step.before).toNat ≤ step.value :=
  vault_solvent_iff demoVaultCrates_keeps demoVault_empty demoVault_run

/-- A vault with `1000` locked is sealed to an output of `500`. -/
theorem deposits_leave_insolvent : ∃ X P first last steps, SerdeKeeps X ∧ EmptyVault X first ∧
    VaultRun X P first steps last ∧ ¬ ∀ step ∈ steps, step.successful → Solvent X step.after := by
  refine ⟨demoVaultCrates, demoVaultProcessor, demoVault₀, demoVault₂, demoVaultSteps,
    demoVaultCrates_keeps, demoVault_empty, demoVault_run, fun h ↦ ?_⟩
  have hsolvent := h _ (List.mem_cons_of_mem _ List.mem_cons_self) trivial
  have hlocked : lockedOf demoVaultCrates demoVault₂ = 1000 := by decide
  change (lockedOf demoVaultCrates demoVault₂).toNat ≤ 500 at hsolvent
  rw [hlocked] at hsolvent
  exact absurd hsolvent (by decide)

end UtxoVm.Contracts
