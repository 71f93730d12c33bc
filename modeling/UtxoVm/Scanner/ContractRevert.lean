import UtxoVm.CoreVm.ExportedState
import UtxoVm.Scanner.RootBinding

/-!
# Contracts that refuse a call

A contract refuses a call by a return code.  `execute` hands the code of `call` on and drops that of
`restore_state`; `process_tx` looks at neither.
-/

namespace UtxoVm

open RustStd StateStore Prog BlockProcessor

/-! ## 1. What a refused call stores -/

namespace Vm

/-- The guest returns an error code from `restore_state` or from `call`. -/
def Refuses (m : Module) (config : VmConfig) (state : SmartObjectState) (caller method : String)
    (args : Bytes) : Prop :=
  (∃ s returnCode, run (restoreSession m state.stateData args)
      (newStore m config (HostContext.fromState state caller)) = (s, .ok returnCode) ∧
        returnCode ≠ 0) ∨
    ∃ s returnCode, Called config state caller method args m s returnCode ∧ returnCode ≠ 0

end Vm

namespace StateStore

/-- The record of the object has kept its fields, and the state root has not moved. -/
structure Unchanged (s s' : StateStore) (id : String) : Prop where
  fields : ∃ r r' : SmartObjectRecord, s.objects[id]? = some r ∧ s'.objects[id]? = some r' ∧
    SameFields r r'
  root : (run currentStateRoot s').2 = (run currentStateRoot s).2

variable {X : Crates} {ids : Set String} {s s' : StateStore}

theorem SameFields.refl (r : SmartObjectRecord) : SameFields r r := ⟨rfl, rfl, rfl, rfl, rfl⟩

theorem SameFields.preimage {r r' : SmartObjectRecord} (h : SameFields r r')
    (hid : r.objectId = r'.objectId) : objectPreimage X r = objectPreimage X r' := by
  unfold objectPreimage
  rw [hid, h.codeHash, h.sealRef, h.satoshis, h.owner, h.stateData]

theorem SameCore.unchanged (h : SameCore s s') {id : String} {r : SmartObjectRecord}
    (hr : s.objects[id]? = some r) : Unchanged s s' id where
  fields := ⟨r, r, hr, by rw [h.objects, hr], .refl r⟩
  root := by
    show Except.ok (hexEncode s'.smt.root.2.toList) = Except.ok (hexEncode s.smt.root.2.toList)
    rw [h.smt]

theorem Unchanged.of_sameCore {s'' : StateStore} {id : String} (h : Unchanged s s' id)
    (hcore : SameCore s' s'') : Unchanged s s'' id where
  fields := by
    rw [hcore.objects]
    exact h.fields
  root := by
    show Except.ok (hexEncode s''.smt.root.2.toList) = _
    rw [hcore.smt]
    exact h.root

/-- Writing an object with the fields it has does not move the root. -/
theorem putObject_unchanged (hs : s.Mirrored X ids) (hs' : s'.Mirrored X ids)
    {obj obj' : SmartObjectRecord} (hobj : s.objects[obj.objectId]? = some obj)
    (hid : obj'.objectId = obj.objectId) (hsame : SameFields obj obj')
    (hobjects : s'.objects = s.objects.insert obj'.objectId obj') :
    Unchanged s s' obj.objectId where
  fields := by
    refine ⟨obj, obj', hobj, ?_, hsame⟩
    rw [hobjects, Table.get_insert, if_pos hid.symm]
  root := by
    refine ((stateRoot_eq_iff hs.tracks hs'.tracks).mpr (congrArg _ ?_)).symm
    refine leaves_of_related hs.tracks hs'.tracks fun id ↦ ?_
    rw [hobjects, Table.get_insert]
    split
    · rename_i heq
      rw [heq, hid, hobj]
      exact .some (hsame.preimage hid.symm)
    · cases s.objects[id]? with
      | none => exact .none
      | some r => exact .some rfl

end StateStore

namespace BlockProcessor

/-- The transaction calls the object `obj`, whose code is the module `m`. -/
structure CallsContract (X : Crates) (engine : Engine) (config : VmConfig) (P : BlockProcessor)
    (s : StateStore) (tx : ElectrsTx) (voutIdx : Nat) (out : ElectrsTxOutput)
    (envelope : UtxoVmEnvelope) (obj : SmartObjectRecord) (wasmBytes : Bytes) (m : Module) :
    Prop where
  runtime : P.runtime = Vm.runtime X engine config
  action : selectAction X P s tx = .ok (some (.call voutIdx out envelope obj))
  code : obj.codeHash ≠ "wasm_default"
  stored : (if obj.codeHash = "" then some [] else s.wasmBlobs[obj.codeHash]?) = some wasmBytes
  compiled : engine.compile wasmBytes = .ok m

variable {X : Crates} {engine : Engine} {config : VmConfig} {P : BlockProcessor} {ids : Set String}
  {s : StateStore} {r : TxRun} {voutIdx : Nat} {out : ElectrsTxOutput} {envelope : UtxoVmEnvelope}
  {obj : SmartObjectRecord} {wasmBytes : Bytes} {m : Module}

/-- The object that the call stores when the contract reports `newState`. -/
def storedObject (tx : ElectrsTx) (blockHeight voutIdx : Nat) (out : ElectrsTxOutput)
    (envelope : UtxoVmEnvelope) (obj : SmartObjectRecord) (newState : Json) : SmartObjectRecord :=
  calledObject obj blockHeight (sealOf tx.txid voutIdx) out.value (argsOf (metadataOf envelope))
    newState

/-- The guest of the call refuses it. -/
def Refused (X : Crates) (config : VmConfig) (tx : ElectrsTx) (out : ElectrsTxOutput)
    (envelope : UtxoVmEnvelope) (obj : SmartObjectRecord) (m : Module) : Prop :=
  Vm.Refuses m config (vmState X obj out.value) (sender tx) (methodOf (metadataOf envelope))
    (X.jsonToVec (argsOf (metadataOf envelope)))

/-- The call goes through all the same: both writes commit, the guest still reports a state that is
JSON, and the object that is stored differs from the one before. -/
def GoesThrough (X : Crates) (engine : Engine) (config : VmConfig) (blockHeight : Nat) (r : TxRun)
    (voutIdx : Nat) (out : ElectrsTxOutput) (envelope : UtxoVmEnvelope) (obj : SmartObjectRecord)
    (wasmBytes : Bytes) : Prop :=
  r.writes.undo = true ∧ r.writes.object = true ∧
    ∃ outcome newState, Vm.execute X engine config wasmBytes (vmState X obj out.value)
        (sender r.tx) (methodOf (metadataOf envelope))
        (X.jsonToVec (argsOf (metadataOf envelope))) = .ok outcome ∧
      X.jsonFromSlice outcome.updatedStateData = some newState ∧
      ¬ SameFields obj (storedObject r.tx blockHeight voutIdx out envelope obj newState)

/-- The state that the guest reports, with the gas; nothing when the call is reverted. -/
def contractResult (X : Crates) (engine : Engine) (config : VmConfig) (tx : ElectrsTx)
    (out : ElectrsTxOutput) (envelope : UtxoVmEnvelope) (obj : SmartObjectRecord)
    (wasmBytes : Bytes) : Option (Json × Nat) :=
  match Vm.execute X engine config wasmBytes (vmState X obj out.value) (sender tx)
      (methodOf (metadataOf envelope)) (X.jsonToVec (argsOf (metadataOf envelope))) with
  | .ok outcome => (X.jsonFromSlice outcome.updatedStateData).map (·, outcome.gasConsumed)
  | .error _ => none

theorem CallsContract.callOutcome (h : CallsContract X engine config P s r.tx voutIdx out envelope
    obj wasmBytes m) :
    callOutcome X P s obj (methodOf (metadataOf envelope)) (argsOf (metadataOf envelope))
        (sender r.tx) out.value =
      .ok (contractResult X engine config r.tx out envelope obj wasmBytes) := by
  unfold BlockProcessor.callOutcome contractResult
  rw [if_neg h.code]
  dsimp only
  rw [h.stored]
  dsimp only
  unfold executeWasm
  rw [h.runtime]
  unfold Vm.runtime
  dsimp only
  cases Vm.execute X engine config wasmBytes (vmState X obj out.value) (sender r.tx)
      (methodOf (metadataOf envelope)) (X.jsonToVec (argsOf (metadataOf envelope))) with
  | error message => rfl
  | ok outcome =>
    simp only [Except.map, Bind.bind, Except.bind]
    cases X.jsonFromSlice outcome.updatedStateData <;> rfl

theorem goesThrough_iff {blockHeight : Nat} :
    GoesThrough X engine config blockHeight r voutIdx out envelope obj wasmBytes ↔
      r.writes.undo = true ∧ r.writes.object = true ∧ ∃ result,
        contractResult X engine config r.tx out envelope obj wasmBytes = some result ∧
          ¬ SameFields obj (storedObject r.tx blockHeight voutIdx out envelope obj result.1) := by
  unfold GoesThrough contractResult
  cases Vm.execute X engine config wasmBytes (vmState X obj out.value) (sender r.tx)
      (methodOf (metadataOf envelope)) (X.jsonToVec (argsOf (metadataOf envelope))) with
  | error message => simp
  | ok outcome => cases X.jsonFromSlice outcome.updatedStateData <;> simp

theorem CallsContract.runTx (h : CallsContract X engine config P s r.tx voutIdx out envelope obj
    wasmBytes m) (blockHeight : Nat) :
    runTx X P blockHeight s r =
      (run (processCall X P r.writes r.now r.tx blockHeight voutIdx out envelope obj) s).1 := by
  unfold BlockProcessor.runTx
  rw [run_processTx, h.action]
  rfl

/-- A call that does not go through leaves the object and the root alone. -/
theorem CallsContract.unchanged_of_not_goesThrough (hideal : IdealHash X ids) (hs : Run X ids s)
    (h : CallsContract X engine config P s r.tx voutIdx out envelope obj wasmBytes m)
    {blockHeight : Nat}
    (hno : ¬ GoesThrough X engine config blockHeight r voutIdx out envelope obj wasmBytes) :
    Unchanged s (BlockProcessor.runTx X P blockHeight s r) obj.objectId := by
  have hm := hs.mirrored hideal
  have hobj := (target_stored hm.intact (selectAction_call X P h.action)).1
  have hreadable := (hm.intact.object _ _ hobj).2
  rw [h.runTx, run_processCall]
  cases hundo : r.writes.undo with
  | false => exact (SameCore.refl s).unchanged hobj
  | true =>
    have hkept : Unchanged s (putUndo (P.updateUndo r.tx blockHeight voutIdx obj) s) obj.objectId :=
      ⟨⟨obj, obj, hobj, hobj, .refl obj⟩, rfl⟩
    rw [if_pos rfl, h.callOutcome]
    dsimp only
    cases hresult : contractResult X engine config r.tx out envelope obj wasmBytes with
    | none => exact hkept
    | some result =>
      cases hwrite : r.writes.object with
      | false => exact hkept
      | true =>
        -- the object is stored, but with the fields it had
        rw [goesThrough_iff] at hno
        have hsame : SameFields obj
            (storedObject r.tx blockHeight voutIdx out envelope obj result.1) := by
          by_contra hne
          exact hno ⟨hundo, hwrite, result, hresult, hne⟩
        have hundone : (putUndo (P.updateUndo r.tx blockHeight voutIdx obj) s).Mirrored X ids :=
          ⟨hm.intact.putUndo hreadable.2 (.update obj (updateUndo_holds P ..) hreadable.1),
            hm.tracks.congr rfl rfl⟩
        have hread : (storedObject r.tx blockHeight voutIdx out envelope obj
            result.1).readable = true := by
          unfold SmartObjectRecord.readable at hreadable ⊢
          rw [← hsame.stateData]
          exact hreadable.1
        have hstored :
            (putObject X (storedObject r.tx blockHeight voutIdx out envelope obj result.1)
              (putUndo (P.updateUndo r.tx blockHeight voutIdx obj) s)).Mirrored X ids :=
          hundone.putObject hideal hreadable.2 hread
        have hfields : Unchanged s (putObject X
            (storedObject r.tx blockHeight voutIdx out envelope obj result.1)
            (putUndo (P.updateUndo r.tx blockHeight voutIdx obj) s)) obj.objectId := by
          refine putObject_unchanged hm hstored hobj ?_ hsame rfl
          rfl
        cases r.writes.transition with
        | false => exact hfields
        | true => exact hfields.of_sameCore ⟨rfl, rfl, rfl, rfl⟩

/-- A call that goes through changes the record of the object. -/
theorem CallsContract.goesThrough_changes (hs : s.Intact ids)
    (h : CallsContract X engine config P s r.tx voutIdx out envelope obj wasmBytes m)
    {blockHeight : Nat}
    (hgoes : GoesThrough X engine config blockHeight r voutIdx out envelope obj wasmBytes) :
    ¬ Unchanged s (BlockProcessor.runTx X P blockHeight s r) obj.objectId := by
  intro hunchanged
  have hobj := (target_stored hs (selectAction_call X P h.action)).1
  obtain ⟨hundo, hwrite, result, hresult, hne⟩ := goesThrough_iff.mp hgoes
  obtain ⟨o, o', ho, ho', hsame⟩ := hunchanged.fields
  rw [hobj] at ho
  cases ho
  have hstored : (BlockProcessor.runTx X P blockHeight s r).objects[obj.objectId]? =
      some (storedObject r.tx blockHeight voutIdx out envelope obj result.1) := by
    rw [h.runTx, run_processCall, h.callOutcome, hresult, hundo, hwrite]
    have hget : (putObject X (storedObject r.tx blockHeight voutIdx out envelope obj result.1)
        (putUndo (P.updateUndo r.tx blockHeight voutIdx obj) s)).objects[obj.objectId]? =
        some (storedObject r.tx blockHeight voutIdx out envelope obj result.1) :=
      (Table.get_insert ..).trans (if_pos rfl)
    cases r.writes.transition <;> exact hget
  rw [hstored] at ho'
  cases ho'
  exact hne hsame

/-! ## 2. A contract that refuses every call -/

/-- An output with a WASM envelope. -/
def wasmOutput (value : Nat) (payload : Bytes) : ElectrsTxOutput :=
  { value
    scriptpubkey := hexEncode ([0x00, 0x63, 6] ++ asBytes "utxovm" ++ [1, 1, 16] ++
      asBytes "application/wasm" ++ [UInt8.ofNat payload.length] ++ payload ++ [0x68])
    scriptpubkeyHex := none }

def demoWasm : Bytes := [0x61]

def demoDeployTx : ElectrsTx := { demoCreateTx with vout := [wasmOutput 1000 demoWasm] }

/-- The state of a deployed object. -/
def demoDeployedState : Json :=
  .object [("initialized", .bool true), ("owner", .string (sender demoDeployTx))]

def demoContractCrates : Crates :=
  { demoCrates with
    jsonFromSlice := fun text ↦
      if text == asBytes demoDeployedState.compact then some demoDeployedState
      else demoCrates.jsonFromSlice text }

/-- A guest that keeps the state it is given, and answers every call with an error code.  Its
globals are the next free address and the length of the state, which lies at address zero. -/
def demoRefusing : Module where
  linkError := none
  memory := List.replicate 512 0
  exportsMemory := true
  globals := [0, 0]
  start := .ret ()
  allocate := some fun size ↦
    .step 1 (fun memory globals ↦
        (memory, [globals[0]! + UInt64.ofNat size.toInt.toNat, globals[1]!]))
      fun _ globals ↦ .ret (Int32.ofNat globals[0]!.toNat)
  deallocate := none
  init := none
  restoreState := some fun _ len ↦
    .step 1 (fun memory globals ↦ (memory, [globals[0]!, UInt64.ofNat len.toInt.toNat]))
      fun _ _ ↦ .ret 0
  call := some fun _ _ _ ↦ .ret 1
  getState := some fun ptr ↦
    .step 1 (fun memory globals ↦
        (memory.take (VmStore.usize ptr) ++ memory.take globals[1]!.toNat ++
          memory.drop (VmStore.usize ptr + globals[1]!.toNat), globals))
      fun _ globals ↦ .ret (Int32.ofNat globals[1]!.toNat)
  getStateSize := none

def demoContractProcessor : BlockProcessor :=
  { demoProcessor with runtime := Vm.runtime demoContractCrates (Vm.demoEngine demoRefusing) {} }

/-- The store after the deploy. -/
def demoDeployedStore : StateStore :=
  runTx demoContractCrates demoContractProcessor 1 (empty demoContractCrates)
    ⟨{}, 0, demoDeployTx⟩

/-- A call of the contract that would hand its object to `mallory`. -/
def demoSeizeRun : TxRun := { writes := {}, now := 0, tx := demoTransferTx }

/-- The action calls the deployed contract, and the guest refuses. -/
def demoIsRefused : Except Exit (Option Action) → Bool
  | .ok (some (.call _ out envelope obj)) =>
      obj.objectId == demoObjectId && obj.codeHash != "wasm_default" &&
        (if obj.codeHash = "" then some [] else demoDeployedStore.wasmBlobs[obj.codeHash]?) ==
          some demoWasm &&
        match (run (Vm.callSession demoRefusing (methodOf (metadataOf envelope))
            (vmState demoContractCrates obj out.value).stateData
            (demoContractCrates.jsonToVec (argsOf (metadataOf envelope))))
          (Vm.newStore demoRefusing {} (HostContext.fromState
            (vmState demoContractCrates obj out.value) (sender demoSeizeRun.tx)))).2 with
        | .ok returnCode => returnCode == 1
        | .error _ => false
  | _ => false

/-- The deploy is readable, the guest refuses the call, and the call changes the owner. -/
theorem demoSeize_evaluated :
    ((plannedUpdate demoContractCrates demoContractProcessor (empty demoContractCrates)
        demoDeployTx 1).all
      fun u ↦ u.undo.objectId == demoObjectId && u.object.all fun obj ↦ obj.readable) = true ∧
    demoIsRefused (selectAction demoContractCrates demoContractProcessor demoDeployedStore
      demoSeizeRun.tx) = true ∧
    demoDeployedStore.objects[demoObjectId]?.map (·.owner) = some (sender demoDeployTx) ∧
    (BlockProcessor.runTx demoContractCrates demoContractProcessor 2 demoDeployedStore
      demoSeizeRun).objects[demoObjectId]?.map (·.owner) = some "mallory" := by
  decide +kernel

/-- The call of `mallory` is refused. -/
theorem demoSeize_refused : ∃ voutIdx out envelope obj, obj.objectId = demoObjectId ∧
    CallsContract demoContractCrates (Vm.demoEngine demoRefusing) {} demoContractProcessor
      demoDeployedStore demoSeizeRun.tx voutIdx out envelope obj demoWasm demoRefusing ∧
    Refused demoContractCrates {} demoSeizeRun.tx out envelope obj demoRefusing := by
  have hrefused := demoSeize_evaluated.2.1
  generalize haction : selectAction demoContractCrates demoContractProcessor demoDeployedStore
    demoSeizeRun.tx = action at hrefused
  unfold demoIsRefused at hrefused
  split at hrefused
  · rename_i voutIdx out envelope obj
    simp only [Bool.and_eq_true, beq_iff_eq, bne_iff_ne] at hrefused
    obtain ⟨⟨⟨hid, hcode⟩, hstored⟩, hcall⟩ := hrefused
    refine ⟨voutIdx, out, envelope, obj, hid, ⟨rfl, haction, hcode, hstored, rfl⟩, .inr ?_⟩
    split at hcall
    · rename_i returnCode hresult
      rw [beq_iff_eq] at hcall
      exact ⟨_, returnCode, Prod.ext rfl hresult, by rw [hcall]; decide⟩
    · cases hcall
  · cases hrefused

theorem demoDeployedStore_run : Run demoContractCrates {demoObjectId} demoDeployedStore :=
  .processTx _ _ _ .empty (readable_of_all demoSeize_evaluated.1)

theorem demoContract_idealHash : IdealHash demoContractCrates {demoObjectId} where
  injOn := Set.injOn_singleton _ _
  nonzero _ := demoCrates_sha256_ne_zero _

/-! ## 3. Refusals and reverts -/

/-- **Refusals and reverts.**  A call that the contract refuses is reverted exactly when it fails
for another reason too. -/
theorem refused_reverts_iff (hideal : IdealHash X ids) (hs : Run X ids s)
    (hcalls : CallsContract X engine config P s r.tx voutIdx out envelope obj wasmBytes m)
    (blockHeight : Nat) :
    (Refused X config r.tx out envelope obj m →
        Unchanged s (BlockProcessor.runTx X P blockHeight s r) obj.objectId) ↔
      (Refused X config r.tx out envelope obj m →
        ¬ GoesThrough X engine config blockHeight r voutIdx out envelope obj wasmBytes) := by
  refine imp_congr_right fun _ ↦ ⟨fun hunchanged hgoes ↦ ?_, fun hno ↦ ?_⟩
  · exact hcalls.goesThrough_changes (hs.mirrored hideal).intact hgoes hunchanged
  · exact hcalls.unchanged_of_not_goesThrough hideal hs hno

theorem refused_reverts_iff_seize : ∃ voutIdx out envelope obj,
    (Refused demoContractCrates {} demoSeizeRun.tx out envelope obj demoRefusing →
        Unchanged demoDeployedStore (BlockProcessor.runTx demoContractCrates demoContractProcessor 2
          demoDeployedStore demoSeizeRun) obj.objectId) ↔
      (Refused demoContractCrates {} demoSeizeRun.tx out envelope obj demoRefusing →
        ¬ GoesThrough demoContractCrates (Vm.demoEngine demoRefusing) {} 2 demoSeizeRun voutIdx out
          envelope obj demoWasm) := by
  obtain ⟨voutIdx, out, envelope, obj, _, hcalls, _⟩ := demoSeize_refused
  exact ⟨voutIdx, out, envelope, obj,
    refused_reverts_iff demoContract_idealHash demoDeployedStore_run hcalls 2⟩

/-- The guest returns an error code, and `mallory` owns the object all the same. -/
theorem refused_call_moves_object : ∃ voutIdx out envelope obj,
    CallsContract demoContractCrates (Vm.demoEngine demoRefusing) {} demoContractProcessor
      demoDeployedStore demoSeizeRun.tx voutIdx out envelope obj demoWasm demoRefusing ∧
    Refused demoContractCrates {} demoSeizeRun.tx out envelope obj demoRefusing ∧
    ¬ Unchanged demoDeployedStore (BlockProcessor.runTx demoContractCrates demoContractProcessor 2
      demoDeployedStore demoSeizeRun) obj.objectId := by
  obtain ⟨voutIdx, out, envelope, obj, hid, hcalls, hrefused⟩ := demoSeize_refused
  refine ⟨voutIdx, out, envelope, obj, hcalls, hrefused, fun hunchanged ↦ ?_⟩
  obtain ⟨o, o', ho, ho', hsame⟩ := hunchanged.fields
  obtain ⟨-, -, hbefore, hafter⟩ := demoSeize_evaluated
  rw [hid] at ho ho'
  rw [ho] at hbefore
  rw [ho'] at hafter
  have howner : sender demoDeployTx = "mallory" :=
    (Option.some.inj hbefore).symm.trans (hsame.owner.trans (Option.some.inj hafter))
  exact absurd howner (by decide)

end BlockProcessor

end UtxoVm
