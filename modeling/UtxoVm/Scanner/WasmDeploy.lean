import UtxoVm.CoreVm.Execute
import UtxoVm.Scanner.Readback

/-!
# Does a deploy run the contract?

`VmRuntime::deploy` runs `init` and reads the first state through `get_state`.  The block processor
stores the module and an object, but it does not run the module; and since an envelope with a
module carries no metadata, the object always starts in the same state.
-/

namespace UtxoVm

open RustStd StateStore Prog

namespace BlockProcessor

variable {X : Crates} {P : BlockProcessor} {s : StateStore} {tx : ElectrsTx} {voutIdx : Nat}
  {out : ElectrsTxOutput} {envelope : UtxoVmEnvelope}

/-! ## 1. The first envelope -/

/-- The output at the index has the first envelope of the transaction. -/
structure FirstEnvelope (X : Crates) (tx : ElectrsTx) (voutIdx : Nat) (out : ElectrsTxOutput)
    (envelope : UtxoVmEnvelope) : Prop where
  before : ∃ before after, tx.vout = before ++ out :: after ∧ before.length = voutIdx ∧
    ∀ o ∈ before, outputEnvelope X o = .ok none
  found : outputEnvelope X out = .ok (some envelope)

theorem selectOutput_append {before rest : List ElectrsTxOutput} {start : Nat}
    (h : ∀ o ∈ before, outputEnvelope X o = .ok none) :
    selectOutput X P s tx start (before ++ rest) =
      selectOutput X P s tx (start + before.length) rest := by
  induction before generalizing start with
  | nil => rfl
  | cons o before ih =>
    rw [List.cons_append]
    conv_lhs => unfold selectOutput
    rw [h o List.mem_cons_self]
    dsimp only
    rw [ih fun o' ho' ↦ h o' (List.mem_cons_of_mem _ ho'), List.length_cons]
    congr 1
    omega

/-- A create in the first envelope is what the transaction does, if it pays the fee. -/
theorem FirstEnvelope.selectAction_create (h : FirstEnvelope X tx voutIdx out envelope)
    (hcreate : isCreate envelope = true) :
    selectAction X P s tx =
      if P.validateFee tx then .ok (some (.create voutIdx out envelope)) else .ok none := by
  obtain ⟨before, after, hvout, hlength, hnone⟩ := h.before
  unfold selectAction
  rw [hvout, selectOutput_append hnone, Nat.zero_add, hlength]
  unfold selectOutput
  rw [h.found]
  dsimp only
  rw [if_pos hcreate]

/-! ## 2. The state of a deployed object -/

/-- The state of an object whose envelope carries none. -/
def initialState (tx : ElectrsTx) : Json :=
  .object [("initialized", .bool true), ("owner", .string (sender tx))]

theorem isCreate_of_isWasm (h : isWasm envelope = true) : isCreate envelope = true := by
  unfold isCreate opOf
  rw [if_pos h]
  rfl

/-- An envelope with a module has no metadata. -/
theorem metadata_of_isWasm (hfound : outputEnvelope X out = .ok (some envelope))
    (h : isWasm envelope = true) : envelope.metadata = none := by
  obtain ⟨version, contentType, payload, rfl⟩ := outputEnvelope_made hfound
  have htype : contentType = asBytes "application/wasm" := eq_of_beq h
  unfold mkEnvelope
  dsimp only
  rw [if_neg]
  rw [htype]
  decide

theorem createdObject_stateData (hfound : outputEnvelope X out = .ok (some envelope))
    (h : isWasm envelope = true) (blockHeight : Nat) (objId : String) :
    (createdObject X tx blockHeight voutIdx out envelope objId).stateData = initialState tx := by
  unfold createdObject metadataOf
  rw [metadata_of_isWasm hfound h]
  rfl

/-- The module of the envelope is deployed with success, and exports the state. -/
def Deployed (X : Crates) (engine : Engine) (config : VmConfig) (tx : ElectrsTx) (voutIdx : Nat)
    (out : ElectrsTxOutput) (envelope : UtxoVmEnvelope) (initArgs : Bytes) (state : Json) : Prop :=
  ∃ outcome, Vm.deploy engine config envelope.payload (sender tx) ⟨tx.txid, voutIdx⟩ out.value
      initArgs = .ok outcome ∧
    outcome.returnCode = 0 ∧ X.jsonFromSlice outcome.updatedStateData = some state

/-- The transaction creates nothing, or an object in the state that the deployment exports. -/
def DeployAgrees (X : Crates) (P : BlockProcessor) (engine : Engine) (config : VmConfig)
    (w : Writes) (now : Int) (tx : ElectrsTx) (blockHeight voutIdx : Nat) (out : ElectrsTxOutput)
    (envelope : UtxoVmEnvelope) (initArgs : Bytes) (s : StateStore) : Prop :=
  let after := run (processTx X P w now tx blockHeight) s
  (after.1.objects = s.objects ∧ ∀ id, after.2 ≠ .ok (some id)) ∨
    ∃ id r, after.2 = .ok (some id) ∧ after.1.objects = s.objects.insert id r ∧
      Deployed X engine config tx voutIdx out envelope initArgs r.stateData

/-- The transaction pays for its object and has an id for it, and its writes commit. -/
structure CreatesObject (P : BlockProcessor) (w : Writes) (tx : ElectrsTx) : Prop where
  fee : P.validateFee tx = true
  id : ∃ objId, createdObjectId tx.txid = .ok objId
  undo : w.undo = true
  object : w.object = true

/-- What the transaction does to the objects, and what it returns. -/
theorem FirstEnvelope.run_processTx (h : FirstEnvelope X tx voutIdx out envelope)
    (hwasm : isWasm envelope = true) (w : Writes) (now : Int) (blockHeight : Nat)
    (s : StateStore) :
    let after := run (processTx X P w now tx blockHeight) s
    (¬ CreatesObject P w tx ∧ after.1.objects = s.objects ∧ ∀ id, after.2 ≠ .ok (some id)) ∨
      (CreatesObject P w tx ∧ ∃ id, after.2 = .ok (some id) ∧
        after.1.objects =
          s.objects.insert id (createdObject X tx blockHeight voutIdx out envelope id)) := by
  dsimp only
  rw [UtxoVm.BlockProcessor.run_processTx, h.selectAction_create (isCreate_of_isWasm hwasm)]
  cases hfee : P.validateFee tx with
  | false =>
    refine .inl ⟨fun hcreates ↦ ?_, rfl, fun id hid ↦ by cases hid⟩
    rw [hcreates.fee] at hfee
    cases hfee
  | true =>
    rw [if_pos rfl]
    unfold performAction
    dsimp only
    rw [run_processCreate]
    dsimp only
    have hblob : (afterBlob X w envelope s).objects = s.objects :=
      (afterBlob_sameCore X w envelope s).objects
    cases hid : createdObjectId tx.txid with
    | error e =>
      refine .inl ⟨fun hcreates ↦ ?_, hblob, fun id h ↦ by cases h⟩
      obtain ⟨objId, hobjId⟩ := hcreates.id
      rw [hid] at hobjId
      cases hobjId
    | ok objId =>
      dsimp only
      cases hundo : w.undo with
      | false =>
        refine .inl ⟨fun hcreates ↦ ?_, hblob, fun id h ↦ by cases h⟩
        exact absurd (hundo.symm.trans hcreates.undo) (by decide)
      | true =>
        rw [if_pos rfl]
        cases hobject : w.object with
        | false =>
          refine .inl ⟨fun hcreates ↦ ?_, hblob, fun id h ↦ by cases h⟩
          exact absurd (hobject.symm.trans hcreates.object) (by decide)
        | true =>
          refine .inr ⟨⟨hfee, ⟨objId, hid⟩, hundo, hobject⟩, objId, rfl, ?_⟩
          show (afterBlob X w envelope s).objects.insert objId _ = _
          rw [hblob]

theorem FirstEnvelope.stateData (h : FirstEnvelope X tx voutIdx out envelope)
    (hwasm : isWasm envelope = true) (blockHeight : Nat) (objId : String) :
    (createdObject X tx blockHeight voutIdx out envelope objId).stateData = initialState tx :=
  createdObject_stateData h.found hwasm blockHeight objId

/-- An object that agrees with the deployment is in the state in which all of them start. -/
theorem FirstEnvelope.deployed (h : FirstEnvelope X tx voutIdx out envelope)
    (hwasm : isWasm envelope = true) {engine : Engine} {config : VmConfig} {w : Writes} {now : Int}
    {blockHeight : Nat} {initArgs : Bytes}
    (hagrees : DeployAgrees X P engine config w now tx blockHeight voutIdx out envelope initArgs s)
    (hcreates : CreatesObject P w tx) :
    Deployed X engine config tx voutIdx out envelope initArgs (initialState tx) := by
  rcases h.run_processTx (P := P) hwasm w now blockHeight s with
    ⟨hnothing, -⟩ | ⟨-, id, hresult, hobjects⟩
  · exact absurd hcreates hnothing
  · rcases hagrees with ⟨-, hnone⟩ | ⟨id', r, hresult', hobjects', hdeployed⟩
    · exact absurd hresult (hnone id)
    · have hid : id = id' := Option.some.inj (Except.ok.inj (hresult.symm.trans hresult'))
      subst hid
      have hget := congrArg (fun t : Table String SmartObjectRecord ↦ t[id]?)
        (hobjects.symm.trans hobjects')
      rw [Table.get_insert, Table.get_insert, if_pos rfl, if_pos rfl] at hget
      rw [← Option.some.inj hget, h.stateData hwasm] at hdeployed
      exact hdeployed

/-- **The node's deploy agrees with the VM's**, if and only if the transaction creates nothing or
the contract happens to export the state that every deployed object starts in. -/
theorem deploy_agrees_iff (X : Crates) (P : BlockProcessor) (engine : Engine) (config : VmConfig)
    (w : Writes) (now : Int) (tx : ElectrsTx) (blockHeight voutIdx : Nat) (out : ElectrsTxOutput)
    (envelope : UtxoVmEnvelope) (initArgs : Bytes) (s : StateStore)
    (hfirst : FirstEnvelope X tx voutIdx out envelope) (hwasm : isWasm envelope = true) :
    DeployAgrees X P engine config w now tx blockHeight voutIdx out envelope initArgs s ↔
      (CreatesObject P w tx →
        Deployed X engine config tx voutIdx out envelope initArgs (initialState tx)) := by
  constructor
  · exact fun hagrees ↦ hfirst.deployed hwasm hagrees
  · intro hdeployed
    rcases hfirst.run_processTx (P := P) hwasm w now blockHeight s with
      ⟨-, hobjects, hresult⟩ | ⟨hcreates, id, hresult, hobjects⟩
    · exact .inl ⟨hobjects, hresult⟩
    · refine .inr ⟨id, _, hresult, hobjects, ?_⟩
      rw [hfirst.stateData hwasm]
      exact hdeployed hcreates

/-! A transaction that deploys a module of one byte.  Its `init` returns a code, and its `get_state`
writes a text. -/

def demoWasmOutput : ElectrsTxOutput where
  value := 1000
  scriptpubkey := hexEncode ([0x00, 0x63, 6] ++ asBytes "utxovm" ++ [1, 1, 16] ++
    asBytes "application/wasm" ++ [1, 7, 0x68])
  scriptpubkeyHex := none

def demoWasmTx : ElectrsTx := { demoCreateTx with vout := [demoWasmOutput] }

/-- The state that the contract of the demonstration gives itself. -/
def demoCounter : Json := .object [("count", .bool false)]

def demoDeployCrates : Crates :=
  { demoCrates with
    jsonFromSlice := fun text ↦
      [demoCounter, initialState demoWasmTx].find? fun j ↦ text == asBytes j.compact }

def demoWasmEnvelope : UtxoVmEnvelope :=
  mkEnvelope demoDeployCrates 1 (asBytes "application/wasm") [7]

def demoDeployModule (returnCode : Int32) (state : Json) : Module where
  linkError := none
  memory := List.replicate 256 0
  exportsMemory := true
  globals := []
  start := .ret ()
  allocate := some fun _ ↦ .ret 0
  deallocate := none
  init := some fun _ _ ↦ .ret returnCode
  restoreState := none
  call := none
  getState := some fun _ ↦
    let text := asBytes state.compact
    .step 10 (fun memory globals ↦ (text ++ memory.drop text.length, globals)) fun _ _ ↦
      .ret (Int32.ofNat text.length)
  getStateSize := none

def demoDeployEngine (returnCode : Int32) (state : Json) : Engine where
  compile _ := .ok (demoDeployModule returnCode state)

theorem demoWasm_first :
    FirstEnvelope demoDeployCrates demoWasmTx 0 demoWasmOutput demoWasmEnvelope where
  before := ⟨[], [], rfl, rfl, fun o ho ↦ by cases ho⟩
  found := by
    set_option maxRecDepth 4000 in
    rfl

theorem demoWasm_isWasm : isWasm demoWasmEnvelope = true := by decide

theorem demoWasm_creates : CreatesObject demoProcessor {} demoWasmTx :=
  ⟨rfl, ⟨demoObjectId, by decide +kernel⟩, rfl, rfl⟩

/-- What the deployment of the module returns and exports. -/
def demoDeployment (returnCode : Int32) (exported : Json) : Option (Int × Bytes) :=
  (Vm.deploy (demoDeployEngine returnCode exported) {} demoWasmEnvelope.payload (sender demoWasmTx)
    ⟨demoWasmTx.txid, 0⟩ demoWasmOutput.value []).toOption.map fun outcome ↦
      (outcome.returnCode, outcome.updatedStateData)

theorem demoDeployed_iff {returnCode : Int32} {exported state : Json} {code : Int} {text : Bytes}
    (h : demoDeployment returnCode exported = some (code, text)) :
    Deployed demoDeployCrates (demoDeployEngine returnCode exported) {} demoWasmTx 0 demoWasmOutput
        demoWasmEnvelope [] state ↔
      code = 0 ∧ demoDeployCrates.jsonFromSlice text = some state := by
  unfold demoDeployment at h
  unfold Deployed
  cases hdeploy : Vm.deploy (demoDeployEngine returnCode exported) {} demoWasmEnvelope.payload
    (sender demoWasmTx) ⟨demoWasmTx.txid, 0⟩ demoWasmOutput.value [] with
  | error message =>
    rw [hdeploy] at h
    cases h
  | ok outcome =>
    rw [hdeploy] at h
    cases h
    simp

theorem demoDeployment_initial : demoDeployment 0 (initialState demoWasmTx) =
    some (0, asBytes (initialState demoWasmTx).compact) := by
  decide +kernel

theorem deploy_agrees_demo :
    DeployAgrees demoDeployCrates demoProcessor (demoDeployEngine 0 (initialState demoWasmTx)) {} {}
      0 demoWasmTx 1 0 demoWasmOutput demoWasmEnvelope [] (empty demoDeployCrates) := by
  have hparse : demoDeployCrates.jsonFromSlice (asBytes (initialState demoWasmTx).compact) =
      some (initialState demoWasmTx) := rfl
  exact (deploy_agrees_iff demoDeployCrates demoProcessor
    (demoDeployEngine 0 (initialState demoWasmTx)) {} {} 0 demoWasmTx 1 0 demoWasmOutput
    demoWasmEnvelope [] (empty demoDeployCrates) demoWasm_first demoWasm_isWasm).mpr
      fun _ ↦ (demoDeployed_iff demoDeployment_initial).mpr ⟨rfl, hparse⟩

/-- **A deploy is not run.**  A contract that starts with a state of its own is stored with
another one, and one whose `init` fails is stored all the same. -/
theorem deploy_not_run :
    ¬ DeployAgrees demoDeployCrates demoProcessor (demoDeployEngine 0 demoCounter) {} {} 0
        demoWasmTx 1 0 demoWasmOutput demoWasmEnvelope [] (empty demoDeployCrates) ∧
      ¬ DeployAgrees demoDeployCrates demoProcessor (demoDeployEngine 1 (initialState demoWasmTx))
        {} {} 0 demoWasmTx 1 0 demoWasmOutput demoWasmEnvelope [] (empty demoDeployCrates) := by
  have hcounter : demoDeployment 0 demoCounter = some (0, asBytes demoCounter.compact) := by
    decide +kernel
  have hfailing : demoDeployment 1 (initialState demoWasmTx) =
      some (1, asBytes (initialState demoWasmTx).compact) := by
    decide +kernel
  constructor
  · intro hagrees
    have hdeployed := (demoDeployed_iff hcounter).mp
      (demoWasm_first.deployed demoWasm_isWasm hagrees demoWasm_creates)
    have hparse : demoDeployCrates.jsonFromSlice (asBytes demoCounter.compact) =
        some demoCounter := rfl
    have hsame := hparse.symm.trans hdeployed.2
    exact absurd (congrArg (·.map Json.compact) hsame) (by decide +kernel)
  · intro hagrees
    have hdeployed := (demoDeployed_iff hfailing).mp
      (demoWasm_first.deployed demoWasm_isWasm hagrees demoWasm_creates)
    exact absurd hdeployed.1 (by decide)

end BlockProcessor

end UtxoVm
