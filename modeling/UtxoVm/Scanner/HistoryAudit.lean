import UtxoVm.CoreVm.EntryPoints
import UtxoVm.Scanner.Lineage
import UtxoVm.Scanner.Scan

/-!
# Auditing the history of an object

The history that a node serves of an object says of every call who made it, with which method and
arguments, and what state it left.  Whoever has the code can make the calls again, one after the
other, through the C interface of the VM.
-/

namespace UtxoVm

open RustStd StateStore Prog BlockProcessor

section

variable (X : Crates) (lib : VmLibrary)

/-- The call of a transition as an operation on the object. -/
def auditOp (t : StateTransitionRecord) : FixtureOp :=
  let sealParts := splitOn t.prevSeal ':'
  { opType := "call"
    caller := some t.caller
    sealTxid := some ((sealParts[0]?).getD "")
    sealVout := some (((sealParts[1]?).bind parseU32).getD 0)
    satoshis := some t.satoshis
    method := some t.method
    argsHex := some (hexEncode (X.jsonToVec t.args))
    objectId := some t.objectId }

/-- Make the call again on a state: the state that it leaves, if the gas is that of the history.
Objects without code keep to the rule of the placeholder. -/
def auditStep (codeHash : String) (wasm : Bytes) (state : Json) (t : StateTransitionRecord) :
    Option Json :=
  if codeHash = "wasm_default" then some (placeholderState state t.method t.caller)
  else do
    let (stateData, gas) ← leftState (Ffi.doExecute X lib
      ((auditOp X t).executeRequest ⟨t.objectId, X.jsonToVec state, wasm⟩))
    if gas = t.gasConsumed then X.jsonFromSlice stateData else none

/-- The code under a hash: the transactions have deployed no other code of this hash. -/
def IsCode (txs : List ElectrsTx) (codeHash : String) (wasm : Bytes) : Prop :=
  codeHash ≠ "wasm_default" → Vm.calculateCodeHash X wasm = codeHash ∧
    ∀ tx ∈ txs, ∀ other, Deploys X tx other → Vm.calculateCodeHash X other = codeHash → other = wasm

/-- All stored code was deployed by the transactions. -/
def BlobsDeployed (txs : List ElectrsTx) (s : StateStore) : Prop :=
  ∀ (codeHash : String) (wasmBytes : Bytes), s.wasmBlobs[codeHash]? = some wasmBytes →
    ∃ tx ∈ txs, Deploys X tx wasmBytes

/-- The state in the envelope of a transaction that creates the object. -/
def CreatedWith (txs : List ElectrsTx) (objectId : String) (state : Json) : Prop :=
  ∃ tx ∈ txs, ∃ blockHeight voutIdx out envelope, createdObjectId tx.txid = .ok objectId ∧
    Carries X tx voutIdx out envelope ∧
    state = (createdObject X tx blockHeight voutIdx out envelope objectId).stateData

/-- The calls of the list, made again from `initial`, leave what the list says, and `tip` last. -/
def Recomputed (codeHash : String) (wasm : Bytes) (initial : Json) :
    List StateTransitionRecord → Json → Prop
  | [], tip => initial = tip
  | t :: rest, tip =>
      auditStep X lib codeHash wasm initial t = some t.newState ∧
        Recomputed codeHash wasm t.newState rest tip

end

variable {X : Crates} {lib : VmLibrary} {P : BlockProcessor} {s s' : StateStore}

/-! ## 1. Lists of calls -/

section

variable {codeHash : String} {wasm : Bytes} {initial tip : Json}
  {list : List StateTransitionRecord}

theorem Recomputed.append (h : Recomputed X lib codeHash wasm initial list tip)
    {t : StateTransitionRecord} (ht : auditStep X lib codeHash wasm tip t = some t.newState) :
    Recomputed X lib codeHash wasm initial (list ++ [t]) t.newState := by
  induction list generalizing initial with
  | nil =>
    have hsame : initial = tip := h
    rw [← hsame] at ht
    exact ⟨ht, rfl⟩
  | cons t' rest ih => exact ⟨h.1, ih h.2⟩

end

/-! ## 2. One call -/

theorem parseU32_lt {text : String} {n : Nat} (h : parseU32 text = some n) : n < 2 ^ 32 := by
  unfold parseU32 at h
  have hmem := Option.filter_eq_some_iff.mp h
  simpa using hmem.2

theorem auditOp_typed {t : StateTransitionRecord} (hvalue : t.satoshis < 2 ^ 64) :
    (auditOp X t).Typed where
  sealVout n hn := by
    cases Option.some.inj hn
    cases hpart : ((splitOn t.prevSeal ':')[1]?).bind parseU32 with
    | none => decide
    | some n =>
      obtain ⟨text, -, hparse⟩ := Option.bind_eq_some_iff.mp hpart
      exact parseU32_lt hparse
  satoshis n hn := by
    cases Option.some.inj hn
    exact hvalue

theorem calculateCodeHash_ne_empty (X : Crates) (wasm : Bytes) :
    Vm.calculateCodeHash X wasm ≠ "" := by
  intro hempty
  have hnil : (X.sha256 wasm).toList = [] := hexEncode_injective hempty
  have hlength := congrArg List.length hnil
  rw [Vector.length_toList] at hlength
  cases hlength

/-- Code runs on a state with a code hash only under this hash. -/
theorem calculateCodeHash_of_execute {engine : Engine} {config : VmConfig} {wasm : Bytes}
    {state : SmartObjectState} {caller method : String} {args : Bytes} {out : VmOutcome}
    (h : Vm.execute X engine config wasm state caller method args = .ok out)
    (hcode : state.codeHash ≠ "") : Vm.calculateCodeHash X wasm = state.codeHash := by
  unfold Vm.execute at h
  split at h
  · cases h
  · rename_i hmatches
    by_contra hne
    apply hmatches
    rw [Bool.and_eq_true, Bool.not_eq_true', bne_iff_ne]
    exact ⟨by simpa using hcode, hne⟩

/-- What the block processor takes from a run of the VM. -/
theorem executeWasm_ok (hruntime : P.runtime = Vm.runtime X lib.engine {})
    {obj : SmartObjectRecord} {method caller : String} {args : Json} {satoshis : Nat} {wasm : Bytes}
    {result : Json × Nat}
    (h : executeWasm X P obj method args caller satoshis wasm = .ok result) :
    ∃ out, Vm.execute X lib.engine {} wasm (vmState X obj satoshis) caller method
        (X.jsonToVec args) = .ok out ∧
      X.jsonFromSlice out.updatedStateData = some result.1 ∧ out.gasConsumed = result.2 := by
  unfold executeWasm at h
  rw [hruntime] at h
  obtain ⟨execResult, hexecute, h⟩ := bind_eq_ok h
  change (Vm.execute X lib.engine {} wasm (vmState X obj satoshis) caller method
    (X.jsonToVec args)).map _ = _ at hexecute
  cases hrun : Vm.execute X lib.engine {} wasm (vmState X obj satoshis) caller method
      (X.jsonToVec args) with
  | error message =>
    rw [hrun] at hexecute
    cases hexecute
  | ok out =>
    rw [hrun] at hexecute
    cases hexecute
    split at h
    · rename_i newState hjson
      cases h
      exact ⟨out, rfl, hjson, rfl⟩
    · cases h

section

variable {obj : SmartObjectRecord} {now : Int} {tx : ElectrsTx} {blockHeight voutIdx : Nat}
  {out : ElectrsTxOutput} {envelope : UtxoVmEnvelope} {result : Json × Nat} {wasm : Bytes}

/-- The operation of a transition hands the VM what the block processor has handed it, but for the
owner. -/
theorem priorState_auditOp (hcode : Vm.calculateCodeHash X wasm = obj.codeHash) :
    priorState X (auditOp X (callTransition now tx blockHeight voutIdx out envelope obj result))
        ⟨obj.objectId, X.jsonToVec obj.stateData, wasm⟩ =
      { vmState X obj out.value with ownerPubkey := sender tx } := by
  unfold priorState vmState
  dsimp only
  rw [hcode]
  rfl

/-- **A call can be made again.** -/
theorem auditStep_call {txs : List ElectrsTx} (hruntime : P.runtime = Vm.runtime X lib.engine {})
    (hblobs : BlobsDeployed X txs s) (hvalue : out.value < 2 ^ 64)
    (hwasm : IsCode X txs obj.codeHash wasm)
    (houtcome : callOutcome X P s obj (methodOf (metadataOf envelope))
      (argsOf (metadataOf envelope)) (sender tx) out.value = .ok (some result)) :
    auditStep X lib obj.codeHash wasm obj.stateData
      (callTransition now tx blockHeight voutIdx out envelope obj result) = some result.1 := by
  unfold callOutcome at houtcome
  unfold auditStep
  by_cases hdefault : obj.codeHash = "wasm_default"
  · rw [if_pos hdefault] at houtcome ⊢
    cases houtcome
    rfl
  rw [if_neg hdefault] at houtcome ⊢
  dsimp only at houtcome
  obtain ⟨hcode, hunique⟩ := hwasm hdefault
  cases hblob : (if obj.codeHash = "" then some [] else s.wasmBlobs[obj.codeHash]?) with
  | none =>
    rw [hblob] at houtcome
    cases houtcome
  | some wasmBytes =>
    rw [hblob] at houtcome
    dsimp only at houtcome
    -- a run that has failed leaves no transition
    cases hexec : executeWasm X P obj (methodOf (metadataOf envelope))
        (argsOf (metadataOf envelope)) (sender tx) out.value wasmBytes with
    | error message =>
      rw [hexec] at houtcome
      cases houtcome
    | ok left =>
      rw [hexec] at houtcome
      cases houtcome
      obtain ⟨vmOut, hrun, hjson, hgas⟩ := executeWasm_ok hruntime hexec
      -- the code that has run is the code under the hash
      have hnonempty : obj.codeHash ≠ "" := by
        rw [← hcode]
        exact calculateCodeHash_ne_empty X wasm
      -- the blob was deployed under the hash of the code
      have hsame : wasmBytes = wasm := by
        rw [if_neg hnonempty] at hblob
        obtain ⟨tx', htx', hdeploys⟩ := hblobs obj.codeHash wasmBytes hblob
        exact hunique tx' htx' wasmBytes hdeploys (calculateCodeHash_of_execute hrun hnonempty)
      subst hsame
      -- the arguments travel as hex
      have hargs : optionalBytes (lib.host X)
          (auditOp X (callTransition now tx blockHeight voutIdx out envelope obj result)).argsHex =
            .ok (X.jsonToVec (argsOf (metadataOf envelope))) := by
        show hexToBytes _ (hexEncode _) = _
        unfold hexToBytes
        rw [hexDecode_hexEncode]
        rfl
      have hreplay : replayCall X (lib.host X) 0
          (auditOp X (callTransition now tx blockHeight voutIdx out envelope obj result))
          ⟨obj.objectId, X.jsonToVec obj.stateData, wasmBytes⟩ =
            .ok (⟨obj.objectId, vmOut.updatedStateData, wasmBytes⟩, vmOut.gasConsumed) := by
        unfold replayCall
        rw [hargs, priorState_auditOp hcode]
        show (((Vm.execute X lib.engine {} wasmBytes (vmState X obj out.value) (sender tx)
          (methodOf (metadataOf envelope)) (X.jsonToVec (argsOf (metadataOf envelope)))).map
            (·.toExecutionResult)).mapError _ >>= _) = _
        rw [hrun]
        rfl
      have htyped : (auditOp X
          (callTransition now tx blockHeight voutIdx out envelope obj result)).Typed :=
        auditOp_typed hvalue
      show ((leftState (Ffi.doExecute X lib (FixtureOp.executeRequest _
        ⟨obj.objectId, X.jsonToVec obj.stateData, wasmBytes⟩))).bind _) = _
      rw [leftState_execute htyped X lib 0, hreplay]
      show (if vmOut.gasConsumed = result.2 then
        X.jsonFromSlice vmOut.updatedStateData else none) = _
      rw [if_pos hgas, hjson]

end

/-! ## 3. One transaction -/

/-- What a call writes to the objects and the transitions. -/
theorem runTx_call {blockHeight voutIdx : Nat} {r : TxRun} {out : ElectrsTxOutput}
    {envelope : UtxoVmEnvelope} {obj : SmartObjectRecord}
    (hsaved : r.writes.object = true → r.writes.transition = true)
    (haction : selectAction X P s r.tx = .ok (some (.call voutIdx out envelope obj))) :
    ((runTx X P blockHeight s r).objects = s.objects ∧
      (runTx X P blockHeight s r).transitions = s.transitions) ∨
    ∃ result, callOutcome X P s obj (methodOf (metadataOf envelope)) (argsOf (metadataOf envelope))
        (sender r.tx) out.value = .ok (some result) ∧
      (runTx X P blockHeight s r).objects = s.objects.insert obj.objectId
        (calledObject obj blockHeight (sealOf r.tx.txid voutIdx) out.value
          (argsOf (metadataOf envelope)) result.1) ∧
      (runTx X P blockHeight s r).transitions = s.transitions.insert r.tx.txid
        (callTransition r.now r.tx blockHeight voutIdx out envelope obj result) := by
  unfold runTx
  rw [run_processTx, haction]
  simp only [performAction]
  rw [run_processCall]
  cases r.writes.undo with
  | false => exact .inl ⟨rfl, rfl⟩
  | true =>
    cases houtcome : callOutcome X P s obj (methodOf (metadataOf envelope))
        (argsOf (metadataOf envelope)) (sender r.tx) out.value with
    | error e => exact .inl ⟨rfl, rfl⟩
    | ok result? =>
      cases result? with
      | none => exact .inl ⟨rfl, rfl⟩
      | some result =>
        cases hobject : r.writes.object with
        | false => exact .inl ⟨rfl, rfl⟩
        | true =>
          rw [hsaved hobject]
          exact .inr ⟨result, rfl, rfl, rfl⟩

/-- Every stored object has a lineage whose calls can be made again. -/
def Auditable (X : Crates) (lib : VmLibrary) (txs : List ElectrsTx) (s : StateStore) : Prop :=
  ∀ (id : String) (obj : SmartObjectRecord), s.objects[id]? = some obj →
    ∀ wasm, IsCode X txs obj.codeHash wasm → ∃ initial first list,
      IsLineage s id first list obj.sealRef ∧ CreatedWith X txs id initial ∧
        Recomputed X lib obj.codeHash wasm initial list obj.stateData

section

variable {txs : List ElectrsTx} {born : String → Option String} {blockHeight : Nat} {r : TxRun}

theorem CreatedWith.cons {id : String} {state : Json} (h : CreatedWith X txs id state)
    (tx : ElectrsTx) : CreatedWith X (tx :: txs) id state := by
  obtain ⟨tx', htx', hcreated⟩ := h
  exact ⟨tx', List.mem_cons_of_mem _ htx', hcreated⟩

theorem IsCode.tail {tx : ElectrsTx} {codeHash : String} {wasm : Bytes}
    (h : IsCode X (tx :: txs) codeHash wasm) : IsCode X txs codeHash wasm := by
  intro hne
  obtain ⟨hcode, hunique⟩ := h hne
  exact ⟨hcode, fun tx' htx' ↦ hunique tx' (List.mem_cons_of_mem _ htx')⟩

theorem BlobsDeployed.runTx (h : BlobsDeployed X txs s) (P : BlockProcessor) (blockHeight : Nat)
    (r : TxRun) : BlobsDeployed X (r.tx :: txs) (runTx X P blockHeight s r) := by
  intro codeHash wasmBytes hblob
  rcases runTx_wasmBlobs X P blockHeight s r codeHash with hsame | ⟨payload, hdeploys, -, hnew⟩
  · rw [hsame] at hblob
    obtain ⟨tx, htx, hdeploys⟩ := h codeHash wasmBytes hblob
    exact ⟨tx, List.mem_cons_of_mem _ htx, hdeploys⟩
  · cases hnew.symm.trans hblob
    exact ⟨r.tx, List.mem_cons_self, hdeploys⟩

theorem Auditable.same (h : Auditable X lib txs s) (tx : ElectrsTx)
    (hobjects : s'.objects = s.objects) (htransitions : s'.transitions = s.transitions) :
    Auditable X lib (tx :: txs) s' := by
  intro id obj hobj wasm hwasm
  rw [hobjects] at hobj
  obtain ⟨initial, first, list, hlist, hcreated, hrecomputed⟩ := h id obj hobj wasm hwasm.tail
  exact ⟨initial, first, list, hlist.congr htransitions, hcreated.cons tx, hrecomputed⟩

theorem Auditable.created (h : Auditable X lib txs s)
    (hlineages : Lineages txs born blockHeight s) {tx : ElectrsTx} {voutIdx : Nat}
    {out : ElectrsTxOutput} {envelope : UtxoVmEnvelope} {objId : String}
    (hfresh : s.objects[objId]? = none) (hid : createdObjectId tx.txid = .ok objId)
    (hcarries : Carries X tx voutIdx out envelope)
    (hobjects : s'.objects = s.objects.insert objId
      (createdObject X tx blockHeight voutIdx out envelope objId))
    (htransitions : s'.transitions = s.transitions) : Auditable X lib (tx :: txs) s' := by
  intro id obj hobj wasm hwasm
  rw [hobjects, Table.get_insert] at hobj
  split at hobj
  · rename_i hsame
    cases hobj
    refine ⟨_, _, [], ⟨rfl, List.Pairwise.nil, ?_⟩, ⟨tx, List.mem_cons_self, blockHeight, voutIdx,
      out, envelope, hsame ▸ hid, hcarries, rfl⟩, ?_⟩
    · -- nothing is filed under a new id
      intro t
      refine ⟨fun ht ↦ absurd ht List.not_mem_nil, ?_⟩
      rintro ⟨ht, htid⟩
      rw [htransitions] at ht
      obtain ⟨obj', hobj'⟩ := hlineages.stored t.txid t ht
      rw [htid, hsame, hfresh] at hobj'
      cases hobj'
    · rw [hsame]
      exact rfl
  · obtain ⟨initial, first, list, hlist, hcreated, hrecomputed⟩ := h id obj hobj wasm hwasm.tail
    exact ⟨initial, first, list, hlist.congr htransitions, hcreated.cons tx, hrecomputed⟩

theorem Auditable.called (h : Auditable X lib txs s) (hlineages : Lineages txs born blockHeight s)
    (hblobs : BlobsDeployed X txs s) (hruntime : P.runtime = Vm.runtime X lib.engine {})
    {tx : ElectrsTx} (hfresh : tx.txid ∉ txs.map (·.txid)) {voutIdx : Nat} {out : ElectrsTxOutput}
    {envelope : UtxoVmEnvelope} {obj : SmartObjectRecord} {now : Int} {result : Json × Nat}
    (hobj : s.objects[obj.objectId]? = some obj) (hvalue : out.value < 2 ^ 64)
    (houtcome : callOutcome X P s obj (methodOf (metadataOf envelope))
      (argsOf (metadataOf envelope)) (sender tx) out.value = .ok (some result))
    (horder : ∀ (txid : String) (t : StateTransitionRecord), s.transitions[txid]? = some t →
      t.objectId = obj.objectId → t.blockHeight = blockHeight → compare txid tx.txid = .lt)
    (hobjects : s'.objects = s.objects.insert obj.objectId
      (calledObject obj blockHeight (sealOf tx.txid voutIdx) out.value
        (argsOf (metadataOf envelope)) result.1))
    (htransitions : s'.transitions = s.transitions.insert tx.txid
      (callTransition now tx blockHeight voutIdx out envelope obj result)) :
    Auditable X lib (tx :: txs) s' := by
  have hnone : s.transitions[tx.txid]? = none := by
    rw [Option.eq_none_iff_forall_ne_some]
    intro t ht
    obtain ⟨tx', htx', htxid, -⟩ := hlineages.spent _ t ht
    exact hfresh (List.mem_map.mpr ⟨tx', htx', htxid⟩)
  intro id o ho wasm hwasm
  rw [hobjects, Table.get_insert] at ho
  split at ho
  · -- the called object: its history grows by this call, which comes after all others
    rename_i hsame
    cases ho
    obtain ⟨initial, first, list, hlist, hcreated, hrecomputed⟩ := h _ obj hobj wasm hwasm.tail
    rw [hsame]
    have hcode : IsCode X txs obj.codeHash wasm := hwasm.tail
    have hstep : auditStep X lib obj.codeHash wasm obj.stateData
        (callTransition now tx blockHeight voutIdx out envelope obj result) = some result.1 :=
      auditStep_call hruntime hblobs hvalue hcode houtcome
    refine ⟨initial, first, _, hlist.append hnone rfl rfl (fun t ht ↦ ?_) htransitions,
      hcreated.cons tx, hrecomputed.append hstep⟩
    obtain ⟨hstored, htid⟩ := (hlist.mem t).mp ht
    rcases Nat.lt_or_eq_of_le (hlineages.below _ t hstored) with hlt | heq
    · exact .inl hlt
    · exact .inr ⟨heq, horder _ t hstored htid heq⟩
  · -- transitions of another object do not show in this history
    rename_i hother
    obtain ⟨initial, first, list, hlist, hcreated, hrecomputed⟩ := h id o ho wasm hwasm.tail
    have hsame : IsLineage s' id first list o.sealRef :=
      hlist.other (t := callTransition now tx blockHeight voutIdx out envelope obj result) hnone
        (fun heq ↦ hother heq.symm) htransitions
    exact ⟨initial, first, list, hsame, hcreated.cons tx, hrecomputed⟩

/-- **One transaction keeps the histories auditable.** -/
theorem Auditable.runTx (h : Auditable X lib txs s) (hlineages : Lineages txs born blockHeight s)
    (hsealed : s.Sealed (txs.map (·.txid))) (hblobs : BlobsDeployed X txs s)
    (hruntime : P.runtime = Vm.runtime X lib.engine {})
    (hfresh : r.tx.txid ∉ txs.map (·.txid)) (hregular : Regular X P s r)
    (horder : InTxidOrder X P blockHeight s r) (hvalues : ∀ out ∈ r.tx.vout, out.value < 2 ^ 64) :
    Auditable X lib (r.tx :: txs) (runTx X P blockHeight s r) := by
  -- a transaction writes nothing, creates an object or calls one
  rcases runTx_lineage X P blockHeight s r hregular.saved with
    ⟨hobjects, htransitions⟩ |
    ⟨voutIdx, out, envelope, objId, haction, hid, hobjects, htransitions⟩ |
    ⟨voutIdx, out, envelope, obj, -, haction, -, -⟩
  · exact h.same r.tx hobjects htransitions
  · exact h.created hlineages (hregular.fresh voutIdx out envelope objId haction hid) hid
      (selectAction_of haction) hobjects htransitions
  · rcases runTx_call hregular.saved haction with
      ⟨hobjects, htransitions⟩ | ⟨result, houtcome, hobjects, htransitions⟩
    · exact h.same r.tx hobjects htransitions
    · have hobj := (target_stored hsealed.consistent.intact (selectAction_call X P haction)).1
      have hcarries : Carries X r.tx voutIdx out envelope := selectAction_of haction
      have hvalue := hvalues out (List.mem_of_getElem? hcarries.1)
      exact h.called hlineages hblobs hruntime hfresh hobj hvalue houtcome
        (horder voutIdx out envelope obj haction) hobjects htransitions

end

/-! ## 4. Runs -/

variable {txs : List ElectrsTx} {born : String → Option String} {blockHeight : Nat}

end UtxoVm
