import UtxoVm.CrossChain.BridgeRun
import UtxoVm.Scanner.ContractRevert
import UtxoVm.Scanner.CreateIds
import UtxoVm.Scanner.SealRun
import UtxoVm.Storage.ChainFrames

/-!
# Reading stored records back

A record wraps its JSON fields once more, and `serde_json` writes any depth but reads only values
nested less than 128 levels.  The fields of an envelope and of a proof were themselves read inside
another value, so they leave room for the wrapping; the state that a contract returns was not.
-/

namespace UtxoVm

open RustStd StateStore Prog BlockProcessor

/-! ## 1. Nesting -/

namespace Json

theorem depth_le_depthFields {fields : List (String × Json)} {k : String} {v : Json}
    (h : (k, v) ∈ fields) : v.depth ≤ depthFields fields := by
  induction fields with
  | nil => cases h
  | cons field fields ih =>
    obtain ⟨k', v'⟩ := field
    unfold depthFields
    rcases List.mem_cons.mp h with heq | hmem
    · cases heq
      exact le_max_left _ _
    · exact (ih hmem).trans (le_max_right _ _)

/-- A member is nested less deeply than its object. -/
theorem depth_get? {j v : Json} {key : String} (h : j.get? key = some v) : v.depth < j.depth := by
  unfold get? at h
  split at h
  · rename_i fields
    rw [Option.map_eq_some_iff] at h
    obtain ⟨⟨k, v'⟩, hfind, rfl⟩ := h
    have hle := depth_le_depthFields (List.mem_of_find?_eq_some hfind)
    show v'.depth < depthFields fields + 1
    omega
  · cases h

theorem depthFields_insertField (key : String) (v : Json) (fields : List (String × Json)) :
    depthFields (insertField key v fields) ≤ max v.depth (depthFields fields) := by
  induction fields with
  | nil =>
    show max v.depth 0 ≤ _
    exact max_le_max le_rfl (Nat.zero_le _)
  | cons field fields ih =>
    obtain ⟨k, w⟩ := field
    unfold insertField
    split
    · simp only [depthFields]
      omega
    · split
      · simp only [depthFields]
        omega
      · simp only [depthFields]
        omega

end Json

/-- `serde_json::from_slice` gives up on deeper values. -/
def ParsesShallow (X : Crates) : Prop :=
  ∀ text j, X.jsonFromSlice text = some j → j.depth < Json.recursionLimit

/-- The value can be read back when it is wrapped in a record. -/
def Json.Wrappable (j : Json) : Prop := j.depth + 1 < recursionLimit

namespace BlockProcessor

variable {X : Crates} {P : BlockProcessor}

/-- An envelope that is found has the metadata that its content type and its payload give it. -/
theorem parseIfEnvelope_made {script : Bytes} {start : Nat} {envelope : UtxoVmEnvelope}
    (h : parseIfEnvelope X script start = .ok (some envelope)) :
    ∃ version contentType payload, envelope = mkEnvelope X version contentType payload := by
  unfold parseIfEnvelope at h
  simp only [Bind.bind, Except.bind, Pure.pure, Except.pure] at h
  -- every guard but the last path returns `None` or panics
  repeat' split at h
  all_goals cases h
  exact ⟨_, _, _, rfl⟩

theorem scanEnvelopes_made {script : Bytes} {fuel offset : Nat} {envelope : UtxoVmEnvelope}
    (h : scanEnvelopes X script fuel offset = .ok (some envelope)) :
    ∃ version contentType payload, envelope = mkEnvelope X version contentType payload := by
  induction fuel generalizing offset with
  | zero => cases h
  | succ fuel ih =>
    unfold scanEnvelopes at h
    simp only [Bind.bind, Except.bind, Pure.pure, Except.pure] at h
    repeat' split at h
    all_goals try cases h
    · rename_i hparse
      exact parseIfEnvelope_made hparse
    · exact ih h

theorem outputEnvelope_made {out : ElectrsTxOutput} {envelope : UtxoVmEnvelope}
    (h : outputEnvelope X out = .ok (some envelope)) :
    ∃ version contentType payload, envelope = mkEnvelope X version contentType payload := by
  unfold outputEnvelope at h
  split at h
  · unfold parseEnvelope at h
    simp only [Bind.bind, Except.bind, Pure.pure, Except.pure] at h
    repeat' split at h
    all_goals try cases h
    · rename_i hparse
      exact parseIfEnvelope_made hparse
    · exact scanEnvelopes_made h
  · cases h

/-- The metadata of an envelope was parsed from its payload. -/
theorem outputEnvelope_metadata {out : ElectrsTxOutput} {envelope : UtxoVmEnvelope}
    (h : outputEnvelope X out = .ok (some envelope)) {j : Json}
    (hj : envelope.metadata = some j) : ∃ payload, X.jsonFromSlice payload = some j := by
  obtain ⟨version, contentType, payload, rfl⟩ := outputEnvelope_made h
  unfold mkEnvelope at hj
  dsimp only at hj
  split at hj
  · exact ⟨payload, hj⟩
  · cases hj

variable {out : ElectrsTxOutput} {envelope : UtxoVmEnvelope}

/-- A field of the metadata has room for the wrapping. -/
theorem metadata_get?_wrappable (hparse : ParsesShallow X)
    (h : outputEnvelope X out = .ok (some envelope)) {key : String} {v : Json}
    (hv : (metadataOf envelope).get? key = some v) : v.Wrappable := by
  unfold metadataOf at hv
  cases hj : envelope.metadata with
  | none =>
    rw [hj] at hv
    cases hv
  | some j =>
    rw [hj, Option.getD_some] at hv
    obtain ⟨payload, hpayload⟩ := outputEnvelope_metadata h hj
    have hdepth := hparse payload j hpayload
    have hlt := Json.depth_get? hv
    unfold Json.Wrappable
    omega

theorem argsOf_wrappable (hparse : ParsesShallow X)
    (h : outputEnvelope X out = .ok (some envelope)) :
    (argsOf (metadataOf envelope)).Wrappable := by
  unfold argsOf
  cases hargs : (metadataOf envelope).get? "args" with
  | none => simp [Json.Wrappable, Json.depth, Json.depthFields, Json.recursionLimit]
  | some args => exact metadata_get?_wrappable hparse h hargs

/-- A created object can be read back. -/
theorem createdObject_readable (hparse : ParsesShallow X)
    (h : outputEnvelope X out = .ok (some envelope)) (tx : ElectrsTx) (blockHeight voutIdx : Nat)
    (objId : String) :
    (createdObject X tx blockHeight voutIdx out envelope objId).readable = true := by
  unfold SmartObjectRecord.readable createdObject
  dsimp only
  rw [decide_eq_true_eq]
  cases hstate : (metadataOf envelope).get? "state" with
  | none => simp [Json.depth, Json.depthFields, Json.recursionLimit]
  | some state => exact metadata_get?_wrappable hparse h hstate

theorem placeholderState_depth (stateData : Json) (method caller : String) :
    (placeholderState stateData method caller).depth ≤ stateData.depth := by
  unfold placeholderState
  split
  · rename_i fields
    have hcaller := Json.depthFields_insertField "last_caller" (.string caller)
      (Json.insertField "last_method" (.string method) fields)
    have hmethod := Json.depthFields_insertField "last_method" (.string method) fields
    simp only [Json.depth] at hcaller hmethod ⊢
    omega
  · exact le_rfl

end BlockProcessor

/-! ## 2. Stores whose records can be read back -/

namespace StateStore

/-- Every record of the tables can be read back. -/
structure Readable (s : StateStore) : Prop where
  objects : ∀ (id : String) (r : SmartObjectRecord), s.objects[id]? = some r → r.readable = true
  undoLogs : ∀ (i : Nat) (log : UndoLogRecord), s.undoLogs[i]? = some log → log.readable = true
  transitions : ∀ (txid : String) (t : StateTransitionRecord), s.transitions[txid]? = some t →
    t.readable = true

variable {X : Crates} {s s' : StateStore}

theorem empty_readable (X : Crates) : (empty X).Readable where
  objects id r h := by simp [empty] at h
  undoLogs i log h := by simp [empty] at h
  transitions txid t h := by simp [empty] at h

theorem Readable.congr (hs : s.Readable) (hobjects : s'.objects = s.objects)
    (hundo : s'.undoLogs = s.undoLogs) (htransitions : s'.transitions = s.transitions) :
    s'.Readable where
  objects := by rw [hobjects]; exact hs.objects
  undoLogs := by rw [hundo]; exact hs.undoLogs
  transitions := by rw [htransitions]; exact hs.transitions

theorem Readable.insertObject (hs : s.Readable) {obj : SmartObjectRecord}
    (hobj : obj.readable = true) : (insertObject obj s).Readable := by
  refine ⟨fun id r hr ↦ ?_, hs.undoLogs, hs.transitions⟩
  rw [insertObject_objects] at hr
  split at hr
  · cases hr
    exact hobj
  · exact hs.objects id r hr

theorem Readable.putUndo (hs : s.Readable) {undo : UndoLogRecord} (hundo : undo.readable = true) :
    (putUndo undo s).Readable := by
  refine ⟨hs.objects, fun i log hi ↦ ?_, hs.transitions⟩
  rw [putUndo_undoLogs] at hi
  split at hi
  · cases hi
    exact hundo
  · exact hs.undoLogs i log hi

theorem Readable.putTransition (hs : s.Readable) {trans : StateTransitionRecord}
    (htrans : trans.readable = true) : (putTransition trans s).Readable := by
  refine ⟨hs.objects, hs.undoLogs, fun txid t ht ↦ ?_⟩
  rw [putTransition_transitions] at ht
  split at ht
  · cases ht
    exact htrans
  · exact hs.transitions txid t ht

/-- The object of a readable record is restored as a readable one. -/
theorem prevObject_readable {log : UndoLogRecord} (hlog : log.readable = true)
    {targetHeight : Nat} {obj : SmartObjectRecord} (h : prevObject targetHeight log = some obj) :
    obj.readable = true := by
  simp only [prevObject, Option.bind_eq_bind, Option.bind_eq_some_iff, Option.pure_def] at h
  obtain ⟨codeHash, -, sealRef, -, satoshis, -, owner, -, stateData, hstate, hobj⟩ := h
  cases hobj
  have hwritten : log.prevStateData = some stateData := by
    unfold readOptional at hstate
    split at hstate
    · cases hstate
    · exact hstate
  unfold UndoLogRecord.readable at hlog
  rw [hwritten] at hlog
  exact hlog

theorem Readable.undoOne (hs : s.Readable) {log : UndoLogRecord} (hlog : log.readable = true)
    (targetHeight : Nat) : (undoOne targetHeight s log).Readable := by
  obtain ⟨seals, hdrop⟩ := dropSeal_eq log.objectId s
  unfold StateStore.undoOne
  rw [hdrop]
  dsimp only
  split
  · refine ⟨fun id r hr ↦ ?_, hs.undoLogs, hs.transitions⟩
    change (s.objects.erase log.objectId)[id]? = some r at hr
    rw [Table.get_erase] at hr
    split at hr
    · cases hr
    · exact hs.objects id r hr
  · split
    · split
      · rename_i prevObj hprev
        refine ⟨fun id r hr ↦ ?_, hs.undoLogs, hs.transitions⟩
        change (s.objects.insert log.objectId prevObj)[id]? = some r at hr
        rw [Table.get_insert] at hr
        split at hr
        · cases hr
          exact prevObject_readable hlog hprev
        · exact hs.objects id r hr
      · exact hs.congr rfl rfl rfl
    · exact hs

theorem Readable.undoAll (hs : s.Readable) {chain : String} {targetHeight : Nat}
    {logs : List (Nat × UndoLogRecord)} (hlogs : ∀ e ∈ logs, e.2.readable = true) :
    (undoAll chain targetHeight logs s).Readable := by
  have hfold : ((logs.map (·.2)).foldl (StateStore.undoOne targetHeight) s).Readable := by
    induction logs generalizing s with
    | nil => exact hs
    | cons e logs ih =>
      exact ih (hs.undoOne (hlogs e List.mem_cons_self) targetHeight) fun e' he' ↦
        hlogs e' (List.mem_cons_of_mem _ he')
  refine ⟨hfold.objects, fun i log hi ↦ ?_, fun txid t ht ↦ ?_⟩
  · change ((logs.map (·.1)).foldl (fun table id ↦ table.erase id)
      ((logs.map (·.2)).foldl (StateStore.undoOne targetHeight) s).undoLogs)[i]? = some log at hi
    rw [get_foldl_erase] at hi
    split at hi
    · cases hi
    · exact hfold.undoLogs i log hi
  · exact hs.transitions txid t ((undoAll_transitions chain).mp ht).1

theorem Readable.rollback (hs : s.Readable) (X : Crates) (c : Bool) (chain : String)
    (targetHeight : Nat) : (run (rollbackToBlock X c chain targetHeight) s).1.Readable := by
  rcases rollback_state X c chain targetHeight s with ⟨hsame, -⟩ | ⟨-, smt, hstate⟩
  · rw [hsame]
    exact hs
  · rw [hstate]
    have hlogs : ∀ e ∈ replayList chain targetHeight s, e.2.readable = true :=
      fun e he ↦ hs.undoLogs e.1 e.2 (mem_replayList.mp he).1
    have hall : (StateStore.undoAll chain targetHeight
      (replayList chain targetHeight s) s).Readable := hs.undoAll hlogs
    exact hall.congr rfl rfl rfl

/-! ## 3. Transactions -/

/-- The contract that the transaction calls, if any, returns a state that has room for the
wrapping. -/
def ShallowResults (X : Crates) (P : BlockProcessor) (s : StateStore) (tx : ElectrsTx) : Prop :=
  ∀ voutIdx out envelope obj,
    selectAction X P s tx = .ok (some (.call voutIdx out envelope obj)) →
    obj.codeHash ≠ "wasm_default" →
    ∀ wasmBytes execResult newState,
      P.runtime.execute wasmBytes (vmState X obj out.value) (sender tx)
        (methodOf (metadataOf envelope)) (X.jsonToVec (argsOf (metadataOf envelope))) =
        .ok execResult →
      X.jsonFromSlice execResult.updatedStateData = some newState → newState.Wrappable

variable {P : BlockProcessor} {tx : ElectrsTx} {blockHeight : Nat}

theorem target_readable {vins : List ElectrsTxInput} {obj : SmartObjectRecord}
    (h : target s vins = some obj) : obj.readable = true := by
  obtain ⟨vin, -, hlookup⟩ := target_eq_some h
  unfold lookupSeal parseObject at hlookup
  split at hlookup
  · split at hlookup
    · split at hlookup
      · rename_i hreadable
        cases hlookup
        exact hreadable
      · cases hlookup
    · cases hlookup
  · cases hlookup

/-- The state that a call leaves behind. -/
theorem callOutcome_wrappable {voutIdx : Nat} {out : ElectrsTxOutput} {envelope : UtxoVmEnvelope}
    {obj : SmartObjectRecord} (hshallow : ShallowResults X P s tx)
    (haction : selectAction X P s tx = .ok (some (.call voutIdx out envelope obj)))
    {result : Json × Nat}
    (houtcome : callOutcome X P s obj (methodOf (metadataOf envelope))
      (argsOf (metadataOf envelope)) (sender tx) out.value = .ok (some result)) :
    result.1.Wrappable := by
  have hreadable := target_readable (selectAction_call X P haction)
  unfold callOutcome at houtcome
  split at houtcome
  · cases houtcome
    have hdepth := placeholderState_depth obj.stateData (methodOf (metadataOf envelope)) (sender tx)
    have hobj : obj.stateData.depth + 1 < Json.recursionLimit := of_decide_eq_true hreadable
    exact Nat.lt_of_le_of_lt (Nat.succ_le_succ hdepth) hobj
  · rename_i hcode
    dsimp only at houtcome
    split at houtcome
    · cases houtcome
    · rename_i wasmBytes _
      split at houtcome
      · rename_i result' hexecute
        cases houtcome
        unfold executeWasm at hexecute
        cases hrun : P.runtime.execute wasmBytes (vmState X obj out.value) (sender tx)
            (methodOf (metadataOf envelope)) (X.jsonToVec (argsOf (metadataOf envelope))) with
        | error e =>
          rw [hrun] at hexecute
          cases hexecute
        | ok execResult =>
          rw [hrun] at hexecute
          cases hparsed : X.jsonFromSlice execResult.updatedStateData with
          | none =>
            simp only [Bind.bind, Except.bind, hparsed] at hexecute
            cases hexecute
          | some newState =>
            simp only [Bind.bind, Except.bind, hparsed] at hexecute
            cases hexecute
            exact hshallow voutIdx out envelope obj haction hcode wasmBytes execResult newState hrun
              hparsed
      · cases houtcome

/-- What a transaction plans to write can be read back. -/
theorem plannedUpdate_readable (hparse : ParsesShallow X) (hshallow : ShallowResults X P s tx)
    {u : Update} (hu : plannedUpdate X P s tx blockHeight = some u) :
    u.undo.readable = true ∧ ∀ obj, u.object = some obj → obj.readable = true := by
  unfold plannedUpdate at hu
  split at hu
  · rename_i voutIdx out envelope haction
    split at hu
    · cases hu
      refine ⟨rfl, fun obj hobj ↦ ?_⟩
      cases hobj
      have hof : Carries X tx voutIdx out envelope := selectAction_of haction
      exact createdObject_readable hparse hof.2 ..
    · cases hu
  · rename_i voutIdx out envelope target haction
    cases hu
    refine ⟨target_readable (selectAction_call X P haction), fun obj hobj ↦ ?_⟩
    unfold calledUpdate at hobj
    split at hobj
    · rename_i result houtcome
      cases hobj
      exact decide_eq_true (callOutcome_wrappable hshallow haction houtcome)
    · cases hobj
  · cases hu

/-- **A transaction keeps the records readable** if its contract returns a shallow state. -/
theorem Readable.runTx (hs : s.Readable) (hparse : ParsesShallow X) (blockHeight : Nat) {r : TxRun}
    (hshallow : ShallowResults X P s r.tx) : (runTx X P blockHeight s r).Readable := by
  have htransitions : ∀ (txid : String) (t : StateTransitionRecord),
      (BlockProcessor.runTx X P blockHeight s r).transitions[txid]? = some t →
      t.readable = true := by
    rcases runTx_transitions X P blockHeight s r with
      hsame | ⟨voutIdx, out, envelope, obj, result, haction, houtcome, -, hsaved⟩
    · rw [hsame]
      exact hs.transitions
    · intro txid t ht
      rw [hsaved, Table.get_insert] at ht
      split at ht
      · cases ht
        have hof : Carries X r.tx voutIdx out envelope := selectAction_of haction
        have hargs := argsOf_wrappable hparse hof.2
        have hstate := callOutcome_wrappable hshallow haction houtcome
        unfold Json.Wrappable at hargs hstate
        unfold StateTransitionRecord.readable callTransition
        rw [decide_eq_true_eq]
        dsimp only
        omega
      · exact hs.transitions txid t ht
  have hcore : ∃ s'' : StateStore, s''.Readable ∧
      (BlockProcessor.runTx X P blockHeight s r).objects = s''.objects ∧
      (BlockProcessor.runTx X P blockHeight s r).undoLogs = s''.undoLogs := by
    have hprogress := runTx_progress X P blockHeight s r
    generalize hu? : plannedUpdate X P s r.tx blockHeight = u? at hprogress
    cases hprogress with
    | nothing hcore => exact ⟨s, hs, hcore.objects, hcore.undoLogs⟩
    | undo hcore =>
      have hundo := (plannedUpdate_readable hparse hshallow hu?).1
      exact ⟨_, hs.putUndo hundo, hcore.objects, hcore.undoLogs⟩
    | object hobj hcore =>
      obtain ⟨hundo, hobject⟩ := plannedUpdate_readable hparse hshallow hu?
      exact ⟨_, (hs.putUndo hundo).insertObject (hobject _ hobj), hcore.objects, hcore.undoLogs⟩
  obtain ⟨s'', hs'', hobjects, hundo⟩ := hcore
  exact ⟨by rw [hobjects]; exact hs''.objects, by rw [hundo]; exact hs''.undoLogs, htransitions⟩

end StateStore

/-! ## 4. The bridge -/

namespace BridgeManager

variable {X : Crates} {α : Type} {Q : α → Prop}

/-- An operation of the store that keeps the records readable does so under the bridge. -/
theorem ensures_onStore {p : StoreProg α} (hp : Ensures StateStore.Readable p Q) :
    Ensures (·.store.Readable) (onStore p) Q :=
  hp.zoom (fun _ _ ↦ rfl) (fun _ _ _ ↦ rfl) (fun _ ↦ rfl) (fun _ hb ↦ hb) fun _ _ hs _ ↦ hs

theorem ensures_withContext {I : BridgeManager → Prop} {text : String} {p : BridgeProg α}
    (hp : Ensures I p Q) : Ensures I (withContext text p) Q := by
  refine hp.attempt.bind fun r hr ↦ ?_
  rcases r with (e | _) | a
  · exact .fail _
  · exact .fail _
  · exact .pure (hr a rfl)

/-- An object that was read is readable. -/
theorem ensures_getObject (objectId : String) :
    Ensures StateStore.Readable (getObject objectId) fun obj? ↦
      ∀ obj, obj? = some obj → obj.readable = true := by
  intro s hs
  rw [run_getObject]
  refine ⟨hs, fun obj? hobj? obj hobj ↦ ?_⟩
  subst hobj
  unfold parseObject at hobj?
  split at hobj?
  · split at hobj?
    · rename_i hreadable
      cases hobj?
      exact hreadable
    · cases hobj?
  · cases hobj?

theorem ensures_saveObject {obj : SmartObjectRecord} (hobj : obj.readable = true) (c : Bool) :
    Ensures StateStore.Readable (saveObject X c obj) fun _ ↦ True := by
  intro s hs
  rw [run_saveObject]
  refine ⟨?_, fun _ _ ↦ trivial⟩
  cases c with
  | false => exact hs
  | true => exact (hs.insertObject hobj).congr rfl rfl rfl

theorem ensures_updateTransfer (c : Bool) (t : BridgeTransfer) :
    Ensures (·.store.Readable) (updateTransfer c t) fun _ ↦ True := by
  intro b hb
  rw [run_updateTransfer]
  refine ⟨?_, fun _ _ ↦ trivial⟩
  cases c with
  | false => exact hb
  | true => exact hb.congr rfl rfl rfl

theorem ensures_saveBridgeTransfer (c : Bool) (t : BridgeTransfer) :
    Ensures (·.store.Readable) (onStore (saveBridgeTransfer c t)) fun _ ↦ True := by
  refine ensures_onStore fun s hs ↦ ?_
  unfold saveBridgeTransfer
  rw [run_commit]
  refine ⟨?_, fun _ _ ↦ trivial⟩
  cases c with
  | false => exact hs
  | true => exact hs.congr rfl rfl rfl

theorem ensures_lockAssets (c : LockCall) :
    Ensures (·.store.Readable) (lockAssets X c) fun _ ↦ True := by
  refine (ensures_withContext (ensures_onStore (ensures_getObject _))).bind fun obj? hobj? ↦ ?_
  cases obj? with
  | none => exact .fail _
  | some obj =>
    refine (Ensures.ofExcept (Q := fun _ ↦ True) fun _ _ ↦ trivial).bind fun _ _ ↦ ?_
    have hlock : (lockObject obj).readable = true := hobj? obj rfl
    refine (ensures_onStore (ensures_saveObject hlock _)).bind fun _ _ ↦ ?_
    refine (ensures_saveBridgeTransfer _ _).bind fun _ _ ↦ ?_
    exact (Ensures.modify fun _ hb ↦ hb).bind fun _ _ ↦ .pure trivial

theorem ensures_unlockObject (commits : Bool) (t : BridgeTransfer) :
    Ensures (·.store.Readable) (unlockObject X commits t) fun _ ↦ True := by
  refine (ensures_withContext (ensures_onStore (ensures_getObject _))).bind fun obj? hobj? ↦ ?_
  cases obj? with
  | none => exact .fail _
  | some obj =>
    dsimp only
    split
    · rename_i originalOwner _
      have hunlock : ({ obj with owner := originalOwner } : SmartObjectRecord).readable = true :=
        hobj? obj rfl
      exact ensures_onStore (ensures_saveObject hunlock commits)
    · exact .pure trivial

theorem ensures_replayGuard (c : MintCall) :
    Ensures (·.store.Readable) (replayGuard c) fun _ ↦ True := by
  intro b hb
  rw [run_replayGuard]
  refine ⟨?_, fun _ _ ↦ trivial⟩
  unfold guardOutcome
  split
  · split
    · exact hb.congr rfl rfl rfl
    · exact hb
  · split
    · exact hb
    · split
      · split <;> exact hb
      · exact hb

theorem ensures_rejectProof (c : MintCall) (t : BridgeTransfer) (error : Option String) :
    Ensures (·.store.Readable) (rejectProof X c t error) fun _ ↦ True :=
  (ensures_updateTransfer _ _).bind fun _ _ ↦
    (ensures_unlockObject _ _).attempt.bind fun _ _ ↦ .fail _

theorem ensures_completeMint (c : MintCall) (hdata : c.proof.objectData.Wrappable)
    (t : BridgeTransfer) : Ensures (·.store.Readable) (completeMint X c t) fun _ ↦ True := by
  refine (ensures_updateTransfer _ _).bind fun _ _ ↦ ?_
  have hminted : (mintedObject c { t with status := .verified }).readable = true :=
    decide_eq_true hdata
  refine (ensures_onStore (ensures_saveObject hminted _)).bind fun _ _ ↦ ?_
  exact (ensures_updateTransfer _ _).bind fun _ _ ↦ .pure trivial

/-- A mint stores the object data of the proof, which was itself parsed inside the proof. -/
theorem ensures_mintFromProof (c : MintCall) (hdata : c.proof.objectData.Wrappable) :
    Ensures (·.store.Readable) (mintFromProof X c) fun _ ↦ True := by
  refine (ensures_replayGuard c).bind fun _ _ ↦ ?_
  refine Ensures.bind (Ensures.modify ?_) fun _ _ ↦ ?_
  · exact fun _ hb ↦ hb
  refine (Ensures.read (Q := fun _ ↦ True) fun _ _ ↦ trivial).bind fun transfer? _ ↦ ?_
  cases transfer? with
  | none => exact .fail _
  | some transfer =>
    dsimp only
    split
    · exact .fail _
    · split
      · exact ensures_rejectProof c transfer _
      · exact (Ensures.ofExcept (Q := fun _ ↦ True) fun _ _ ↦ trivial).bind fun _ _ ↦
          ensures_completeMint c hdata transfer

end BridgeManager

/-! ## 5. Runs -/

open BridgeManager

/-- Runs of the node, whose transactions meet `cond`; the object data of a proof was parsed one
level inside the proof. -/
inductive RecordRun (X : Crates) (cond : BlockProcessor → StateStore → ElectrsTx → Prop) :
    BridgeManager → Prop
  | genesis : RecordRun X cond (.new (empty X))
  | processTx {b : BridgeManager} (P : BlockProcessor) (blockHeight : Nat) (r : TxRun) :
      RecordRun X cond b → cond P b.store r.tx →
      RecordRun X cond { b with store := runTx X P blockHeight b.store r }
  | lockAssets {b : BridgeManager} (c : LockCall) : RecordRun X cond b →
      RecordRun X cond (run (lockAssets X c) b).1
  | mintFromProof {b : BridgeManager} (c : MintCall) : RecordRun X cond b →
      c.proof.objectData.Wrappable → RecordRun X cond (run (mintFromProof X c) b).1
  | rollback {b : BridgeManager} (c : Bool) (chain : String) (targetHeight : Nat) :
      RecordRun X cond b →
      RecordRun X cond (run (BridgeManager.onStore (rollbackToBlock X c chain targetHeight)) b).1
  | restart {b : BridgeManager} : RecordRun X cond b → RecordRun X cond (.new («open» X b.store))

/-- The read paths find every record of the store. -/
structure ReadsBack (X : Crates) (s : StateStore) : Prop where
  getObject : ∀ id, (run (getObject id) s).2 = .ok s.objects[id]?
  getAllObjects : (run getAllObjects s).2 = .ok (s.objects.toList.map (·.2))
  transitions : ∀ id, ∃ list, (run (getTransitionsForObject id) s).2 = .ok list
  rollback : ∀ chain targetHeight, ∃ n,
    (run (rollbackToBlock X true chain targetHeight) s).2 = .ok n
  «open» : («open» X s).smt = smtOf X (s.objects.toList.map (·.2))

namespace StateStore

variable {X : Crates} {s : StateStore}

theorem Readable.allObjects (hs : s.Readable) :
    allObjects s = .ok (s.objects.toList.map (·.2)) := by
  unfold StateStore.allObjects
  rw [if_pos]
  rw [List.all_eq_true]
  intro r hr
  obtain ⟨⟨id, r'⟩, hmem, rfl⟩ := List.mem_map.mp hr
  exact hs.objects id r' (Std.ExtTreeMap.mem_toList_iff_getElem?_eq_some.mp hmem)

/-- Every read path works on a store with readable records. -/
theorem Readable.readsBack (hs : s.Readable) (X : Crates) : ReadsBack X s where
  getObject id := by
    rw [run_getObject]
    show parseObject s.objects[id]? = _
    cases hr : s.objects[id]? with
    | none => rfl
    | some r =>
      show (if r.readable then _ else _) = _
      rw [if_pos (hs.objects id r hr)]
  getAllObjects := by
    unfold StateStore.getAllObjects
    rw [run_bind, run_read, andThen_ok, run_ofExcept]
    exact hs.allObjects
  transitions id := by
    have hall : (s.transitions.toList.map (·.2)).all (·.readable) = true := by
      rw [List.all_eq_true]
      intro t ht
      obtain ⟨⟨txid, t'⟩, hmem, rfl⟩ := List.mem_map.mp ht
      exact hs.transitions txid t' (Std.ExtTreeMap.mem_toList_iff_getElem?_eq_some.mp hmem)
    unfold getTransitionsForObject transitionsOf
    rw [run_bind, run_read, andThen_ok, run_ofExcept]
    dsimp only
    rw [if_pos hall]
    exact ⟨_, rfl⟩
  rollback chain targetHeight := by
    have hlogs : ∀ e ∈ replayList chain targetHeight s, e.2.readable = true :=
      fun e he ↦ hs.undoLogs e.1 e.2 (mem_replayList.mp he).1
    have hall : (StateStore.undoAll chain targetHeight
      (replayList chain targetHeight s) s).Readable := hs.undoAll hlogs
    have hundo : s.undoLogs.toList.all (·.2.readable) = true := by
      rw [List.all_eq_true]
      exact fun e he ↦
        hs.undoLogs e.1 e.2 (Std.ExtTreeMap.mem_toList_iff_getElem?_eq_some.mp he)
    rw [run_rollbackToBlock, undoLogsAbove_if, if_pos hundo]
    dsimp only
    rw [if_pos rfl, hall.allObjects]
    exact ⟨_, rfl⟩
  «open» := by
    have hfilter :
        (s.objects.toList.map (·.2)).filter (·.readable) = s.objects.toList.map (·.2) := by
      refine List.filter_eq_self.mpr fun r hr ↦ ?_
      obtain ⟨⟨id, r'⟩, hmem, rfl⟩ := List.mem_map.mp hr
      exact hs.objects id r' (Std.ExtTreeMap.mem_toList_iff_getElem?_eq_some.mp hmem)
    unfold StateStore.open
    rw [hfilter]

end StateStore

variable {X : Crates} {b : BridgeManager}

theorem RecordRun.readable (hparse : ParsesShallow X) (h : RecordRun X (ShallowResults X) b) :
    b.store.Readable := by
  induction h with
  | genesis => exact empty_readable X
  | processTx P blockHeight r _ hshallow ih => exact ih.runTx hparse blockHeight hshallow
  | lockAssets c _ ih => exact (ensures_lockAssets c _ ih).1
  | mintFromProof c _ hdata ih => exact (ensures_mintFromProof c hdata _ ih).1
  | rollback c chain targetHeight _ ih =>
    rw [BridgeManager.run_onStore]
    exact ih.rollback X c chain targetHeight
  | restart _ ih => exact ih.congr rfl rfl rfl

/-- **Every stored record stays readable** in the runs whose contracts return states that leave room
for the wrapping in a record. -/
theorem records_read_back (hparse : ParsesShallow X) (h : RecordRun X (ShallowResults X) b) :
    ReadsBack X b.store :=
  (h.readable hparse).readsBack X

theorem demoCrates_parsesShallow : ParsesShallow demoCrates := by
  intro text j hj
  change List.find? _ _ = some j at hj
  have hmem : j ∈ [demoCreate, demoCall, demoTransfer "mallory", demoTransfer "alice",
      demoTransfer "alice1", demoCreateNumber 2, demoCreateNumber 12] :=
    List.mem_of_find?_eq_some hj
  have hshallow : ∀ v ∈ [demoCreate, demoCall, demoTransfer "mallory", demoTransfer "alice",
      demoTransfer "alice1", demoCreateNumber 2, demoCreateNumber 12],
      v.depth < Json.recursionLimit := by decide +kernel
  exact hshallow j hmem

/-- Arrays around `null`. -/
def nestedArrays : Nat → Json
  | 0 => .null
  | n + 1 => .array [nestedArrays n]

theorem nestedArrays_depth (n : Nat) : (nestedArrays n).depth = n := by
  induction n with
  | zero => rfl
  | succ n ih =>
    show max (nestedArrays n).depth 0 + 1 = n + 1
    rw [ih, Nat.max_zero]

/-- A guest that exports `text` as its state, whatever it is called with. -/
def demoExporting (text : Bytes) : Module :=
  { demoRefusing with
    memory := List.replicate 1024 0
    call := some fun _ _ _ ↦ .ret 0
    getState := some fun ptr ↦
      .step 1 (fun memory globals ↦
          (memory.take (VmStore.usize ptr) ++ text ++ memory.drop (VmStore.usize ptr + text.length),
            globals))
        fun _ _ ↦ .ret (Int32.ofNat text.length) }

/-- Crates that also read the text of `n` nested arrays. -/
def demoNestedCrates (n : Nat) : Crates :=
  { demoContractCrates with
    jsonFromSlice := fun text ↦
      if text == asBytes (nestedArrays n).compact then some (nestedArrays n)
      else demoContractCrates.jsonFromSlice text }

/-- A processor whose deployed contracts export `n` nested arrays. -/
def demoNestedProcessor (n : Nat) : BlockProcessor :=
  { demoProcessor with
    runtime := Vm.runtime (demoNestedCrates n)
      (Vm.demoEngine (demoExporting (asBytes (nestedArrays n).compact))) {} }

/-- The deploy of a contract, and a call of it. -/
def demoNestedStore (n : Nat) : StateStore :=
  runTx (demoNestedCrates n) (demoNestedProcessor n) 1 (empty (demoNestedCrates n))
    ⟨{}, 0, demoDeployTx⟩

def demoNestedCalled (n : Nat) : StateStore :=
  runTx (demoNestedCrates n) (demoNestedProcessor n) 2 (demoNestedStore n) demoCallRun

theorem demoNestedCrates_depth {n : Nat} {text : Bytes} {j : Json}
    (hj : (demoNestedCrates n).jsonFromSlice text = some j) : j.depth ≤ max n 2 := by
  change (if _ then _ else _) = some j at hj
  split at hj
  · cases hj
    rw [nestedArrays_depth]
    exact le_max_left ..
  · refine le_trans ?_ (le_max_right ..)
    change (if _ then _ else demoCrates.jsonFromSlice text) = some j at hj
    split at hj
    · cases hj
      decide
    · change List.find? _ _ = some j at hj
      have hmem : j ∈ [demoCreate, demoCall, demoTransfer "mallory", demoTransfer "alice",
          demoTransfer "alice1", demoCreateNumber 2, demoCreateNumber 12] :=
        List.mem_of_find?_eq_some hj
      have hshallow : ∀ v ∈ [demoCreate, demoCall, demoTransfer "mallory", demoTransfer "alice",
          demoTransfer "alice1", demoCreateNumber 2, demoCreateNumber 12], v.depth ≤ 2 := by
        decide +kernel
      exact hshallow j hmem

theorem demoNestedCrates_parsesShallow {n : Nat} (hn : n < 128) :
    ParsesShallow (demoNestedCrates n) := by
  intro text j hj
  have hdepth := demoNestedCrates_depth hj
  unfold Json.recursionLimit
  omega

/-- Two transactions, one in each of the first two blocks. -/
theorem recordRun_two (X : Crates) (cond : BlockProcessor → StateStore → ElectrsTx → Prop)
    (P : BlockProcessor) (hcond : ∀ s tx, cond P s tx) (r r' : TxRun) : ∃ b, RecordRun X cond b ∧
      b.store = runTx X P 2 (runTx X P 1 (empty X) r) r' :=
  ⟨_, .processTx P 2 r' (.processTx P 1 r .genesis (hcond ..)) (hcond ..), rfl⟩

theorem demoNested_shallow (s : StateStore) (tx : ElectrsTx) :
    ShallowResults (demoNestedCrates 1) (demoNestedProcessor 1) s tx := by
  intro _ _ _ _ _ _ _ _ _ _ hparsed
  have hdepth := demoNestedCrates_depth hparsed
  unfold Json.Wrappable Json.recursionLimit
  omega

/-- A deploy, and a call that the contract answers with a shallow state. -/
theorem records_read_back_called :
    (demoNestedCalled 1).objects[demoObjectId]?.map (·.stateData.depth) = some 1 ∧
      ReadsBack (demoNestedCrates 1) (demoNestedCalled 1) := by
  obtain ⟨b, hrun, hstore⟩ := recordRun_two (demoNestedCrates 1) _ (demoNestedProcessor 1)
    demoNested_shallow ⟨{}, 0, demoDeployTx⟩ demoCallRun
  have hread := records_read_back (demoNestedCrates_parsesShallow (by decide)) hrun
  rw [hstore] at hread
  exact ⟨by decide +kernel, hread⟩

/-- The contract's state was parsed, but not inside a record: the record cannot be read back. -/
theorem deep_result_not_read_back :
    ParsesShallow (demoNestedCrates 127) ∧
      ¬ ∀ b, RecordRun (demoNestedCrates 127) (fun _ _ _ ↦ True) b →
        ReadsBack (demoNestedCrates 127) b.store := by
  refine ⟨demoNestedCrates_parsesShallow (by decide), fun h ↦ ?_⟩
  obtain ⟨b, hrun, hstore⟩ := recordRun_two (demoNestedCrates 127) (fun _ _ _ ↦ True)
    (demoNestedProcessor 127) (fun _ _ ↦ trivial) ⟨{}, 0, demoDeployTx⟩ demoCallRun
  have hread := (h b hrun).getObject demoObjectId
  rw [hstore] at hread
  have hlost : (run (getObject demoObjectId) (demoNestedCalled 127)).2.isOk = false := by
    decide +kernel
  rw [demoNestedCalled, demoNestedStore, hread] at hlost
  cases hlost

end UtxoVm
