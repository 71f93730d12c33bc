import UtxoVm.Scanner.ProcessorRun
import UtxoVm.Storage.Consistency

/-!
# What a transaction writes

To the objects, the seals, the undo log and the tree `process_tx` makes at most two writes: an undo
record, and then the object that the record is about.  `plannedUpdate` says which, from the store
before the call; how far the call gets depends on the write transactions that commit.
-/

namespace UtxoVm

open RustStd StateStore Prog

namespace StateStore

/-- The two stores agree on the objects, the seals, the undo log and the tree. -/
structure SameCore (s s' : StateStore) : Prop where
  objects : s'.objects = s.objects
  seals : s'.seals = s.seals
  undoLogs : s'.undoLogs = s.undoLogs
  smt : s'.smt = s.smt

theorem SameCore.refl (s : StateStore) : SameCore s s := ⟨rfl, rfl, rfl, rfl⟩

theorem SameCore.putUndo {s s' : StateStore} (h : SameCore s s') (undo : UndoLogRecord) :
    SameCore (putUndo undo s) (putUndo undo s') where
  objects := h.objects
  seals := h.seals
  undoLogs := by
    show s'.undoLogs.insert _ _ = s.undoLogs.insert _ _
    rw [h.undoLogs]
  smt := h.smt

theorem SameCore.putObject {s s' : StateStore} (h : SameCore s s') (X : Crates)
    (obj : SmartObjectRecord) : SameCore (putObject X obj s) (putObject X obj s') where
  objects := by
    show s'.objects.insert _ _ = s.objects.insert _ _
    rw [h.objects]
  seals := by
    unfold StateStore.putObject insertObject
    dsimp only
    rw [h.objects, h.seals]
  undoLogs := h.undoLogs
  smt := by
    show smtInsert X s'.smt obj = smtInsert X s.smt obj
    rw [h.smt]

/-- In an intact store the object behind a seal is a stored one. -/
theorem Intact.lookupSeal {ids : Set String} {s : StateStore} (hs : s.Intact ids)
    {σ : String} {obj : SmartObjectRecord} (h : lookupSeal s σ = .ok (some obj)) :
    s.seals[σ]? = some obj.objectId ∧ s.objects[obj.objectId]? = some obj := by
  unfold StateStore.lookupSeal at h
  split at h
  · rename_i id hid
    cases hr : s.objects[id]? with
    | none =>
      rw [hr] at h
      cases h
    | some r =>
      have ⟨hobjectId, hreadable, _⟩ := hs.object id r hr
      unfold parseObject at h
      rw [hr] at h
      dsimp only at h
      rw [if_pos hreadable] at h
      cases h
      rw [hobjectId]
      exact ⟨hid, hr⟩
  · cases h

theorem Intact.of_sameCore {ids : Set String} {s s' : StateStore} (hs : s.Intact ids)
    (h : SameCore s s') : s'.Intact ids :=
  hs.congr h.objects h.undoLogs

theorem Consistent.of_sameCore {ids : Set String} {s s' : StateStore} (hs : s.Consistent ids)
    (h : SameCore s s') : s'.Consistent ids :=
  hs.congr h.objects h.seals h.undoLogs

end StateStore

/-- An undo record, and the object that is stored after it unless a call is reverted. -/
structure Update where
  undo : UndoLogRecord
  object : Option SmartObjectRecord

namespace BlockProcessor

variable (X : Crates) (P : BlockProcessor)

/-! ## 1. The planned update -/

/-- The object that a call will store, if the contract accepts the call. -/
def calledUpdate (s : StateStore) (tx : ElectrsTx) (blockHeight voutIdx : Nat)
    (out : ElectrsTxOutput) (envelope : UtxoVmEnvelope) (obj : SmartObjectRecord) :
    Option SmartObjectRecord :=
  match callOutcome X P s obj (methodOf (metadataOf envelope)) (argsOf (metadataOf envelope))
      (sender tx) out.value with
  | .ok (some result) =>
      some (calledObject obj blockHeight (sealOf tx.txid voutIdx) out.value
        (argsOf (metadataOf envelope)) result.1)
  | _ => none

/-- The update that a transaction makes in the store `s`. -/
def plannedUpdate (s : StateStore) (tx : ElectrsTx) (blockHeight : Nat) : Option Update :=
  match selectAction X P s tx with
  | .ok (some (.create voutIdx out envelope)) =>
      match createdObjectId tx.txid with
      | .ok objId => some
          { undo := P.createUndo tx blockHeight voutIdx objId
            object := some (createdObject X tx blockHeight voutIdx out envelope objId) }
      | .error _ => none
  | .ok (some (.call voutIdx out envelope obj)) => some
      { undo := P.updateUndo tx blockHeight voutIdx obj
        object := calledUpdate X P s tx blockHeight voutIdx out envelope obj }
  | _ => none

/-- How far a call of `process_tx` got with its update. -/
inductive Progress (X : Crates) (s : StateStore) : Option Update → StateStore → Prop
  | nothing {u? : Option Update} {s' : StateStore} : SameCore s s' → Progress X s u? s'
  | undo {u : Update} {s' : StateStore} : SameCore (putUndo u.undo s) s' →
      Progress X s (some u) s'
  | object {u : Update} {obj : SmartObjectRecord} {s' : StateStore} : u.object = some obj →
      SameCore (putObject X obj (putUndo u.undo s)) s' → Progress X s (some u) s'

theorem afterBlob_sameCore (w : Writes) (envelope : UtxoVmEnvelope) (s : StateStore) :
    SameCore s (afterBlob X w envelope s) := by
  unfold afterBlob
  split
  · exact ⟨rfl, rfl, rfl, rfl⟩
  · exact SameCore.refl s

private theorem processCreate_progress (w : Writes) (tx : ElectrsTx) (blockHeight voutIdx : Nat)
    (out : ElectrsTxOutput) (envelope : UtxoVmEnvelope) (s : StateStore)
    (haction : selectAction X P s tx = .ok (some (.create voutIdx out envelope))) :
    Progress X s (plannedUpdate X P s tx blockHeight)
      (run (processCreate X P w tx blockHeight voutIdx out envelope) s).1 := by
  have hblob := afterBlob_sameCore X w envelope s
  unfold plannedUpdate
  rw [haction, run_processCreate]
  dsimp only
  cases createdObjectId tx.txid with
  | error e => exact .nothing hblob
  | ok objId =>
    dsimp only
    cases w.undo with
    | false => exact .nothing hblob
    | true =>
      rw [if_pos rfl]
      cases w.object with
      | false => exact .undo (hblob.putUndo _)
      | true => exact .object rfl ((hblob.putUndo _).putObject X _)

private theorem processCall_progress (w : Writes) (now : Int) (tx : ElectrsTx)
    (blockHeight voutIdx : Nat) (out : ElectrsTxOutput) (envelope : UtxoVmEnvelope)
    (obj : SmartObjectRecord) (s : StateStore)
    (haction : selectAction X P s tx = .ok (some (.call voutIdx out envelope obj))) :
    Progress X s (plannedUpdate X P s tx blockHeight)
      (run (processCall X P w now tx blockHeight voutIdx out envelope obj) s).1 := by
  unfold plannedUpdate
  rw [haction, run_processCall]
  dsimp only
  cases w.undo with
  | false => exact .nothing (SameCore.refl s)
  | true =>
    rw [if_pos rfl]
    unfold calledUpdate
    cases callOutcome X P s obj (methodOf (metadataOf envelope)) (argsOf (metadataOf envelope))
        (sender tx) out.value with
    | error e => exact .undo (SameCore.refl _)
    | ok result? =>
      cases result? with
      | none => exact .undo (SameCore.refl _)
      | some result =>
        cases w.object with
        | false => exact .undo (SameCore.refl _)
        | true =>
          refine .object rfl ?_
          cases w.transition <;> exact ⟨rfl, rfl, rfl, rfl⟩

/-- **What `process_tx` does to the core of the store.** -/
theorem processTx_progress (w : Writes) (now : Int) (tx : ElectrsTx) (blockHeight : Nat)
    (s : StateStore) :
    Progress X s (plannedUpdate X P s tx blockHeight)
      (run (processTx X P w now tx blockHeight) s).1 := by
  rw [run_processTx]
  cases haction : selectAction X P s tx with
  | error e => exact .nothing (SameCore.refl s)
  | ok action? =>
    cases action? with
    | none => exact .nothing (SameCore.refl s)
    | some action =>
      cases action with
      | create voutIdx out envelope =>
        exact processCreate_progress X P w tx blockHeight voutIdx out envelope s haction
      | call voutIdx out envelope obj =>
        exact processCall_progress X P w now tx blockHeight voutIdx out envelope obj s haction

/-- The two stores agree on the blocks, the sync cursors and the tables of the bridge. -/
structure SameRest (s s' : StateStore) : Prop where
  blocks : s'.blocks = s.blocks
  chainMeta : s'.chainMeta = s.chainMeta
  bridgeTransfers : s'.bridgeTransfers = s.bridgeTransfers
  mintedProofs : s'.mintedProofs = s.mintedProofs

private theorem processCreate_sameRest (w : Writes) (tx : ElectrsTx) (blockHeight voutIdx : Nat)
    (out : ElectrsTxOutput) (envelope : UtxoVmEnvelope) (s : StateStore) :
    SameRest s (run (processCreate X P w tx blockHeight voutIdx out envelope) s).1 := by
  have hblob : SameRest s (afterBlob X w envelope s) := by
    unfold afterBlob
    split <;> exact ⟨rfl, rfl, rfl, rfl⟩
  rw [run_processCreate]
  dsimp only
  cases createdObjectId tx.txid with
  | error e => exact hblob
  | ok objId =>
    cases w.undo with
    | false => exact hblob
    | true =>
      cases w.object with
      | false => exact ⟨hblob.blocks, hblob.chainMeta, hblob.bridgeTransfers, hblob.mintedProofs⟩
      | true => exact ⟨hblob.blocks, hblob.chainMeta, hblob.bridgeTransfers, hblob.mintedProofs⟩

private theorem processCall_sameRest (w : Writes) (now : Int) (tx : ElectrsTx)
    (blockHeight voutIdx : Nat) (out : ElectrsTxOutput) (envelope : UtxoVmEnvelope)
    (obj : SmartObjectRecord) (s : StateStore) :
    SameRest s (run (processCall X P w now tx blockHeight voutIdx out envelope obj) s).1 := by
  rw [run_processCall]
  dsimp only
  cases w.undo with
  | false => exact ⟨rfl, rfl, rfl, rfl⟩
  | true =>
    cases callOutcome X P s obj (methodOf (metadataOf envelope)) (argsOf (metadataOf envelope))
        (sender tx) out.value with
    | error e => exact ⟨rfl, rfl, rfl, rfl⟩
    | ok result? =>
      cases result? with
      | none => exact ⟨rfl, rfl, rfl, rfl⟩
      | some result => cases w.object <;> cases w.transition <;> exact ⟨rfl, rfl, rfl, rfl⟩

/-- Everything that `process_tx` never writes. -/
theorem processTx_sameRest (w : Writes) (now : Int) (tx : ElectrsTx) (blockHeight : Nat)
    (s : StateStore) : SameRest s (run (processTx X P w now tx blockHeight) s).1 := by
  rw [run_processTx]
  cases selectAction X P s tx with
  | error e => exact ⟨rfl, rfl, rfl, rfl⟩
  | ok action? =>
    cases action? with
    | none => exact ⟨rfl, rfl, rfl, rfl⟩
    | some action =>
      cases action with
      | create voutIdx out envelope =>
        exact processCreate_sameRest X P w tx blockHeight voutIdx out envelope s
      | call voutIdx out envelope obj =>
        exact processCall_sameRest X P w now tx blockHeight voutIdx out envelope obj s

/-! ## 2. The target of a call -/

theorem target_eq_some {s : StateStore} {vins : List ElectrsTxInput} {obj : SmartObjectRecord}
    (h : target s vins = some obj) :
    ∃ vin ∈ vins, lookupSeal s (sealOf vin.txid vin.vout) = .ok (some obj) := by
  induction vins with
  | nil => cases h
  | cons vin rest ih =>
    unfold target at h
    split at h
    · rename_i obj' hlookup
      cases h
      exact ⟨vin, List.mem_cons_self, hlookup⟩
    · have ⟨vin', hmem, hlookup⟩ := ih h
      exact ⟨vin', List.mem_cons_of_mem _ hmem, hlookup⟩

theorem target_congr {s s' : StateStore} {vins : List ElectrsTxInput}
    (h : ∀ vin ∈ vins, lookupSeal s (sealOf vin.txid vin.vout) =
      lookupSeal s' (sealOf vin.txid vin.vout)) : target s vins = target s' vins := by
  induction vins with
  | nil => rfl
  | cons vin rest ih =>
    unfold target
    rw [h vin List.mem_cons_self, ih fun vin' hvin' ↦ h vin' (List.mem_cons_of_mem _ hvin')]

variable {X P} in
/-- The store decides on the action of a transaction by the target of a call only. -/
theorem selectAction_congr {s s' : StateStore} {tx : ElectrsTx}
    (htarget : target s tx.vin = target s' tx.vin) :
    selectAction X P s tx = selectAction X P s' tx := by
  unfold selectAction
  generalize 0 = voutIdx
  generalize tx.vout = outs
  induction outs generalizing voutIdx with
  | nil => rfl
  | cons out rest ih =>
    unfold selectOutput
    rw [htarget]
    simp only [ih]

private theorem selectOutput_call {s : StateStore} {tx : ElectrsTx} {outs : List ElectrsTxOutput}
    {voutIdx start : Nat} {out : ElectrsTxOutput} {envelope : UtxoVmEnvelope}
    {obj : SmartObjectRecord}
    (h : selectOutput X P s tx start outs = .ok (some (.call voutIdx out envelope obj))) :
    target s tx.vin = some obj := by
  induction outs generalizing start with
  | nil => cases h
  | cons o rest ih =>
    unfold selectOutput at h
    split at h
    · cases h
    · exact ih h
    · split at h
      · split at h <;> cases h
      · split at h
        · split at h
          · rename_i obj' htarget
            cases h
            exact htarget
          · exact ih h
        · cases h

/-- A call acts on the object whose seal the transaction spends. -/
theorem selectAction_call {s : StateStore} {tx : ElectrsTx} {voutIdx : Nat} {out : ElectrsTxOutput}
    {envelope : UtxoVmEnvelope} {obj : SmartObjectRecord}
    (h : selectAction X P s tx = .ok (some (.call voutIdx out envelope obj))) :
    target s tx.vin = some obj :=
  selectOutput_call X P h

/-- The object of a planned call is stored, and the transaction spends a seal that leads to it. -/
theorem target_stored {ids : Set String} {s : StateStore} (hs : s.Intact ids)
    {vins : List ElectrsTxInput} {obj : SmartObjectRecord} (h : target s vins = some obj) :
    s.objects[obj.objectId]? = some obj ∧
      ∃ vin ∈ vins, s.seals[sealOf vin.txid vin.vout]? = some obj.objectId := by
  obtain ⟨vin, hmem, hlookup⟩ := target_eq_some h
  have ⟨hseal, hstored⟩ := hs.lookupSeal hlookup
  exact ⟨hstored, vin, hmem, hseal⟩

/-! ## 3. The planned update fits the store -/

/-- What a planned update of an intact store looks like. -/
structure Fits (s : StateStore) (blockHeight : Nat) (u : Update) : Prop where
  chain : u.undo.chain = P.chain
  height : u.undo.blockHeight = blockHeight
  replayable : ∃ obj?, u.undo.Replayable obj?
  prevSeal : ∀ σ, u.undo.prevSeal = some σ → s.Claims σ u.undo.objectId
  object : ∀ obj, u.object = some obj → obj.objectId = u.undo.objectId

theorem updateUndo_holds (tx : ElectrsTx) (blockHeight voutIdx : Nat) (obj : SmartObjectRecord) :
    (P.updateUndo tx blockHeight voutIdx obj).Holds obj :=
  ⟨rfl, rfl, rfl, rfl, rfl, rfl, rfl, rfl, rfl⟩

theorem plannedUpdate_fits {ids : Set String} {s : StateStore} (hs : s.Intact ids)
    {tx : ElectrsTx} {blockHeight : Nat} {u : Update}
    (hu : plannedUpdate X P s tx blockHeight = some u) : Fits P s blockHeight u := by
  unfold plannedUpdate at hu
  split at hu
  · split at hu
    · cases hu
      refine ⟨rfl, rfl, ⟨none, .create rfl rfl rfl⟩, ?_, ?_⟩
      · intro σ hσ
        cases hσ
      · intro obj hobj
        cases hobj
        rfl
    · cases hu
  · rename_i voutIdx out envelope obj haction
    cases hu
    have hstored := (target_stored hs (selectAction_call X P haction)).1
    have hreadable := (hs.object _ _ hstored).2.1
    refine ⟨rfl, rfl, ⟨some obj, .update obj (updateUndo_holds P ..) hreadable⟩, ?_, ?_⟩
    · intro σ hσ
      cases hσ
      exact .inl ⟨obj, hstored, rfl⟩
    · intro obj' hobj'
      unfold calledUpdate at hobj'
      split at hobj'
      · cases hobj'
        rfl
      · cases hobj'
  · cases hu

/-! ## 4. Runs -/

/-- One transaction of a block, with the writes that commit and the clock. -/
structure TxRun where
  writes : Writes
  now : Int
  tx : ElectrsTx

def runTx (blockHeight : Nat) (s : StateStore) (r : TxRun) : StateStore :=
  (run (processTx X P r.writes r.now r.tx blockHeight) s).1

def runBlock (blockHeight : Nat) (block : List TxRun) (s : StateStore) : StateStore :=
  block.foldl (runTx X P blockHeight) s

theorem runTx_progress (blockHeight : Nat) (s : StateStore) (r : TxRun) :
    Progress X s (plannedUpdate X P s r.tx blockHeight) (runTx X P blockHeight s r) :=
  processTx_progress X P r.writes r.now r.tx blockHeight s

/-! ## 5. Transactions that create, call and transfer an object -/

/-- An output with a JSON envelope. -/
def jsonOutput (value : Nat) (metadata : Json) : ElectrsTxOutput :=
  { value
    scriptpubkey := hexEncode ([0x00, 0x63, 6] ++ asBytes "utxovm" ++ [1, 1, 16] ++
      asBytes "application/json" ++ [UInt8.ofNat (asBytes metadata.compact).length] ++
      asBytes metadata.compact ++ [0x68])
    scriptpubkeyHex := none }

def demoProcessor : BlockProcessor where
  chain := "JKC"
  runtime := { execute := fun _ _ _ _ _ ↦ .error "out of gas" }
  minExecutionFee := 0
  feeCollector := none

def demoFunding : ElectrsTxInput :=
  ⟨"00000000000000000000000000000000000000000000000000000000000000aa", 1⟩

/-- A transaction that creates an object. -/
def demoCreateTx : ElectrsTx where
  txid := "0000000100000000000000000000000000000000000000000000000000000000"
  vin := [demoFunding]
  vout := [jsonOutput 1000 demoCreate]

/-- A transaction that spends the seal of the object. -/
def demoCallTx : ElectrsTx where
  txid := "0000000200000000000000000000000000000000000000000000000000000000"
  vin := [⟨demoCreateTx.txid, 0⟩]
  vout := [jsonOutput 900 demoCall]

/-- The same, with a new owner. -/
def demoTransferTx : ElectrsTx where
  txid := "0000000300000000000000000000000000000000000000000000000000000000"
  vin := [⟨demoCreateTx.txid, 0⟩]
  vout := [jsonOutput 900 (demoTransfer "mallory")]

def demoObjectId : String := "obj_0000000100000000"

def demoObject (blockHeight : Nat) : SmartObjectRecord where
  objectId := demoObjectId
  codeHash := "wasm_default"
  sealRef := sealOf demoCreateTx.txid 0
  satoshis := 1000
  owner := sender demoCreateTx
  stateData := .object [("initialized", .bool true), ("owner", .string (sender demoCreateTx))]
  createdAtBlock := blockHeight
  updatedAtBlock := blockHeight

theorem demoCreateTx_planned (s : StateStore) (blockHeight : Nat) :
    plannedUpdate demoCrates demoProcessor s demoCreateTx blockHeight = some
      { undo := demoProcessor.createUndo demoCreateTx blockHeight 0 demoObjectId
        object := some (demoObject blockHeight) } := by
  set_option maxRecDepth 4000 in
  rfl

end BlockProcessor

end UtxoVm
