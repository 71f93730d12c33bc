import UtxoVm.Node.SyncLoop
import UtxoVm.Rpc.ServerWrites
import UtxoVm.Scanner.ProcessorRun

/-!
# What the tasks write

The actions of the tasks, as single writes: running a transaction writes objects, undo records,
transitions and code under its own hash; a pass also writes blocks and the cursor, rolls back, and
attests.
-/

namespace UtxoVm

open RustStd StateStore Prog

/-- A single write of a transaction that runs at a height. -/
inductive ScanWrite (X : Crates) (height : Nat) (s : StateStore) : StateStore → Prop
  | none : ScanWrite X height s s
  | object (obj : SmartObjectRecord) : obj.updatedAtBlock = height →
      ScanWrite X height s (insertObject obj s)
  | tree (smt : SparseMerkleTree) : ScanWrite X height s { s with smt }
  | undo (undo : UndoLogRecord) : undo.blockHeight = height →
      ScanWrite X height s (putUndo undo s)
  | transition (trans : StateTransitionRecord) : ScanWrite X height s (putTransition trans s)
  | blob (wasmBytes : Bytes) : ScanWrite X height s (putWasm (wasmHash X wasmBytes) wasmBytes s)

namespace ScanWrite

variable {X : Crates} {height : Nat} {s s' : StateStore}

/-- What a write of a running transaction leaves alone. -/
theorem frame (h : ScanWrite X height s s') :
    s'.bridgeTransfers = s.bridgeTransfers ∧ s'.mintedProofs = s.mintedProofs ∧
      s'.blocks = s.blocks ∧ s'.chainMeta = s.chainMeta := by
  cases h <;> exact ⟨rfl, rfl, rfl, rfl⟩

/-- A transaction files its undo records at its own height. -/
theorem undoLogs (h : ScanWrite X height s s') {i : Nat} {log : UndoLogRecord}
    (hlog : s'.undoLogs[i]? = some log) :
    s.undoLogs[i]? = some log ∨ log.blockHeight = height := by
  cases h with
  | undo undo hundo =>
    change (s.undoLogs.insert undo.id undo)[i]? = some log at hlog
    rw [Table.get_insert] at hlog
    split at hlog
    · cases hlog
      exact .inr hundo
    · exact .inl hlog
  | none => exact .inl hlog
  | object obj hobj => exact .inl hlog
  | tree smt => exact .inl hlog
  | transition trans => exact .inl hlog
  | blob wasmBytes => exact .inl hlog

end ScanWrite

namespace StateStore

variable (X : Crates)

variable {height : Nat}

theorem steps_save (commits : Bool) {obj : SmartObjectRecord} (hobj : obj.updatedAtBlock = height) :
    (saveObject X commits obj).Steps (ScanWrite X height) :=
  steps_saveObject (fun _ ↦ .none) (fun _ ↦ .object obj hobj) (fun _ smt ↦ .tree smt) X commits

theorem steps_saveUndoLog (commits : Bool) {undo : UndoLogRecord}
    (hundo : undo.blockHeight = height) :
    (saveUndoLog commits undo).Steps (ScanWrite X height) :=
  steps_commit (fun _ ↦ .none) (fun _ ↦ .undo undo hundo) commits

theorem steps_saveTransition (commits : Bool) (trans : StateTransitionRecord) :
    (saveTransition commits trans).Steps (ScanWrite X height) :=
  steps_commit (fun _ ↦ .none) (fun _ ↦ .transition trans) commits

/-- Code is only stored under its own hash. -/
theorem steps_saveWasm (commits : Bool) (codeHash : String) (wasmBytes : Bytes) :
    (saveWasm X commits codeHash wasmBytes).Steps (ScanWrite X height) := by
  unfold saveWasm
  split
  · trivial
  · rename_i hhash
    rw [← not_not.mp hhash]
    exact steps_commit (fun _ ↦ .none) (fun _ ↦ .blob wasmBytes) commits

theorem steps_reads {α : Type} {p : StoreProg α} (hp : Reads p) :
    p.Steps (ScanWrite X height) := by
  apply hp.mono
  rintro s _ rfl
  exact .none

end StateStore

namespace BlockProcessor

variable (X : Crates) (P : BlockProcessor)

theorem steps_processCreate (w : Writes) (tx : ElectrsTx) (blockHeight voutIdx : Nat)
    (out : ElectrsTxOutput) (envelope : UtxoVmEnvelope) :
    (P.processCreate X w tx blockHeight voutIdx out envelope).Steps (ScanWrite X blockHeight) := by
  have hblob : (storeBlob X w envelope).Steps (ScanWrite X blockHeight) := by
    unfold storeBlob
    split
    · exact (steps_saveWasm X _ _ _).attempt.bind fun _ ↦ .pure _
    · exact .pure _
  apply hblob.bind
  intro _
  apply (Steps.ofExcept _).bind
  intro objId
  have hundo : (P.createUndo tx blockHeight voutIdx objId).blockHeight = blockHeight := rfl
  apply (steps_saveUndoLog X _ hundo).bind
  intro _
  have hobj : (createdObject X tx blockHeight voutIdx out envelope objId).updatedAtBlock =
      blockHeight := rfl
  exact (steps_save X _ hobj).bind fun _ ↦ .pure _

theorem reads_findTarget (vins : List ElectrsTxInput) : Reads (findTarget vins) := by
  induction vins with
  | nil => exact .pure _
  | cons vin rest ih =>
    apply (reads_getObjectBySeal _).attempt.bind
    intro found
    rcases found with e | (_ | obj)
    · exact ih
    · exact ih
    · exact .pure _

theorem reads_callResult (obj : SmartObjectRecord) (method : String) (args : Json)
    (caller : String) (satoshis : Nat) :
    Reads (callResult X P obj method args caller satoshis) := by
  have hbytes : Reads (getWasmBytes obj.codeHash) := by
    unfold getWasmBytes
    split
    · exact .pure _
    · apply (Steps.read fun _ ↦ rfl).bind
      intro bytes?
      cases bytes? <;> trivial
  unfold callResult
  split
  · apply hbytes.attempt.bind
    intro result
    cases result with
    | error e =>
      dsimp only
      split <;> trivial
    | ok wasmBytes =>
      dsimp only
      split <;> trivial
  · exact .pure _

theorem steps_processCall (w : Writes) (now : Int) (tx : ElectrsTx) (blockHeight voutIdx : Nat)
    (out : ElectrsTxOutput) (envelope : UtxoVmEnvelope) (obj : SmartObjectRecord) :
    (P.processCall X w now tx blockHeight voutIdx out envelope obj).Steps
      (ScanWrite X blockHeight) := by
  have hundo : (P.updateUndo tx blockHeight voutIdx obj).blockHeight = blockHeight := rfl
  apply (steps_saveUndoLog X _ hundo).bind
  intro _
  apply (StateStore.steps_reads X (reads_callResult X P _ _ _ _ _)).bind
  intro result?
  cases result? with
  | none => exact .pure _
  | some result =>
    obtain ⟨newState, gasConsumed⟩ := result
    have hobj : (calledObject obj blockHeight (sealOf tx.txid voutIdx) out.value
        (argsOf (metadataOf envelope)) newState).updatedAtBlock = blockHeight := rfl
    apply (steps_save X _ hobj).bind
    intro _
    exact (steps_saveTransition X _ _).bind fun _ ↦ .pure _

/-- **What a transaction can write.** -/
theorem steps_processTx (w : Writes) (now : Int) (tx : ElectrsTx) (blockHeight : Nat) :
    (P.processTx X w now tx blockHeight).Steps (ScanWrite X blockHeight) := by
  unfold processTx
  generalize tx.vout = outs
  generalize 0 = voutIdx
  -- output by output: the first one that is acted on decides
  induction outs generalizing voutIdx with
  | nil => exact .pure _
  | cons out rest ih =>
    unfold processOutputs
    split
    · trivial
    · exact ih _
    · split
      · split
        · exact steps_processCreate X P w tx blockHeight voutIdx out _
        · exact .pure _
      · split
        · apply (StateStore.steps_reads X (reads_findTarget _)).bind
          intro obj?
          cases obj? with
          | none => exact ih _
          | some obj => exact steps_processCall X P w now tx blockHeight voutIdx out _ obj
        · exact .pure _

end BlockProcessor

namespace Node

/-- A single write of a pass of the sync loop. -/
inductive PassWrite (X : Crates) (w : World) : World → Prop
  | scan (height : Nat) (s : StateStore) : ScanWrite X height w.store s →
      PassWrite X w { w with store := s }
  | rollback (chain : String) (targetHeight : Nat) (logs : List (Nat × UndoLogRecord))
      (handled : List Handled) :
      PassWrite X w { w with store := undoAll chain targetHeight logs w.store, handled }
  | block (key : String) (block : BlockRecord) :
      PassWrite X w
        { w with store := { w.store with blocks := w.store.blocks.insert key block } }
  | cursor (key : String) (height : Nat) :
      PassWrite X w
        { w with store := { w.store with chainMeta := w.store.chainMeta.insert key height } }
  | attested (attestation : StateAttestation) (now : Int) :
      PassWrite X w { w with consensus := (addAttestation X w.consensus attestation now).1 }
  | record (broadcasts : List StateAttestation) (handled : List Handled) :
      PassWrite X w { w with broadcasts, handled }

/-- A single write of the call of a task. -/
def CallWrite (X : Crates) : Call → World → World → Prop
  | .pass _, w, w' => PassWrite X w w'
  | .mempoolTx _ _ _, w, w' => ∃ s, ScanWrite X 0 w.store s ∧ w' = { w with store := s }
  | .listen _ _, w, w' =>
      ∃ attestation now, w' =
        { w with consensus := (addAttestation X w.consensus attestation now).1 }
  | .replaceChain _, w, w' => ∃ v, w' = { w with l1 := v }

variable (X : Crates) (B : L1Blocks) (N : Node) (env : PassEnv)

theorem PassWrite.none {X : Crates} {w : World} : PassWrite X w w := .scan 0 w.store .none

theorem steps_caught {α : Type} {R : World → World → Prop} {p : TaskProg α} (hp : p.Steps R) :
    (caught p).Steps R := by
  apply hp.attempt.bind
  intro result
  rcases result with (e | _) | a
  · trivial
  · trivial
  · trivial

theorem steps_scan {α : Type} (height : Nat) {p : StoreProg α}
    (hp : p.Steps (ScanWrite X height)) : (onStore p).Steps (PassWrite X) :=
  hp.zoom fun s _ hs ↦ .scan height s hs

theorem steps_onStore {α : Type} {p : StoreProg α}
    (hp : p.Steps fun s s' ↦ ∀ w : World, w.store = s → PassWrite X w { w with store := s' }) :
    (onStore p).Steps (PassWrite X) :=
  hp.zoom fun _ w hs ↦ hs w rfl

theorem steps_storedBlock (height : Nat) : (storedBlock N env height).Steps (PassWrite X) := by
  unfold storedBlock
  split
  · exact steps_scan X 0 (Steps.read fun _ ↦ .none)
  · exact .pure _

theorem steps_checkedHash (height : Nat) : (checkedHash env height).Steps (PassWrite X) :=
  Steps.read fun _ ↦ .none

theorem steps_lastSynced : (lastSynced N env).Steps (PassWrite X) := by
  have hread : (readCursor N env).Steps (PassWrite X) := by
    unfold readCursor
    split
    · exact steps_scan X 0 (Steps.read fun _ ↦ .none)
    · exact .pure _
  apply hread.bind
  intro last
  split
  · split <;> exact .pure _
  · exact .pure _

theorem steps_backtrack (ancestor : Nat) : (backtrack N env ancestor).Steps (PassWrite X) := by
  induction ancestor with
  | zero => exact .pure _
  | succ a ih =>
    apply (steps_storedBlock X N env _).bind
    intro prevLocal
    cases prevLocal with
    | none => exact ih
    | some prevLocal =>
      apply (steps_checkedHash X env _).bind
      intro prevL1Hash
      cases prevL1Hash with
      | none => exact .pure _
      | some prevL1Hash =>
        dsimp only
        split
        · exact .pure _
        · exact ih

theorem steps_rollback (targetHeight : Nat) :
    (rollback X N env targetHeight).Steps (PassWrite X) := by
  have hundo : (undoBlocks N env targetHeight).Steps (PassWrite X) := by
    rw [undoBlocks_eq]
    intro w
    dsimp only
    cases undoLogsAbove w.store N.chain targetHeight with
    | error e => exact ⟨.none, trivial⟩
    | ok logs =>
      -- all records that were read are replayed
      cases env.rollsBack with
      | false => exact ⟨.none, trivial⟩
      | true => exact ⟨.rollback N.chain targetHeight logs _, trivial⟩
  apply hundo.bind
  intro rolledBack
  have htree : (rebuildTree X).Steps (ScanWrite X 0) := by
    apply (StateStore.steps_reads X reads_getAllObjects).bind
    exact fun objs ↦ .modify fun s ↦ .tree _
  exact (steps_scan X 0 htree).bind fun _ ↦ .pure _

theorem steps_reorgCheck (last : Nat) : (reorgCheck X N env last).Steps (PassWrite X) := by
  unfold reorgCheck
  split
  · exact .pure _
  · apply (steps_storedBlock X N env _).bind
    intro localBlock
    cases localBlock with
    | none => exact .pure _
    | some localBlock =>
      apply (steps_checkedHash X env _).bind
      intro l1Hash
      cases l1Hash with
      | none => exact .pure _
      | some l1Hash =>
        dsimp only
        split
        · exact .pure _
        · apply (steps_backtrack X N env _).bind
          intro ancestor?
          cases ancestor? with
          | none => exact .pure _
          | some ancestor =>
            apply (steps_caught (steps_rollback X N env ancestor)).bind
            intro result
            cases result <;> exact .pure _

theorem steps_syncTx (tenv : TxEnv) (height : Nat) (tx : ElectrsTx) :
    (syncTx X N tenv height tx).Steps (PassWrite X) := by
  have hrun (writes : Writes) (now : Int) :
      (caught (onStore (N.processor.processTx X writes now tx height))).Steps (PassWrite X) :=
    steps_caught (steps_scan X height (BlockProcessor.steps_processTx X _ writes now tx height))
  apply (hrun _ _).bind
  intro first
  cases first with
  | ok result => exact .pure _
  | error e =>
    dsimp only
    split
    · apply (steps_caught (steps_scan X height (steps_saveWasm X _ _ _))).bind
      intro saved
      cases saved with
      | ok u => exact hrun _ _
      | error e => exact .pure _
    · exact .pure _

theorem steps_syncTxs (height i : Nat) (txs : List ElectrsTx) :
    (syncTxs X N env height i txs).Steps (PassWrite X) := by
  induction txs generalizing i with
  | nil => exact .pure _
  | cons tx rest ih =>
    apply (steps_syncTx X N _ height tx).bind
    intro last
    have hnote (w : World) : PassWrite X w (w.note tx (last.mapError .err)) := by
      unfold World.note
      split
      · exact .record w.broadcasts _
      · exact .none
    exact (Steps.modify hnote).bind fun _ ↦ ih _

theorem steps_saveSynced (height : Nat) (blockHash stateRoot : String) :
    (saveSynced N env height blockHash stateRoot).Steps (PassWrite X) := by
  have hwrite (commits : Bool) (write : StateStore → StateStore)
      (h : ∀ w : World, PassWrite X w { w with store := write w.store }) :
      (caught (onStore (commit commits write))).Steps (PassWrite X) := by
    apply steps_caught
    apply steps_onStore
    apply steps_commit
    · rintro _ w rfl
      exact .none
    · rintro _ w rfl
      exact h w
  apply (hwrite _ _ fun w ↦ .block _ _).bind
  intro _
  exact (hwrite _ _ fun w ↦ .cursor _ _).bind fun _ ↦ .pure _

theorem steps_attest (height : Nat) (blockHash stateRoot : String) :
    (attest X N env height blockHash stateRoot).Steps (PassWrite X) := by
  unfold attest
  split
  · split
    · apply (Steps.modify fun w ↦ .attested _ _).bind
      exact fun _ ↦ .modify fun w ↦ .record _ w.handled
    · exact .pure _
  · exact .pure _

theorem steps_syncBlock (height : Nat) : (syncBlock X B N env height).Steps (PassWrite X) := by
  have hfetch : (fetchedHash env height).Steps (PassWrite X) := by
    intro w
    refine ⟨?_, trivial⟩
    dsimp only
    cases w.l1 height with
    | none => exact .none
    | some blockHash =>
      dsimp only
      split
      · exact .record w.broadcasts (_ :: w.handled)
      · exact .none
  apply hfetch.bind
  intro blockHash?
  cases blockHash? with
  | none => exact .pure _
  | some blockHash =>
    apply (steps_syncTxs X N env height 0 _).bind
    intro _
    -- computing the root caches the hashes of the tree
    have hroot : currentStateRoot.Steps (ScanWrite X height) := fun s ↦ ⟨.tree s.smt.root.1, trivial⟩
    apply (steps_scan X height hroot).bind
    intro stateRoot
    apply (steps_saveSynced X N env height blockHash stateRoot).bind
    exact fun _ ↦ steps_attest X N env height blockHash stateRoot

theorem steps_catchUp (heights : List Nat) : (catchUp X B N env heights).Steps (PassWrite X) := by
  induction heights with
  | nil => exact .pure _
  | cons height rest ih => exact (steps_syncBlock X B N env height).bind fun _ ↦ ih

theorem steps_pass : (N.pass X B env).Steps (PassWrite X) := by
  unfold pass
  split
  · exact .pure _
  · apply (steps_lastSynced X N env).bind
    intro last
    apply (steps_reorgCheck X N env last).bind
    intro check
    rcases check with _ | (_ | ancestor)
    · exact (steps_catchUp X B N env _).bind fun _ ↦ .pure _
    · exact .pure _
    · exact (steps_catchUp X B N env _).bind fun _ ↦ .pure _

/-- **What a task can write.** -/
theorem steps_call (call : Call) : (call.prog X B N).Steps (CallWrite X call) := by
  cases call with
  | pass env => exact steps_pass X B N env
  | mempoolTx writes now tx =>
    have hrun : (onStore (N.processor.processTx X writes now tx 0)).Steps
        (CallWrite X (.mempoolTx writes now tx)) :=
      (BlockProcessor.steps_processTx X _ writes now tx 0).zoom fun s w hs ↦ ⟨s, hs, rfl⟩
    exact (steps_caught hrun).bind fun _ ↦ .pure _
  | listen attestation now =>
    exact (Steps.modify fun w ↦ ⟨attestation, now, rfl⟩).bind fun _ ↦ .pure _
  | replaceChain v => exact (Steps.modify fun w ↦ ⟨v, rfl⟩).bind fun _ ↦ .pure _

end Node

end UtxoVm
