import UtxoVm.Node.SyncLoop
import UtxoVm.Scanner.ProcessorRun
import UtxoVm.Storage.Rollback

/-!
# What the tasks leave alone

Running transactions touches neither the blocks nor the sync cursor: only the sync task writes these
two tables, in `save_block`, `set_last_sync_block` and `rollback_to_block`.
-/

namespace UtxoVm

open RustStd Prog

namespace StateStore

/-- The tables that running transactions does not touch. -/
def syncTables (s : StateStore) : Table String BlockRecord × Table String Nat :=
  (s.blocks, s.chainMeta)

theorem keeps_currentStateRoot {γ : Type} {g : StateStore → γ}
    (hsmt : ∀ s smt, g { s with smt } = g s) : Keeps g currentStateRoot :=
  fun s ↦ ⟨hsmt s _, trivial⟩

/-- The sync tables after the transaction of a rollback. -/
theorem undoAll_syncTables (chain : String) (targetHeight : Nat) (logs : List (Nat × UndoLogRecord))
    (s : StateStore) :
    syncTables (undoAll chain targetHeight logs s) =
      (s.blocks.filter fun key block ↦
        !(startsWith key (chain ++ ":") && decide (targetHeight < block.blockHeight)),
        s.chainMeta.insert (lastBlockKey chain) targetHeight) := by
  obtain ⟨objects, seals, hfold⟩ := foldl_undoOne_eq targetHeight (logs.map (·.2)) s
  unfold undoAll syncTables
  rw [hfold]

end StateStore

open StateStore

namespace BlockProcessor

variable (X : Crates) (P : BlockProcessor)

theorem keeps_processCreate (w : Writes) (tx : ElectrsTx) (blockHeight voutIdx : Nat)
    (out : ElectrsTxOutput) (envelope : UtxoVmEnvelope) :
    Keeps syncTables (P.processCreate X w tx blockHeight voutIdx out envelope) := by
  refine (keeps_storeBlob X fun _ _ _ ↦ rfl).bind fun _ ↦ (Keeps.ofExcept _).bind fun _ ↦ ?_
  refine (keeps_saveUndoLog fun _ ↦ rfl).bind fun _ ↦ ?_
  exact (keeps_saveObject (fun _ ↦ rfl) fun _ _ ↦ rfl).bind fun _ ↦ .pure _

theorem keeps_processCall (w : Writes) (now : Int) (tx : ElectrsTx) (blockHeight voutIdx : Nat)
    (out : ElectrsTxOutput) (envelope : UtxoVmEnvelope) (obj : SmartObjectRecord) :
    Keeps syncTables (P.processCall X w now tx blockHeight voutIdx out envelope obj) := by
  refine (keeps_saveUndoLog fun _ ↦ rfl).bind fun _ ↦ ?_
  refine (keeps_callResult X P _ _ _ _ _).bind fun r ↦ ?_
  cases r with
  | none => exact .pure _
  | some result =>
    refine (keeps_saveObject (fun _ ↦ rfl) fun _ _ ↦ rfl).bind fun _ ↦ ?_
    exact (keeps_saveTransition fun _ ↦ rfl).bind fun _ ↦ .pure _

/-- `process_tx` leaves the blocks and the cursor alone. -/
theorem keeps_processTx (w : Writes) (now : Int) (tx : ElectrsTx) (blockHeight : Nat) :
    Keeps syncTables (P.processTx X w now tx blockHeight) := by
  unfold processTx
  generalize tx.vout = outs
  generalize 0 = voutIdx
  induction outs generalizing voutIdx with
  | nil => exact .pure _
  | cons out rest ih =>
    unfold processOutputs
    split
    · trivial
    · exact ih _
    · split
      · split
        · exact keeps_processCreate X P _ _ _ _ _ _
        · exact .pure _
      · split
        · refine (keeps_findTarget _).bind fun obj? ↦ ?_
          cases obj? with
          | none => exact ih _
          | some obj => exact keeps_processCall X P _ _ _ _ _ _ _ _
        · exact .pure _

end BlockProcessor

open BlockProcessor

namespace Node

variable {γ α : Type} {f : World → γ}

/-- What `f` observes of the store lies in the sync tables. -/
def SeesTables (f : World → γ) : Prop :=
  ∀ w s, syncTables s = syncTables w.store → f { w with store := s } = f w

theorem keeps_onStore (hf : SeesTables f) {p : StoreProg α} (hp : Keeps syncTables p) :
    Keeps f (onStore p) :=
  hp.zoom fun s w ↦ hf w s

theorem keeps_caught {p : TaskProg α} (hp : Keeps f p) : Keeps f (caught p) := by
  refine hp.attempt.bind fun r ↦ ?_
  rcases r with (e | _) | a
  · exact .pure _
  · trivial
  · exact .pure _

variable (X : Crates) (B : L1Blocks) (N : Node) (env : PassEnv)

/-- Reading the store changes nothing. -/
theorem keeps_readStore (g : StateStore → α) : Keeps f (onStore (.read g)) :=
  fun _ ↦ ⟨rfl, trivial⟩

theorem keeps_lastSynced : Keeps f (lastSynced N env) := by
  have hread : Keeps f (readCursor N env) := by
    unfold readCursor
    split
    · exact keeps_readStore _
    · exact .pure _
  refine hread.bind fun last ↦ ?_
  split
  · cases N.startHeight <;> exact .pure _
  · exact .pure _

theorem keeps_storedBlock (height : Nat) : Keeps f (storedBlock N env height) := by
  unfold storedBlock
  split
  · exact keeps_readStore _
  · exact .pure _

theorem keeps_backtrack (ancestor : Nat) : Keeps f (backtrack N env ancestor) := by
  induction ancestor with
  | zero => exact .pure _
  | succ a ih =>
    refine (keeps_storedBlock N env _).bind fun prevLocal ↦ ?_
    cases prevLocal with
    | none => exact ih
    | some prevLocal =>
      refine (Keeps.read _).bind fun prevL1Hash ↦ ?_
      cases prevL1Hash with
      | none => exact .pure _
      | some prevL1Hash =>
        dsimp only
        split
        · exact .pure _
        · exact ih

theorem keeps_rebuildTree {g : StateStore → γ} (hsmt : ∀ s smt, g { s with smt } = g s) :
    Keeps g (rebuildTree X) :=
  Keeps.bind ((Keeps.read _).bind fun _ ↦ .ofExcept _) fun _ ↦ .modify fun s ↦ hsmt s _

theorem keeps_syncTx (hf : SeesTables f) (tenv : TxEnv) (height : Nat) (tx : ElectrsTx) :
    Keeps f (syncTx X N tenv height tx) := by
  refine (keeps_caught (keeps_onStore hf (keeps_processTx X _ _ _ _ _))).bind fun first ↦ ?_
  cases first with
  | ok r => exact .pure _
  | error e =>
    dsimp only
    split
    · refine (keeps_caught (keeps_onStore hf (keeps_saveWasm fun _ ↦ rfl))).bind fun saved ↦ ?_
      cases saved with
      | error e => exact .pure _
      | ok u => exact keeps_caught (keeps_onStore hf (keeps_processTx X _ _ _ _ _))
    · exact .pure _

theorem keeps_syncTxs (hf : SeesTables f) (hnote : ∀ w tx r, f (w.note tx r) = f w)
    (height i : Nat) (txs : List ElectrsTx) : Keeps f (syncTxs X N env height i txs) := by
  induction txs generalizing i with
  | nil => exact .pure _
  | cons tx rest ih =>
    exact (keeps_syncTx X N hf _ _ _).bind fun _ ↦ (Keeps.modify fun w ↦ hnote w _ _).bind
      fun _ ↦ ih _

theorem keeps_attest (hconsensus : ∀ w consensus, f { w with consensus } = f w)
    (hbroadcasts : ∀ w broadcasts, f { w with broadcasts } = f w) (height : Nat)
    (blockHash stateRoot : String) : Keeps f (attest X N env height blockHash stateRoot) := by
  unfold attest
  split
  · split
    · exact (Keeps.modify fun w ↦ hconsensus w _).bind fun _ ↦ .modify fun w ↦ hbroadcasts w _
    · exact .pure _
  · exact .pure _

end Node

end UtxoVm
