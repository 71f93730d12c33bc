import UtxoVm.Scanner.Update

/-!
# The bridge lock and the block processor

The lock of the bridge is a prefix of the owner field, and `process_tx` never looks at it: a call
rewrites the owner, the value and the state of whatever object the transaction spends.  A locked
object is safe exactly as long as no transaction selects it.
-/

namespace UtxoVm

open RustStd StateStore Prog

namespace StateStore

/-- The object `id` is stored as `r`, and a transfer for it holds its lock. -/
structure BridgeLocked (s : StateStore) (id : String) (r : SmartObjectRecord) : Prop where
  stored : s.objects[id]? = some r
  owner : startsWith r.owner lockPrefix = true
  transfer : ∃ t : BridgeTransfer, s.bridgeTransfers[t.id]? = some t ∧ t.sourceObjectId = id ∧
    t.status = .locked

end StateStore

namespace BlockProcessor

variable (X : Crates) (P : BlockProcessor)

/-- The transaction selects the object `id`: it creates an object under that id, or it spends the
seal of the object in a call that the contract accepts. -/
def Selects (s : StateStore) (tx : ElectrsTx) (id : String) : Prop :=
  match selectAction X P s tx with
  | .ok (some (.create ..)) => createdObjectId tx.txid = .ok id
  | .ok (some (.call _ out envelope obj)) =>
      obj.objectId = id ∧ ∃ result, callOutcome X P s obj (methodOf (metadataOf envelope))
        (argsOf (metadataOf envelope)) (sender tx) out.value = .ok (some result)
  | _ => False

/-- Transactions run one after another, each with its block height. -/
def runTxs (runs : List (Nat × TxRun)) (s : StateStore) : StateStore :=
  runs.foldl (fun s r ↦ runTx X P r.1 s r.2) s

/-- No transaction of the run selects the object `id` in the store that it finds. -/
def Spares (id : String) : List (Nat × TxRun) → StateStore → Prop
  | [], _ => True
  | r :: rs, s => ¬ Selects X P s r.2.tx id ∧ Spares id rs (runTx X P r.1 s r.2)

variable {X P} {s : StateStore} {id : String}

/-- Only a transaction that selects an object plans to store it. -/
theorem selects_of_planned {tx : ElectrsTx} {blockHeight : Nat} {u : Update}
    {obj : SmartObjectRecord} (hu : plannedUpdate X P s tx blockHeight = some u)
    (hobj : u.object = some obj) : Selects X P s tx obj.objectId := by
  unfold plannedUpdate at hu
  unfold Selects
  generalize selectAction X P s tx = action at hu ⊢
  rcases action with e | _ | ⟨voutIdx, out, envelope⟩ | ⟨voutIdx, out, envelope, target⟩
  · cases hu
  · cases hu
  · dsimp only at hu ⊢
    cases hid : createdObjectId tx.txid with
    | error e =>
      rw [hid] at hu
      cases hu
    | ok objId =>
      rw [hid] at hu
      cases hu
      cases hobj
      rfl
  · cases hu
    unfold calledUpdate at hobj
    split at hobj
    · rename_i result hresult
      cases hobj
      exact ⟨rfl, result, hresult⟩
    · cases hobj

/-- **One step.**  A transaction leaves every object alone that it does not select. -/
theorem runTx_objects (blockHeight : Nat) (r : TxRun) (hspares : ¬ Selects X P s r.tx id) :
    (runTx X P blockHeight s r).objects[id]? = s.objects[id]? := by
  have hprogress := runTx_progress X P blockHeight s r
  generalize hu? : plannedUpdate X P s r.tx blockHeight = u? at hprogress
  cases hprogress with
  | nothing hcore => rw [hcore.objects]
  | undo hcore =>
    rw [hcore.objects]
    rfl
  | object hobj hcore =>
    rename_i u obj
    have hne : id ≠ obj.objectId := by
      rintro rfl
      exact hspares (selects_of_planned hu? hobj)
    rw [hcore.objects, putObject_objects, if_neg hne]
    rfl

theorem runTx_bridgeLocked {o : SmartObjectRecord} (hlocked : s.BridgeLocked id o)
    (blockHeight : Nat) (r : TxRun) (hspares : ¬ Selects X P s r.tx id) :
    (runTx X P blockHeight s r).BridgeLocked id o where
  stored := (runTx_objects blockHeight r hspares).trans hlocked.stored
  owner := hlocked.owner
  transfer := by
    have hrest := processTx_sameRest X P r.writes r.now r.tx blockHeight s
    show ∃ t : BridgeTransfer, (run _ s).1.bridgeTransfers[t.id]? = some t ∧ _
    rw [hrest.bridgeTransfers]
    exact hlocked.transfer

/-- **The bridge lock under block processing.**  In a run that spares a locked object the whole
record stays as it is, after every transaction. -/
theorem bridgeLock_kept {o : SmartObjectRecord} (hlocked : s.BridgeLocked id o)
    (runs : List (Nat × TxRun)) (hspares : Spares X P id runs s) (n : Nat) :
    (runTxs X P (runs.take n) s).BridgeLocked id o := by
  induction runs generalizing s n with
  | nil => simpa [runTxs] using hlocked
  | cons r rs ih =>
    cases n with
    | zero => exact hlocked
    | succ n => exact ih (runTx_bridgeLocked hlocked r.1 r.2 hspares.1) hspares.2 n

/-! ## 2. A locked object -/

def demoLockedObject : SmartObjectRecord :=
  { demoObject 1 with owner := lockPrefix ++ "02aa" }

def demoLock : BridgeTransfer where
  id := "JKC_BTC_" ++ demoObjectId ++ "_0"
  sourceChain := "JKC"
  sourceObjectId := demoObjectId
  destChain := "BTC"
  destOwner := "bob"
  amount := 1000
  status := .locked
  createdAt := 0
  completedAt := none

/-- The store after `lock_assets`. -/
def demoLockedStore : StateStore :=
  { putObject demoCrates demoLockedObject (empty demoCrates) with
    bridgeTransfers := (empty demoCrates).bridgeTransfers.insert demoLock.id demoLock }

theorem demoLockedStore_bridgeLocked :
    demoLockedStore.BridgeLocked demoObjectId demoLockedObject where
  stored := by
    show ((empty demoCrates).objects.insert demoObjectId demoLockedObject)[demoObjectId]? = _
    rw [Table.get_insert, if_pos rfl]
  owner := by decide
  transfer := by
    refine ⟨demoLock, ?_, rfl, rfl⟩
    show ((empty demoCrates).bridgeTransfers.insert demoLock.id demoLock)[demoLock.id]? = _
    rw [Table.get_insert, if_pos rfl]

/-- A transaction that creates another object. -/
def demoOtherRun : TxRun :=
  { writes := {}, now := 0, tx := { demoCreateTx with txid := demoCallTx.txid } }

private theorem demoOtherRun_spares (s : StateStore) :
    ¬ Selects demoCrates demoProcessor s demoOtherRun.tx demoObjectId := by
  intro h
  have hid : createdObjectId demoCallTx.txid = .ok demoObjectId := by
    set_option maxRecDepth 4000 in
    exact h
  have hother : createdObjectId demoCallTx.txid = .ok "obj_0000000200000000" := rfl
  rw [hother] at hid
  exact absurd (Except.ok.inj hid) (by decide)

theorem bridgeLock_kept_create :
    (runTxs demoCrates demoProcessor (List.take 1 [(2, demoOtherRun)])
      demoLockedStore).BridgeLocked demoObjectId demoLockedObject :=
  bridgeLock_kept demoLockedStore_bridgeLocked [(2, demoOtherRun)]
    ⟨demoOtherRun_spares _, trivial⟩ 1

def demoTransferRun : TxRun := { writes := {}, now := 0, tx := demoTransferTx }

/-- Spending the seal of a locked object in a transfer hands it to somebody else. -/
theorem transfer_breaks_bridgeLock :
    demoLockedStore.BridgeLocked demoObjectId demoLockedObject ∧
      ((runTxs demoCrates demoProcessor [(2, demoTransferRun)]
        demoLockedStore).objects[demoObjectId]?.map fun o ↦ (o.owner, o.satoshis)) =
          some ("mallory", 900) := by
  refine ⟨demoLockedStore_bridgeLocked, ?_⟩
  decide +kernel

end BlockProcessor

end UtxoVm
