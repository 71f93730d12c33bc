import UtxoVm.Storage.Db

/-!
# Sequential runs of the store operations

What each operation of the store does when nothing else runs: the rules by which the sequential
results about the processor, the rollback and the bridge are computed.
-/

namespace UtxoVm

open Prog

/-- The error of a write transaction that does not commit. -/
def storageError : Exit := .err .storage

theorem run_writeTxn {α : Type} (c : Bool) (txn : StateStore → Except Exit (StateStore × α))
    (s : StateStore) :
    run (writeTxn c txn) s =
      match txn s with
      | .ok (s', a) => if c then (s', .ok a) else (s, .error storageError)
      | .error e => (s, .error e) := by
  unfold writeTxn
  rw [run_act]
  cases txn s with
  | error e => rfl
  | ok r => cases c <;> rfl

@[simp] theorem run_commit (c : Bool) (write : StateStore → StateStore) (s : StateStore) :
    run (commit c write) s = if c then (write s, .ok ()) else (s, .error storageError) :=
  run_writeTxn c _ s

/-- A write transaction keeps what its write keeps. -/
theorem keeps_commit {γ : Type} {f : StateStore → γ} {c : Bool} {write : StateStore → StateStore}
    (h : ∀ s, f (write s) = f s) : Keeps f (commit c write) := by
  intro s
  cases c with
  | false => exact ⟨rfl, trivial⟩
  | true => exact ⟨h s, trivial⟩

namespace StateStore

/-- The store after a successful `save_object`. -/
def putObject (X : Crates) (obj : SmartObjectRecord) (s : StateStore) : StateStore :=
  { insertObject obj s with smt := smtInsert X s.smt obj }

def putUndo (undo : UndoLogRecord) (s : StateStore) : StateStore :=
  { s with undoLogs := s.undoLogs.insert undo.id undo }

def putTransition (trans : StateTransitionRecord) (s : StateStore) : StateStore :=
  { s with transitions := s.transitions.insert trans.txid trans }

def putWasm (codeHash : String) (wasmBytes : RustStd.Bytes) (s : StateStore) : StateStore :=
  { s with wasmBlobs := s.wasmBlobs.insert codeHash wasmBytes }

@[simp] theorem run_saveObject (X : Crates) (c : Bool) (obj : SmartObjectRecord) (s : StateStore) :
    run (saveObject X c obj) s =
      if c then (putObject X obj s, .ok ()) else (s, .error storageError) := by
  unfold saveObject
  rw [run_bind, run_commit]
  cases c <;> rfl

@[simp] theorem run_saveUndoLog (c : Bool) (undo : UndoLogRecord) (s : StateStore) :
    run (saveUndoLog c undo) s =
      if c then (putUndo undo s, .ok ()) else (s, .error storageError) :=
  run_commit c _ s

@[simp] theorem run_saveTransition (c : Bool) (trans : StateTransitionRecord) (s : StateStore) :
    run (saveTransition c trans) s =
      if c then (putTransition trans s, .ok ()) else (s, .error storageError) :=
  run_commit c _ s

/-- The object that a seal leads to, if it parses. -/
def lookupSeal (s : StateStore) (sealRef : String) : Except Exit (Option SmartObjectRecord) :=
  match s.seals[sealRef]? with
  | some id => parseObject s.objects[id]?
  | none => .ok none

@[simp] theorem run_getObject (objectId : String) (s : StateStore) :
    run (getObject objectId) s = (s, parseObject s.objects[objectId]?) := by
  unfold getObject
  simp

@[simp] theorem run_getObjectBySeal (sealRef : String) (s : StateStore) :
    run (getObjectBySeal sealRef) s = (s, lookupSeal s sealRef) := by
  unfold getObjectBySeal lookupSeal
  rw [run_bind, run_read, andThen_ok]
  cases s.seals[sealRef]? with
  | none => rfl
  | some id => exact run_getObject id s

@[simp] theorem run_getWasm (codeHash : String) (s : StateStore) :
    run (getWasm codeHash) s = (s, .ok s.wasmBlobs[codeHash]?) := rfl

/-- `save_wasm` under the blob's own hash. -/
theorem run_saveWasm_self (X : Crates) (c : Bool) (wasmBytes : RustStd.Bytes) (s : StateStore) :
    run (saveWasm X c (wasmHash X wasmBytes) wasmBytes) s =
      if c then (putWasm (wasmHash X wasmBytes) wasmBytes s, .ok ())
      else (s, .error storageError) := by
  unfold saveWasm
  rw [if_neg (by simp)]
  exact run_commit c _ s

/-! What the operations leave alone. -/

theorem keeps_saveObject {γ : Type} {f : StateStore → γ} {X : Crates} {c : Bool}
    {obj : SmartObjectRecord} (hinsert : ∀ s, f (insertObject obj s) = f s)
    (hsmt : ∀ s smt, f { s with smt } = f s) : Keeps f (saveObject X c obj) :=
  (keeps_commit hinsert).bind fun _ ↦ .modify fun s ↦ hsmt s _

theorem keeps_saveUndoLog {γ : Type} {f : StateStore → γ} {c : Bool} {undo : UndoLogRecord}
    (hput : ∀ s, f (putUndo undo s) = f s) : Keeps f (saveUndoLog c undo) :=
  keeps_commit hput

theorem keeps_saveTransition {γ : Type} {f : StateStore → γ} {c : Bool}
    {trans : StateTransitionRecord} (hput : ∀ s, f (putTransition trans s) = f s) :
    Keeps f (saveTransition c trans) :=
  keeps_commit hput

theorem keeps_saveWasm {γ : Type} {f : StateStore → γ} {X : Crates} {c : Bool} {codeHash : String}
    {wasmBytes : RustStd.Bytes} (hput : ∀ s, f (putWasm codeHash wasmBytes s) = f s) :
    Keeps f (saveWasm X c codeHash wasmBytes) := by
  unfold saveWasm
  split
  · trivial
  · exact keeps_commit hput

theorem keeps_getObject {γ : Type} {f : StateStore → γ} (objectId : String) :
    Keeps f (getObject objectId) :=
  (Keeps.read _).bind fun _ ↦ .ofExcept _

theorem keeps_getObjectBySeal {γ : Type} {f : StateStore → γ} (sealRef : String) :
    Keeps f (getObjectBySeal sealRef) := by
  refine (Keeps.read _).bind fun id ↦ ?_
  cases id with
  | none => exact .pure _
  | some objId => exact keeps_getObject objId

theorem run_rollbackToBlock (X : Crates) (c : Bool) (chain : String) (targetHeight : Nat)
    (s : StateStore) :
    run (rollbackToBlock X c chain targetHeight) s =
      match undoLogsAbove s chain targetHeight with
      | .error e => (s, .error e)
      | .ok logs =>
          if c then
            let s' := undoAll chain targetHeight logs s
            match allObjects s' with
            | .error e => (s', .error e)
            | .ok objs => ({ s' with smt := smtOf X objs }, .ok logs.length)
          else (s, .error storageError) := by
  unfold rollbackToBlock
  rw [run_bind, run_writeTxn]
  cases undoLogsAbove s chain targetHeight with
  | error e => rfl
  | ok logs =>
    cases c with
    | false => rfl
    | true =>
      show run (getAllObjects >>= _) (undoAll chain targetHeight logs s) = _
      unfold getAllObjects
      rw [run_bind, run_bind, run_read, andThen_ok, run_ofExcept]
      dsimp only
      cases allObjects (undoAll chain targetHeight logs s) with
      | error e => rfl
      | ok objs => rfl

end StateStore

end UtxoVm
