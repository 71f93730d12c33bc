import UtxoVm.Reasoning.Prog
import UtxoVm.CrossChain.Transfer
import UtxoVm.Storage.Smt

/-!
# The state store (`storage/db.rs`)

The redb tables and the in-memory tree.  A table is an ordered map; its values are the records that
the JSON text denotes, so reading fails on a record whose text is nested too deep (`readable`).
Every write transaction and every access to the tree is one atomic action; a write is told whether
its transaction commits.
-/

namespace UtxoVm

open RustStd

/-- An `anyhow::Error`: raised by the repository, with its text; by another crate, with the text
that the repository puts before or around it; or by redb or serde_json. -/
inductive Error where
  | message (text : String)
  | context (text : String)
  | storage
  deriving DecidableEq, Repr

/-- How a function call ends other than with a value. -/
inductive Exit where
  | err (e : Error)
  | panic
  deriving DecidableEq, Repr

abbrev Table (κ ν : Type) [Ord κ] := Std.ExtTreeMap κ ν compare

structure StateStore where
  objects : Table String SmartObjectRecord
  seals : Table String String
  transitions : Table String StateTransitionRecord
  blocks : Table String BlockRecord
  chainMeta : Table String Nat
  undoLogs : Table Nat UndoLogRecord
  bridgeTransfers : Table String BridgeTransfer
  mintedProofs : Table String String
  wasmBlobs : Table String Bytes
  smt : SparseMerkleTree

/-- Code that runs on the store. -/
abbrev StoreProg := Prog StateStore Exit

/-- The key of the blocks table. -/
def blockKey (chain : String) (height : Nat) : String := chain ++ ":" ++ padded20 height

/-- One write transaction: an error inside it, or a failing commit, leaves the tables unchanged. -/
def writeTxn {α : Type} (commits : Bool) (txn : StateStore → Except Exit (StateStore × α)) :
    StoreProg α :=
  .act
    (fun s ↦
      match txn s with
      | .ok (s', _) => if commits then s' else s
      | .error _ => s)
    fun s ↦
      match txn s with
      | .ok (_, a) => if commits then .done a else .fail (.err .storage)
      | .error e => .fail e

/-- A write transaction without reads that could fail. -/
def commit (commits : Bool) (write : StateStore → StateStore) : StoreProg Unit :=
  writeTxn commits fun s ↦ .ok (write s, ())

namespace StateStore

variable (X : Crates)

def hashKey (key : String) : Hash := X.sha256 (asBytes key)

def hashObject (obj : SmartObjectRecord) : Hash :=
  X.sha256 (asBytes obj.objectId ++ asBytes obj.codeHash ++ asBytes obj.sealRef ++
    beBytes 8 obj.satoshis ++ asBytes obj.owner ++ X.jsonToVec obj.stateData)

/-- The tree with one object entered. -/
def smtInsert (smt : SparseMerkleTree) (obj : SmartObjectRecord) : SparseMerkleTree :=
  smt.update (smtHashes X) (hashKey X obj.objectId) (hashObject X obj)

/-- The tree over a list of objects, built from the empty one. -/
def smtOf (objs : List SmartObjectRecord) : SparseMerkleTree :=
  objs.foldl (smtInsert X) (SparseMerkleTree.new (smtHashes X))

/-- An empty database. -/
def empty : StateStore where
  objects := ∅
  seals := ∅
  transitions := ∅
  blocks := ∅
  chainMeta := ∅
  undoLogs := ∅
  bridgeTransfers := ∅
  mintedProofs := ∅
  wasmBlobs := ∅
  smt := SparseMerkleTree.new (smtHashes X)

/-- `StateStore::open` on the tables of `s`: the tree is rebuilt from the readable objects. -/
def «open» (s : StateStore) : StateStore :=
  { s with smt := smtOf X ((s.objects.toList.map (·.2)).filter (·.readable)) }

/-! ## 1. Objects -/

/-- The write transaction of `save_object`. -/
def insertObject (obj : SmartObjectRecord) (s : StateStore) : StateStore :=
  let seals :=
    match s.objects[obj.objectId]? with
    | some prevObj =>
        if prevObj.readable ∧ prevObj.sealRef ≠ obj.sealRef then s.seals.erase prevObj.sealRef
        else s.seals
    | none => s.seals
  { s with
    objects := s.objects.insert obj.objectId obj
    seals := seals.insert obj.sealRef obj.objectId }

def saveObject (commits : Bool) (obj : SmartObjectRecord) : StoreProg Unit := do
  commit commits (insertObject obj)
  .modify fun s ↦ { s with smt := smtInsert X s.smt obj }

/-- Parse a stored object. -/
def parseObject : Option SmartObjectRecord → Except Exit (Option SmartObjectRecord)
  | some obj => if obj.readable then .ok (some obj) else .error (.err .storage)
  | none => .ok none

def getObject (objectId : String) : StoreProg (Option SmartObjectRecord) := do
  let val ← .read (·.objects[objectId]?)
  .ofExcept (parseObject val)

def getObjectBySeal (sealRef : String) : StoreProg (Option SmartObjectRecord) := do
  let id ← .read (·.seals[sealRef]?)
  match id with
  | some objId => getObject objId
  | none => .done none

/-- The objects in key order; one that does not parse fails the whole call. -/
def allObjects (s : StateStore) : Except Exit (List SmartObjectRecord) :=
  let objs := s.objects.toList.map (·.2)
  if objs.all (·.readable) then .ok objs else .error (.err .storage)

def getAllObjects : StoreProg (List SmartObjectRecord) := do
  let objs ← .read allObjects
  .ofExcept objs

/-- `current_state_root`: the root as hex text; reading it refreshes the cache of the tree. -/
def currentStateRoot : StoreProg String :=
  .act (fun s ↦ { s with smt := s.smt.root.1 }) fun s ↦ .done (hexEncode s.smt.root.2.toList)

def getStateProof (s : StateStore) (objectId : String) : Option SmtInclusionProof :=
  s.smt.getProof (smtHashes X) (hashKey X objectId)

/-! ## 2. Transitions, blocks, the sync cursor and WASM blobs -/

def saveTransition (commits : Bool) (trans : StateTransitionRecord) : StoreProg Unit :=
  commit commits fun s ↦ { s with transitions := s.transitions.insert trans.txid trans }

/-- The transitions of an object: the table is read in key order, and the list sorted by height,
stably; a record that does not parse fails the whole call. -/
def transitionsOf (s : StateStore) (objectId : String) :
    Except Exit (List StateTransitionRecord) :=
  let all := s.transitions.toList.map (·.2)
  if all.all (·.readable) then
    .ok ((all.filter (·.objectId == objectId)).mergeSort fun a b ↦ a.blockHeight ≤ b.blockHeight)
  else .error (.err .storage)

def getTransitionsForObject (objectId : String) : StoreProg (List StateTransitionRecord) := do
  let list ← .read (transitionsOf · objectId)
  .ofExcept list

def saveBlock (commits : Bool) (block : BlockRecord) : StoreProg Unit :=
  commit commits fun s ↦
    { s with blocks := s.blocks.insert (blockKey block.chain block.blockHeight) block }

def getBlock (chain : String) (height : Nat) : StoreProg (Option BlockRecord) :=
  .read (·.blocks[blockKey chain height]?)

def lastBlockKey (chain : String) : String := chain ++ "_last_block"

def getLastSyncBlock (chain : String) : StoreProg Nat :=
  .read (·.chainMeta[lastBlockKey chain]?.getD 0)

def setLastSyncBlock (commits : Bool) (chain : String) (height : Nat) : StoreProg Unit :=
  commit commits fun s ↦ { s with chainMeta := s.chainMeta.insert (lastBlockKey chain) height }

def saveUndoLog (commits : Bool) (undo : UndoLogRecord) : StoreProg Unit :=
  commit commits fun s ↦ { s with undoLogs := s.undoLogs.insert undo.id undo }

/-- `hex::encode(Sha256::digest(wasm_bytes))`. -/
def wasmHash (wasmBytes : Bytes) : String := hexEncode (X.sha256 wasmBytes).toList

def saveWasm (commits : Bool) (codeHash : String) (wasmBytes : Bytes) : StoreProg Unit :=
  if wasmHash X wasmBytes ≠ codeHash then
    .fail (.err (.message ("wasm hash mismatch: claimed=" ++ codeHash ++ " but sha256(wasm)=" ++
      wasmHash X wasmBytes)))
  else commit commits fun s ↦ { s with wasmBlobs := s.wasmBlobs.insert codeHash wasmBytes }

def getWasm (codeHash : String) : StoreProg (Option Bytes) := .read (·.wasmBlobs[codeHash]?)

/-! ## 3. Rollback -/

/-- The undo records that a rollback replays, in replay order: the table is read in key order and
the records of the chain above the target are sorted by descending height, stably. -/
def undoLogsAbove (s : StateStore) (chain : String) (targetHeight : Nat) :
    Except Exit (List (Nat × UndoLogRecord)) :=
  let all := s.undoLogs.toList
  if all.all (·.2.readable) then
    .ok ((all.filter fun e ↦ e.2.chain = chain ∧ targetHeight < e.2.blockHeight).mergeSort
      fun a b ↦ b.2.blockHeight ≤ a.2.blockHeight)
  else .error (.err .storage)

/-- Remove the seal of the stored object, if that parses. -/
def dropSeal (objectId : String) (s : StateStore) : StateStore :=
  match s.objects[objectId]? with
  | some existing =>
      if existing.readable then { s with seals := s.seals.erase existing.sealRef } else s
  | none => s

/-- An `Option<Value>` as it is read back from JSON text, where `null` stands for `None`. -/
def readOptional : Option Json → Option Json
  | some .null => none
  | value => value

/-- The object that an UPDATE record holds; `None` when a field is missing. -/
def prevObject (targetHeight : Nat) (log : UndoLogRecord) : Option SmartObjectRecord := do
  let codeHash ← log.prevCodeHash
  let sealRef ← log.prevSeal
  let satoshis ← log.prevSatoshis
  let owner ← log.prevOwner
  let stateData ← readOptional log.prevStateData
  pure
    { objectId := log.objectId, codeHash, sealRef, satoshis, owner, stateData
      createdAtBlock := log.prevCreatedAtBlock.getD 0
      updatedAtBlock := log.prevUpdatedAtBlock.getD targetHeight }

/-- Replay one undo record. -/
def undoOne (targetHeight : Nat) (s : StateStore) (log : UndoLogRecord) : StateStore :=
  if log.action = "CREATE" then
    let s := dropSeal log.objectId s
    { s with objects := s.objects.erase log.objectId }
  else if log.action = "UPDATE" then
    let s := dropSeal log.objectId s
    match prevObject targetHeight log with
    | some prevObj =>
        { s with
          objects := s.objects.insert log.objectId prevObj
          seals := s.seals.insert prevObj.sealRef log.objectId }
    | none => s
  else s

/-- The write transaction of `rollback_to_block`, given the records to replay. -/
def undoAll (chain : String) (targetHeight : Nat) (logs : List (Nat × UndoLogRecord))
    (s : StateStore) : StateStore :=
  let s := (logs.map (·.2)).foldl (undoOne targetHeight) s
  { s with
    undoLogs := (logs.map (·.1)).foldl (fun table id ↦ table.erase id) s.undoLogs
    blocks := s.blocks.filter fun key block ↦
      !(startsWith key (chain ++ ":") && decide (targetHeight < block.blockHeight))
    transitions := s.transitions.filter fun _ trans ↦
      !(trans.readable && decide (targetHeight < trans.blockHeight))
    chainMeta := s.chainMeta.insert (lastBlockKey chain) targetHeight }

def rollbackToBlock (commits : Bool) (chain : String) (targetHeight : Nat) : StoreProg Nat := do
  let rolledBack ← writeTxn commits fun s ↦ do
    let logs ← undoLogsAbove s chain targetHeight
    pure (undoAll chain targetHeight logs s, logs.length)
  -- the transaction is committed: an object that does not parse now fails the call
  let allObjs ← getAllObjects
  .modify fun s ↦ { s with smt := smtOf X allObjs }
  pure rolledBack

/-! ## 4. Bridge tables -/

def saveBridgeTransfer (commits : Bool) (transfer : BridgeTransfer) : StoreProg Unit :=
  commit commits fun s ↦ { s with bridgeTransfers := s.bridgeTransfers.insert transfer.id transfer }

def getBridgeTransfer (transferId : String) : StoreProg (Option BridgeTransfer) :=
  .read (·.bridgeTransfers[transferId]?)

/-- `Ok(true)` if the entry is new, `Ok(false)` if the object already has one. -/
def checkAndInsertMintedProof (commits : Bool) (objectId transferId : String) : StoreProg Bool :=
  .act
    (fun s ↦
      if s.mintedProofs.contains objectId then s
      else if commits then { s with mintedProofs := s.mintedProofs.insert objectId transferId }
      else s)
    fun s ↦
      if s.mintedProofs.contains objectId then .done false
      else if commits then .done true
      else .fail (.err .storage)

def getMintedProof (objectId : String) : StoreProg (Option String) :=
  .read (·.mintedProofs[objectId]?)

end StateStore

end UtxoVm
