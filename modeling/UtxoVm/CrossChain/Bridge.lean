import UtxoVm.CrossChain.Transfer
import UtxoVm.CrossChain.Verifier

/-!
# The bridge (`cross_chain/bridge.rs`)

The operations of the bridge manager, as programs over the store and the two in-memory caches.
Each access to a cache and each write transaction is one atomic action.  A call carries what it
reads from its surroundings: the clock, which of its write transactions commit, and the validator
set that its proof is checked against.  Events are never read by an operation and are left out; the
lock that `mint_from_proof` takes for its transfer belongs to the interleaving of calls.
-/

namespace UtxoVm

open RustStd StateStore

structure BridgeManager where
  store : StateStore
  transfers : Table String BridgeTransfer
  mintedObjects : Table String String

/-- Code of the bridge. -/
abbrev BridgeProg := Prog BridgeManager Exit

/-- The text of a status under `{:?}`. -/
def BridgeStatus.debug : BridgeStatus → String
  | .pending => "Pending"
  | .verified => "Verified"
  | .locked => "Locked"
  | .minted => "Minted"
  | .completed => "Completed"
  | .failed => "Failed"

/-- A transfer in this status has been minted. -/
def BridgeStatus.isFinal (status : BridgeStatus) : Bool := status == .completed || status == .minted

structure LockCall where
  sourceChain : String
  objectId : String
  destChain : String
  destOwner : String
  callerPubkey : String
  signatureHex : String
  /-- The clock when the transfer id is formatted, and when the record is filled. -/
  idTime : Int
  createdAt : Int
  objectCommits : Bool := true
  transferCommits : Bool := true

structure MintCall where
  transferId : String
  proof : CrossChainProof
  consensus : ConsensusManager
  /-- The clock when the id of the new object is formatted, and at the end. -/
  mintTime : Int
  completedAt : Int
  guardCommits : Bool := true
  /-- The commits of the status `Failed` and of the unlocked object. -/
  failedCommits : Bool := true
  unlockCommits : Bool := true
  /-- The commits of the status `Verified`, of the new object and of the status `Minted`. -/
  verifiedCommits : Bool := true
  objectCommits : Bool := true
  mintedCommits : Bool := true

structure CancelCall where
  transferId : String
  caller : String
  signatureHex : String
  now : Int
  unlockCommits : Bool := true
  failedCommits : Bool := true

namespace BridgeManager

variable (X : Crates)

/-- `BridgeManager::new`: the caches are filled from the store. -/
def new (store : StateStore) : BridgeManager where
  store
  transfers := (store.bridgeTransfers.toList.map (·.2)).foldl (fun m t ↦ m.insert t.id t) ∅
  mintedObjects := store.mintedProofs

/-! ## 1. Building blocks -/

/-- An operation of the store. -/
def onStore {α : Type} (p : StoreProg α) : BridgeProg α :=
  p.zoom (·.store) fun s b ↦ { b with store := s }

/-- `.context(text)`. -/
def withContext {α : Type} (text : String) (p : BridgeProg α) : BridgeProg α := do
  match ← p.attempt with
  | .ok a => pure a
  | .error (.err _) => .fail (.err (.context text))
  | .error .panic => .fail .panic

/-- `anyhow!(text)`. -/
def bail {α : Type} (text : String) : BridgeProg α := .fail (.err (.message text))

/-- `update_transfer`: the cache first, then the store. -/
def updateTransfer (commits : Bool) (transfer : BridgeTransfer) : BridgeProg Unit := do
  .modify fun b ↦ { b with transfers := b.transfers.insert transfer.id transfer }
  onStore (saveBridgeTransfer commits transfer)

/-- The errors of a signature check, in the order of its steps. -/
structure SignatureErrors where
  pubkeyHex : Error
  pubkey : Error
  signatureHex : Error
  signature : Error
  verification : Error

/-- The ECDSA check of a caller: hex and key, hex and signature, then the digest of `message`. -/
def checkSignature (errors : SignatureErrors) (pubkeyHex signatureHex : String) (message : Bytes) :
    Except Exit Unit := do
  let some pubkey := hexDecode pubkeyHex | .error (.err errors.pubkeyHex)
  if !X.publicKeyFromSlice pubkey then .error (.err errors.pubkey)
  let some sig := hexDecode signatureHex | .error (.err errors.signatureHex)
  if !X.signatureFromCompact sig then .error (.err errors.signature)
  if !X.verifyEcdsa (X.sha256 message) sig pubkey then .error (.err errors.verification)

/-! ## 2. `lock_assets` -/

/-- `lock:<source>:<object>:<dest>:<owner>`. -/
def lockMessage (c : LockCall) : String :=
  "lock:" ++ c.sourceChain ++ ":" ++ c.objectId ++ ":" ++ c.destChain ++ ":" ++ c.destOwner

def lockErrors : SignatureErrors where
  pubkeyHex := .context "Invalid hex in caller_pubkey: "
  pubkey := .context "Invalid secp256k1 pubkey: "
  signatureHex := .context "Invalid hex in signature: "
  signature := .context "Invalid secp256k1 signature: "
  verification := .context "Signature verification failed: "

/-- The checks of `lock_assets` on the object that was read. -/
def checkLock (c : LockCall) (obj : SmartObjectRecord) : Except Exit Unit :=
  match stripPrefix obj.owner lockPrefix with
  | some lockedOwner => .error (.err (.message ("Object " ++ c.objectId ++
      " is already locked for bridge transfer (locked_by: " ++ lockedOwner ++
      "). Cannot re-lock.")))
  | none =>
      if c.callerPubkey ≠ obj.owner then
        .error (.err (.message ("Caller pubkey '" ++ c.callerPubkey ++
          "' does not match object owner '" ++ obj.owner ++ "'. Only the owner can lock.")))
      else checkSignature X lockErrors c.callerPubkey c.signatureHex (asBytes (lockMessage c))

def lockTransferId (c : LockCall) : String :=
  c.sourceChain ++ "_" ++ c.destChain ++ "_" ++ c.objectId ++ "_" ++ toString c.idTime

def lockTransfer (c : LockCall) (obj : SmartObjectRecord) : BridgeTransfer where
  id := lockTransferId c
  sourceChain := c.sourceChain
  sourceObjectId := c.objectId
  destChain := c.destChain
  destOwner := c.destOwner
  amount := obj.satoshis
  status := .locked
  createdAt := c.createdAt
  completedAt := none

def lockObject (obj : SmartObjectRecord) : SmartObjectRecord :=
  { obj with owner := lockPrefix ++ obj.owner }

def lockAssets (c : LockCall) : BridgeProg BridgeTransfer := do
  match ← withContext "Object not found" (onStore (getObject c.objectId)) with
  | none => bail ("Object not found: " ++ c.objectId)
  | some obj => do
      .ofExcept (checkLock X c obj)
      let transfer := lockTransfer c obj
      onStore (saveObject X c.objectCommits (lockObject obj))
      onStore (saveBridgeTransfer c.transferCommits transfer)
      .modify fun b ↦ { b with transfers := b.transfers.insert transfer.id transfer }
      pure transfer

/-! ## 3. Unlocking -/

/-- `unlock_object`: an object without the prefix is left as it is. -/
def unlockObject (commits : Bool) (transfer : BridgeTransfer) : BridgeProg Unit := do
  match ← withContext "Failed to load source object for unlock"
      (onStore (getObject transfer.sourceObjectId)) with
  | none => bail ("Source object " ++ transfer.sourceObjectId ++ " not found during unlock")
  | some obj =>
      match stripPrefix obj.owner lockPrefix with
      | some originalOwner => onStore (saveObject X commits { obj with owner := originalOwner })
      | none => pure ()

/-! ## 4. `mint_from_proof` -/

def remintError (transferId : String) (status : BridgeStatus) : String :=
  "Transfer '" ++ transferId ++ "' is already in status " ++ status.debug ++ ". Cannot re-mint."

def replayError (objectId existing transferId : String) : String :=
  "Replay rejected: source object '" ++ objectId ++ "' was already minted via transfer '" ++
    existing ++ "'. Cannot mint again in transfer '" ++ transferId ++ "'."

/-- The replay guard: the first action writes the entry if the object has none. -/
def replayGuard (c : MintCall) : BridgeProg Unit := do
  let newlyInserted ← withContext "Failed to check minted proofs store"
    (onStore (checkAndInsertMintedProof c.guardCommits c.proof.objectId c.transferId))
  if newlyInserted then pure ()
  else do
    match ← onStore (getMintedProof c.proof.objectId) with
    | none => pure ()
    | some existing =>
        if existing ≠ c.transferId then
          bail (replayError c.proof.objectId existing c.transferId)
        else do
          match ← Prog.read fun b ↦ b.transfers[c.transferId]? with
          | some t => if t.status.isFinal then bail (remintError c.transferId t.status) else pure ()
          | none => pure ()

def mintedObjectId (transferId : String) (now : Int) : String :=
  "bridge_" ++ transferId ++ "_" ++ toString now

def mintedObject (c : MintCall) (transfer : BridgeTransfer) : SmartObjectRecord where
  objectId := mintedObjectId c.transferId c.mintTime
  codeHash := ((c.proof.objectData.get? "code_hash").bind Json.asStr?).getD "bridge_native"
  sealRef := "bridge_" ++ c.transferId ++ ":0"
  satoshis := transfer.amount
  owner := transfer.destOwner
  stateData := c.proof.objectData
  createdAtBlock := 0
  updatedAtBlock := 0

/-- The text of an error under `{:?}`; the texts of the verifier need no escapes. -/
def debugOption : Option String → String
  | some text => "Some(\"" ++ text ++ "\")"
  | none => "None"

/-- A proof that does not verify fails the transfer and unlocks its object; an error of the unlock
is only logged. -/
def rejectProof (c : MintCall) (transfer : BridgeTransfer) (error : Option String) :
    BridgeProg BridgeTransfer := do
  let transfer := { transfer with status := .failed }
  updateTransfer c.failedCommits transfer
  let _ ← (unlockObject X c.unlockCommits transfer).attempt
  bail ("Proof verification failed: " ++ debugOption error)

/-- The proof has to be about the object and the chain of the transfer. -/
def checkBinding (c : MintCall) (transfer : BridgeTransfer) : Except Exit Unit :=
  if c.proof.objectId ≠ transfer.sourceObjectId then
    .error (.err (.message ("Proof object_id '" ++ c.proof.objectId ++
      "' does not match transfer source_object_id '" ++ transfer.sourceObjectId ++
      "'. Cannot mint a transfer with a proof for a different object.")))
  else if c.proof.sourceChain ≠ transfer.sourceChain then
    .error (.err (.message ("Proof source_chain '" ++ c.proof.sourceChain ++
      "' does not match transfer source_chain '" ++ transfer.sourceChain ++ "'.")))
  else .ok ()

/-- The writes of a mint whose proof is accepted. -/
def completeMint (c : MintCall) (transfer : BridgeTransfer) : BridgeProg BridgeTransfer := do
  let transfer := { transfer with status := .verified }
  updateTransfer c.verifiedCommits transfer
  onStore (saveObject X c.objectCommits (mintedObject c transfer))
  let transfer := { transfer with status := .minted, completedAt := some c.completedAt }
  updateTransfer c.mintedCommits transfer
  pure transfer

/-- What follows the replay guard and its cache. -/
def mintTransfer (c : MintCall) : BridgeProg BridgeTransfer := do
  match ← Prog.read fun b ↦ b.transfers[c.transferId]? with
  | none => bail ("Transfer not found: " ++ c.transferId)
  | some transfer =>
      if transfer.status.isFinal then bail (remintError c.transferId transfer.status)
      else do
        let verification := CrossChainVerifier.verifyProof X c.consensus c.proof
        if !verification.valid then rejectProof X c transfer verification.error
        else do
          .ofExcept (checkBinding c transfer)
          completeMint X c transfer

def mintFromProof (c : MintCall) : BridgeProg BridgeTransfer := do
  replayGuard c
  .modify fun b ↦ { b with mintedObjects := b.mintedObjects.insert c.proof.objectId c.transferId }
  mintTransfer X c

/-! ## 5. `cancel_transfer` -/

def reclaimTimeoutSecs : Int := 3600

def cancelErrors : SignatureErrors where
  pubkeyHex := .context "Invalid owner pubkey hex: "
  pubkey := .context "Invalid public key: "
  signatureHex := .context "Invalid signature hex: "
  signature := .context "Invalid signature format: "
  verification := .message "ECDSA signature verification failed for cancel_transfer"

/-- The checks of `cancel_transfer` on the status and the age of the transfer. -/
def checkCancel (c : CancelCall) (transfer : BridgeTransfer) : Except Exit Unit :=
  if transfer.status ≠ .pending ∧ transfer.status ≠ .locked then
    .error (.err (.message ("Transfer '" ++ c.transferId ++ "' is in status " ++
      transfer.status.debug ++ " — only Pending or Locked transfers can be cancelled.")))
  else if c.now - transfer.createdAt < reclaimTimeoutSecs then
    .error (.err (.message ("Reclaim timeout not reached: " ++
      toString (c.now - transfer.createdAt) ++ "s elapsed, " ++ toString reclaimTimeoutSecs ++
      "s required. Try again later.")))
  else .ok ()

/-- The caller must be the owner without the lock prefix, and sign `cancel:<transfer>`. -/
def checkOwner (c : CancelCall) (obj : SmartObjectRecord) : Except Exit Unit :=
  let originalOwner := (stripPrefix obj.owner lockPrefix).getD obj.owner
  if c.caller ≠ originalOwner then
    .error (.err (.message ("Caller '" ++ c.caller ++ "' is not the original owner '" ++
      originalOwner ++ "' of the locked object.")))
  else checkSignature X cancelErrors originalOwner c.signatureHex
    (asBytes "cancel:" ++ asBytes c.transferId)

def cancelTransfer (c : CancelCall) : BridgeProg BridgeTransfer := do
  match ← Prog.read fun b ↦ b.transfers[c.transferId]? with
  | none => bail ("Transfer not found: " ++ c.transferId)
  | some transfer => do
      .ofExcept (checkCancel c transfer)
      match ← onStore (getObject transfer.sourceObjectId) with
      | none => bail "Source object not found"
      | some sourceObj => do
          .ofExcept (checkOwner X c sourceObj)
          unlockObject X c.unlockCommits transfer
          let transfer := { transfer with status := .failed, completedAt := some c.now }
          updateTransfer c.failedCommits transfer
          pure transfer

end BridgeManager

end UtxoVm
