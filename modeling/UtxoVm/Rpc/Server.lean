import UtxoVm.CrossChain.Relay
import UtxoVm.CrossChain.Bridge
import UtxoVm.Consensus.Quorum
import UtxoVm.Rpc.RateLimit

/-!
# The RPC server (`rpc/server.rs`)

The handlers of the router, as programs over what they share: the store, the consensus manager, the
caches of the bridge, the relay, the rate limiter and the P2P service.  A request carries what its
handler gets from outside: whether the database can be read, what the P2P service answers, the
clock.  Bodies are typed; the constant members of their JSON are left out.
-/

namespace UtxoVm

open RustStd StateStore

namespace Rpc

def maxWasmSize : Nat := 1024 * 1024

def maxBroadcastSize : Nat := 1024 * 1024

/-! ## 1. What the handlers share -/

/-- The commands that reach the P2P service through the handlers. -/
inductive P2pCommand where
  | broadcastMempool (data : Bytes)
  | putContract (codeHash : String) (wasmBytes : Bytes)
  | getContract (codeHash : String)
  | getPeers

/-- The configuration in `AppState`. -/
structure Config where
  chain : String
  electrsUrl : String
  localPeerId : String
  bridgeApiKey : Option String
  trustedProxyIps : List String

/-- The mutable part of `AppState`; `transfers` and `mintedObjects` are the caches of the bridge
manager, `relays` the records of the relay, and `sent` what the P2P service was told. -/
structure AppState where
  store : StateStore
  consensus : ConsensusManager
  transfers : Table String BridgeTransfer
  mintedObjects : Table String String
  relays : Table String RelayRecord
  limiter : RateLimiter
  sent : List P2pCommand

inductive StatusCode where
  | badRequest
  | unauthorized
  | forbidden
  | notFound
  | conflict
  | tooManyRequests
  | internalServerError
  deriving DecidableEq, Repr

/-- How a handler ends without a body. -/
inductive RpcExit where
  | refused (status : StatusCode) (text : String)
  | panic
  deriving DecidableEq, Repr

abbrev RpcProg := Prog AppState RpcExit

/-- `e.to_string()`, up to the text of other crates. -/
def errorText : Error → String
  | .message text => text
  | .context text => text
  | .storage => ""

/-- `.map_err(|e| (status, e.to_string()))`. -/
def mapErr {α : Type} (status : Error → StatusCode) (p : Prog AppState Exit α) : RpcProg α := do
  match ← p.attempt with
  | .ok a => pure a
  | .error (.err e) => .fail (.refused (status e) (errorText e))
  | .error .panic => .fail .panic

def refuse {α : Type} (status : StatusCode) (text : String) : RpcProg α := .fail (.refused status text)

def internal : Error → StatusCode := fun _ ↦ .internalServerError

def onStore {α : Type} (p : StoreProg α) : Prog AppState Exit α :=
  p.zoom (·.store) fun store a ↦ { a with store }

/-- The bridge manager over the shared store. -/
def AppState.bridge (a : AppState) : BridgeManager :=
  { store := a.store, transfers := a.transfers, mintedObjects := a.mintedObjects }

def AppState.setBridge (b : BridgeManager) (a : AppState) : AppState :=
  { a with store := b.store, transfers := b.transfers, mintedObjects := b.mintedObjects }

def onBridge {α : Type} (p : BridgeProg α) : Prog AppState Exit α :=
  p.zoom AppState.bridge AppState.setBridge

/-- An access to the database, if that can be read. -/
def accessed {α : Type} (reads : Bool) (p : StoreProg α) : Prog AppState Exit α :=
  if reads then onStore p else .fail (.err .storage)

/-- `.unwrap_or(default)`. -/
def unwrapOr {α : Type} (default : α) (p : Prog AppState Exit α) : RpcProg α := do
  match ← p.attempt with
  | .ok a => pure a
  | .error (.err _) => pure default
  | .error .panic => .fail .panic

/-! ## 2. Checks -/

/-- The header `authorization`, where it is readable as text. -/
structure Headers where
  authorization : Option String

variable (X : Crates)

def verifyBridgeAuth (headers : Headers) (expectedKey : Option String) :
    Except RpcExit Unit :=
  match expectedKey with
  | none => .error (.refused .forbidden
      "Bridge write endpoints are disabled (no API key configured)")
  | some expected =>
      match headers.authorization with
      | none => .error (.refused .unauthorized "Missing Authorization header")
      | some authHeader =>
          match stripPrefix authHeader "Bearer " with
          | none => .error (.refused .unauthorized "Authorization header must use Bearer scheme")
          | some token =>
              -- the digests are compared, not the keys
              if X.sha256 (asBytes token) ≠ X.sha256 (asBytes expected) then
                .error (.refused .forbidden "Invalid API key")
              else .ok ()

/-- `char::is_ascii_hexdigit` is what `hexVal` accepts. -/
def validateHex (s name : String) : Except RpcExit Unit :=
  if s.isEmpty then .error (.refused .badRequest (name ++ " cannot be empty"))
  else if s.toList.all fun c ↦ (hexVal c).isSome then .ok ()
  else .error (.refused .badRequest (name ++ " must be valid hex"))

def validateId (id : String) : Except RpcExit Unit :=
  if id.isEmpty || 128 < (asBytes id).length then
    .error (.refused .badRequest "Invalid object ID")
  else .ok ()

/-! ## 3. Paging -/

/-- `s.parse::<usize>()`. -/
def parseUsize (s : String) : Option Nat :=
  let value :=
    match s.toList with
    | [] => none
    | ['+'] => none
    | '+' :: ds => decDigits ds 0
    | ds => decDigits ds 0
  value.filter (· < 2 ^ 64)

/-- The members `page` and `limit` of the query string. -/
structure PageParams where
  page : Option String
  limit : Option String

structure Page (α : Type) where
  total : Nat
  page : Nat
  limit : Nat
  items : List α

/-- `page * limit` is a product of machine words. -/
def pageStart (page limit : Nat) : Nat := page * limit % 2 ^ 64

def paginate {α : Type} (params : PageParams) (all : List α) : Page α :=
  let page := (params.page.bind parseUsize).getD 0
  let limit := min ((params.limit.bind parseUsize).getD 100) 1000
  let total := all.length
  let start := pageStart page limit
  { total, page, limit
    items := if start < total then (all.drop start).take limit else [] }

/-! ## 4. Requests and bodies -/

/-- What a handler gets from outside. -/
structure Env where
  reads : Bool := true
  /-- The second access of `get_object`. -/
  readsSeal : Bool := true
  /-- The command channel of the P2P service is open. -/
  channel : Bool := true
  peers : List String := []
  /-- The service has stored the contract; otherwise the text of its error. -/
  put : Except String Unit := .ok ()
  dht : Option Bytes := none
  now : Int := 0
  relayedAt : Int := 0

/-- The routes, with what axum extracts for them. -/
inductive Request where
  | chainInfo
  | object (id : String)
  | objectProof (id : String)
  | objectHistory (id : String) (params : PageParams)
  | objects (params : PageParams)
  | stateRoot
  | stateRootAt (height : Nat)
  | broadcast (payloadHex : String)
  | peers
  | putContract (headers : Headers) (codeHash wasmHex : String)
  | getContract (codeHash : String)
  | slashingProofs
  | lock (headers : Headers) (call : LockCall)
  | mint (headers : Headers) (call : MintCall)
  | cancel (headers : Headers) (call : CancelCall)
  | transfer (id : String)
  | transfers
  | createRelay (sourceChain : String) (blockHeight : Nat) (destChain : String)
  | verifyRelay (id : String)
  | latestRelay (chain : String)
  | health
  | metrics

inductive Body where
  | chainInfo (chain electrs : String) (blockHeight : Nat) (stateRoot peerId : String)
      (peersCount : Nat)
  | object (o : SmartObjectRecord)
  | objectProof (o : SmartObjectRecord) (merkleProof : Option SmtInclusionProof) (verified : Bool)
  | history (page : Page StateTransitionRecord)
  | objects (page : Page SmartObjectRecord)
  | stateRoot (chain : String) (blockHeight : Nat) (stateRoot : String)
  | stateRootAt (chain : String) (blockHeight : Nat) (blockHash stateRoot : String)
      (attestations : List StateAttestation) (quorumReached : Bool)
  | broadcasted
  | peers (peers : List String)
  | published (codeHash : String)
  | contract (codeHash wasmHex : String)
  | slashingProofs (proofs : List EquivocationProof)
  | locked (transfer : BridgeTransfer)
  | minted (transfer : BridgeTransfer)
  | cancelled (transfer : BridgeTransfer)
  | transfer (transfer : BridgeTransfer)
  | transfers (transfers : List BridgeTransfer)
  | relayed (record : RelayRecord)
  | relay (record : RelayRecord)
  | health (chain : String) (blockHeight : Nat)
  | metrics (chain : String) (blockHeight peers transfers relays : Nat)

/-! ## 5. The handlers that read -/

variable (cfg : Config) (env : Env)

/-- `get_last_sync_block(..).unwrap_or(0)`. -/
def lastHeight : RpcProg Nat := unwrapOr 0 (accessed env.reads (getLastSyncBlock cfg.chain))

def send (command : P2pCommand) : Prog AppState Exit Unit :=
  if env.channel then .modify fun a ↦ { a with sent := a.sent ++ [command] }
  else .fail (.err (.context ""))

/-- `get_peers().await.unwrap_or_default()`. -/
def getPeers : RpcProg (List String) :=
  unwrapOr [] do
    send env .getPeers
    pure env.peers

def getChainInfo : RpcProg Body := do
  let last ← lastHeight cfg env
  let root ← mapErr internal (onStore currentStateRoot)
  let peers ← getPeers env
  pure (.chainInfo cfg.chain cfg.electrsUrl last root cfg.localPeerId peers.length)

/-- By id; then by seal, also after an error of the first lookup. -/
def findObject (id : String) : RpcProg (Option SmartObjectRecord) := do
  match ← (accessed env.reads (StateStore.getObject id)).attempt with
  | .ok (some o) => pure (some o)
  | .error .panic => .fail .panic
  | _ => mapErr internal (accessed env.readsSeal (getObjectBySeal id))

def getObject (id : String) : RpcProg Body := do
  .ofExcept (validateId id)
  match ← findObject env id with
  | some o => pure (.object o)
  | none => refuse .notFound "Smart Object not found"

def getObjectProof (id : String) : RpcProg Body := do
  .ofExcept (validateId id)
  match ← mapErr internal (accessed env.reads (StateStore.getObject id)) with
  | some o => do
      let proof ← mapErr internal (onStore (.read (getStateProof X · o.objectId)))
      pure (.objectProof o proof ((proof.map (·.verified)).getD false))
  | none => refuse .notFound "Smart Object not found"

def getObjectHistory (id : String) (params : PageParams) : RpcProg Body := do
  .ofExcept (validateId id)
  let all ← mapErr internal (accessed env.reads (getTransitionsForObject id))
  pure (.history (paginate params all))

def getAllObjects (params : PageParams) : RpcProg Body := do
  let all ← mapErr internal (accessed env.reads StateStore.getAllObjects)
  pure (.objects (paginate params all))

def getLatestStateRoot : RpcProg Body := do
  let last ← lastHeight cfg env
  let root ← mapErr internal (onStore currentStateRoot)
  pure (.stateRoot cfg.chain last root)

def getStateRootAtHeight (height : Nat) : RpcProg Body := do
  if 10000000 < height then refuse .badRequest "Block height too large"
  let block ← mapErr internal (accessed env.reads (getBlock cfg.chain height))
  let attestations ← Prog.read (·.consensus.getAttestations cfg.chain height)
  match block with
  | some b => do
      let reached ← Prog.read (·.consensus.isQuorumReached cfg.chain height b.stateRoot)
      pure (.stateRootAt cfg.chain height b.blockHash b.stateRoot attestations reached)
  | none => refuse .notFound ("Block #" ++ toString height ++ " not found")

def getP2pPeers : RpcProg Body := do
  let peers ← getPeers env
  pure (.peers peers)

def getSlashingProofs : RpcProg Body := do
  let proofs ← Prog.read (·.consensus.slashingProofs)
  pure (.slashingProofs proofs)

/-- `BridgeManager::get_transfer`: the cache, then the store. -/
def bridgeTransfer (transferId : String) : BridgeProg (Option BridgeTransfer) := do
  match ← Prog.read fun b ↦ b.transfers[transferId]? with
  | some t => pure (some t)
  | none => BridgeManager.onStore (getBridgeTransfer transferId)

def getTransfer (id : String) : RpcProg Body := do
  match ← mapErr internal (onBridge (bridgeTransfer id)) with
  | some t => pure (.transfer t)
  | none => refuse .notFound "Transfer not found"

/-- `BridgeManager::get_all_transfers`: the values of the cache. -/
def allTransfers : Prog AppState Exit (List BridgeTransfer) :=
  .read fun a ↦ a.transfers.toList.map (·.2)

def getAllTransfers : RpcProg Body := do
  let transfers ← mapErr internal allTransfers
  pure (.transfers transfers)

/-- `get_latest_relay`: the last of the verified records of greatest height. -/
def latestVerified (chain : String) (a : AppState) : Option RelayRecord :=
  ((a.relays.toList.map (·.2)).filter fun r ↦
    r.message.sourceChain == chain && r.status == .verified).foldl
    (fun best r ↦
      match best with
      | some b => if b.message.blockHeight ≤ r.message.blockHeight then some r else some b
      | none => some r)
    none

def getLatestRelay (chain : String) : RpcProg Body := do
  match ← Prog.read (latestVerified chain) with
  | some r => pure (.relay r)
  | none => refuse .notFound "No verified relay found"

def healthCheck : RpcProg Body := do
  let last ← lastHeight cfg env
  pure (.health cfg.chain last)

def prometheusMetrics : RpcProg Body := do
  let last ← lastHeight cfg env
  let peers ← getPeers env
  let transfers ← Prog.read fun a ↦ a.transfers.size
  let relays ← Prog.read fun a ↦ a.relays.size
  pure (.metrics cfg.chain last peers.length transfers relays)

/-! ## 6. P2P -/

def broadcastTransaction (payloadHex : String) : RpcProg Body := do
  .ofExcept (validateHex payloadHex "payload_hex")
  match hexDecode payloadHex with
  | none => refuse .badRequest "Invalid hex: "
  | some bytes => do
      if maxBroadcastSize < bytes.length then
        refuse .badRequest ("Payload too large: " ++ toString bytes.length ++ " bytes (max " ++
          toString maxBroadcastSize ++ ")")
      mapErr internal (send env (.broadcastMempool bytes))
      pure .broadcasted

def putDhtContract (headers : Headers) (codeHash wasmHex : String) : RpcProg Body := do
  .ofExcept (verifyBridgeAuth X headers cfg.bridgeApiKey)
  .ofExcept (validateHex codeHash "code_hash")
  .ofExcept (validateHex wasmHex "wasm_hex")
  match hexDecode wasmHex with
  | none => refuse .badRequest "Invalid wasm hex: "
  | some wasmBytes => do
      if maxWasmSize < wasmBytes.length then
        refuse .badRequest ("WASM too large: " ++ toString wasmBytes.length ++ " bytes (max " ++
          toString maxWasmSize ++ ")")
      if wasmHash X wasmBytes ≠ codeHash then
        refuse .badRequest ("code_hash mismatch: claimed=" ++ codeHash ++ " but sha256(wasm)=" ++
          wasmHash X wasmBytes)
      mapErr internal (send env (.putContract codeHash wasmBytes))
      .ofExcept (env.put.mapError (.refused .internalServerError))
      pure (.published codeHash)

def getDhtContract (codeHash : String) : RpcProg Body := do
  .ofExcept (validateHex codeHash "code_hash")
  mapErr internal (send env (.getContract codeHash))
  match env.dht with
  | some wasm =>
      if wasmHash X wasm ≠ codeHash then
        refuse .internalServerError ("Stored contract hash mismatch: key=" ++ codeHash ++
          " but sha256(wasm)=" ++ wasmHash X wasm ++ ". Record is corrupt.")
      else pure (.contract codeHash (hexEncode wasm))
  | none => refuse .notFound "Contract bytecode not found in DHT"

/-! ## 7. Bridge and relay -/

def lockAssets (headers : Headers) (call : LockCall) : RpcProg Body := do
  .ofExcept (verifyBridgeAuth X headers cfg.bridgeApiKey)
  let transfer ← mapErr (fun _ ↦ .forbidden) (onBridge (BridgeManager.lockAssets X call))
  pure (.locked transfer)

/-- `mint_from_proof`, with the validators at the time of its verification; the field `consensus` of
the call is not used. -/
def mintNow (call : MintCall) : Prog AppState Exit BridgeTransfer := do
  onBridge (BridgeManager.replayGuard call)
  onBridge (.modify fun b ↦
    { b with mintedObjects := b.mintedObjects.insert call.proof.objectId call.transferId })
  let consensus ← .read (·.consensus)
  onBridge (BridgeManager.mintTransfer X { call with consensus })

def mintFromProof (headers : Headers) (call : MintCall) : RpcProg Body := do
  .ofExcept (verifyBridgeAuth X headers cfg.bridgeApiKey)
  let transfer ← mapErr internal (mintNow X call)
  pure (.minted transfer)

/-- `text.contains(part)`. -/
def contains (text part : String) : Bool :=
  text.toList.tails.any fun rest ↦ part.toList.isPrefixOf rest

/-- The status of a failed cancellation is read off the text of its error. -/
def cancelStatus (e : Error) : StatusCode :=
  if contains (errorText e) "not owner" then .forbidden
  else if contains (errorText e) "timeout" then .conflict
  else .badRequest

def cancelTransfer (headers : Headers) (call : CancelCall) : RpcProg Body := do
  .ofExcept (verifyBridgeAuth X headers cfg.bridgeApiKey)
  let transfer ← mapErr cancelStatus (onBridge (BridgeManager.cancelTransfer X call))
  pure (.cancelled transfer)

def createRelay (sourceChain : String) (blockHeight : Nat) (destChain : String) :
    RpcProg Body := do
  -- the block is read first, and the attestations after it
  let store ← Prog.read (·.store)
  let message ← Prog.read fun a ↦
    StateRelay.createRelayMessage store a.consensus sourceChain blockHeight
  match message with
  | .error text => refuse .internalServerError text
  | .ok message => do
      let record := (StateRelay.new.relayToChain message destChain env.now env.relayedAt).2
      .modify fun a ↦ { a with relays := a.relays.insert record.id record }
      pure (.relayed record)

/-- The record is read, judged by the validators of the moment, and written back. -/
def verifyRelay (id : String) : RpcProg Body := do
  match ← Prog.read (·.relays[id]?) with
  | none => refuse .internalServerError ("Relay record not found: " ++ id)
  | some record => do
      let consensus ← Prog.read (·.consensus)
      match StateRelay.verifyRelay X (StateRelay.new.insert id record) consensus id env.now with
      | .error text => refuse .internalServerError text
      | .ok (_, record) => do
          .modify fun a ↦ { a with relays := a.relays.insert id record }
          pure (.relay record)

/-! ## 8. The router -/

def handle : Request → RpcProg Body
  | .chainInfo => getChainInfo cfg env
  | .object id => getObject env id
  | .objectProof id => getObjectProof X env id
  | .objectHistory id params => getObjectHistory env id params
  | .objects params => getAllObjects env params
  | .stateRoot => getLatestStateRoot cfg env
  | .stateRootAt height => getStateRootAtHeight cfg env height
  | .broadcast payloadHex => broadcastTransaction env payloadHex
  | .peers => getP2pPeers env
  | .putContract headers codeHash wasmHex => putDhtContract X cfg env headers codeHash wasmHex
  | .getContract codeHash => getDhtContract X env codeHash
  | .slashingProofs => getSlashingProofs
  | .lock headers call => lockAssets X cfg headers call
  | .mint headers call => mintFromProof X cfg headers call
  | .cancel headers call => cancelTransfer X cfg headers call
  | .transfer id => getTransfer id
  | .transfers => getAllTransfers
  | .createRelay sourceChain blockHeight destChain =>
      createRelay env sourceChain blockHeight destChain
  | .verifyRelay id => verifyRelay X env id
  | .latestRelay chain => getLatestRelay chain
  | .health => healthCheck cfg env
  | .metrics => prometheusMetrics cfg env

/-- `rate_limit_middleware`: the check comes before the handler. -/
def rateLimitMiddleware (arrival : Arrival) (next : RpcProg Body) : RpcProg Body := do
  let key := RateLimiter.clientKey cfg.trustedProxyIps arrival
  let ok ← Prog.act (fun a ↦ { a with limiter := (a.limiter.check key arrival.now).1 })
    fun a ↦ .done (a.limiter.check key arrival.now).2
  if ok then next else refuse .tooManyRequests "Rate limit exceeded"

def serve (arrival : Arrival) (request : Request) : RpcProg Body :=
  rateLimitMiddleware cfg arrival (handle X cfg env request)

end Rpc

end UtxoVm
