import UtxoVm.CrossChain.BridgeRun
import UtxoVm.Reasoning.Invariance
import UtxoVm.Rpc.Server

/-!
# What the handlers write

One lemma for each handler says what a single action of it can write.  A reader writes nothing but
the cached root of the tree and the command it sends; the bridge and the DHT are written with the
API key only; the records of the relay are open to everybody.
-/

namespace UtxoVm

open RustStd StateStore Prog

/-! ## 1. The store -/

namespace StateStore

/-- No action of the program changes the store. -/
abbrev Reads {α : Type} (p : StoreProg α) : Prop := p.Steps Eq

theorem reads_getObject (objectId : String) : Reads (getObject objectId) :=
  (Steps.read fun _ ↦ rfl).bind fun _ ↦ .ofExcept _

theorem reads_getObjectBySeal (sealRef : String) : Reads (getObjectBySeal sealRef) := by
  apply (Steps.read fun _ ↦ rfl).bind
  intro id
  cases id with
  | none => trivial
  | some objId => exact reads_getObject objId

theorem reads_getAllObjects : Reads getAllObjects :=
  (Steps.read fun _ ↦ rfl).bind fun _ ↦ .ofExcept _

theorem reads_getTransitionsForObject (objectId : String) :
    Reads (getTransitionsForObject objectId) :=
  (Steps.read fun _ ↦ rfl).bind fun _ ↦ .ofExcept _

/-- A write transaction writes all or nothing. -/
theorem steps_writeTxn {α : Type} {R : StateStore → StateStore → Prop}
    {txn : StateStore → Except Exit (StateStore × α)} (hnone : ∀ s, R s s)
    (hwrite : ∀ s s' a, txn s = .ok (s', a) → R s s') (commits : Bool) :
    (writeTxn commits txn).Steps R := by
  intro s
  dsimp only
  cases htxn : txn s with
  | error e => exact ⟨hnone s, trivial⟩
  | ok result =>
    cases commits with
    | false => exact ⟨hnone s, trivial⟩
    | true => exact ⟨hwrite s _ _ htxn, trivial⟩

theorem steps_commit {R : StateStore → StateStore → Prop} {write : StateStore → StateStore}
    (hnone : ∀ s, R s s) (hwrite : ∀ s, R s (write s)) (commits : Bool) :
    (commit commits write).Steps R := by
  apply steps_writeTxn hnone
  intro s s' a h
  cases h
  exact hwrite s

theorem steps_saveObject {R : StateStore → StateStore → Prop} {obj : SmartObjectRecord}
    (hnone : ∀ s, R s s) (hobject : ∀ s, R s (insertObject obj s))
    (htree : ∀ s smt, R s { s with smt }) (X : Crates) (commits : Bool) :
    (saveObject X commits obj).Steps R :=
  (steps_commit hnone hobject commits).bind fun _ ↦ .modify fun s ↦ htree s _

end StateStore

/-! ## 2. The bridge -/

/-- A single write of a bridge operation, where transfers get a status that is allowed. -/
inductive BridgeWrite (allowed : BridgeStatus → Prop) (b : BridgeManager) : BridgeManager → Prop
  | none : BridgeWrite allowed b b
  | object (obj : SmartObjectRecord) :
      BridgeWrite allowed b { b with store := insertObject obj b.store }
  | tree (smt : SparseMerkleTree) :
      BridgeWrite allowed b { b with store := { b.store with smt } }
  | stored (t : BridgeTransfer) : allowed t.status →
      BridgeWrite allowed b
        { b with
          store := { b.store with bridgeTransfers := b.store.bridgeTransfers.insert t.id t } }
  | cached (t : BridgeTransfer) : allowed t.status →
      BridgeWrite allowed b { b with transfers := b.transfers.insert t.id t }
  | guarded (objectId transferId : String) :
      BridgeWrite allowed b
        { b with
          store := { b.store with mintedProofs := b.store.mintedProofs.insert objectId transferId } }
  | noted (objectId transferId : String) :
      BridgeWrite allowed b
        { b with mintedObjects := b.mintedObjects.insert objectId transferId }

/-- Any status. -/
def anyStatus : BridgeStatus → Prop := fun _ ↦ True

namespace BridgeManager

variable (X : Crates) {allowed : BridgeStatus → Prop}

theorem steps_onStore {α : Type} {R : BridgeManager → BridgeManager → Prop}
    {S : StateStore → StateStore → Prop} {p : StoreProg α} (hp : p.Steps S)
    (hR : ∀ b s, S b.store s → R b { b with store := s }) : (onStore p).Steps R :=
  hp.zoom fun s b ↦ hR b s

theorem steps_reads {α : Type} {p : StoreProg α} (hp : Reads p) :
    (onStore p).Steps (BridgeWrite allowed) := by
  apply steps_onStore hp
  rintro b s rfl
  exact .none

theorem steps_withContext {α : Type} {R : BridgeManager → BridgeManager → Prop} {text : String}
    {p : BridgeProg α} (hp : p.Steps R) : (withContext text p).Steps R := by
  apply hp.attempt.bind
  intro r
  rcases r with (e | _) | a
  · trivial
  · trivial
  · trivial

/-- A write of the store is a write of the bridge. -/
theorem steps_writes {α : Type} {p : StoreProg α}
    (hp : p.Steps fun s s' ↦ ∀ b : BridgeManager, b.store = s →
      BridgeWrite allowed b { b with store := s' }) : (onStore p).Steps (BridgeWrite allowed) :=
  steps_onStore hp fun b _ hs ↦ hs b rfl

theorem steps_save (commits : Bool) (obj : SmartObjectRecord) :
    (onStore (saveObject X commits obj)).Steps (BridgeWrite allowed) := by
  apply steps_writes
  apply steps_saveObject
  · rintro _ b rfl
    exact .none
  · rintro _ b rfl
    exact .object obj
  · rintro _ smt b rfl
    exact .tree smt

theorem steps_saveTransfer (commits : Bool) {t : BridgeTransfer} (ht : allowed t.status) :
    (onStore (saveBridgeTransfer commits t)).Steps (BridgeWrite allowed) := by
  apply steps_writes
  apply steps_commit
  · rintro _ b rfl
    exact .none
  · rintro _ b rfl
    exact .stored t ht

theorem steps_updateTransfer (commits : Bool) {t : BridgeTransfer} (ht : allowed t.status) :
    (updateTransfer commits t).Steps (BridgeWrite allowed) :=
  (Steps.modify fun _ ↦ .cached t ht).bind fun _ ↦ steps_saveTransfer commits ht

theorem steps_unlockObject (commits : Bool) (t : BridgeTransfer) :
    (unlockObject X commits t).Steps (BridgeWrite allowed) := by
  apply (steps_withContext (steps_reads (reads_getObject _))).bind
  intro obj?
  cases obj? with
  | none => trivial
  | some obj =>
    dsimp only
    split
    · exact steps_save X commits _
    · trivial

theorem steps_lockAssets (hlocked : allowed .locked) (c : LockCall) :
    (lockAssets X c).Steps (BridgeWrite allowed) := by
  apply (steps_withContext (steps_reads (reads_getObject _))).bind
  intro obj?
  cases obj? with
  | none => trivial
  | some obj =>
    -- the object, the transfer in the store, the transfer in the cache
    apply (Steps.ofExcept _).bind
    intro _
    apply (steps_save X _ _).bind
    intro _
    apply (steps_saveTransfer _ hlocked).bind
    intro _
    exact (Steps.modify fun _ ↦ .cached (lockTransfer c obj) hlocked).bind fun _ ↦ .pure _

theorem steps_cancelTransfer (hfailed : allowed .failed) (c : CancelCall) :
    (cancelTransfer X c).Steps (BridgeWrite allowed) := by
  apply (Steps.read fun _ ↦ .none).bind
  intro t?
  cases t? with
  | none => trivial
  | some t =>
    apply (Steps.ofExcept _).bind
    intro _
    apply (steps_reads (reads_getObject _)).bind
    intro obj?
    cases obj? with
    | none => trivial
    | some obj =>
      apply (Steps.ofExcept _).bind
      intro _
      apply (steps_unlockObject X _ _).bind
      intro _
      exact (steps_updateTransfer _ hfailed).bind fun _ ↦ .pure _

theorem steps_replayGuard (c : MintCall) : (replayGuard c).Steps (BridgeWrite allowed) := by
  have hinsert : (onStore (checkAndInsertMintedProof c.guardCommits c.proof.objectId
      c.transferId)).Steps (BridgeWrite allowed) := by
    intro b
    refine ⟨?_, ?_⟩
    · -- the entry is written if there is none, and the transaction commits
      dsimp only
      split
      · exact .none
      · split
        · exact .guarded _ _
        · exact .none
    · dsimp only
      split
      · trivial
      · split <;> trivial
  apply (steps_withContext hinsert).bind
  intro newlyInserted
  cases newlyInserted with
  | true => trivial
  | false =>
    apply (steps_reads (Steps.read fun _ ↦ rfl)).bind
    intro existing?
    cases existing? with
    | none => trivial
    | some existing =>
      dsimp only
      split
      · trivial
      · apply (Steps.read fun _ ↦ .none).bind
        intro t?
        cases t? with
        | none => trivial
        | some t =>
          dsimp only
          split <;> trivial

/-- A transfer gets further than `Failed` only by a proof that verifies. -/
theorem steps_mintTransfer (c : MintCall) (hfailed : allowed .failed)
    (hvalid : (CrossChainVerifier.verifyProof X c.consensus c.proof).valid = true →
      allowed .verified ∧ allowed .minted) :
    (mintTransfer X c).Steps (BridgeWrite allowed) := by
  apply (Steps.read fun _ ↦ .none).bind
  intro t?
  cases t? with
  | none => trivial
  | some t =>
    dsimp only
    split
    · trivial
    · split
      · -- a proof that fails: the transfer is marked, and its object unlocked
        apply (steps_updateTransfer _ hfailed).bind
        intro _
        exact (steps_unlockObject X _ _).attempt.bind fun _ ↦ trivial
      · rename_i hproof
        obtain ⟨hverified, hminted⟩ := hvalid (by simpa using hproof)
        apply (Steps.ofExcept _).bind
        intro _
        apply (steps_updateTransfer _ hverified).bind
        intro _
        apply (steps_save X _ _).bind
        intro _
        exact (steps_updateTransfer _ hminted).bind fun _ ↦ .pure _

end BridgeManager

/-! ## 3. The handlers -/

namespace Rpc

variable (X : Crates) (cfg : Config) (env : Env)

/-- The request carries the API key of the bridge, as far as its digest tells. -/
def HoldsKey (headers : Headers) : Prop :=
  ∃ expected token, cfg.bridgeApiKey = some expected ∧
    headers.authorization = some ("Bearer " ++ token) ∧
    X.sha256 (asBytes token) = X.sha256 (asBytes expected)

/-- The request may write the tables and caches of the bridge. -/
def BridgeRequest : Request → Prop
  | .lock headers _ => HoldsKey X cfg headers
  | .mint headers _ => HoldsKey X cfg headers
  | .cancel headers _ => HoldsKey X cfg headers
  | _ => False

/-- The request may publish a contract. -/
def PublishRequest : Request → Prop
  | .putContract headers _ _ => HoldsKey X cfg headers
  | _ => False

def RelayRequest : Request → Prop
  | .createRelay _ _ _ => True
  | .verifyRelay _ => True
  | _ => False

def P2pCommand.isPut : P2pCommand → Bool
  | .putContract _ _ => true
  | _ => false

/-- A single write of the handler of a request. -/
inductive AppWrite (r : Request) (a : AppState) : AppState → Prop
  | none : AppWrite r a a
  | limiter (limiter : RateLimiter) : AppWrite r a { a with limiter }
  | tree (smt : SparseMerkleTree) : AppWrite r a { a with store := { a.store with smt } }
  | sent (command : P2pCommand) : command.isPut = false →
      AppWrite r a { a with sent := a.sent ++ [command] }
  | put (codeHash : String) (wasmBytes : Bytes) : PublishRequest X cfg r →
      wasmHash X wasmBytes = codeHash →
      AppWrite r a { a with sent := a.sent ++ [.putContract codeHash wasmBytes] }
  | relay (id : String) (record : RelayRecord) : RelayRequest r →
      AppWrite r a { a with relays := a.relays.insert id record }
  | bridge (b : BridgeManager) : BridgeRequest X cfg r → BridgeWrite anyStatus a.bridge b →
      AppWrite r a (a.setBridge b)

variable {X cfg} {r : Request}

theorem verifyBridgeAuth_ok {headers : Headers} {u : Unit}
    (h : verifyBridgeAuth X headers cfg.bridgeApiKey = .ok u) : HoldsKey X cfg headers := by
  unfold verifyBridgeAuth at h
  split at h
  · cases h
  · rename_i expected hexpected
    split at h
    · cases h
    · rename_i authHeader hheader
      split at h
      · cases h
      · rename_i token htoken
        split at h
        · cases h
        · rename_i hdigest
          rw [stripPrefix_eq_some.mp htoken] at hheader
          exact ⟨expected, token, hexpected, hheader, not_not.mp hdigest⟩

/-- What follows the check of the key runs with the key only. -/
theorem steps_auth {α : Type} {R : AppState → AppState → Prop} {headers : Headers}
    {f : Unit → RpcProg α} (hf : HoldsKey X cfg headers → ∀ u, (f u).Steps R) :
    ((Prog.ofExcept (verifyBridgeAuth X headers cfg.bridgeApiKey) : RpcProg Unit) >>= f).Steps
      R := by
  cases hauth : verifyBridgeAuth X headers cfg.bridgeApiKey with
  | error e => trivial
  | ok u => exact hf (verifyBridgeAuth_ok hauth) u

theorem steps_mapErr {α : Type} {R : AppState → AppState → Prop} {status : Error → StatusCode}
    {p : Prog AppState Exit α} (hp : p.Steps R) : (mapErr status p).Steps R := by
  apply hp.attempt.bind
  intro result
  rcases result with (e | _) | a
  · trivial
  · trivial
  · trivial

theorem steps_unwrapOr {α : Type} {R : AppState → AppState → Prop} {default : α}
    {p : Prog AppState Exit α} (hp : p.Steps R) : (unwrapOr default p).Steps R := by
  apply hp.attempt.bind
  intro result
  rcases result with (e | _) | a
  · trivial
  · trivial
  · trivial

variable (X cfg) (r)

theorem steps_reads {α : Type} {p : StoreProg α} (hp : Reads p) :
    (onStore p).Steps (AppWrite X cfg r) := by
  apply hp.zoom
  rintro s a rfl
  exact .none

theorem steps_accessed {α : Type} {p : StoreProg α} (hp : Reads p) (reads : Bool) :
    (accessed reads p).Steps (AppWrite X cfg r) := by
  unfold accessed
  split
  · exact steps_reads X cfg r hp
  · trivial

theorem steps_root : (onStore currentStateRoot).Steps (AppWrite X cfg r) :=
  fun a ↦ ⟨.tree a.store.smt.root.1, trivial⟩

theorem steps_send {command : P2pCommand} (h : command.isPut = false) :
    (send env command).Steps (AppWrite X cfg r) := by
  unfold send
  split
  · exact Steps.modify fun a ↦ .sent command h
  · trivial

theorem steps_lastHeight : (lastHeight cfg env).Steps (AppWrite X cfg r) :=
  steps_unwrapOr (steps_accessed X cfg r (Steps.read fun _ ↦ rfl) _)

theorem steps_getPeers : (getPeers env).Steps (AppWrite X cfg r) :=
  steps_unwrapOr ((steps_send X cfg env r rfl).bind fun _ ↦ .pure _)

theorem steps_getChainInfo : (getChainInfo cfg env).Steps (AppWrite X cfg r) := by
  apply (steps_lastHeight X cfg env r).bind
  intro last
  apply (steps_mapErr (steps_root X cfg r)).bind
  intro root
  exact (steps_getPeers X cfg env r).bind fun _ ↦ .pure _

theorem steps_getObject (id : String) : (getObject env id).Steps (AppWrite X cfg r) := by
  apply (Steps.ofExcept _).bind
  intro _
  refine Steps.bind ?_ fun o? ↦ ?_
  · apply (steps_accessed X cfg r (reads_getObject id) _).attempt.bind
    intro found
    have hseal : (mapErr internal (accessed env.readsSeal (getObjectBySeal id))).Steps
        (AppWrite X cfg r) :=
      steps_mapErr (steps_accessed X cfg r (reads_getObjectBySeal id) _)
    rcases found with (e | _) | (_ | o)
    · exact hseal
    · trivial
    · exact hseal
    · trivial
  · cases o? <;> trivial

theorem steps_getObjectProof (id : String) :
    (getObjectProof X env id).Steps (AppWrite X cfg r) := by
  apply (Steps.ofExcept _).bind
  intro _
  apply (steps_mapErr (steps_accessed X cfg r (reads_getObject id) _)).bind
  intro o?
  cases o? with
  | none => trivial
  | some o =>
    apply (steps_mapErr (steps_reads X cfg r (Steps.read fun _ ↦ rfl))).bind
    exact fun _ ↦ .pure _

theorem steps_getObjectHistory (id : String) (params : PageParams) :
    (getObjectHistory env id params).Steps (AppWrite X cfg r) := by
  apply (Steps.ofExcept _).bind
  intro _
  apply (steps_mapErr (steps_accessed X cfg r (reads_getTransitionsForObject id) _)).bind
  exact fun _ ↦ .pure _

theorem steps_getAllObjects (params : PageParams) :
    (getAllObjects env params).Steps (AppWrite X cfg r) :=
  (steps_mapErr (steps_accessed X cfg r reads_getAllObjects _)).bind fun _ ↦ .pure _

theorem steps_getLatestStateRoot : (getLatestStateRoot cfg env).Steps (AppWrite X cfg r) := by
  apply (steps_lastHeight X cfg env r).bind
  intro last
  exact (steps_mapErr (steps_root X cfg r)).bind fun _ ↦ .pure _

theorem steps_getStateRootAtHeight (height : Nat) :
    (getStateRootAtHeight cfg env height).Steps (AppWrite X cfg r) := by
  unfold getStateRootAtHeight
  split
  · trivial
  · apply (steps_mapErr (steps_accessed X cfg r (Steps.read fun _ ↦ rfl) _)).bind
    intro block
    apply (Steps.read fun _ ↦ .none).bind
    intro attestations
    cases block with
    | none => trivial
    | some b => exact (Steps.read fun _ ↦ .none).bind fun _ ↦ .pure _

theorem steps_getTransfer (id : String) : (getTransfer id).Steps (AppWrite X cfg r) := by
  have hread : (bridgeTransfer id).Steps Eq := by
    apply (Steps.read fun _ ↦ rfl).bind
    intro t?
    cases t? with
    | some t => trivial
    | none => exact fun _ ↦ ⟨rfl, trivial⟩
  have hbridge : (onBridge (bridgeTransfer id)).Steps (AppWrite X cfg r) := by
    apply hread.zoom
    rintro b a rfl
    exact .none
  apply (steps_mapErr hbridge).bind
  intro t?
  cases t? <;> trivial

theorem steps_metrics : (prometheusMetrics cfg env).Steps (AppWrite X cfg r) := by
  apply (steps_lastHeight X cfg env r).bind
  intro last
  apply (steps_getPeers X cfg env r).bind
  intro peers
  apply (Steps.read fun _ ↦ .none).bind
  intro transfers
  exact (Steps.read fun _ ↦ .none).bind fun _ ↦ .pure _

theorem steps_broadcast (payloadHex : String) :
    (broadcastTransaction env payloadHex).Steps (AppWrite X cfg r) := by
  apply (Steps.ofExcept _).bind
  intro _
  cases hexDecode payloadHex with
  | none => trivial
  | some bytes =>
    dsimp only
    split
    · trivial
    · exact (steps_mapErr (steps_send X cfg env r rfl)).bind fun _ ↦ .pure _

theorem steps_getDhtContract (codeHash : String) :
    (getDhtContract X env codeHash).Steps (AppWrite X cfg r) := by
  apply (Steps.ofExcept _).bind
  intro _
  apply (steps_mapErr (steps_send X cfg env r rfl)).bind
  intro _
  cases env.dht with
  | none => trivial
  | some wasm =>
    dsimp only
    split <;> trivial

/-- A contract is published with the key, and under its own hash. -/
theorem steps_putDhtContract (headers : Headers) (codeHash wasmHex : String) :
    (putDhtContract X cfg env headers codeHash wasmHex).Steps
      (AppWrite X cfg (.putContract headers codeHash wasmHex)) := by
  apply steps_auth
  intro hkey _
  apply (Steps.ofExcept _).bind
  intro _
  apply (Steps.ofExcept _).bind
  intro _
  cases hexDecode wasmHex with
  | none => trivial
  | some wasmBytes =>
    dsimp only
    split
    · trivial
    · show Steps _ (ite _ _ _)
      split
      · trivial
      · rename_i hhash
        have hsend : (send env (.putContract codeHash wasmBytes)).Steps
            (AppWrite X cfg (.putContract headers codeHash wasmHex)) := by
          unfold send
          split
          · exact Steps.modify fun a ↦ .put codeHash wasmBytes hkey (not_not.mp hhash)
          · trivial
        apply (steps_mapErr hsend).bind
        intro _
        exact (Steps.ofExcept _).bind fun _ ↦ .pure _

/-- An operation of the bridge, run with the key. -/
theorem steps_onBridge {α : Type} {p : BridgeProg α} (hkey : BridgeRequest X cfg r)
    (hp : p.Steps (BridgeWrite anyStatus)) : (onBridge p).Steps (AppWrite X cfg r) :=
  hp.zoom fun b _ hb ↦ .bridge b hkey hb

theorem steps_mintNow (call : MintCall) (hkey : BridgeRequest X cfg r) :
    (mintNow X call).Steps (AppWrite X cfg r) := by
  apply (steps_onBridge X cfg r hkey (BridgeManager.steps_replayGuard call)).bind
  intro _
  apply (steps_onBridge X cfg r hkey (Steps.modify fun _ ↦ .noted _ _)).bind
  intro _
  apply (Steps.read fun _ ↦ .none).bind
  intro consensus
  exact steps_onBridge X cfg r hkey
    (BridgeManager.steps_mintTransfer X _ trivial fun _ ↦ ⟨trivial, trivial⟩)

theorem steps_createRelay (sourceChain : String) (blockHeight : Nat) (destChain : String)
    (h : RelayRequest r) :
    (createRelay env sourceChain blockHeight destChain).Steps (AppWrite X cfg r) := by
  apply (Steps.read fun _ ↦ .none).bind
  intro store
  apply (Steps.read fun _ ↦ .none).bind
  intro message
  cases message with
  | error text => trivial
  | ok message => exact (Steps.modify fun a ↦ .relay _ _ h).bind fun _ ↦ .pure _

theorem steps_verifyRelay (id : String) (h : RelayRequest r) :
    (verifyRelay X env id).Steps (AppWrite X cfg r) := by
  apply (Steps.read fun _ ↦ .none).bind
  intro record?
  cases record? with
  | none => trivial
  | some record =>
    apply (Steps.read fun _ ↦ .none).bind
    intro consensus
    split
    · trivial
    · exact (Steps.modify fun a ↦ .relay _ _ h).bind fun _ ↦ .pure _

/-- **What a handler can write.** -/
theorem steps_handle : (handle X cfg env r).Steps (AppWrite X cfg r) := by
  cases r with
  | chainInfo => exact steps_getChainInfo X cfg env _
  | object id => exact steps_getObject X cfg env _ id
  | objectProof id => exact steps_getObjectProof X cfg env _ id
  | objectHistory id params => exact steps_getObjectHistory X cfg env _ id params
  | objects params => exact steps_getAllObjects X cfg env _ params
  | stateRoot => exact steps_getLatestStateRoot X cfg env _
  | stateRootAt height => exact steps_getStateRootAtHeight X cfg env _ height
  | broadcast payloadHex => exact steps_broadcast X cfg env _ payloadHex
  | peers => exact (steps_getPeers X cfg env _).bind fun _ ↦ .pure _
  | putContract headers codeHash wasmHex =>
    exact steps_putDhtContract X cfg env headers codeHash wasmHex
  | getContract codeHash => exact steps_getDhtContract X cfg env _ codeHash
  | slashingProofs => exact (Steps.read fun _ ↦ .none).bind fun _ ↦ .pure _
  | lock headers call =>
    apply steps_auth
    intro hkey _
    apply (steps_mapErr
      (steps_onBridge X cfg (.lock headers call) hkey
        (BridgeManager.steps_lockAssets X trivial call))).bind
    exact fun _ ↦ .pure _
  | mint headers call =>
    apply steps_auth
    intro hkey _
    apply (steps_mapErr (steps_mintNow X cfg (.mint headers call) call hkey)).bind
    exact fun _ ↦ .pure _
  | cancel headers call =>
    apply steps_auth
    intro hkey _
    apply (steps_mapErr (steps_onBridge X cfg (.cancel headers call) hkey
      (BridgeManager.steps_cancelTransfer X trivial call))).bind
    exact fun _ ↦ .pure _
  | transfer id => exact steps_getTransfer X cfg _ id
  | transfers => exact (steps_mapErr (Steps.read fun _ ↦ .none)).bind fun _ ↦ .pure _
  | createRelay sourceChain blockHeight destChain =>
    exact steps_createRelay X cfg env _ sourceChain blockHeight destChain trivial
  | verifyRelay id => exact steps_verifyRelay X cfg env _ id trivial
  | latestRelay chain =>
    apply (Steps.read fun _ ↦ .none).bind
    intro record?
    cases record? <;> trivial
  | health => exact (steps_lastHeight X cfg env _).bind fun _ ↦ .pure _
  | metrics => exact steps_metrics X cfg env _

theorem steps_serve (arrival : Arrival) :
    (serve X cfg env arrival r).Steps (AppWrite X cfg r) := by
  refine Steps.bind (fun a ↦ ⟨.limiter _, trivial⟩) fun ok ↦ ?_
  cases ok with
  | true => exact steps_handle X cfg env r
  | false => trivial

end Rpc

end UtxoVm
