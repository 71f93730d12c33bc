import UtxoVm.Rpc.Server
import UtxoVm.Storage.Consistency

/-!
# The P2P service (`p2p/node.rs`)

One iteration of the loop answers a command of the node or handles an event of the swarm.  The
record store of Kademlia takes contracts from the node's own commands and from gossip, both of which
check the hash, and from other peers, whose records libp2p puts there without asking anyone.
-/

namespace UtxoVm

open RustStd StateStore Rpc

/-- What libp2p and the JSON library decide. -/
structure Libp2p where
  /-- `MemoryStore::put` stores the record; it has limits on the records and on their number. -/
  admits : Table String Bytes → String → Bytes → Bool
  attestationToVec : StateAttestation → Bytes
  attestationFromSlice : Bytes → Option StateAttestation

namespace P2pService

def topicMempool : String := "utxovm/mempool/v1"

def topicAttestation : String := "utxovm/attestation/v1"

def topicContract : String := "utxovm/contract/v1"

/-! ## 1. The state of the loop -/

/-- The record store and the locals of `run`. -/
structure State where
  records : Table String Bytes
  connectedPeers : List String
  /-- The response channels that wait for a query. -/
  pendingDhtGets : Table Nat Nat

def start : State where
  records := ∅
  connectedPeers := []
  pendingDhtGets := ∅

/-- What libp2p returns to a command: whether gossipsub takes the message, and the id of a query.
Gossipsub refuses a message that is too large or that it has seen, and any while it has too few
peers. -/
structure Returned where
  published : Bool
  queryId : Nat

inductive QueryResult where
  | foundRecord (value : Bytes)
  | failed
  | other

/-- What an iteration of the loop takes up.  A command comes with the number of its response
channel. -/
inductive Event where
  | command (resp : Nat) (command : P2pCommand) (returned : Returned)
  | broadcastAttestation (attestation : StateAttestation) (published : Bool)
  | message (topic : String) (data : Bytes)
  | queryProgressed (id : Nat) (result : QueryResult)
  | connectionEstablished (peer : String)
  | connectionClosed (peer : String)
  | identified
  /-- Kademlia stores the record of another peer, or removes it when it has expired. -/
  | inboundRecord (codeHash : String) (value : Bytes)
  | inboundExpired (codeHash : String)

/-- What an iteration sets off; a message is published if gossipsub takes it. -/
inductive Effect where
  | publish (topic : String) (data : Bytes)
  | getRecord (id : Nat) (codeHash : String)
  | put (resp : Nat) (result : Except String Unit)
  | got (resp : Nat) (value : Option Bytes)
  | peers (resp : Nat) (peers : List String)
  | onAttestation (attestation : StateAttestation)
  | onMempool (data : Bytes)

section

variable (X : Crates) (L : Libp2p)

/-- `store_mut().put(record)`, of which the loop ignores or logs the error. -/
def putRecord (s : State) (codeHash : String) (value : Bytes) : State :=
  if L.admits s.records codeHash value then
    { s with records := s.records.insert codeHash value }
  else s

/-- The message that replicates a contract. -/
def contractPayload (codeHash : String) (wasmBytes : Bytes) : Json :=
  .object [("code_hash", .string codeHash), ("wasm_hex", .string (hexEncode wasmBytes))]

/-- `gossipsub.publish`, of which an error is only logged. -/
def publish (published : Bool) (topic : String) (data : Bytes) : List Effect :=
  if published then [.publish topic data] else []

def onCommand (s : State) (resp : Nat) (returned : Returned) :
    P2pCommand → State × List Effect
  | .broadcastMempool data => (s, publish returned.published topicMempool data)
  | .putContract codeHash wasmBytes =>
      if wasmHash X wasmBytes ≠ codeHash then
        (s, [.put resp (.error ("code_hash mismatch: claimed=" ++ codeHash ++
          " but sha256(wasm)=" ++ wasmHash X wasmBytes))])
      else
        -- the answer depends neither on the record store nor on gossipsub
        (putRecord L s codeHash wasmBytes,
          publish returned.published topicContract
            (X.jsonToVec (contractPayload codeHash wasmBytes)) ++ [.put resp (.ok ())])
  | .getContract codeHash =>
      match s.records[codeHash]? with
      | some value => (s, [.got resp (some value)])
      | none =>
          ({ s with pendingDhtGets := s.pendingDhtGets.insert returned.queryId resp },
            [.getRecord returned.queryId codeHash])
  | .getPeers => (s, [.peers resp s.connectedPeers])

/-- The contract in a message, if its code has the hash that the message claims. -/
def contractOf (data : Bytes) : Option (String × Bytes) := do
  let payload ← X.jsonFromSlice data
  let codeHash ← (← payload.get? "code_hash").asStr?
  let wasmHex ← (← payload.get? "wasm_hex").asStr?
  let wasmBytes ← hexDecode wasmHex
  if wasmHash X wasmBytes ≠ codeHash then none else some (codeHash, wasmBytes)

def onMessage (s : State) (topic : String) (data : Bytes) : State × List Effect :=
  if topic = topicAttestation then
    match L.attestationFromSlice data with
    | some attestation => (s, [.onAttestation attestation])
    | none => (s, [])
  else if topic = topicMempool then (s, [.onMempool data])
  else if topic = topicContract then
    match contractOf X data with
    | some (codeHash, wasmBytes) => (putRecord L s codeHash wasmBytes, [])
    | none => (s, [])
  else (s, [])

/-- The first progress of a query answers who waits for it; there is no answer to later ones. -/
def onQueryProgressed (s : State) (id : Nat) (result : QueryResult) : State × List Effect :=
  match s.pendingDhtGets[id]? with
  | none => (s, [])
  | some resp =>
      let value := match result with
        | .foundRecord value => some value
        | .failed | .other => none
      ({ s with pendingDhtGets := s.pendingDhtGets.erase id }, [.got resp value])

/-- No request waits for the query that Kademlia's `bootstrap` starts for a new peer. -/
def step (s : State) : Event → State × List Effect
  | .command resp command returned => onCommand X L s resp returned command
  | .broadcastAttestation attestation published =>
      (s, publish published topicAttestation (L.attestationToVec attestation))
  | .message topic data => onMessage X L s topic data
  | .queryProgressed id result => onQueryProgressed s id result
  | .connectionEstablished peer =>
      ({ s with connectedPeers := s.connectedPeers ++ [peer] }, [])
  | .connectionClosed peer =>
      ({ s with connectedPeers := s.connectedPeers.filter (· ≠ peer) }, [])
  | .identified => (s, [])
  | .inboundRecord codeHash value => (putRecord L s codeHash value, [])
  | .inboundExpired codeHash => ({ s with records := s.records.erase codeHash }, [])

/-- The loop over a list of events, with all that it sets off. -/
def run (s : State) : List Event → State × List Effect
  | [] => (s, [])
  | e :: es =>
      let (s, effects) := step X L s e
      let (s, more) := run s es
      (s, effects ++ more)

end

variable {X : Crates} {L : Libp2p} {s : State}

theorem run_append (es es' : List Event) :
    run X L s (es ++ es') = ((run X L (run X L s es).1 es').1,
      (run X L s es).2 ++ (run X L (run X L s es).1 es').2) := by
  induction es generalizing s with
  | nil => rfl
  | cons e es ih =>
    show ((run X L (step X L s e).1 (es ++ es')).1,
      (step X L s e).2 ++ (run X L (step X L s e).1 (es ++ es')).2) = _
    rw [ih]
    show _ = ((run X L (run X L (step X L s e).1 es).1 es').1,
      ((step X L s e).2 ++ (run X L (step X L s e).1 es).2) ++
        (run X L (run X L (step X L s e).1 es).1 es').2)
    rw [List.append_assoc]

/-- A run with one more event. -/
theorem run_concat (es : List Event) (e : Event) :
    run X L s (es ++ [e]) = ((step X L (run X L s es).1 e).1,
      (run X L s es).2 ++ (step X L (run X L s es).1 e).2) := by
  rw [run_append]
  show (_, _ ++ ((step X L (run X L s es).1 e).2 ++ [])) = _
  rw [List.append_nil]
  rfl

/-! ## 2. The record store -/

theorem contractOf_hash {data : Bytes} {codeHash : String} {wasmBytes : Bytes}
    (h : contractOf X data = some (codeHash, wasmBytes)) : wasmHash X wasmBytes = codeHash := by
  unfold contractOf at h
  simp only [Option.bind_eq_bind, Option.bind_eq_some_iff] at h
  obtain ⟨_, _, _, _, _, _, _, _, _, _, _, _, h⟩ := h
  split at h
  · cases h
  · rename_i hhash
    cases h
    exact not_not.mp hhash

/-- What an iteration can do to the records. -/
inductive RecordWrite (X : Crates) (e : Event) (records : Table String Bytes) :
    Table String Bytes → Prop
  | none : RecordWrite X e records records
  | put (value : Bytes) : RecordWrite X e records (records.insert (wasmHash X value) value)
  | inbound (codeHash : String) (value : Bytes) : e = .inboundRecord codeHash value →
      RecordWrite X e records (records.insert codeHash value)
  | expired (codeHash : String) : e = .inboundExpired codeHash →
      RecordWrite X e records (records.erase codeHash)

theorem putRecord_write {e : Event} {codeHash : String} {value : Bytes}
    (h : wasmHash X value = codeHash ∨ e = .inboundRecord codeHash value) :
    RecordWrite X e s.records (putRecord L s codeHash value).records := by
  unfold putRecord
  split
  · rcases h with rfl | he
    · exact .put value
    · exact .inbound codeHash value he
  · exact .none

theorem step_write (s : State) (e : Event) :
    RecordWrite X e s.records (step X L s e).1.records := by
  cases e with
  | command resp command returned =>
    cases command with
    | putContract codeHash wasmBytes =>
      show RecordWrite X _ _
        (onCommand X L s resp returned (.putContract codeHash wasmBytes)).1.records
      unfold onCommand
      dsimp only
      split
      · exact .none
      · rename_i hhash
        exact putRecord_write (.inl (not_not.mp hhash))
    | getContract codeHash =>
      show RecordWrite X _ _ (onCommand X L s resp returned (.getContract codeHash)).1.records
      unfold onCommand
      dsimp only
      split <;> exact .none
    | broadcastMempool data => exact .none
    | getPeers => exact .none
  | message topic data =>
    show RecordWrite X _ _ (onMessage X L s topic data).1.records
    unfold onMessage
    split
    · split <;> exact .none
    split
    · exact .none
    split
    · -- a contract from gossip
      split
      · rename_i hcontract
        exact putRecord_write (.inl (contractOf_hash hcontract))
      · exact .none
    · exact .none
  | queryProgressed id result =>
    show RecordWrite X _ _ (onQueryProgressed s id result).1.records
    unfold onQueryProgressed
    split <;> exact .none
  | inboundRecord codeHash value => exact putRecord_write (.inr rfl)
  | inboundExpired codeHash => exact .expired codeHash rfl
  | broadcastAttestation attestation published => exact .none
  | connectionEstablished peer => exact .none
  | connectionClosed peer => exact .none
  | identified => exact .none

/-- The event is about the record of another peer under the hash. -/
def Event.Inbound (codeHash : String) (e : Event) : Prop :=
  (∃ value, e = .inboundRecord codeHash value) ∨ e = .inboundExpired codeHash

/-- The store has code under the hash that is its own. -/
def Keeps (X : Crates) (codeHash : String) (s : State) : Prop :=
  ∃ value, s.records[codeHash]? = some value ∧ wasmHash X value = codeHash

/-- A contract stays in the store, whatever comes, but for other peers' records of the same name. -/
theorem keeps_step {codeHash : String} {e : Event} (h : Keeps X codeHash s)
    (he : ¬ e.Inbound codeHash) : Keeps X codeHash (step X L s e).1 := by
  obtain ⟨value, hvalue, hhash⟩ := h
  have hwrite := step_write (X := X) (L := L) s e
  unfold Keeps
  generalize (step X L s e).1.records = records at hwrite ⊢
  cases hwrite with
  | none => exact ⟨value, hvalue, hhash⟩
  | put value' =>
    rw [Table.get_insert]
    split
    · rename_i hsame
      exact ⟨value', rfl, hsame.symm⟩
    · exact ⟨value, hvalue, hhash⟩
  | inbound codeHash' value' hinbound =>
    rw [Table.get_insert]
    split
    · rename_i hsame
      rw [← hsame] at hinbound
      exact absurd (.inl ⟨value', hinbound⟩) he
    · exact ⟨value, hvalue, hhash⟩
  | expired codeHash' hexpired =>
    rw [Table.get_erase]
    split
    · rename_i hsame
      rw [← hsame] at hexpired
      exact absurd (.inr hexpired) he
    · exact ⟨value, hvalue, hhash⟩

theorem keeps_run {codeHash : String} {es : List Event} (h : Keeps X codeHash s)
    (hes : ∀ e ∈ es, ¬ e.Inbound codeHash) : Keeps X codeHash (run X L s es).1 := by
  induction es generalizing s with
  | nil => exact h
  | cons e es ih =>
    obtain ⟨he, hes⟩ := List.forall_mem_cons.mp hes
    exact ih (keeps_step h he) hes

/-! ## 3. From a publisher to a reader -/

theorem ofExcept_bind_eq_ok {σ ε α β : Type} {r : Except ε α} {f : α → Prog σ ε β} {t t' : σ}
    {b : β} (h : (Prog.ofExcept r >>= f).run t = (t', .ok b)) :
    ∃ a, r = .ok a ∧ (f a).run t = (t', .ok b) := by
  rw [Prog.run_bind, Prog.run_ofExcept] at h
  cases r with
  | error e => cases h
  | ok a => exact ⟨a, rfl, h⟩

/-- A contract that the server has taken was sent to the P2P service, with its own hash. -/
theorem putDhtContract_ok {cfg : Config} {env : Env} {headers : Headers}
    {codeHash wasmHex : String} {a a' : AppState} {body : Body}
    (h : (putDhtContract X cfg env headers codeHash wasmHex).run a = (a', .ok body)) :
    validateHex codeHash "code_hash" = .ok () ∧ ∃ wasm, hexDecode wasmHex = some wasm ∧
      wasmHash X wasm = codeHash ∧ a'.sent = a.sent ++ [.putContract codeHash wasm] := by
  unfold putDhtContract at h
  obtain ⟨_, -, h⟩ := ofExcept_bind_eq_ok h
  obtain ⟨_, hvalid, h⟩ := ofExcept_bind_eq_ok h
  obtain ⟨_, -, h⟩ := ofExcept_bind_eq_ok h
  refine ⟨hvalid, ?_⟩
  cases hdecode : hexDecode wasmHex with
  | none =>
    rw [hdecode] at h
    cases h
  | some wasm =>
    rw [hdecode] at h
    dsimp only at h
    refine ⟨wasm, rfl, ?_⟩
    -- the size, then the hash
    by_cases hsize : maxWasmSize < wasm.length
    · rw [if_pos hsize] at h
      cases h
    rw [if_neg hsize] at h
    by_cases hhash : wasmHash X wasm ≠ codeHash
    · rw [if_pos hhash] at h
      cases h
    rw [if_neg hhash] at h
    refine ⟨not_not.mp hhash, ?_⟩
    unfold mapErr send at h
    cases hchannel : env.channel with
    | false =>
      rw [hchannel] at h
      cases h
    | true =>
      rw [hchannel] at h
      cases hput : env.put with
      | error text =>
        rw [hput] at h
        cases h
      | ok u =>
        rw [hput] at h
        cases h
        rfl

/-- The node that the service answers with the code passes it on. -/
theorem getDhtContract_served {env : Env} {codeHash : String} {wasm : Bytes} (a : AppState)
    (hvalid : validateHex codeHash "code_hash" = .ok ()) (hhash : wasmHash X wasm = codeHash)
    (hchannel : env.channel = true) (hdht : env.dht = some wasm) :
    ((getDhtContract X env codeHash).run a).2 = .ok (.contract codeHash (hexEncode wasm)) := by
  have hsame : ¬ wasmHash X wasm ≠ codeHash := not_not.mpr hhash
  unfold getDhtContract mapErr send
  rw [hvalid, hchannel, hdht]
  show (Prog.run (if wasmHash X wasm ≠ codeHash then _ else _) _).2 = _
  rw [if_neg hsame]
  rfl

theorem contractOf_payload {codeHash : String} {wasm : Bytes}
    (hjson : X.jsonFromSlice (X.jsonToVec (contractPayload codeHash wasm)) =
      some (contractPayload codeHash wasm)) (hhash : wasmHash X wasm = codeHash) :
    contractOf X (X.jsonToVec (contractPayload codeHash wasm)) = some (codeHash, wasm) := by
  have hsame : ¬ wasmHash X wasm ≠ codeHash := not_not.mpr hhash
  unfold contractOf
  rw [hjson]
  show (hexDecode (hexEncode wasm) >>= fun wasmBytes ↦ _) = _
  rw [hexDecode_hexEncode]
  show (if wasmHash X wasm ≠ codeHash then _ else _) = _
  rw [if_neg hsame]

/-- A service that gets the message and can store the contract has it. -/
theorem keeps_message {codeHash : String} {wasm : Bytes}
    (hjson : X.jsonFromSlice (X.jsonToVec (contractPayload codeHash wasm)) =
      some (contractPayload codeHash wasm)) (hhash : wasmHash X wasm = codeHash)
    (hadmits : L.admits s.records codeHash wasm = true) :
    Keeps X codeHash
      (step X L s (.message topicContract (X.jsonToVec (contractPayload codeHash wasm)))).1 := by
  have hne : topicContract ≠ topicAttestation ∧ topicContract ≠ topicMempool := by decide
  show Keeps X codeHash (onMessage X L s topicContract _).1
  unfold onMessage
  rw [if_neg hne.1, if_neg hne.2, if_pos rfl, contractOf_payload hjson hhash]
  refine ⟨wasm, ?_, hhash⟩
  show (putRecord L s codeHash wasm).records[codeHash]? = _
  unfold putRecord
  rw [if_pos hadmits]
  show (s.records.insert codeHash wasm)[codeHash]? = _
  rw [Table.get_insert, if_pos rfl]

theorem getContract_stored {resp : Nat} {returned : Returned} {codeHash : String} {value : Bytes}
    (h : s.records[codeHash]? = some value) :
    (step X L s (.command resp (.getContract codeHash) returned)).2 = [.got resp (some value)] := by
  show (onCommand X L s resp returned (.getContract codeHash)).2 = _
  unfold onCommand
  dsimp only
  rw [h]

theorem putContract_effects {codeHash : String} {wasm : Bytes} (hhash : wasmHash X wasm = codeHash)
    (resp : Nat) (returned : Returned) :
    (step X L s (.command resp (.putContract codeHash wasm) returned)).2 =
      publish returned.published topicContract (X.jsonToVec (contractPayload codeHash wasm)) ++
        [.put resp (.ok ())] := by
  have hsame : ¬ wasmHash X wasm ≠ codeHash := not_not.mpr hhash
  show (onCommand X L s resp returned (.putContract codeHash wasm)).2 = _
  unfold onCommand
  dsimp only
  rw [if_neg hsame]

theorem mem_publish {published : Bool} {topic topic' : String} {data data' : Bytes} :
    Effect.publish topic' data' ∈ publish published topic data ↔
      published = true ∧ topic' = topic ∧ data' = data := by
  unfold publish
  cases published <;> simp

/-- **A contract that is published at one node can be read at another.**  What the server of a node
has accepted goes out as a message if gossipsub takes it, and is answered with success in either
case; a node that gets the message and has room for the contract answers later requests with code of
this hash, whatever happens in between, unless another peer's record of this name gets into its
store. -/
theorem published_is_served {cfg : Config} {env : Env} {headers : Headers}
    {codeHash wasmHex : String} {a a' : AppState} {body : Body}
    (hjson : ∀ wasm, hexDecode wasmHex = some wasm →
      X.jsonFromSlice (X.jsonToVec (contractPayload codeHash wasm)) =
        some (contractPayload codeHash wasm))
    (hput : (putDhtContract X cfg env headers codeHash wasmHex).run a = (a', .ok body)) :
    ∃ wasm data, hexDecode wasmHex = some wasm ∧ wasmHash X wasm = codeHash ∧
      a'.sent = a.sent ++ [.putContract codeHash wasm] ∧
      (∀ (s : State) (resp : Nat) (returned : Returned),
        let effects := (step X L s (.command resp (.putContract codeHash wasm) returned)).2
        .put resp (.ok ()) ∈ effects ∧
          (.publish topicContract data ∈ effects ↔ returned.published = true)) ∧
      ∀ (s : State) (es : List Event), L.admits s.records codeHash wasm = true →
        (∀ e ∈ es, ¬ e.Inbound codeHash) → ∃ wasm', wasmHash X wasm' = codeHash ∧
          (∀ resp returned, (step X L (run X L s (.message topicContract data :: es)).1
            (.command resp (.getContract codeHash) returned)).2 = [.got resp (some wasm')]) ∧
          ∀ (env' : Env) (b : AppState), env'.channel = true → env'.dht = some wasm' →
            ((getDhtContract X env' codeHash).run b).2 =
              .ok (.contract codeHash (hexEncode wasm')) := by
  obtain ⟨hvalid, wasm, hdecode, hhash, hsent⟩ := putDhtContract_ok hput
  refine ⟨wasm, X.jsonToVec (contractPayload codeHash wasm), hdecode, hhash, hsent, ?_, ?_⟩
  · intro s resp returned
    dsimp only
    rw [putContract_effects hhash]
    refine ⟨by simp, ?_⟩
    rw [List.mem_append, mem_publish]
    simp
  intro s es hadmits hes
  obtain ⟨wasm', hrecord, hhash'⟩ :=
    keeps_run (keeps_message (hjson wasm hdecode) hhash hadmits) hes
  refine ⟨wasm', hhash', fun resp returned ↦ getContract_stored hrecord, ?_⟩
  exact fun env' b hchannel hdht ↦ getDhtContract_served b hvalid hhash' hchannel hdht

def demoHash : String := wasmHash demoCrates [7]

/-- Crates that know the message about one contract. -/
def demoContractCrates : Crates :=
  { demoCrates with
    jsonFromSlice := fun text ↦
      [contractPayload demoHash [7]].find? fun j ↦ text == asBytes j.compact }

def demoLibp2p : Libp2p where
  admits _ _ _ := true
  attestationToVec _ := []
  attestationFromSlice _ := none

def demoPublisher : Config where
  chain := "JKC"
  electrsUrl := "http://127.0.0.1"
  localPeerId := "p"
  bridgeApiKey := some "k"
  trustedProxyIps := []

def demoApp : AppState where
  store := .empty demoCrates
  consensus := .new 1
  transfers := ∅
  mintedObjects := ∅
  relays := ∅
  limiter := RateLimiter.new 100
  sent := []

/-- The contract is published at one node, where gossipsub takes the message; another one that was
idle has it after the message, while a third one connects. -/
theorem published_is_served_once : ∃ data wasm', wasmHash demoContractCrates wasm' = demoHash ∧
    .publish topicContract data ∈ (step demoContractCrates demoLibp2p start
      (.command 0 (.putContract demoHash [7]) ⟨true, 0⟩)).2 ∧
    (step demoContractCrates demoLibp2p
      (run demoContractCrates demoLibp2p start
        [.message topicContract data, .connectionEstablished "q"]).1
      (.command 1 (.getContract demoHash) ⟨true, 0⟩)).2 = [.got 1 (some wasm')] := by
  have hjson (wasm : Bytes) (hwasm : hexDecode "07" = some wasm) :
      demoContractCrates.jsonFromSlice
        (demoContractCrates.jsonToVec (contractPayload demoHash wasm)) =
          some (contractPayload demoHash wasm) := by
    have hseven : hexDecode "07" = some [7] := by decide +kernel
    cases hseven.symm.trans hwasm
    show List.find? _ _ = _
    apply List.find?_cons_of_pos
    exact beq_self_eq_true (asBytes (contractPayload demoHash [7]).compact)
  have hput : (putDhtContract demoContractCrates demoPublisher {} ⟨some "Bearer k"⟩ demoHash
      "07").run demoApp =
        ({ demoApp with sent := [.putContract demoHash [7]] }, .ok (.published demoHash)) := by
    rfl
  obtain ⟨wasm, data, -, -, hsent, hanswer, hserve⟩ :=
    published_is_served (L := demoLibp2p) hjson hput
  have hwasm : wasm = [7] := by
    have hlast := List.cons.inj hsent
    exact (P2pCommand.putContract.inj hlast.1).2.symm
  obtain ⟨wasm', hhash, hgot, -⟩ := hserve start [.connectionEstablished "q"] rfl fun e he ↦ by
    rw [List.mem_singleton.mp he]
    rintro (⟨value, h⟩ | h) <;> cases h
  rw [hwasm] at hanswer
  exact ⟨data, wasm', hhash, (hanswer start 0 ⟨true, 0⟩).2.mpr rfl, hgot 1 ⟨true, 0⟩⟩

end P2pService

end UtxoVm
