import UtxoVm.Consensus.Attestation
import UtxoVm.Reasoning.RelyGuarantee
import UtxoVm.Scanner.Processor

/-!
# The tasks of the node (`main.rs`)

One pass of the block sync loop, as a program over what the node and its surroundings share: the
store, the consensus manager, the attestations given to gossip, and the L1 chain that electrs
serves.  A pass carries what it gets from outside: which requests and which accesses to the database
succeed, what the DHT answers, the clock and the signing randomness.  Beside it run the mempool
task, the listener for attestations, and L1, which may replace its chain before any request.
-/

namespace UtxoVm

open RustStd StateStore BlockProcessor Interleaving

/-- The blocks of L1 by hash: the parent named in the header, and the transactions. -/
structure L1Blocks where
  parent : String → Option String
  txs : String → List ElectrsTx

/-- The hashes that electrs serves, by height. -/
abbrev L1Chain := Nat → Option String

/-- Every block above height 0 names the one below it. -/
def L1Blocks.IsChain (B : L1Blocks) (v : L1Chain) : Prop :=
  ∀ h b, v (h + 1) = some b → ∃ a, v h = some a ∧ B.parent b = some a

/-- The stored objects and the index of their seals. -/
abbrev ObjectTables := Table String SmartObjectRecord × Table String String

def StateStore.objectTables (s : StateStore) : ObjectTables := (s.objects, s.seals)

/-- A block that the loop has fetched: what was stored then, and the transactions that it has run,
with how each of them ended. -/
structure Handled where
  height : Nat
  blockHash : String
  before : ObjectTables
  ran : List (ElectrsTx × Except Exit (Option String))

/-- `handled` only keeps record: the blocks fetched and not rolled back, the latest first. -/
structure World where
  store : StateStore
  consensus : ConsensusManager
  l1 : L1Chain
  broadcasts : List StateAttestation
  handled : List Handled

/-- Code of the tasks. -/
abbrev TaskProg := Prog World Exit

namespace World

def fetch (height : Nat) (blockHash : String) (w : World) : World :=
  { w with handled := ⟨height, blockHash, w.store.objectTables, []⟩ :: w.handled }

/-- Note how a transaction of the latest block has ended. -/
def note (tx : ElectrsTx) (result : Except Exit (Option String)) (w : World) : World :=
  match w.handled with
  | b :: rest => { w with handled := { b with ran := b.ran ++ [(tx, result)] } :: rest }
  | [] => w

def dropAbove (height : Nat) (w : World) : World :=
  { w with handled := w.handled.filter (·.height ≤ height) }

end World

def onStore {α : Type} (p : StoreProg α) : TaskProg α :=
  p.zoom (·.store) fun store w ↦ { w with store }

/-- An error becomes a value; a panic ends the task. -/
def caught {α : Type} (p : TaskProg α) : TaskProg (Except Error α) := do
  match ← p.attempt with
  | .ok a => pure (.ok a)
  | .error (.err e) => pure (.error e)
  | .error .panic => .fail .panic

/-! ## 1. What a pass gets from outside -/

/-- For one transaction: the commits and clocks of its two runs, and the fetch from the DHT. -/
structure TxEnv where
  writes : Writes := {}
  now : Int := 0
  dht : Option Bytes := none
  savesWasm : Bool := true
  retryWrites : Writes := {}
  retryNow : Int := 0

/-- The functions are indexed by the height, `tx` also by the position in the block. -/
structure PassEnv where
  tip : Option Nat
  readsCursor : Bool := true
  readsBlock : Nat → Bool := fun _ ↦ true
  /-- Answers to the hash requests of the reorg check and of the catch-up. -/
  checksHash : Nat → Bool := fun _ ↦ true
  fetchesHash : Nat → Bool := fun _ ↦ true
  fetchesTxs : Nat → Bool := fun _ ↦ true
  rollsBack : Bool := true
  tx : Nat → Nat → TxEnv := fun _ _ ↦ {}
  savesBlock : Nat → Bool := fun _ ↦ true
  savesCursor : Nat → Bool := fun _ ↦ true
  now : Nat → Int := fun _ ↦ 0
  nonce : Nat → Bytes := fun _ ↦ []

/-- The command line of the node. -/
structure Node where
  chain : String
  startHeight : Option Nat
  validatorKey : Option String
  minExecutionFee : Nat
  feeCollector : Option String
  runtime : VmRuntime

namespace Node

def processor (N : Node) : BlockProcessor where
  chain := N.chain
  runtime := N.runtime
  minExecutionFee := N.minExecutionFee
  feeCollector := N.feeCollector

variable (X : Crates) (B : L1Blocks) (N : Node) (env : PassEnv)

/-! ## 2. Reorg detection -/

/-- `get_last_sync_block(..).unwrap_or(0)`. -/
def readCursor : TaskProg Nat :=
  if env.readsCursor then onStore (getLastSyncBlock N.chain) else pure 0

/-- The height that the pass takes as synced. -/
def lastSynced : TaskProg Nat := do
  let last ← readCursor N env
  if last = 0 then
    match N.startHeight with
    | some sh => pure (sh - 1)
    | none => pure last
  else pure last

/-- `if let Ok(Some(local)) = get_block(..)`. -/
def storedBlock (height : Nat) : TaskProg (Option BlockRecord) :=
  if env.readsBlock height then onStore (getBlock N.chain height) else pure none

/-- `get_block_hash` during the reorg check: a failure of the request is `none`. -/
def checkedHash (height : Nat) : TaskProg (Option String) :=
  .read fun w ↦ if env.checksHash height then w.l1 height else none

/-- The search for the common ancestor, from `ancestor` down to height 1; `none` when it is not
found, or when a request fails. -/
def backtrack : Nat → TaskProg (Option Nat)
  | 0 => pure none
  | a + 1 => do
      match ← storedBlock N env (a + 1) with
      | none => backtrack a
      | some prevLocal =>
          match ← checkedHash env (a + 1) with
          | none => pure none
          | some prevL1Hash =>
              if prevL1Hash = prevLocal.blockHash then pure (some (a + 1)) else backtrack a

/-- The write transaction of `rollback_to_block`. -/
def rollbackTxn (targetHeight : Nat) : StoreProg Nat :=
  writeTxn env.rollsBack fun s ↦ do
    let logs ← undoLogsAbove s N.chain targetHeight
    pure (undoAll N.chain targetHeight logs s, logs.length)

/-- The tree of the objects that are left. -/
def rebuildTree : StoreProg Unit := do
  let allObjs ← getAllObjects
  .modify fun s ↦ { s with smt := smtOf X allObjs }

theorem rollbackToBlock_eq (targetHeight : Nat) :
    rollbackToBlock X env.rollsBack N.chain targetHeight = (do
      let rolledBack ← rollbackTxn N env targetHeight
      rebuildTree X
      pure rolledBack) := by
  unfold rollbackToBlock rebuildTree
  congr 1
  funext rolledBack
  rw [Prog.bind_bind]

/-- The same transaction of the task: when it commits, the blocks above the target are gone. -/
def undoBlocks (targetHeight : Nat) : TaskProg Nat :=
  .act
    (fun w ↦
      match (rollbackTxn N env targetHeight).run w.store with
      | (store, .ok _) => { w with store }.dropAbove targetHeight
      | (store, .error _) => { w with store })
    fun w ↦ .ofExcept ((rollbackTxn N env targetHeight).run w.store).2

theorem undoBlocks_eq (targetHeight : Nat) :
    undoBlocks N env targetHeight = .act
      (fun w ↦
        match undoLogsAbove w.store N.chain targetHeight with
        | .ok logs =>
            if env.rollsBack then
              { w with store := undoAll N.chain targetHeight logs w.store }.dropAbove targetHeight
            else w
        | .error _ => w)
      fun w ↦
        match undoLogsAbove w.store N.chain targetHeight with
        | .ok logs => if env.rollsBack then .done logs.length else .fail (.err .storage)
        | .error e => .fail e := by
  unfold undoBlocks rollbackTxn writeTxn
  congr 1
  · funext w
    dsimp only [Prog.run]
    cases undoLogsAbove w.store N.chain targetHeight with
    | error e => rfl
    | ok logs => cases env.rollsBack <;> rfl
  · funext w
    dsimp only [Prog.run]
    cases undoLogsAbove w.store N.chain targetHeight with
    | error e => rfl
    | ok logs => cases env.rollsBack <;> rfl

/-- `rollback_to_block`. -/
def rollback (targetHeight : Nat) : TaskProg Nat := do
  let rolledBack ← undoBlocks N env targetHeight
  onStore (rebuildTree X)
  pure rolledBack

/-- The outcome of the check: no reorg seen, or one that was rolled back to an ancestor, or one
that ends the pass. -/
inductive Check where
  | noReorg
  | reorg (ancestor : Option Nat)

def reorgCheck (last : Nat) : TaskProg Check := do
  if last = 0 then pure .noReorg
  else
    match ← storedBlock N env last with
    | none => pure .noReorg
    | some localBlock =>
        match ← checkedHash env last with
        | none => pure .noReorg
        | some l1Hash =>
            if l1Hash = localBlock.blockHash then pure .noReorg
            else
              match ← backtrack N env (last - 1) with
              | none => pure (.reorg none)
              | some ancestor =>
                  match ← caught (rollback X N env ancestor) with
                  | .ok _ => pure (.reorg (some ancestor))
                  | .error _ => pure (.reorg none)

/-! ## 3. Catch-up -/

/-- Run a transaction of the block; after a fetch of its missing WASM blob, run it once more. -/
def syncTx (tenv : TxEnv) (height : Nat) (tx : ElectrsTx) :
    TaskProg (Except Error (Option String)) := do
  let first ← caught (onStore (N.processor.processTx X tenv.writes tenv.now tx height))
  match first with
  | .ok _ => pure first
  | .error e =>
      match missingWasmHash (.err e), tenv.dht with
      | some codeHash, some bytes => do
          match ← caught (onStore (saveWasm X tenv.savesWasm codeHash bytes)) with
          | .ok () =>
              caught (onStore (N.processor.processTx X tenv.retryWrites tenv.retryNow tx height))
          | .error _ => pure first
      | _, _ => pure first

def syncTxs (height : Nat) : Nat → List ElectrsTx → TaskProg Unit
  | _, [] => pure ()
  | i, tx :: rest => do
      let last ← syncTx X N (env.tx height i) height tx
      .modify (·.note tx (last.mapError .err))
      syncTxs height (i + 1) rest

/-- `get_block_hash` during the catch-up. -/
def fetchedHash (height : Nat) : TaskProg (Option String) :=
  .act
    (fun w ↦
      match w.l1 height with
      | some blockHash => if env.fetchesHash height then w.fetch height blockHash else w
      | none => w)
    fun w ↦ .done (if env.fetchesHash height then w.l1 height else none)

/-- `get_block_txs`: the hash must be 64 hex digits, and electrs serves the first 25
transactions. -/
def blockTxs (height : Nat) (blockHash : String) : Option (List ElectrsTx) :=
  if validateHexHash blockHash 32 && env.fetchesTxs height then some ((B.txs blockHash).take 25)
  else none

/-- Sign and broadcast, if a usable validator key is configured. -/
def attest (height : Nat) (blockHash stateRoot : String) : TaskProg Unit :=
  match N.validatorKey.bind hexDecode with
  | some secretKey =>
      if X.secretKeyFromSlice secretKey then do
        let attestation := signStateRoot X secretKey (env.nonce height) N.chain height blockHash
          stateRoot (env.now height)
        .modify fun w ↦
          { w with consensus := (addAttestation X w.consensus attestation (env.now height)).1 }
        .modify fun w ↦ { w with broadcasts := w.broadcasts ++ [attestation] }
      else pure ()
  | none => pure ()

/-- The block record and the cursor are written one after the other; failures are ignored. -/
def saveSynced (height : Nat) (blockHash stateRoot : String) : TaskProg Unit := do
  let _ ← caught (onStore (saveBlock (env.savesBlock height)
    { chain := N.chain
      blockHeight := height
      blockHash
      prevHash := none
      stateRoot
      timestamp := env.now height }))
  let _ ← caught (onStore (setLastSyncBlock (env.savesCursor height) N.chain height))
  pure ()

def syncBlock (height : Nat) : TaskProg Unit := do
  match ← fetchedHash env height with
  | none => pure ()
  | some blockHash => do
      syncTxs X N env height 0 ((blockTxs B env height blockHash).getD [])
      let stateRoot ← onStore (currentStateRoot)
      saveSynced N env height blockHash stateRoot
      attest X N env height blockHash stateRoot

def catchUp : List Nat → TaskProg Unit
  | [] => pure ()
  | height :: rest => do
      syncBlock X B N env height
      catchUp rest

/-- `(last + 1)..=tip`. -/
def newHeights (last tip : Nat) : List Nat := List.range' (last + 1) (tip - last)

/-! ## 4. The pass and the other tasks -/

/-- One pass of the loop; it says whether a reorg was detected. -/
def pass : TaskProg Bool :=
  match env.tip with
  | none => pure false
  | some tip => do
      let last ← lastSynced N env
      match ← reorgCheck X N env last with
      | .noReorg => do
          catchUp X B N env (newHeights last tip)
          pure false
      | .reorg (some ancestor) => do
          catchUp X B N env (newHeights ancestor tip)
          pure true
      | .reorg none => pure true

inductive Task where
  | sync
  | mempool
  | listener
  | l1
  deriving DecidableEq, Repr

/-- What a task does next; the messages of the mempool and of the listener come from the network. -/
inductive Call where
  | pass (env : PassEnv)
  | mempoolTx (writes : Writes) (now : Int) (tx : ElectrsTx)
  | listen (attestation : StateAttestation) (now : Int)
  | replaceChain (v : L1Chain)

def Call.task : Call → Task
  | pass _ => .sync
  | mempoolTx .. => .mempool
  | listen .. => .listener
  | replaceChain _ => .l1

def Call.prog : Call → TaskProg Bool
  | pass env => N.pass X B env
  | mempoolTx writes now tx => do
      let _ ← caught (onStore (N.processor.processTx X writes now tx 0))
      pure false
  | listen attestation now => do
      .modify fun w ↦ { w with consensus := (addAttestation X w.consensus attestation now).1 }
      pure false
  | replaceChain v => do
      .modify fun w ↦ { w with l1 := v }
      pure false

/-- The tasks of a node.  An action may be performed when `cond` relates the states before and after
it.  A restart opens the store again and starts with another consensus manager. -/
def tasks (cond : World → World → Prop) : System World Exit Bool Task Call where
  prog := Call.prog X B N
  canStart _ _ i call := call.task = i ∧ ∀ v, call = .replaceChain v → B.IsChain v
  canAct w T i := ∀ call upd next, T i = some (call, .act upd next) → cond w (upd w)
  restart w w' := ∃ consensus, w' = { w with store := StateStore.open X w.store, consensus }

/-- A node that has never run, on an L1 chain. -/
def fresh (consensus : ConsensusManager) (v : L1Chain) : World where
  store := StateStore.empty X
  consensus
  l1 := v
  broadcasts := []
  handled := []

/-! ## 5. Runs of single tasks -/

section

variable {X B N} {cond : World → World → Prop} {w₀ w : World} {T : Pool World Exit Bool Task Call}

/-- A task performs `n` actions, each of which meets the condition. -/
theorem reachable_actions (h : Reachable (tasks X B N cond) w₀ w T) {i : Task} {call : Call}
    {p : TaskProg Bool} (hi : T i = some (call, p)) (n : Nat)
    (hcond : ∀ m < n, cond (p.crash m w) (p.crash (m + 1) w)) :
    ∃ T', Reachable (tasks X B N cond) w₀ (p.crash n w) T' ∧ T' i = some (call, p.after n w) ∧
      ∀ j, j ≠ i → T' j = T j := by
  refine h.acts hi n fun m hm T' hT' ↦ ?_
  intro call' upd next hnext
  rw [hT', Option.some.injEq, Prod.mk.injEq] at hnext
  rw [← crash_succ hnext.2]
  exact hcond m hm

theorem reachable_startPass (h : Reachable (tasks X B N cond) w₀ w T) (hfree : T .sync = none)
    (env : PassEnv) :
    Reachable (tasks X B N cond) w₀ w
      (Function.update T .sync (some (.pass env, N.pass X B env))) :=
  h.step (.start (S := tasks X B N cond) (k := .pass env) hfree ⟨rfl, fun v hv ↦ by cases hv⟩)

/-- A pass from its start to its end. -/
theorem reachable_pass (h : Reachable (tasks X B N cond) w₀ w T) (hfree : T .sync = none)
    (env : PassEnv) (n : Nat)
    (hcond : ∀ m < n, cond ((N.pass X B env).crash m w) ((N.pass X B env).crash (m + 1) w))
    {reorg : Bool} (hend : ((N.pass X B env).after n w).result? = some reorg) :
    ∃ T', Reachable (tasks X B N cond) w₀ ((N.pass X B env).crash n w) T' ∧ T' .sync = none ∧
      ∀ j, j ≠ .sync → T' j = T j := by
  obtain ⟨T', hreach, hsync, hothers⟩ :=
    reachable_actions (reachable_startPass h hfree env) (Function.update_self ..) n hcond
  rw [Prog.eq_done hend] at hsync
  refine ⟨_, hreach.step (.returned hsync), Function.update_self .., fun j hj ↦ ?_⟩
  rw [Function.update_of_ne hj, hothers j hj, Function.update_of_ne hj]

theorem reachable_replaceChain (h : Reachable (tasks X B N cond) w₀ w T) (hfree : T .l1 = none)
    {v : L1Chain} (hv : B.IsChain v) (hcond : cond w { w with l1 := v }) :
    ∃ T', Reachable (tasks X B N cond) w₀ { w with l1 := v } T' ∧ T' .l1 = none ∧
      ∀ j, j ≠ .l1 → T' j = T j := by
  have hstart := h.step (.start (S := tasks X B N cond) (k := .replaceChain v) hfree
    ⟨rfl, fun v' hv' ↦ by cases hv'; exact hv⟩)
  have hact := hstart.step (.act (Function.update_self ..) fun call upd next hnext ↦ ?_)
  · refine ⟨_, hact.step (.returned (Function.update_self ..)), Function.update_self .., ?_⟩
    intro j hj
    rw [Function.update_of_ne hj, Function.update_of_ne hj, Function.update_of_ne hj]
  · rw [Function.update_self] at hnext
    cases hnext
    exact hcond

/-- A pass, another chain on L1, and a second pass. -/
theorem reachable_reorg {env : PassEnv} {v : L1Chain} {m n : Nat} {reorg reorg' : Bool} {w' : World}
    (hv : B.IsChain v)
    (hfirst : ∀ k < m, cond ((N.pass X B env).crash k w₀) ((N.pass X B env).crash (k + 1) w₀))
    (hend : ((N.pass X B env).after m w₀).result? = some reorg)
    (hw' : w' = { (N.pass X B env).crash m w₀ with l1 := v })
    (hreplaced : cond ((N.pass X B env).crash m w₀) w')
    (hsecond : ∀ k < n, cond ((N.pass X B env).crash k w') ((N.pass X B env).crash (k + 1) w'))
    (hend' : ((N.pass X B env).after n w').result? = some reorg') :
    ∃ T, Reachable (tasks X B N cond) w₀ ((N.pass X B env).crash n w') T := by
  obtain ⟨T₁, hreach₁, hsync₁, hothers₁⟩ := reachable_pass .init rfl env m hfirst hend
  subst hw'
  obtain ⟨T₂, hreach₂, -, hothers₂⟩ :=
    reachable_replaceChain hreach₁ (hothers₁ _ (by decide)) hv hreplaced
  rw [← hothers₂ _ (by decide)] at hsync₁
  obtain ⟨T₃, hreach₃, -⟩ := reachable_pass hreach₂ hsync₁ env n hsecond hend'
  exact ⟨T₃, hreach₃⟩

end

end Node

end UtxoVm
