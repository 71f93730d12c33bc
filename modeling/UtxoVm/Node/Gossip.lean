import UtxoVm.Node.SingleChain
import UtxoVm.Reasoning.Lockstep
import UtxoVm.Scanner.Rescan

/-!
# Does gossip show in the attested roots?

The mempool task feeds what it is sent to the same `process_tx` and the same store as the block
loop.  A gossiped transaction that stores an object, or code, changes the roots that the node signs
from then on.  Gossip that stores neither leaves no trace in them: the roots are those of the blocks
alone.
-/

namespace UtxoVm

open RustStd StateStore BlockProcessor Prog

/-! ## 1. Stores that lead to the same roots -/

/-- The two stores agree on all that running a transaction reads, and on the tree. -/
structure StateStore.SameState (s s' : StateStore) : Prop where
  objects : s'.objects = s.objects
  seals : s'.seals = s.seals
  smt : s'.smt = s.smt
  wasmBlobs : s'.wasmBlobs = s.wasmBlobs

theorem StateStore.SameState.refl (s : StateStore) : SameState s s := ⟨rfl, rfl, rfl, rfl⟩

theorem StateStore.SameState.symm {s s' : StateStore} (h : SameState s s') : SameState s' s :=
  ⟨h.objects.symm, h.seals.symm, h.smt.symm, h.wasmBlobs.symm⟩

theorem StateStore.SameState.trans {s s' s'' : StateStore} (h : SameState s s')
    (h' : SameState s' s'') : SameState s s'' :=
  ⟨h'.objects.trans h.objects, h'.seals.trans h.seals, h'.smt.trans h.smt,
    h'.wasmBlobs.trans h.wasmBlobs⟩

namespace StateStore

variable {X : Crates} {c c' : Bool}

theorem lockstep_commit {write write' : StateStore → StateStore}
    (hwrite : ∀ s s', SameState s s' → SameState (write s) (write' s')) :
    Lockstep SameState (commit c write) (commit c write') := by
  intro s s' h
  rw [run_commit, run_commit]
  cases c with
  | true => exact ⟨hwrite s s' h, rfl⟩
  | false => exact ⟨h, rfl⟩

/-- The undo log and the transitions are not read. -/
theorem lockstep_saveUndoLog (undo undo' : UndoLogRecord) :
    Lockstep SameState (saveUndoLog c undo) (saveUndoLog c undo') :=
  lockstep_commit fun _ _ h ↦ ⟨h.objects, h.seals, h.smt, h.wasmBlobs⟩

theorem lockstep_saveTransition (trans trans' : StateTransitionRecord) :
    Lockstep SameState (saveTransition c trans) (saveTransition c trans') :=
  lockstep_commit fun _ _ h ↦ ⟨h.objects, h.seals, h.smt, h.wasmBlobs⟩

theorem lockstep_saveObject (obj : SmartObjectRecord) :
    Lockstep SameState (saveObject X c obj) (saveObject X c obj) := by
  refine (lockstep_commit fun s s' h ↦ ?_).bind fun _ ↦ .modify fun s s' h ↦ ?_
  · unfold insertObject
    rw [h.objects, h.seals]
    exact ⟨rfl, rfl, h.smt, h.wasmBlobs⟩
  · rw [h.smt]
    exact ⟨h.objects, h.seals, rfl, h.wasmBlobs⟩

theorem lockstep_saveWasm (codeHash : String) (wasmBytes : Bytes) :
    Lockstep SameState (saveWasm X c codeHash wasmBytes) (saveWasm X c codeHash wasmBytes) := by
  unfold saveWasm
  split
  · exact .fail _
  · refine lockstep_commit fun s s' h ↦ ⟨h.objects, h.seals, h.smt, ?_⟩
    rw [h.wasmBlobs]

theorem lockstep_getObjectBySeal (sealRef : String) :
    Lockstep SameState (getObjectBySeal sealRef) (getObjectBySeal sealRef) := by
  refine (Lockstep.read fun s s' h ↦ by rw [h.seals]).bind fun id ↦ ?_
  cases id with
  | none => exact .pure _
  | some objId => exact (Lockstep.read fun s s' h ↦ by rw [h.objects]).bind fun _ ↦ .ofExcept _

theorem lockstep_currentStateRoot :
    Lockstep SameState currentStateRoot currentStateRoot := by
  intro s s' h
  show SameState { s with smt := s.smt.root.1 } { s' with smt := s'.smt.root.1 } ∧
    Except.ok (hexEncode s.smt.root.2.toList) = Except.ok (hexEncode s'.smt.root.2.toList)
  rw [h.smt]
  exact ⟨⟨h.objects, h.seals, rfl, h.wasmBlobs⟩, rfl⟩

end StateStore

/-! ## 2. Transactions on such stores -/

namespace BlockProcessor

variable (X : Crates) (P : BlockProcessor) (w : Writes) (tx : ElectrsTx)

theorem lockstep_processCreate (blockHeight voutIdx : Nat) (out : ElectrsTxOutput)
    (envelope : UtxoVmEnvelope) :
    Lockstep SameState (P.processCreate X w tx blockHeight voutIdx out envelope)
      (P.processCreate X w tx blockHeight voutIdx out envelope) := by
  have hblob : Lockstep SameState (storeBlob X w envelope) (storeBlob X w envelope) := by
    unfold storeBlob
    split
    · exact (lockstep_saveWasm _ _).attempt.bind fun _ ↦ .pure _
    · exact .pure _
  exact hblob.bind fun _ ↦ (Lockstep.ofExcept _).bind fun _ ↦
    (lockstep_saveUndoLog _ _).bind fun _ ↦ (lockstep_saveObject _).bind fun _ ↦ .pure _

theorem lockstep_callResult (obj : SmartObjectRecord) (method : String) (args : Json)
    (caller : String) (satoshis : Nat) :
    Lockstep SameState (P.callResult X obj method args caller satoshis)
      (P.callResult X obj method args caller satoshis) := by
  have hcode : Lockstep SameState (getWasmBytes obj.codeHash) (getWasmBytes obj.codeHash) := by
    unfold getWasmBytes
    split
    · exact .pure _
    · refine (Lockstep.read fun s s' h ↦ by rw [h.wasmBlobs]).bind fun bytes? ↦ ?_
      cases bytes? with
      | none => exact .fail _
      | some bytes => exact .pure _
  unfold callResult
  split
  · refine hcode.attempt.bind fun r ↦ ?_
    cases r with
    | error e =>
      dsimp only
      split
      · exact .fail _
      · exact .pure _
    | ok wasmBytes =>
      dsimp only
      split <;> exact .pure _
  · exact .pure _

/-- The clock only shows in the record of the transition. -/
theorem lockstep_processCall (now now' : Int) (blockHeight voutIdx : Nat) (out : ElectrsTxOutput)
    (envelope : UtxoVmEnvelope) (obj : SmartObjectRecord) :
    Lockstep SameState (P.processCall X w now tx blockHeight voutIdx out envelope obj)
      (P.processCall X w now' tx blockHeight voutIdx out envelope obj) := by
  refine (lockstep_saveUndoLog _ _).bind fun _ ↦ ?_
  refine (lockstep_callResult X P obj _ _ _ _).bind fun result? ↦ ?_
  cases result? with
  | none => exact .pure _
  | some result =>
    exact (lockstep_saveObject _).bind fun _ ↦ (lockstep_saveTransition _ _).bind fun _ ↦ .pure _

theorem lockstep_findTarget (vins : List ElectrsTxInput) :
    Lockstep SameState (findTarget vins) (findTarget vins) := by
  induction vins with
  | nil => exact .pure _
  | cons vin rest ih =>
    refine (lockstep_getObjectBySeal _).attempt.bind fun r ↦ ?_
    rcases r with e | _ | obj
    · exact ih
    · exact ih
    · exact .pure _

theorem lockstep_processTx (now now' : Int) (blockHeight : Nat) :
    Lockstep SameState (P.processTx X w now tx blockHeight)
      (P.processTx X w now' tx blockHeight) := by
  unfold processTx
  generalize tx.vout = outs
  generalize 0 = voutIdx
  induction outs generalizing voutIdx with
  | nil => exact .pure _
  | cons out rest ih =>
    unfold processOutputs
    split
    · exact .fail _
    · exact ih _
    · split
      · split
        · exact lockstep_processCreate X P w tx _ _ _ _
        · exact .pure _
      · split
        · refine (lockstep_findTarget tx.vin).bind fun obj? ↦ ?_
          cases obj? with
          | none => exact ih _
          | some obj => exact lockstep_processCall X P w tx _ _ _ _ _ _ _
        · exact .pure _

/-- The transaction stores neither an object nor a WASM blob. -/
structure StoresNothing (s : StateStore) (r : TxRun) : Prop where
  object : storesObject X P 0 s r = none
  code : ∀ voutIdx out envelope,
    selectAction X P s r.tx = .ok (some (.create voutIdx out envelope)) →
      (isWasm envelope && !envelope.payload.isEmpty) = false

variable {X P}

theorem StoresNothing.sameState {s : StateStore} {r : TxRun} (h : StoresNothing X P s r) :
    SameState s (runTx X P 0 s r) := by
  have hobjects := runTx_sameObjects X P 0 s r
  rw [h.object] at hobjects
  refine ⟨hobjects.objects, hobjects.seals, hobjects.smt, ?_⟩
  unfold runTx
  rw [run_processTx]
  cases haction : selectAction X P s r.tx with
  | error e => rfl
  | ok action? =>
    rcases action? with _ | ⟨voutIdx, out, envelope⟩ | ⟨voutIdx, out, envelope, obj⟩
    · rfl
    · have hblob : afterBlob X r.writes envelope s = s := by
        unfold afterBlob
        rw [h.code _ _ _ haction]
        rfl
      show (run (processCreate ..) s).1.wasmBlobs = _
      rw [run_processCreate, hblob]
      dsimp only
      cases createdObjectId r.tx.txid with
      | error e => rfl
      | ok objId => cases r.writes.undo <;> cases r.writes.object <;> rfl
    · show (run (processCall ..) s).1.wasmBlobs = _
      rw [run_processCall]
      dsimp only
      cases r.writes.undo with
      | false => rfl
      | true =>
        cases callOutcome X P s obj (methodOf (metadataOf envelope)) (argsOf (metadataOf envelope))
            (sender r.tx) out.value with
        | error e => rfl
        | ok result? =>
          cases result? with
          | none => rfl
          | some result => cases r.writes.object <;> cases r.writes.transition <;> rfl

end BlockProcessor

namespace Node

variable (X : Crates) (N : Node)

/-! ## 3. Blocks with gossip between their transactions -/

/-- What the store of a node is fed with: the next transaction of the block that is synchronised, or
a transaction from the mempool. -/
inductive Feed where
  | block (tenv : TxEnv) (tx : ElectrsTx)
  | gossip (r : TxRun)

/-- A block as one node runs it; `env` is what the node meets when it records the block. -/
structure FedBlock where
  height : Nat
  blockHash : String
  feeds : List Feed
  env : PassEnv

/-- An error of a gossiped transaction, or a panic, ends in the mempool task. -/
def Feed.prog (height : Nat) : Feed → TaskProg Unit
  | block tenv tx => do
      let _ ← syncTx X N tenv height tx
      pure ()
  | gossip r => do
      let _ ← ((onStore (N.processor.processTx X r.writes r.now r.tx 0)).attempt :
        TaskProg (Except Exit (Option String)))
      pure ()

def runFeeds (height : Nat) : List Feed → TaskProg Unit
  | [] => pure ()
  | feed :: rest => do
      feed.prog X N height
      runFeeds height rest

/-- The root that is signed for the block. -/
def FedBlock.prog (b : FedBlock) : TaskProg String := do
  runFeeds X N b.height b.feeds
  let stateRoot ← onStore currentStateRoot
  saveSynced N b.env b.height b.blockHash stateRoot
  pure stateRoot

/-- The roots after each of the blocks. -/
def roots : List FedBlock → World → List String
  | [], _ => []
  | b :: rest, w =>
      match (b.prog X N).run w with
      | (w', .ok stateRoot) => stateRoot :: roots rest w'
      | (_, .error _) => []

/-- What the chain contributes: the transactions of the block, with the answers of the DHT. -/
def Feed.onChain? : Feed → Option Feed
  | block tenv tx => some (.block { tenv with now := 0, retryNow := 0 } tx)
  | gossip _ => none

def FedBlock.onChain (b : FedBlock) : FedBlock :=
  { b with feeds := b.feeds.filterMap Feed.onChain?, env := { tip := none } }

/-- No gossiped transaction stores anything. -/
def QuietFeeds (height : Nat) : List Feed → World → Prop
  | [], _ => True
  | feed :: rest, w =>
      (∀ r, feed = .gossip r → StoresNothing X N.processor w.store r) ∧
        QuietFeeds height rest ((feed.prog X N height).run w).1

def Quiet : List FedBlock → World → Prop
  | [], _ => True
  | b :: rest, w => QuietFeeds X N b.height b.feeds w ∧ Quiet rest ((b.prog X N).run w).1

variable {X N}

/-- Nodes whose stores lead to the same roots. -/
def SameRoots (w w' : World) : Prop := SameState w.store w'.store

theorem lockstep_onStore {α : Type} {p q : StoreProg α} (hp : Lockstep SameState p q) :
    Lockstep SameRoots (onStore p) (onStore q) := by
  refine Lockstep.zoom ?_ ?_ ?_ hp
  · exact fun _ _ ↦ rfl
  · exact fun _ _ _ ↦ rfl
  · exact fun _ ↦ rfl

theorem lockstep_caught {α : Type} {p q : TaskProg α} (hp : Lockstep SameRoots p q) :
    Lockstep SameRoots (caught p) (caught q) := by
  refine hp.attempt.bind fun r ↦ ?_
  rcases r with (e | _) | a
  · exact .pure _
  · exact .fail _
  · exact .pure _

theorem lockstep_syncTx (tenv : TxEnv) (now retryNow : Int) (height : Nat) (tx : ElectrsTx) :
    Lockstep SameRoots (syncTx X N tenv height tx)
      (syncTx X N { tenv with now, retryNow } height tx) := by
  refine (lockstep_caught (lockstep_onStore (lockstep_processTx X N.processor _ _ _ _ _))).bind
    fun first ↦ ?_
  cases first with
  | ok r => exact .pure _
  | error e =>
    dsimp only
    split
    · refine (lockstep_caught (lockstep_onStore (lockstep_saveWasm _ _))).bind fun saved ↦ ?_
      cases saved with
      | error e => exact .pure _
      | ok u =>
        exact lockstep_caught (lockstep_onStore (lockstep_processTx X N.processor _ _ _ _ _))
    · exact .pure _

theorem run_saveSynced (env : PassEnv) (height : Nat) (blockHash stateRoot : String) (w : World) :
    SameRoots w ((saveSynced N env height blockHash stateRoot).run w).1 ∧
      ((saveSynced N env height blockHash stateRoot).run w).2 = .ok () := by
  unfold saveSynced
  cases env.savesBlock height <;> cases env.savesCursor height <;>
    exact ⟨⟨rfl, rfl, rfl, rfl⟩, rfl⟩

theorem lockstep_saveSynced (env env' : PassEnv) (height : Nat) (blockHash stateRoot : String) :
    Lockstep SameRoots (saveSynced N env height blockHash stateRoot)
      (saveSynced N env' height blockHash stateRoot) := by
  intro w w' h
  obtain ⟨hsame, hend⟩ := run_saveSynced (N := N) env height blockHash stateRoot w
  obtain ⟨hsame', hend'⟩ := run_saveSynced (N := N) env' height blockHash stateRoot w'
  exact ⟨(hsame.symm.trans h).trans hsame', hend.trans hend'.symm⟩

/-! ## 4. The roots of the chain -/

theorem run_gossip (height : Nat) (r : TxRun) (w : World) :
    ((Feed.gossip r).prog X N height).run w =
      ({ w with store := runTx X N.processor 0 w.store r }, .ok ()) := by
  unfold Feed.prog onStore
  rw [run_bind, run_attempt, run_zoom]
  · rfl
  · exact fun _ _ ↦ rfl
  · exact fun _ _ _ ↦ rfl
  · exact fun _ ↦ rfl

/-- Gossip that stores nothing is a step of one of two nodes that the other does not take. -/
theorem StoresNothing.endAlike {w w' : World} (h : SameRoots w w') {r : TxRun}
    (hr : StoresNothing X N.processor w.store r) (height : Nat) :
    EndAlike SameRoots (((Feed.gossip r).prog X N height).run w) (w', .ok ()) := by
  rw [run_gossip]
  exact ⟨hr.sameState.symm.trans h, rfl⟩

theorem run_runFeeds_cons (height : Nat) (feed : Feed) (rest : List Feed) (w : World) :
    (runFeeds X N height (feed :: rest)).run w =
      andThen ((feed.prog X N height).run w) fun _ ↦ runFeeds X N height rest :=
  run_bind ..

theorem runFeeds_onChain {height : Nat} {feeds : List Feed} {w w' : World} (h : SameRoots w w')
    (hquiet : QuietFeeds X N height feeds w) :
    EndAlike SameRoots ((runFeeds X N height feeds).run w)
      ((runFeeds X N height (feeds.filterMap Feed.onChain?)).run w') := by
  induction feeds generalizing w w' with
  | nil => exact ⟨h, rfl⟩
  | cons feed rest ih =>
    obtain ⟨hfeed, hrest⟩ := hquiet
    rw [run_runFeeds_cons]
    cases feed with
    | gossip r =>
      have hskipped : Feed.onChain? (.gossip r) = none := rfl
      rw [List.filterMap_cons_none hskipped]
      exact (StoresNothing.endAlike h (hfeed r rfl) height).andThen (g := fun _ ↦
        runFeeds X N height (rest.filterMap Feed.onChain?)) fun _ hstates ↦ ih hstates hrest
    | block tenv tx =>
      have hstep : Lockstep SameRoots ((Feed.block tenv tx).prog X N height)
          ((Feed.block { tenv with now := 0, retryNow := 0 } tx).prog X N height) :=
        (lockstep_syncTx tenv 0 0 height tx).bind fun _ ↦ .pure _
      have hchain : Feed.onChain? (.block tenv tx) =
        some (.block { tenv with now := 0, retryNow := 0 } tx) := rfl
      rw [List.filterMap_cons_some hchain, run_runFeeds_cons]
      exact (hstep w w' h).andThen fun _ hstates ↦ ih hstates hrest

/-- A block as one node runs it, and as the chain has it. -/
theorem run_onChain {b : FedBlock} {w w' : World} (h : SameRoots w w')
    (hquiet : QuietFeeds X N b.height b.feeds w) :
    EndAlike SameRoots ((b.prog X N).run w) ((b.onChain.prog X N).run w') := by
  unfold FedBlock.prog
  rw [run_bind, run_bind]
  refine (runFeeds_onChain h hquiet).andThen fun _ hstates ↦ ?_
  have hrest := (lockstep_onStore lockstep_currentStateRoot).bind fun stateRoot ↦
    (lockstep_saveSynced (N := N) b.env b.onChain.env b.height b.blockHash stateRoot).bind
      fun _ ↦ Lockstep.pure stateRoot
  exact hrest _ _ hstates

/-- Quiet gossip leaves the roots of the blocks alone. -/
theorem roots_onChain {bs : List FedBlock} {w w' : World} (h : SameRoots w w')
    (hquiet : Quiet X N bs w) : roots X N bs w = roots X N (bs.map FedBlock.onChain) w' := by
  induction bs generalizing w w' with
  | nil => rfl
  | cons b rest ih =>
    obtain ⟨hb, hrest⟩ := hquiet
    obtain ⟨hstates, hresults⟩ := run_onChain h hb
    have hnext := ih hstates hrest
    rw [List.map_cons]
    unfold roots
    generalize (b.prog X N).run w = r at hresults hnext
    generalize (b.onChain.prog X N).run w' = r' at hresults hnext
    obtain ⟨u, e | root⟩ := r
    · obtain ⟨u', _⟩ := r'
      cases hresults
      rfl
    · obtain ⟨u', _⟩ := r'
      cases hresults
      exact congrArg (root :: ·) hnext

/-- **The roots are those of the chain.**  Two nodes that start from one store and run the same
blocks compute the same root after each of them, if no gossiped transaction stores anything, on
either. -/
theorem roots_follow_chain {bs bs' : List FedBlock} {w w' : World} (hstore : w'.store = w.store)
    (hblocks : bs.map FedBlock.onChain = bs'.map FedBlock.onChain) (hquiet : Quiet X N bs w)
    (hquiet' : Quiet X N bs' w') : roots X N bs w = roots X N bs' w' := by
  have hself : SameRoots w' w' := .refl _
  have hsame : SameRoots w w' := by
    unfold SameRoots
    rw [hstore]
    exact .refl _
  calc roots X N bs w = roots X N (bs.map FedBlock.onChain) w' := roots_onChain hsame hquiet
    _ = roots X N (bs'.map FedBlock.onChain) w' := by rw [hblocks]
    _ = roots X N bs' w' := (roots_onChain hself hquiet').symm

end Node

/-! ## 5. Two pairs of nodes -/

def demoFedNode : Node := { demoNode with chain := "JKC" }

def demoFresh : World := Node.fresh demoCrates (ConsensusManager.new 1) fun _ ↦ none

/-- A first block, as a node runs it that is fed with `feeds`. -/
def demoFed (feeds : List Node.Feed) : Node.FedBlock where
  height := 1
  blockHash := demoHash 1
  feeds
  env := { tip := none }

/-- The root after one gossiped transaction. -/
theorem roots_gossip (r : TxRun) (w : World) :
    Node.roots demoCrates demoFedNode [demoFed [.gossip r]] w =
      [hexEncode (runTx demoCrates demoProcessor 0 w.store r).smt.root.2.toList] := by
  have hfed : (Node.runFeeds demoCrates demoFedNode 1 [.gossip r]).run w =
      ({ w with store := runTx demoCrates demoProcessor 0 w.store r }, .ok ()) := by
    rw [Node.run_runFeeds_cons, Node.run_gossip]
    rfl
  unfold Node.roots Node.FedBlock.prog demoFed
  dsimp only
  rw [run_bind, hfed]
  rfl

/-- A gossiped create, on one of two nodes. -/
theorem gossip_changes_root :
    ¬ ∀ bs bs' : List Node.FedBlock,
      bs.map Node.FedBlock.onChain = bs'.map Node.FedBlock.onChain →
        Node.roots demoCrates demoFedNode bs demoFresh =
          Node.roots demoCrates demoFedNode bs' demoFresh := by
  intro hclaim
  have hstores : storesObject demoCrates demoProcessor 0 (empty demoCrates) demoCreateRun =
      some (demoObject 0) := by
    unfold storesObject demoCreateRun
    rw [demoCreateTx_planned]
    rfl
  have hsmt : (runTx demoCrates demoProcessor 0 (empty demoCrates) demoCreateRun).smt =
      smtInsert demoCrates demoEmptyTree (demoObject 0) := by
    have hput (s : StateStore) (obj : SmartObjectRecord) :
        (putStored demoCrates (some obj) s).smt = smtInsert demoCrates s.smt obj := rfl
    have hempty : (empty demoCrates).smt = demoEmptyTree := rfl
    rw [(runTx_sameObjects demoCrates demoProcessor 0 (empty demoCrates) demoCreateRun).smt,
      hstores, hput, hempty]
  have hsame := hclaim [demoFed []] [demoFed [.gossip demoCreateRun]] rfl
  have hempty : Node.roots demoCrates demoFedNode [demoFed []] demoFresh =
      [hexEncode demoEmptyTree.root.2.toList] := rfl
  have hgossip : Node.roots demoCrates demoFedNode [demoFed [.gossip demoCreateRun]] demoFresh =
      [hexEncode (smtInsert demoCrates demoEmptyTree (demoObject 0)).root.2.toList] := by
    rw [← hsmt]
    exact roots_gossip demoCreateRun demoFresh
  rw [hempty, hgossip] at hsame
  exact demoRoot_ne 0 (List.cons.inj hsame).1

/-- A gossiped call that comes before its object does nothing, and the clocks differ. -/
theorem roots_follow_chain_early :
    Node.roots demoCrates demoFedNode
        [demoFed [.gossip demoCallRun, .block {} demoCreateTx]] demoFresh =
      Node.roots demoCrates demoFedNode [demoFed [.block { now := 7 } demoCreateTx]] demoFresh := by
  have hnothing : selectAction demoCrates demoProcessor (empty demoCrates) demoCallTx =
      .ok none := by
    set_option maxRecDepth 4000 in
    rfl
  have hearly : StoresNothing demoCrates demoProcessor (empty demoCrates) demoCallRun := by
    constructor
    · unfold storesObject plannedUpdate demoCallRun
      rw [hnothing]
      rfl
    · intro voutIdx out envelope haction
      cases hnothing.symm.trans haction
  refine Node.roots_follow_chain rfl rfl ⟨⟨?_, nofun, trivial⟩, trivial⟩ ⟨⟨nofun, trivial⟩, trivial⟩
  rintro r ⟨⟩
  exact hearly

end UtxoVm
