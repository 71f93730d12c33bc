import UtxoVm.CrossChain.LockRuns
import UtxoVm.Node.SingleChain
import UtxoVm.Node.TaskWrites
import UtxoVm.Storage.Rollback

/-!
# The daemon (`main.rs`)

All that runs in one node: the tasks, and any number of requests to the RPC server, on one store,
one consensus manager and one bridge.  A restart opens the store again and fills the caches from it;
the consensus manager, the relay and the limiter start empty.  Mints of one transfer wait for each
other in the code; here they need not, so that every run of the code is among the runs below.
-/

namespace UtxoVm

open RustStd StateStore Prog Interleaving Rpc

/-- What the tasks and the handlers share; the fields other than `app` belong to the tasks. -/
structure Daemon where
  app : AppState
  l1 : L1Chain
  broadcasts : List StateAttestation
  handled : List Handled

namespace Daemon

/-- What the tasks see. -/
def world (d : Daemon) : World where
  store := d.app.store
  consensus := d.app.consensus
  l1 := d.l1
  broadcasts := d.broadcasts
  handled := d.handled

def setWorld (w : World) (d : Daemon) : Daemon where
  app := { d.app with store := w.store, consensus := w.consensus }
  l1 := w.l1
  broadcasts := w.broadcasts
  handled := w.handled

/-- How a call ends: a pass says whether it saw a reorg, a request is answered. -/
inductive Outcome where
  | ended (reorg : Bool)
  | answered (answer : Except (StatusCode × String) Body)

inductive Call where
  | task (call : Node.Call)
  | request (env : Env) (arrival : Arrival) (request : Request)

/-- One thread for each task, and as many as are needed for requests. -/
abbrev Thread := Node.Task ⊕ Nat

/-- A refusal is an answer; a panic ends the thread. -/
def respond (p : RpcProg Body) : Prog AppState Exit Outcome := do
  match ← p.attempt with
  | .ok body => pure (.answered (.ok body))
  | .error (.refused status text) => pure (.answered (.error (status, text)))
  | .error .panic => .fail .panic

variable (X : Crates) (B : L1Blocks) (N : Node) (cfg : Config)

def Call.prog : Call → Prog Daemon Exit Outcome
  | task call => do
      let reorg ← (call.prog X B N).zoom world setWorld
      pure (.ended reorg)
  | request env arrival r =>
      (respond (serve X cfg env arrival r)).zoom (·.app) fun app d ↦ { d with app }

/-- The state of `AppState` at startup, over an opened store. -/
def startup (quorum rateLimitRps : Nat) (sent : List P2pCommand) (store : StateStore) :
    AppState where
  store
  consensus := .new quorum
  transfers := (BridgeManager.new store).transfers
  mintedObjects := (BridgeManager.new store).mintedObjects
  relays := ∅
  limiter := .new rateLimitRps
  sent

/-- The first start, on an empty database. -/
def firstStart (quorum rateLimitRps : Nat) (v : L1Chain) : Daemon where
  app := startup quorum rateLimitRps [] (.empty X)
  l1 := v
  broadcasts := []
  handled := []

/-- The threads of the daemon.  A restart may come with other command line options. -/
def system : System Daemon Exit Outcome Thread Call where
  prog := Call.prog X B N cfg
  canStart _ _ i call :=
    match call, i with
    | .task call, .inl task => call.task = task ∧ ∀ v, call = .replaceChain v → B.IsChain v
    | .request _ _ _, .inr _ => True
    | _, _ => False
  canAct _ _ _ := True
  restart d d' := ∃ quorum rateLimitRps, d' =
    { d with app := startup quorum rateLimitRps d.app.sent (StateStore.open X d.app.store) }

/-! ## 1. Single writes -/

/-- A single write of a call. -/
def Write : Call → Daemon → Daemon → Prop
  | .task call, d, d' => ∃ w, Node.CallWrite X call d.world w ∧ d' = d.setWorld w
  | .request _ _ r, d, d' => ∃ app, AppWrite X cfg r d.app app ∧ d' = { d with app }

theorem steps_respond {R : AppState → AppState → Prop} {p : RpcProg Body} (hp : p.Steps R) :
    (respond p).Steps R := by
  apply hp.attempt.bind
  intro result
  rcases result with (⟨status, text⟩ | _) | body
  · trivial
  · trivial
  · trivial

theorem steps_prog (call : Call) : (call.prog X B N cfg).Steps (Write X cfg call) := by
  cases call with
  | task call =>
    have hzoom : ((call.prog X B N).zoom world setWorld).Steps (Write X cfg (.task call)) :=
      (Node.steps_call X B N call).zoom fun w d hw ↦ ⟨w, hw, rfl⟩
    exact hzoom.bind fun _ ↦ .pure _
  | request env arrival r =>
    unfold Call.prog
    apply (steps_respond (steps_serve X cfg env r arrival)).zoom
    exact fun app d happ ↦ ⟨app, happ, rfl⟩

variable {X B N cfg} {d₀ d d' : Daemon} {T T' : Pool Daemon Exit Outcome Thread Call}

/-- **A step of the daemon** changes nothing, or is a restart, or the action of one thread, which is
a single write of its call. -/
theorem step_cases (h : Reachable (system X B N cfg) d₀ d T)
    (hstep : Step (system X B N cfg) d T d' T') :
    d' = d ∨ ((system X B N cfg).restart d d' ∧ T' = fun _ ↦ none) ∨
      ∃ i call, ActsIn d T d' T' i call ∧ Write X cfg call d d' :=
  h.attributed (steps_prog X B N cfg) hstep

/-- A request comes in on a free thread and performs `n` actions. -/
theorem reachable_request (h : Reachable (system X B N cfg) d₀ d T) {n : Nat}
    (hfree : T (.inr n) = none) (env : Env) (arrival : Arrival) (r : Request) (actions : Nat) :
    ∃ T', Reachable (system X B N cfg) d₀
        ((Call.prog X B N cfg (.request env arrival r)).crash actions d) T' ∧
      T' (.inr n) = some (.request env arrival r,
        (Call.prog X B N cfg (.request env arrival r)).after actions d) := by
  have hstart := h.step (.start (S := system X B N cfg) (k := .request env arrival r) hfree trivial)
  obtain ⟨T', hreach, hself, -⟩ :=
    hstart.acts (Function.update_self ..) actions fun _ _ _ _ ↦ trivial
  exact ⟨T', hreach, hself⟩

/-- Calls on threads of their own, one after the other, each with so many actions. -/
def runCallsTo (X : Crates) (B : L1Blocks) (N : Node) (cfg : Config) (actions : Nat) :
    Daemon → List (Thread × Call) → Daemon
  | d, [] => d
  | d, (_, call) :: calls =>
      runCallsTo X B N cfg actions ((call.prog X B N cfg).crash actions d) calls

/-- So many actions are enough for each of the calls. -/
def endsWithin (X : Crates) (B : L1Blocks) (N : Node) (cfg : Config) (actions : Nat) :
    Daemon → List (Thread × Call) → Bool
  | _, [] => true
  | d, (_, call) :: calls =>
      ((call.prog X B N cfg).after actions d).result?.isSome &&
        endsWithin X B N cfg actions ((call.prog X B N cfg).crash actions d) calls

theorem reachable_runCallsTo (actions : Nat) (calls : List (Thread × Call))
    (h : Reachable (system X B N cfg) d₀ d fun _ ↦ none)
    (hstart : ∀ c ∈ calls, ∀ (d : Daemon) (T : Pool Daemon Exit Outcome Thread Call),
      (system X B N cfg).canStart d T c.1 c.2)
    (hends : endsWithin X B N cfg actions d calls = true) :
    Reachable (system X B N cfg) d₀ (runCallsTo X B N cfg actions d calls) fun _ ↦ none := by
  induction calls generalizing d with
  | nil => exact h
  | cons c calls ih =>
    obtain ⟨hcan, hstart⟩ := List.forall_mem_cons.mp hstart
    unfold endsWithin at hends
    obtain ⟨hend, hends⟩ := (Bool.and_eq_true ..).mp hends
    obtain ⟨outcome, hresult⟩ := Option.isSome_iff_exists.mp hend
    obtain ⟨T', hreach, hself, hothers⟩ := h.call (i := c.1) rfl (hcan _ _) actions
      (fun _ _ _ _ ↦ trivial) hresult
    refine ih (hreach.of_idle fun j ↦ ?_) hstart hends
    by_cases hj : j = c.1
    · rw [hj, hself]
    · rw [hothers j hj]

/-- The next action of such a request, if it changes the state, is a step. -/
theorem request_step (h : Reachable (system X B N cfg) d₀ d T) {n : Nat}
    (hfree : T (.inr n) = none) (env : Env) (arrival : Arrival) (r : Request) (actions : Nat)
    (hne : (Call.prog X B N cfg (.request env arrival r)).crash (actions + 1) d ≠
      (Call.prog X B N cfg (.request env arrival r)).crash actions d) :
    ∃ T₁ T₂,
      Reachable (system X B N cfg) d₀
        ((Call.prog X B N cfg (.request env arrival r)).crash actions d) T₁ ∧
      Step (system X B N cfg) ((Call.prog X B N cfg (.request env arrival r)).crash actions d) T₁
        ((Call.prog X B N cfg (.request env arrival r)).crash (actions + 1) d) T₂ := by
  obtain ⟨T₁, hreach, hself⟩ := reachable_request h hfree env arrival r actions
  obtain ⟨upd, next, hnext⟩ := exists_act_of_crash_ne hne
  rw [hnext] at hself
  rw [crash_succ hnext]
  exact ⟨T₁, _, hreach, .act hself trivial⟩

/-! ## 2. Who writes what -/

/-- The tables and the caches of the bridge, the contracts published, and the tables of the
scanner. -/
def bridgeTables (d : Daemon) : Table String BridgeTransfer × Table String String :=
  (d.app.store.bridgeTransfers, d.app.store.mintedProofs)

def bridgeCaches (d : Daemon) : Table String BridgeTransfer × Table String String :=
  (d.app.transfers, d.app.mintedObjects)

def published (d : Daemon) : List P2pCommand := d.app.sent.filter P2pCommand.isPut

def objectTables (d : Daemon) : Table String SmartObjectRecord × Table String String :=
  (d.app.store.objects, d.app.store.seals)

def scanTables (d : Daemon) :
    Table String StateTransitionRecord × Table Nat UndoLogRecord × Table String Bytes :=
  (d.app.store.transitions, d.app.store.undoLogs, d.app.store.wasmBlobs)

def syncTables (d : Daemon) : Table String BlockRecord × Table String Nat :=
  (d.app.store.blocks, d.app.store.chainMeta)

section

variable (X : Crates) (cfg : Config) (d : Daemon) (T : Pool Daemon Exit Outcome Thread Call)
  (d' : Daemon) (T' : Pool Daemon Exit Outcome Thread Call)

/-- The step is an action of a request that holds the key and may write the bridge. -/
def BridgeWriter : Prop :=
  ∃ i env arrival r, ActsIn d T d' T' i (.request env arrival r) ∧ BridgeRequest X cfg r

/-- The step is an action of a request that holds the key and may publish contracts. -/
def Publisher : Prop :=
  ∃ i env arrival r, ActsIn d T d' T' i (.request env arrival r) ∧ PublishRequest X cfg r

/-- The step is an action of the sync or the mempool task. -/
def Scanning : Prop :=
  ∃ i call, ActsIn d T d' T' i (.task call) ∧ (call.task = .sync ∨ call.task = .mempool)

/-- The step is an action of the sync task. -/
def Syncing : Prop := ∃ i call, ActsIn d T d' T' i (.task call) ∧ call.task = .sync

end

/-- Undoing leaves the bridge and the code alone. -/
theorem undoAll_bridge (chain : String) (targetHeight : Nat) (logs : List (Nat × UndoLogRecord))
    (s : StateStore) :
    (undoAll chain targetHeight logs s).bridgeTransfers = s.bridgeTransfers ∧
      (undoAll chain targetHeight logs s).mintedProofs = s.mintedProofs ∧
      (undoAll chain targetHeight logs s).wasmBlobs = s.wasmBlobs := by
  obtain ⟨objects, seals, hfold⟩ := foldl_undoOne_eq targetHeight (logs.map (·.2)) s
  unfold undoAll
  rw [hfold]
  exact ⟨rfl, rfl, rfl⟩

/-- What no task touches. -/
theorem callWrite_frame {call : Node.Call} {w w' : World} (h : Node.CallWrite X call w w') :
    w'.store.bridgeTransfers = w.store.bridgeTransfers ∧
      w'.store.mintedProofs = w.store.mintedProofs := by
  cases call with
  | pass env =>
    cases h with
    | scan height s hs => exact ⟨hs.frame.1, hs.frame.2.1⟩
    | rollback chain targetHeight logs handled =>
      have hundo := undoAll_bridge chain targetHeight logs w.store
      exact ⟨hundo.1, hundo.2.1⟩
    | block key block => exact ⟨rfl, rfl⟩
    | cursor key height => exact ⟨rfl, rfl⟩
    | attested attestation now => exact ⟨rfl, rfl⟩
    | record broadcasts handled => exact ⟨rfl, rfl⟩
  | mempoolTx writes now tx =>
    obtain ⟨s, hs, rfl⟩ := h
    exact ⟨hs.frame.1, hs.frame.2.1⟩
  | listen attestation now =>
    obtain ⟨attestation, now, rfl⟩ := h
    exact ⟨rfl, rfl⟩
  | replaceChain v =>
    obtain ⟨v, rfl⟩ := h
    exact ⟨rfl, rfl⟩

/-- The tables of the store change in a task that runs transactions, the blocks and the cursor in a
pass. -/
theorem callWrite_tables {call : Node.Call} {w w' : World} (h : Node.CallWrite X call w w') :
    (call.task = .sync ∨ call.task = .mempool ∨ w'.store = w.store) ∧
      (call.task = .sync ∨
        w'.store.blocks = w.store.blocks ∧ w'.store.chainMeta = w.store.chainMeta) := by
  cases call with
  | pass env => exact ⟨.inl rfl, .inl rfl⟩
  | mempoolTx writes now tx =>
    obtain ⟨s, hs, rfl⟩ := h
    exact ⟨.inr (.inl rfl), .inr ⟨hs.frame.2.2.1, hs.frame.2.2.2⟩⟩
  | listen attestation now =>
    obtain ⟨attestation, now, rfl⟩ := h
    exact ⟨.inr (.inr rfl), .inr ⟨rfl, rfl⟩⟩
  | replaceChain v =>
    obtain ⟨v, rfl⟩ := h
    exact ⟨.inr (.inr rfl), .inr ⟨rfl, rfl⟩⟩

theorem bridgeWrite_frame {b b' : BridgeManager} (h : BridgeWrite anyStatus b b') :
    b'.store.transitions = b.store.transitions ∧ b'.store.undoLogs = b.store.undoLogs ∧
      b'.store.wasmBlobs = b.store.wasmBlobs ∧ b'.store.blocks = b.store.blocks ∧
      b'.store.chainMeta = b.store.chainMeta := by
  cases h <;> exact ⟨rfl, rfl, rfl, rfl, rfl⟩

/-- What a handler writes to the store and the caches. -/
theorem appWrite_frame {r : Request} {a a' : AppState} (h : AppWrite X cfg r a a') :
    (BridgeRequest X cfg r ∨
      (a'.store.bridgeTransfers = a.store.bridgeTransfers ∧
        a'.store.mintedProofs = a.store.mintedProofs) ∧
      (a'.transfers = a.transfers ∧ a'.mintedObjects = a.mintedObjects) ∧
      a'.store.objects = a.store.objects ∧ a'.store.seals = a.store.seals) ∧
    (PublishRequest X cfg r ∨ a'.sent.filter P2pCommand.isPut = a.sent.filter P2pCommand.isPut) ∧
    (a'.store.transitions = a.store.transitions ∧ a'.store.undoLogs = a.store.undoLogs ∧
      a'.store.wasmBlobs = a.store.wasmBlobs ∧ a'.store.blocks = a.store.blocks ∧
      a'.store.chainMeta = a.store.chainMeta) := by
  cases h with
  | none => exact ⟨.inr ⟨⟨rfl, rfl⟩, ⟨rfl, rfl⟩, rfl, rfl⟩, .inr rfl, rfl, rfl, rfl, rfl, rfl⟩
  | limiter limiter =>
    exact ⟨.inr ⟨⟨rfl, rfl⟩, ⟨rfl, rfl⟩, rfl, rfl⟩, .inr rfl, rfl, rfl, rfl, rfl, rfl⟩
  | tree smt => exact ⟨.inr ⟨⟨rfl, rfl⟩, ⟨rfl, rfl⟩, rfl, rfl⟩, .inr rfl, rfl, rfl, rfl, rfl, rfl⟩
  | sent command hput =>
    refine ⟨.inr ⟨⟨rfl, rfl⟩, ⟨rfl, rfl⟩, rfl, rfl⟩, .inr ?_, rfl, rfl, rfl, rfl, rfl⟩
    rw [List.filter_append, List.filter_cons_of_neg (by simp [hput]), List.filter_nil,
      List.append_nil]
  | put codeHash wasmBytes hpublish _ =>
    exact ⟨.inr ⟨⟨rfl, rfl⟩, ⟨rfl, rfl⟩, rfl, rfl⟩, .inl hpublish, rfl, rfl, rfl, rfl, rfl⟩
  | relay id record _ =>
    exact ⟨.inr ⟨⟨rfl, rfl⟩, ⟨rfl, rfl⟩, rfl, rfl⟩, .inr rfl, rfl, rfl, rfl, rfl, rfl⟩
  | bridge b hbridge hwrite => exact ⟨.inl hbridge, .inr rfl, bridgeWrite_frame hwrite⟩

/-- **Every change is somebody's.**  In any interleaving of the tasks, of requests and of restarts:
a step that changes the tables of the bridge is an action of a request that holds the API key, and one
that changes its caches is that or a restart; contracts are published only in an action of a request
that holds the key; objects change only in an action of a task that runs transactions, or of such a
request; and blocks and cursor only in an action of a pass. -/
theorem changes_attributed (X : Crates) (B : L1Blocks) (N : Node) (cfg : Config)
    (d₀ d d' : Daemon) (T T' : Pool Daemon Exit Outcome Thread Call)
    (h : Reachable (system X B N cfg) d₀ d T) (hstep : Step (system X B N cfg) d T d' T') :
    (d'.bridgeTables ≠ d.bridgeTables → BridgeWriter X cfg d T d' T') ∧
    (d'.bridgeCaches ≠ d.bridgeCaches →
      BridgeWriter X cfg d T d' T' ∨ ((system X B N cfg).restart d d' ∧ T' = fun _ ↦ none)) ∧
    (d'.published ≠ d.published → Publisher X cfg d T d' T') ∧
    (d'.objectTables ≠ d.objectTables → Scanning d T d' T' ∨ BridgeWriter X cfg d T d' T') ∧
    (d'.scanTables ≠ d.scanTables → Scanning d T d' T') ∧
    (d'.syncTables ≠ d.syncTables → Syncing d T d' T') := by
  rcases step_cases h hstep with rfl | hrestart | ⟨i, call, hact, hwrite⟩
  · -- nothing changes
    exact ⟨fun hne ↦ absurd rfl hne, fun hne ↦ absurd rfl hne, fun hne ↦ absurd rfl hne,
      fun hne ↦ absurd rfl hne, fun hne ↦ absurd rfl hne, fun hne ↦ absurd rfl hne⟩
  · -- a restart rebuilds the tree and fills the caches
    refine ⟨?_, fun _ ↦ .inr hrestart, ?_, ?_, ?_, ?_⟩ <;>
      (obtain ⟨⟨quorum, rateLimitRps, rfl⟩, -⟩ := hrestart; exact fun hne ↦ absurd rfl hne)
  cases call with
  | task call =>
    obtain ⟨w, hw, rfl⟩ := hwrite
    obtain ⟨htransfers, hminted⟩ := callWrite_frame hw
    obtain ⟨hscan, hsync⟩ := callWrite_tables hw
    -- of the tasks, only those that run transactions write the store
    have hscanning : w.store ≠ d.app.store → Scanning d T (d.setWorld w) T' := by
      intro hne
      rcases hscan with htask | htask | hsame
      · exact ⟨i, call, hact, .inl htask⟩
      · exact ⟨i, call, hact, .inr htask⟩
      · exact absurd hsame hne
    refine ⟨fun hne ↦ absurd (Prod.ext htransfers hminted) hne, fun hne ↦ absurd rfl hne,
      fun hne ↦ absurd rfl hne, fun hne ↦ .inl (hscanning ?_), fun hne ↦ hscanning ?_, ?_⟩
    · rintro hsame
      apply hne
      show (w.store.objects, w.store.seals) = _
      rw [hsame]
      rfl
    · rintro hsame
      apply hne
      show (w.store.transitions, w.store.undoLogs, w.store.wasmBlobs) = _
      rw [hsame]
      rfl
    · intro hne
      rcases hsync with htask | ⟨hblocks, hmeta⟩
      · exact ⟨i, call, hact, htask⟩
      · exact absurd (Prod.ext hblocks hmeta) hne
  | request env arrival r =>
    obtain ⟨app, happ, rfl⟩ := hwrite
    obtain ⟨hbridge, hput, htransitions, hundo, hwasm, hblocks, hmeta⟩ := appWrite_frame happ
    have hwriter (hkey : BridgeRequest X cfg r) : BridgeWriter X cfg d T { d with app } T' :=
      ⟨i, env, arrival, r, hact, hkey⟩
    refine ⟨fun hne ↦ ?_, fun hne ↦ .inl ?_, fun hne ↦ ?_, fun hne ↦ .inr ?_,
      fun hne ↦ absurd (Prod.ext htransitions (Prod.ext hundo hwasm)) hne,
      fun hne ↦ absurd (Prod.ext hblocks hmeta) hne⟩
    · rcases hbridge with hkey | ⟨⟨htransfers, hminted⟩, -⟩
      · exact hwriter hkey
      · exact absurd (Prod.ext htransfers hminted) hne
    · rcases hbridge with hkey | ⟨-, ⟨hcache, hnoted⟩, -⟩
      · exact hwriter hkey
      · exact absurd (Prod.ext hcache hnoted) hne
    · rcases hput with hkey | hsame
      · exact ⟨i, env, arrival, r, hact, hkey⟩
      · exact absurd hsame hne
    · rcases hbridge with hkey | ⟨-, -, hobjects, hseals⟩
      · exact hwriter hkey
      · exact absurd (Prod.ext hobjects hseals) hne

/-! A node with a key for its bridge, just started. -/

def demoConfig : Config where
  chain := "JKC"
  electrsUrl := "http://127.0.0.1"
  localPeerId := "p"
  bridgeApiKey := some "k"
  trustedProxyIps := []

def demoDaemon : Daemon := firstStart demoCrates 1 100 (demoChain 1 1)

def demoArrival : Arrival := { socketIp := none, forwardedFor := none, now := 0 }

/-- The node with an object that its owner asks it to lock. -/
def demoLocking : Daemon :=
  { demoDaemon with app := startup 1 100 [] BridgeManager.demoOwnerStore }

def demoLocks : Call :=
  .request {} demoArrival (.lock ⟨some "Bearer k"⟩ (BridgeManager.demoLock "JKC" "o" "B" "p"))

/-- The owner's request after a number of its actions. -/
def demoLockingAfter (actions : Nat) : Daemon :=
  (demoLocks.prog demoCrates demoBlocks demoNode demoConfig).crash actions demoLocking

theorem demoLockingAfter_files :
    (demoLockingAfter 5).bridgeTables ≠ (demoLockingAfter 4).bridgeTables := by
  have hruns : ((demoLockingAfter 4).bridgeTables.1["JKC_B_o_7"]?).isSome = false ∧
      ((demoLockingAfter 5).bridgeTables.1["JKC_B_o_7"]?).isSome = true := by
    decide +kernel
  obtain ⟨hbefore, hafter⟩ := hruns
  intro hsame
  rw [hsame] at hafter
  exact absurd (hbefore.symm.trans hafter) Bool.false_ne_true

/-- While a pass is under way, the request files its transfer. -/
theorem lock_attributed : ∃ T T',
    Reachable (system demoCrates demoBlocks demoNode demoConfig) demoLocking (demoLockingAfter 4) T ∧
      BridgeWriter demoCrates demoConfig (demoLockingAfter 4) T (demoLockingAfter 5) T' := by
  have hpass : Reachable (system demoCrates demoBlocks demoNode demoConfig) demoLocking demoLocking
      (Function.update (fun _ ↦ none) (.inl .sync)
        (some (.task (.pass { tip := some 1 }), _))) :=
    Reachable.init.step (.start rfl ⟨rfl, fun v h ↦ by cases h⟩)
  obtain ⟨T, T', hreach, hstep⟩ := request_step hpass (n := 0) rfl {} demoArrival
    (.lock ⟨some "Bearer k"⟩ (BridgeManager.demoLock "JKC" "o" "B" "p")) 4
    fun hsame ↦ demoLockingAfter_files (congrArg bridgeTables hsame)
  exact ⟨T, T', hreach, (changes_attributed demoCrates demoBlocks demoNode demoConfig _ _ _ _ _
    hreach hstep).1 demoLockingAfter_files⟩

end Daemon

end UtxoVm
