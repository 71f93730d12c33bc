import UtxoVm.Node.ChainState
import UtxoVm.Scanner.Update

/-!
# Do the stored blocks form one L1 chain?

The reorg check compares one hash, that of the last synced height, at the start of a pass; the
blocks above it are fetched one by one, and their parents are never compared.  The blocks form one
chain, and what is stored is their work, if at every fetch the highest block fetched so far is still
on L1, if the rollbacks are exact, and if nothing unconfirmed is stored.
-/

namespace UtxoVm

open RustStd StateStore Prog Interleaving BlockProcessor

namespace Node

variable (X : Crates) (B : L1Blocks) (N : Node)

/-! ## 1. The tasks keep the invariant -/

def chainSetting : Setting World where
  inv := OneChain X B N
  allowed := StaysOnChain N

/-- The sync task alone changes what is fetched and stored. -/
def chainContract : Task → Contract World
  | .sync => { rely := fun w w' ↦ blockView w' = blockView w, guar := fun _ _ ↦ True }
  | _ => { rely := fun _ _ ↦ True, guar := fun w w' ↦ blockView w' = blockView w }

variable {X B N}

/-- What the invariant observes of the store. -/
def storeView (s : StateStore) :
    Table String BlockRecord × ObjectTables × Table Nat UndoLogRecord :=
  (s.blocks, s.objectTables, s.undoLogs)

/-- The assertion speaks of the blocks fetched and stored only. -/
def OfBlocks (P : World → Prop) : Prop := ∀ w w', blockView w' = blockView w → P w → P w'

theorem OfBlocks.stable {P : World → Prop} (hP : OfBlocks P) :
    Stable (chainSetting X B N) (chainContract .sync) P :=
  fun w w' _ _ hrely ↦ hP w w' hrely

theorem ofBlocks_true : OfBlocks fun _ ↦ True := fun _ _ _ _ ↦ trivial

variable {α : Type}

theorem keeps_of_storeView {p : StoreProg α} (hp : Keeps storeView p) :
    Keeps chainView (onStore p) := by
  refine hp.zoom fun s w hs ↦ ?_
  obtain ⟨hblocks, hrest⟩ := Prod.mk.inj hs
  obtain ⟨htables, hundo⟩ := Prod.mk.inj hrest
  show ((s.blocks, s.objectTables, w.starts), s.undoLogs, w.l1) = chainView w
  rw [hblocks, htables, hundo]
  rfl

theorem holds_quiet {P : World → Prop} {p : TaskProg α} (hp : Keeps chainView p)
    (hP : OfBlocks P) :
    Holds (chainSetting X B N) (chainContract .sync) P p fun _ ↦ P := by
  refine .keeps hp hP.stable fun w w' hview hw hPw ↦ ?_
  exact ⟨hw.of_view hview, trivial, hP w w' (Prod.mk.inj hview).1 hPw⟩

variable (env : PassEnv)

theorem holds_rollback (target : Nat) :
    Holds (chainSetting X B N) (chainContract .sync) (fun _ ↦ True) (rollback X N env target)
      fun _ _ ↦ True := by
  have hundo : Holds (chainSetting X B N) (chainContract .sync) (fun _ ↦ True)
      (undoBlocks N env target) fun _ _ ↦ True := by
    rw [undoBlocks_eq]
    intro w hw _ hallowed
    change OneChain X B N w at hw
    dsimp only at hallowed ⊢
    cases hlogs : undoLogsAbove w.store N.chain target with
    -- nothing is written unless the undo log is read and the transaction commits
    | error e => exact ⟨hw, trivial, _, ofBlocks_true.stable, trivial, fun _ _ _ ↦ trivial⟩
    | ok logs =>
      obtain rfl : logs = replayList N.chain target w.store := by
        rw [undoLogsAbove_if] at hlogs
        split at hlogs <;> cases hlogs
        rfl
      rw [hlogs] at hallowed
      dsimp only at hallowed ⊢
      cases hcommits : env.rollsBack with
      | false => exact ⟨hw, trivial, _, ofBlocks_true.stable, trivial, fun _ _ _ ↦ trivial⟩
      | true =>
        rw [hcommits, if_pos rfl] at hallowed
        change StaysOnChain N w (rolledBackTo N target w) at hallowed
        -- the cursor after the step is the target of the rollback
        have hrestores := hallowed.restores
        rw [cursor_rolledBackTo] at hrestores
        exact ⟨hw.rollback hrestores, trivial, _, ofBlocks_true.stable, trivial,
          fun _ _ _ ↦ trivial⟩
  refine hundo.bind (fun _ _ _ h ↦ h) fun n ↦ ?_
  have htree : Keeps chainView (onStore (rebuildTree X)) :=
    keeps_of_storeView (keeps_rebuildTree X fun _ _ ↦ rfl)
  refine (holds_quiet htree ofBlocks_true).bind (fun _ _ _ h ↦ h) fun _ ↦ ?_
  exact .pure _ fun _ _ h ↦ h

theorem holds_reorgCheck (last : Nat) :
    Holds (chainSetting X B N) (chainContract .sync) (fun _ ↦ True) (reorgCheck X N env last)
      fun _ _ ↦ True := by
  have hquiet {β : Type} {p : TaskProg β} (hp : Keeps chainView p) :
      Holds (chainSetting X B N) (chainContract .sync) (fun _ ↦ True) p fun _ _ ↦ True :=
    holds_quiet hp ofBlocks_true
  unfold reorgCheck
  split
  · exact hquiet (.pure _)
  refine (hquiet (keeps_storedBlock N env last)).bind (fun _ _ _ h ↦ h) fun local? ↦ ?_
  cases local? with
  | none => exact hquiet (.pure _)
  | some localBlock =>
    refine (hquiet (.read _)).bind (fun _ _ _ h ↦ h) fun l1Hash? ↦ ?_
    cases l1Hash? with
    | none => exact hquiet (.pure _)
    | some l1Hash =>
      dsimp only
      split
      · exact hquiet (.pure _)
      refine (hquiet (keeps_backtrack N env _)).bind (fun _ _ _ h ↦ h) fun ancestor? ↦ ?_
      cases ancestor? with
      | none => exact hquiet (.pure _)
      | some ancestor =>
        refine (holds_caught (holds_rollback env ancestor)).bind (fun _ _ _ h ↦ h) fun r ↦ ?_
        cases r <;> exact hquiet (.pure _)

/-- The block that is being handled is the one fetched last. -/
def Running (height : Nat) (blockHash : String) (w : World) : Prop :=
  ∃ older, w.fetched = (height, blockHash) :: older

theorem ofBlocks_running (height : Nat) (blockHash : String) :
    OfBlocks (Running height blockHash) := by
  intro w w' hview hw
  unfold Running
  rw [fetched_of_blockView hview]
  exact hw

theorem holds_fetchedHash (height : Nat) :
    Holds (chainSetting X B N) (chainContract .sync) (fun _ ↦ True) (fetchedHash env height)
      fun r w ↦ ∀ b, r = .ok (some b) → Running height b w := by
  intro w hw _ hallowed
  change OneChain X B N w at hw
  dsimp only at hallowed ⊢
  cases hl1 : w.l1 height with
  | none =>
    refine ⟨hw, trivial, _, ofBlocks_true.stable, trivial, ?_⟩
    intro _ _ _ b hb
    split at hb <;> cases hb
  | some blockHash =>
    rw [hl1] at hallowed
    cases hanswered : env.fetchesHash height with
    | false =>
      refine ⟨hw, trivial, _, ofBlocks_true.stable, trivial, ?_⟩
      intro _ _ _ b hb
      cases hb
    | true =>
      rw [hanswered] at hallowed
      have hlast : LastOnL1 w := hallowed.fetches rfl
      refine ⟨hw.fetch hlast hl1, trivial, _, (ofBlocks_running height blockHash).stable,
        ⟨w.fetched, rfl⟩, ?_⟩
      intro _ _ hrunning b hb
      cases hb
      exact hrunning

/-- A transaction of the block adds its work to what is stored. -/
theorem holds_processTx {height : Nat} {blockHash : String} {tx : ElectrsTx}
    (htx : tx ∈ B.txs blockHash) (writes : Writes) (now : Int) :
    Holds (chainSetting X B N) (chainContract .sync) (Running height blockHash)
      (onStore (N.processor.processTx X writes now tx height)) fun _ ↦ Running height blockHash := by
  refine .exists fun older ↦ ?_
  have hsteps : (onStore (N.processor.processTx X writes now tx height)).Steps fun w w' ↦
      ∃ s, ScanWrite X height w.store s ∧ w' = { w with store := s } :=
    (N.processor.steps_processTx X writes now tx height).zoom fun s w hs ↦ ⟨s, hs, rfl⟩
  have hlist : OfBlocks fun w ↦ w.fetched = (height, blockHash) :: older := by
    intro w w' hview hw
    rw [fetched_of_blockView hview]
    exact hw
  have htraced : Holds (chainSetting X B N) (chainContract .sync) _ _ _ :=
    Holds.transforms (f := fun w : World ↦ w.store.objectTables)
      (I := WorkOf X B N ((height, blockHash) :: older)) hsteps hlist.stable
      (fun w w' _ _ hrely _ ↦ tables_of_blockView hrely) (by
        rintro w _ ⟨s, hs, rfl⟩ hw hfetched _ hbuilt
        rw [← hfetched] at hbuilt
        refine ⟨OneChain.scan hw hs ⟨(height, blockHash), ?_, rfl⟩ hbuilt, trivial, hfetched⟩
        rw [hfetched]
        exact List.mem_cons_self)
  -- the trace of the transaction is work of the block on top
  refine (htraced.pre fun w hw hfetched ↦ ⟨hfetched, fun t ht ↦ ?_⟩).post
    fun _ w _ hfetched ↦ ⟨older, hfetched⟩
  have hbuilt := OneChain.built hw
  rw [hfetched] at hbuilt
  exact hbuilt.tx writes now htx (ht.of_zoom fun _ _ ↦ rfl)

theorem holds_syncTx {height : Nat} {blockHash : String} {tx : ElectrsTx}
    (htx : tx ∈ B.txs blockHash) (tenv : TxEnv) :
    Holds (chainSetting X B N) (chainContract .sync) (Running height blockHash)
      (syncTx X N tenv height tx) fun _ ↦ Running height blockHash := by
  have hrunning := ofBlocks_running height blockHash
  have hpure {β : Type} (b : β) : Holds (chainSetting X B N) (chainContract .sync)
      (Running height blockHash) (pure b : TaskProg β) fun _ ↦ Running height blockHash :=
    .pure _ fun _ _ h ↦ h
  refine (holds_caught (holds_processTx htx _ _)).bind (fun _ _ _ h ↦ h) fun first ↦ ?_
  cases first with
  | ok r => exact hpure _
  | error e =>
    dsimp only
    split
    · -- the code is fetched, and the transaction is run once more
      have hblob (codeHash : String) (bytes : Bytes) :
          Keeps storeView (saveWasm X tenv.savesWasm codeHash bytes) := keeps_saveWasm fun _ ↦ rfl
      refine (holds_quiet (keeps_caught (keeps_of_storeView (hblob _ _))) hrunning).bind
        (fun _ _ _ h ↦ h) fun saved ↦ ?_
      cases saved with
      | error e => exact hpure _
      | ok u => exact holds_caught (holds_processTx htx _ _)
    · exact hpure _

theorem holds_syncTxs {height : Nat} {blockHash : String} (i : Nat) {txs : List ElectrsTx}
    (htxs : ∀ tx ∈ txs, tx ∈ B.txs blockHash) :
    Holds (chainSetting X B N) (chainContract .sync) (Running height blockHash)
      (syncTxs X N env height i txs) fun _ ↦ Running height blockHash := by
  induction txs generalizing i with
  | nil => exact .pure _ fun _ _ h ↦ h
  | cons tx rest ih =>
    have hnote (w : World) (r : Except Exit (Option String)) :
        chainView (w.note tx r) = chainView w := by
      unfold chainView blockView
      rw [World.starts_note]
      unfold World.note
      split <;> rfl
    refine (holds_syncTx (htxs tx List.mem_cons_self) _).bind (fun _ _ _ h ↦ h) fun last ↦ ?_
    refine (holds_quiet (.modify fun w ↦ hnote w _) (ofBlocks_running _ _)).bind
      (fun _ _ _ h ↦ h) fun _ ↦ ?_
    exact ih _ fun tx' htx' ↦ htxs tx' (List.mem_cons_of_mem _ htx')

theorem holds_saveSynced (height : Nat) (blockHash stateRoot : String) :
    Holds (chainSetting X B N) (chainContract .sync) (Running height blockHash)
      (saveSynced N env height blockHash stateRoot) fun _ _ ↦ True := by
  refine (holds_caught (Q := fun _ ↦ True) ?_).bind (fun _ _ _ h ↦ h) fun _ ↦ ?_
  · intro w hw ⟨older, hfetched⟩ _
    change OneChain X B N w at hw
    refine ⟨?_, trivial, _, ofBlocks_true.stable, trivial, ?_⟩
    · cases env.savesBlock height with
      | false => exact hw
      | true =>
        refine hw.saveBlock rfl ?_
        rw [hfetched]
        exact List.mem_cons_self
    · cases env.savesBlock height <;> exact fun _ _ h ↦ h
  · refine (holds_caught (Q := fun _ ↦ True) ?_).bind (fun _ _ _ h ↦ h) fun _ ↦ ?_
    · intro w hw _ _
      change OneChain X B N w at hw
      refine ⟨?_, trivial, _, ofBlocks_true.stable, trivial, ?_⟩
      · cases env.savesCursor height with
        | false => exact hw
        | true => exact hw.of_view rfl
      · cases env.savesCursor height <;> exact fun _ _ h ↦ h
    · exact .pure _ fun _ _ h ↦ h

theorem holds_syncBlock (height : Nat) :
    Holds (chainSetting X B N) (chainContract .sync) (fun _ ↦ True) (syncBlock X B N env height)
      fun _ _ ↦ True := by
  refine (holds_fetchedHash env height).bind (fun _ _ _ _ ↦ trivial) fun b? ↦ ?_
  cases b? with
  | none => exact .pure _ fun _ _ _ ↦ trivial
  | some blockHash =>
    have hserved : ∀ tx ∈ (blockTxs B env height blockHash).getD [], tx ∈ B.txs blockHash := by
      intro tx htx
      unfold blockTxs at htx
      split at htx
      · exact List.mem_of_mem_take htx
      · cases htx
    refine Holds.pre ?_ fun w _ h ↦ h blockHash rfl
    refine (holds_syncTxs env 0 hserved).bind (fun _ _ _ _ ↦ trivial) fun _ ↦ ?_
    have hroot : Keeps chainView (onStore currentStateRoot) :=
      keeps_of_storeView (keeps_currentStateRoot fun _ _ ↦ rfl)
    refine (holds_quiet hroot (ofBlocks_running _ _)).bind (fun _ _ _ _ ↦ trivial)
      fun stateRoot ↦ ?_
    refine (holds_saveSynced env height blockHash stateRoot).bind (fun _ _ _ h ↦ h) fun _ ↦ ?_
    exact holds_quiet (keeps_attest X N env (fun _ _ ↦ rfl) (fun _ _ ↦ rfl) _ _ _) ofBlocks_true

theorem holds_catchUp (heights : List Nat) :
    Holds (chainSetting X B N) (chainContract .sync) (fun _ ↦ True) (catchUp X B N env heights)
      fun _ _ ↦ True := by
  induction heights with
  | nil => exact .pure _ fun _ _ h ↦ h
  | cons height rest ih =>
    exact (holds_syncBlock env height).bind (fun _ _ _ h ↦ h) fun _ ↦ ih

theorem holds_pass :
    Holds (chainSetting X B N) (chainContract .sync) (fun _ ↦ True) (N.pass X B env)
      fun _ _ ↦ True := by
  have hend (reorg : Bool) : Holds (chainSetting X B N) (chainContract .sync) (fun _ ↦ True)
      (pure reorg : TaskProg Bool) fun _ _ ↦ True := .pure _ fun _ _ h ↦ h
  unfold pass
  cases env.tip with
  | none => exact hend false
  | some tip =>
    refine (holds_quiet (keeps_lastSynced N env) ofBlocks_true).bind (fun _ _ _ h ↦ h)
      fun last ↦ ?_
    refine (holds_reorgCheck env last).bind (fun _ _ _ h ↦ h) fun check ↦ ?_
    cases check with
    | noReorg => exact (holds_catchUp env _).bind (fun _ _ _ h ↦ h) fun _ ↦ hend false
    | reorg ancestor? =>
      cases ancestor? with
      | none => exact hend true
      | some ancestor => exact (holds_catchUp env _).bind (fun _ _ _ h ↦ h) fun _ ↦ hend true

theorem stable_true (i : Task) : Stable (chainSetting X B N) (chainContract i) fun _ ↦ True :=
  fun _ _ _ _ _ _ ↦ trivial

theorem holds_call (call : Call) (hcall : ∀ v, call = .replaceChain v → B.IsChain v) :
    Holds (chainSetting X B N) (chainContract call.task) (fun _ ↦ True) (call.prog X B N)
      fun _ _ ↦ True := by
  cases call with
  | pass env => exact holds_pass env
  | mempoolTx writes now tx =>
    have hsteps := N.processor.steps_processTx X writes now tx 0
    have hprocess : Holds (chainSetting X B N) (chainContract .mempool) (fun _ ↦ True)
        (onStore (N.processor.processTx X writes now tx 0)) fun _ _ ↦ True := by
      -- only what its writes can be matters here
      generalize N.processor.processTx X writes now tx 0 = p at hsteps
      induction p with
      | done a => exact fun _ _ h ↦ h
      | fail e => exact fun _ _ h ↦ h
      | act upd next ih =>
        intro w hw _ hallowed
        obtain ⟨hinv, hview⟩ := OneChain.mempool hw (hsteps w.store).1 hallowed.confirmed
        exact ⟨hinv, hview, _, stable_true _, trivial, ih _ (hsteps w.store).2⟩
    exact (holds_caught hprocess).bind (fun _ _ _ h ↦ h) fun _ ↦ .pure _ fun _ _ h ↦ h
  | listen attestation now =>
    refine Holds.bind (M := fun _ _ ↦ True) ?_ (fun _ _ _ h ↦ h) fun _ ↦ .pure _ fun _ _ h ↦ h
    exact .modify (stable_true _) fun w hw _ _ ↦ ⟨OneChain.of_view hw rfl, rfl, trivial⟩
  | replaceChain v =>
    refine Holds.bind (M := fun _ _ ↦ True) ?_ (fun _ _ _ h ↦ h) fun _ ↦ .pure _ fun _ _ h ↦ h
    refine .modify (stable_true _) fun w hw _ _ ↦ ⟨?_, rfl, trivial⟩
    exact OneChain.congr hw rfl (hcall v rfl) fun _ _ hlog ↦ .inl hlog

theorem chain_verified :
    Verified (chainSetting X B N) chainContract (tasks X B N (StaysOnChain N)) where
  start w T i call _ hstart := by
    obtain ⟨rfl, hcall⟩ := hstart
    exact ⟨_, _, stable_true _, trivial, holds_call call hcall⟩
  compatible i j w w' hij hguar := by
    cases i with
    | sync =>
      cases j with
      | sync => exact absurd rfl hij
      | mempool => exact hguar
      | listener => exact hguar
      | l1 => exact hguar
    | mempool => trivial
    | listener => trivial
    | l1 => trivial
  allowed w T i call upd next hcan hi := hcan call upd next hi
  restart w w' hw hrestart := by
    obtain ⟨consensus, rfl⟩ := hrestart
    exact OneChain.of_view hw rfl

/-! ## 2. One chain -/

/-- **The stored blocks form one chain, and what is stored is their work** in every run in which
each block is fetched while the highest one fetched before is still on L1, each rollback restores
what was there before the blocks that it drops, and no object is stored outside a block, whatever L1
does in between. -/
theorem stored_blocks_form_one_chain {v : L1Chain} (hv : B.IsChain v)
    (consensus : ConsensusManager) {w : World} {T : Pool World Exit Bool Task Call}
    (h : Reachable (tasks X B N (StaysOnChain N)) (fresh X consensus v) w T) :
    BuiltFromOneChain X B N w ∧ (N.CursorOnL1 w → N.StoredOnL1 w) := by
  have hw : OneChain X B N w := (chain_verified.reachable (OneChain.fresh hv consensus) h).1
  exact ⟨⟨hw.chain, hw.built⟩, hw.storedOnL1⟩

end Node

/-! ## 3. Two runs -/

def demoHash (n : UInt8) : String := hexEncode (List.replicate 32 n)

/-- Blocks 1 and 2 on block 0, and the blocks 3 and 4 of another branch; block 5 is on block 1. -/
def demoBlocks : L1Blocks where
  parent b :=
    ([(demoHash 1, demoHash 0), (demoHash 2, demoHash 1), (demoHash 3, demoHash 0),
      (demoHash 4, demoHash 3), (demoHash 5, demoHash 1)].find? (·.1 == b)).map (·.2)
  txs _ := []

/-- The chain of block 0 and two more. -/
def demoChain (m n : UInt8) : L1Chain := fun height ↦
  [demoHash 0, demoHash m, demoHash n][height]?

def demoNode : Node where
  chain := "btc"
  startHeight := none
  validatorKey := none
  minExecutionFee := 0
  feeCollector := none
  runtime := { execute := fun _ _ _ _ _ ↦ .error "out of gas" }

theorem demoChain_isChain {m n : UInt8} (hm : demoBlocks.parent (demoHash m) = some (demoHash 0))
    (hn : demoBlocks.parent (demoHash n) = some (demoHash m)) :
    demoBlocks.IsChain (demoChain m n) := by
  intro height b hb
  match height, hb with
  | 0, rfl => exact ⟨_, rfl, hm⟩
  | 1, rfl => exact ⟨_, rfl, hn⟩

/-- L1 is replaced while the loop catches up: block 1 stays below block 4. -/
theorem reorg_during_catch_up :
    ¬ ∀ (w : World) (T : Pool World Exit Bool Node.Task Node.Call) (env : PassEnv),
      Reachable (Node.tasks demoCrates demoBlocks demoNode fun _ _ ↦ True)
        (Node.fresh demoCrates (ConsensusManager.new 1) (demoChain 1 2)) w T →
      T .sync = some (.pass env, .done false) → demoNode.CursorOnL1 w →
      demoNode.StoredOnL1 w ∧ Node.BuiltFromOneChain demoCrates demoBlocks demoNode w := by
  intro hclaim
  let env : PassEnv := { tip := some 2 }
  let p := demoNode.pass demoCrates demoBlocks env
  let w₀ := Node.fresh demoCrates (ConsensusManager.new 1) (demoChain 1 2)
  -- block 1 is fetched and stored, then L1 moves to the other branch
  let w₁ : World := { p.crash 5 w₀ with l1 := demoChain 3 4 }
  have hinit : Reachable (Node.tasks demoCrates demoBlocks demoNode fun _ _ ↦ True) w₀ w₀
      fun _ ↦ none := .init
  have hstart := Node.reachable_startPass hinit rfl env
  obtain ⟨T₁, hreach₁, hsync₁, hothers₁⟩ :=
    Node.reachable_actions hstart (Function.update_self ..) 5 fun _ _ ↦ trivial
  have hfree : T₁ .l1 = none := by
    rw [hothers₁ _ (by decide), Function.update_of_ne (by decide)]
  obtain ⟨T₂, hreach₂, -, hothers₂⟩ := Node.reachable_replaceChain hreach₁ hfree
    (demoChain_isChain (m := 3) (n := 4) (by decide +kernel) (by decide +kernel)) trivial
  rw [← hothers₂ _ (by decide)] at hsync₁
  obtain ⟨T₃, hreach₃, hsync₃, -⟩ :=
    Node.reachable_actions (w := w₁) hreach₂ hsync₁ 4 fun _ _ ↦ trivial
  have hend : ((p.after 5 w₀).after 4 w₁).result? = some false := by decide +kernel
  have hcursor : demoNode.cursor ((p.after 5 w₀).crash 4 w₁) = 2 := by decide +kernel
  rw [eq_done hend] at hsync₃
  obtain ⟨hstored, -⟩ := hclaim _ T₃ env hreach₃ hsync₃
    ⟨demoHash 4, by decide +kernel, by decide +kernel⟩
  have hfirst := hstored 1 (by rw [hcursor]; decide) (demoHash 1) (by decide +kernel)
  exact absurd hfirst (by decide +kernel)

/-- Block 1 creates an object, and block 2 calls it. -/
def demoTxBlocks : L1Blocks where
  parent := demoBlocks.parent
  txs b :=
    if b = demoHash 1 then [demoCreateTx]
    else if b = demoHash 2 then [demoCallTx]
    else []

def demoTxPass : TaskProg Bool := demoNode.pass demoCrates demoTxBlocks { tip := some 2 }

/-- The first pass has taken `n` of its steps. -/
def demoFollowing (n : Nat) : World :=
  demoTxPass.crash n (Node.fresh demoCrates (ConsensusManager.new 1) (demoChain 1 2))

/-- L1 replaces block 2 after the first pass. -/
def demoReorged : World := { demoFollowing 20 with l1 := demoChain 1 5 }

/-- The second pass has taken `n` of its steps. -/
def demoSwitched (n : Nat) : World := demoTxPass.crash n demoReorged

/-- Only the object of block 1 is stored. -/
def storesCreated (t : ObjectTables) : Bool :=
  (match t.1.toList with
    | [(id, ⟨objectId, codeHash, sealRef, satoshis, owner,
        .object [(k, .bool b), (l, .string o)], createdAt, updatedAt⟩)] =>
      [id, objectId, codeHash, sealRef, owner, k, l, o] ==
          [demoObjectId, demoObjectId, "wasm_default", sealOf demoCreateTx.txid 0,
            sender demoCreateTx, "initialized", "owner", sender demoCreateTx] &&
        [satoshis, createdAt, updatedAt] == [1000, 1, 1] && b
    | _ => false) && decide (t.2.toList = [(sealOf demoCreateTx.txid 0, demoObjectId)])

theorem toList_of_storesCreated {t : ObjectTables} (h : storesCreated t = true) :
    t.1.toList = [(demoObjectId, demoObject 1)] ∧
      t.2.toList = [(sealOf demoCreateTx.txid 0, demoObjectId)] := by
  unfold storesCreated at h
  rw [Bool.and_eq_true, decide_eq_true_eq] at h
  refine ⟨?_, h.2⟩
  have hobject := h.1
  split at hobject
  · rename_i hlist
    rw [hlist]
    simp only [Bool.and_eq_true, beq_iff_eq, List.cons.injEq, and_true] at hobject
    obtain ⟨⟨⟨rfl, rfl, rfl, rfl, rfl, rfl, rfl, rfl⟩, rfl, rfl, rfl⟩, rfl⟩ := hobject
    rfl
  · cases hobject

theorem eq_of_storesCreated {t t' : ObjectTables} (h : storesCreated t = true)
    (h' : storesCreated t' = true) : t = t' := by
  obtain ⟨hobjects, hseals⟩ := toList_of_storesCreated h
  obtain ⟨hobjects', hseals'⟩ := toList_of_storesCreated h'
  refine Prod.ext (Std.ExtTreeMap.ext_toList ?_) (Std.ExtTreeMap.ext_toList ?_)
  · rw [hobjects, hobjects']
  · rw [hseals, hseals']

theorem objects_of_storesCreated {s : StateStore} (h : storesCreated s.objectTables = true) :
    s.objects.toList = [(demoObjectId, demoObject 1)] :=
  (toList_of_storesCreated h).1

/-- A step of the two passes: the only one that drops blocks drops the block at height 2. -/
def demoStays (w w' : World) : Bool :=
  decide (w'.handled.length = w.handled.length + 1 → LastOnL1 w) &&
    w'.store.objects.toList.all (·.2.updatedAtBlock != 0) &&
    (decide (w.handled.length ≤ w'.handled.length) ||
      match w.handled with
      | [b, a] =>
        demoNode.cursor w' == 1 && decide (1 < b.height) && decide (a.height ≤ 1) &&
          storesCreated b.before &&
          storesCreated (((replayList demoNode.chain 1 w.store).map (·.2)).foldl (undoOne 1)
            w.store).objectTables
      | _ => false)

theorem staysOnChain_of_demoStays {w w' : World} (h : demoStays w w' = true) :
    Node.StaysOnChain demoNode w w' := by
  unfold demoStays at h
  simp only [Bool.and_eq_true, Bool.or_eq_true, decide_eq_true_eq] at h
  obtain ⟨⟨hfetches, hconfirmed⟩, hdrops⟩ := h
  refine ⟨hfetches, fun id obj hobj ↦ ?_, fun hlt ↦ ?_⟩
  · have hmem := Std.ExtTreeMap.mem_toList_iff_getElem?_eq_some.mpr hobj
    simpa using List.all_eq_true.mp hconfirmed _ hmem
  · rcases hdrops with hle | hdropped
    · omega
    · split at hdropped
      · rename_i b a hw
        simp only [Bool.and_eq_true, decide_eq_true_eq, beq_iff_eq] at hdropped
        obtain ⟨⟨⟨⟨hcursor, hb⟩, ha⟩, hbefore⟩, hreplayed⟩ := hdropped
        rw [hcursor]
        refine ⟨[], b, [a], hw, fun _ he ↦ (List.not_mem_nil he).elim, hb, fun e he ↦ ?_,
          eq_of_storesCreated hreplayed hbefore⟩
        rw [List.mem_singleton.mp he]
        exact ha
      · cases hdropped

/-- The two passes, step by step. -/
theorem demoSwitched_stays :
    ((List.range 20).all (fun m ↦ demoStays (demoFollowing m) (demoFollowing (m + 1))) &&
      demoStays (demoFollowing 20) demoReorged &&
      (List.range 12).all (fun m ↦ demoStays (demoSwitched m) (demoSwitched (m + 1))) &&
      (demoTxPass.after 20 (demoFollowing 0)).result? == some false &&
      (demoTxPass.after 12 demoReorged).result? == some true &&
      demoNode.storedHash (demoSwitched 12) (demoNode.cursor (demoSwitched 12)) ==
        some (demoHash 5) &&
      (demoSwitched 12).l1 (demoNode.cursor (demoSwitched 12)) == some (demoHash 5) &&
      storesCreated (demoSwitched 12).store.objectTables) = true := by
  decide +kernel

/-- L1 replaces block 2 after the first pass; the second pass sees it, rolls back to block 1, which
takes the call back, and goes on with block 5. -/
theorem stored_blocks_form_one_chain_reorg :
    demoNode.CursorOnL1 (demoSwitched 12) ∧
      (demoSwitched 12).store.objects.toList = [(demoObjectId, demoObject 1)] ∧
      Node.BuiltFromOneChain demoCrates demoTxBlocks demoNode (demoSwitched 12) ∧
      demoNode.StoredOnL1 (demoSwitched 12) := by
  have hchain (n : UInt8) (hn : demoBlocks.parent (demoHash n) = some (demoHash 1)) :
      demoTxBlocks.IsChain (demoChain 1 n) := demoChain_isChain (by decide +kernel) hn
  have hstays := demoSwitched_stays
  simp only [Bool.and_eq_true, List.all_eq_true, List.mem_range, beq_iff_eq] at hstays
  obtain ⟨⟨⟨⟨⟨⟨⟨hfirst, hreplaced⟩, hsecond⟩, hend⟩, hend'⟩, hhash⟩, hl1⟩, hcreated⟩ := hstays
  obtain ⟨T, hreach⟩ : ∃ T, Reachable
      (Node.tasks demoCrates demoTxBlocks demoNode (Node.StaysOnChain demoNode))
      (Node.fresh demoCrates (ConsensusManager.new 1) (demoChain 1 2)) (demoSwitched 12) T :=
    Node.reachable_reorg (hchain 5 (by decide +kernel))
      (fun m hm ↦ staysOnChain_of_demoStays (hfirst m hm)) hend rfl
      (staysOnChain_of_demoStays hreplaced)
      (fun m hm ↦ staysOnChain_of_demoStays (hsecond m hm)) hend'
  obtain ⟨hbuilt, hstored⟩ :=
    Node.stored_blocks_form_one_chain (hchain 2 (by decide +kernel)) _ hreach
  have hcursor : demoNode.CursorOnL1 (demoSwitched 12) := ⟨demoHash 5, hhash, hl1⟩
  exact ⟨hcursor, objects_of_storesCreated hcreated, hbuilt, hstored hcursor⟩

end UtxoVm
