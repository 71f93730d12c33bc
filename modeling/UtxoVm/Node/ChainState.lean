import UtxoVm.Node.SyncTask
import UtxoVm.Node.TaskWrites

/-!
# What the stored state is built from

The loop fetches blocks and runs their transactions; what is stored then is the work of the blocks
that were fetched and not rolled back.  That these are blocks of one chain, and that the objects and
seals are theirs, is an invariant of all steps that fetch onto the chain, undo exactly, and store
nothing unconfirmed.
-/

namespace UtxoVm

open RustStd StateStore Prog Interleaving

/-! ## 1. Chains -/

/-- Chains that share a block share everything below it. -/
theorem L1Blocks.IsChain.agree {B : L1Blocks} {v v' : L1Chain} (hv : B.IsChain v)
    (hv' : B.IsChain v') {n : Nat} {b : String} (hb : v n = some b) (hb' : v' n = some b) {k : Nat}
    (hk : k ≤ n) : v k = v' k := by
  induction n generalizing b with
  | zero =>
    rw [Nat.le_zero.mp hk, hb, hb']
  | succ n ih =>
    rcases Nat.lt_or_eq_of_le hk with hlt | rfl
    · obtain ⟨a, ha, hparent⟩ := hv n b hb
      obtain ⟨a', ha', hparent'⟩ := hv' n b hb'
      rw [hparent, Option.some.injEq] at hparent'
      exact ih ha (hparent' ▸ ha') (Nat.le_of_lt_succ hlt)
    · rw [hb, hb']

/-- The blocks that were fetched and not rolled back, with what was stored when they were fetched.
-/
def World.starts (w : World) : List ((Nat × String) × ObjectTables) :=
  w.handled.map fun b ↦ ((b.height, b.blockHash), b.before)

def World.fetched (w : World) : List (Nat × String) := w.starts.map (·.1)

theorem World.starts_note (w : World) (tx : ElectrsTx) (r : Except Exit (Option String)) :
    (w.note tx r).starts = w.starts := by
  unfold note starts
  split
  · rename_i b rest hw
    rw [hw]
    rfl
  · rfl

theorem World.mem_fetched_dropAbove {w : World} {height : Nat} {e : Nat × String} :
    e ∈ (w.dropAbove height).fetched ↔ e ∈ w.fetched ∧ e.1 ≤ height := by
  unfold dropAbove fetched starts
  simp only [List.mem_map, List.mem_filter, decide_eq_true_eq]
  constructor
  · rintro ⟨_, ⟨b, ⟨hb, hle⟩, rfl⟩, rfl⟩
    exact ⟨⟨_, ⟨b, hb, rfl⟩, rfl⟩, hle⟩
  · rintro ⟨⟨_, ⟨b, hb, rfl⟩, rfl⟩, hle⟩
    exact ⟨_, ⟨b, ⟨hb, hle⟩, rfl⟩, rfl⟩

/-- All blocks above the height are the ones fetched last. -/
theorem World.starts_dropAbove {w : World} {height : Nat} {newer older : List Handled}
    (hw : w.handled = newer ++ older) (hnewer : ∀ e ∈ newer, height < e.height)
    (holder : ∀ e ∈ older, e.height ≤ height) :
    (w.dropAbove height).starts = older.map fun b ↦ ((b.height, b.blockHash), b.before) := by
  have hfilter : w.handled.filter (·.height ≤ height) = older := by
    rw [hw, List.filter_append, List.filter_eq_nil_iff.mpr, List.filter_eq_self.mpr,
      List.nil_append]
    · exact fun e he ↦ by simpa using holder e he
    · exact fun e he ↦ by simpa using hnewer e he
  unfold dropAbove starts
  rw [hfilter]

/-- The highest block fetched so far is on L1. -/
def LastOnL1 (w : World) : Prop :=
  ∀ e ∈ w.fetched, (∀ e' ∈ w.fetched, e'.1 ≤ e.1) → w.l1 e.1 = some e.2

instance (w : World) : Decidable (LastOnL1 w) :=
  inferInstanceAs (Decidable
    (∀ e ∈ w.fetched, (∀ e' ∈ w.fetched, e'.1 ≤ e.1) → w.l1 e.1 = some e.2))

/-- The blocks are those of one chain. -/
def OnOneChain (B : L1Blocks) (blocks : List (Nat × String)) : Prop :=
  ∃ v, B.IsChain v ∧ ∀ e ∈ blocks, v e.1 = some e.2

/-- With the highest block all blocks are on L1. -/
theorem LastOnL1.all {B : L1Blocks} {w : World} (h : LastOnL1 w) (hl1 : B.IsChain w.l1)
    (hchain : OnOneChain B w.fetched) : ∀ e ∈ w.fetched, w.l1 e.1 = some e.2 := by
  obtain ⟨v, hv, hfetched⟩ := hchain
  intro e he
  obtain ⟨top, htop, hmax⟩ :=
    w.fetched.toFinset.exists_max_image (·.1) ⟨e, List.mem_toFinset.mpr he⟩
  simp only [List.mem_toFinset] at htop hmax
  have htopL1 := h top htop hmax
  rw [hl1.agree hv htopL1 (hfetched top htop) (hmax e he)]
  exact hfetched e he

namespace Node

variable (X : Crates) (B : L1Blocks) (N : Node)

def storedHash (w : World) (height : Nat) : Option String :=
  (w.store.blocks[blockKey N.chain height]?).map (·.blockHash)

/-- `last_sync_block`. -/
def cursor (w : World) : Nat := (w.store.chainMeta[lastBlockKey N.chain]?).getD 0

/-- The stored hash at `last_sync_block` is the L1 hash at that height. -/
def CursorOnL1 (w : World) : Prop :=
  ∃ b, N.storedHash w (N.cursor w) = some b ∧ w.l1 (N.cursor w) = some b

/-- The blocks stored below `last_sync_block` are the L1 blocks at their heights. -/
def StoredOnL1 (w : World) : Prop :=
  ∀ height < N.cursor w, ∀ b, N.storedHash w height = some b → w.l1 height = some b

/-! ## 2. The work of the blocks -/

/-- What the transactions of the blocks make of the empty tables, block by block (the one fetched
last comes first) and one transaction after the other; each of them may be cut off. -/
inductive WorkOf : List (Nat × String) → ObjectTables → Prop
  | empty : WorkOf [] (∅, ∅)
  | block {blocks : List (Nat × String)} {t : ObjectTables} (e : Nat × String) :
      WorkOf blocks t → WorkOf (e :: blocks) t
  | tx {height : Nat} {blockHash : String} {blocks : List (Nat × String)} {t t' : ObjectTables}
      {tx : ElectrsTx} (writes : Writes) (now : Int) :
      WorkOf ((height, blockHash) :: blocks) t → tx ∈ B.txs blockHash →
      Transforms objectTables (N.processor.processTx X writes now tx height) t t' →
      WorkOf ((height, blockHash) :: blocks) t'

/-- The stored objects and seals are the work of blocks of one chain. -/
def BuiltFromOneChain (w : World) : Prop :=
  OnOneChain B w.fetched ∧ WorkOf X B N w.fetched w.store.objectTables

/-- Each block was fetched when the tables were the work of those before it. -/
def Snapshots : List ((Nat × String) × ObjectTables) → Prop
  | [] => True
  | b :: older => WorkOf X B N (older.map (·.1)) b.2 ∧ Snapshots older

variable {X B N} in
theorem Snapshots.of_append {newer older : List ((Nat × String) × ObjectTables)}
    (h : Snapshots X B N (newer ++ older)) : Snapshots X B N older := by
  induction newer with
  | nil => exact h
  | cons b newer ih => exact ih h.2

/-! ## 3. What the steps must meet -/

/-- No transaction outside a block has stored an object. -/
def Confirmed (w : World) : Prop :=
  ∀ (id : String) (obj : SmartObjectRecord), w.store.objects[id]? = some obj →
    obj.updatedAtBlock ≠ 0

/-- Replaying the undo records above the target gives back what was stored when the first of the
blocks above it was fetched, and these blocks are the ones fetched last. -/
def Restorable (targetHeight : Nat) (w : World) : Prop :=
  ∃ newer b older, w.handled = newer ++ b :: older ∧ (∀ e ∈ newer, targetHeight < e.height) ∧
    targetHeight < b.height ∧ (∀ e ∈ older, e.height ≤ targetHeight) ∧
    (((replayList N.chain targetHeight w.store).map (·.2)).foldl (undoOne targetHeight)
      w.store).objectTables = b.before

/-- A step that fetches a block is taken while the highest block fetched so far is on L1; no step
stores an object outside a block; and one that drops blocks can restore what was there before them.
-/
structure StaysOnChain (w w' : World) : Prop where
  fetches : w'.handled.length = w.handled.length + 1 → LastOnL1 w
  confirmed : Confirmed w'
  restores : w'.handled.length < w.handled.length → Restorable N (N.cursor w') w

/-! ## 4. The invariant -/

structure OneChain (w : World) : Prop where
  l1 : B.IsChain w.l1
  chain : OnOneChain B w.fetched
  built : WorkOf X B N w.fetched w.store.objectTables
  snapshots : Snapshots X B N w.starts
  undo : ∀ (i : Nat) (log : UndoLogRecord), w.store.undoLogs[i]? = some log →
    log.chain = N.chain → log.blockHeight = 0 ∨ ∃ e ∈ w.fetched, e.1 = log.blockHeight
  recorded : ∀ (key : String) (r : BlockRecord), w.store.blocks[key]? = some r →
    key = blockKey N.chain r.blockHeight ∧ (r.blockHeight, r.blockHash) ∈ w.fetched

variable {X B N}

theorem padded20_injective : Function.Injective padded20 := by
  intro m n h
  have hvalue (k : Nat) : Nat.ofDigitChars 10 (padded20 k).toList 0 = k := by
    unfold padded20
    rw [String.toList_ofList, Nat.ofDigitChars_append, Nat.ofDigitChars_replicate_zero,
      Nat.mul_zero, Nat.ofDigitChars_ten_toDigits]
  rw [← hvalue m, ← hvalue n, h]

theorem blockKey_injective (chain : String) : Function.Injective (blockKey chain) := by
  intro m n h
  apply padded20_injective
  exact String.append_right_inj _ |>.mp h

theorem OneChain.storedHash {w : World} (h : OneChain X B N w) {height : Nat} {b : String}
    (hb : N.storedHash w height = some b) : (height, b) ∈ w.fetched := by
  obtain ⟨r, hr, rfl⟩ := Option.map_eq_some_iff.mp hb
  obtain ⟨hkey, hmem⟩ := h.recorded _ r hr
  rw [blockKey_injective N.chain hkey]
  exact hmem

theorem OneChain.storedOnL1 {w : World} (h : OneChain X B N w) (hcursor : N.CursorOnL1 w) :
    N.StoredOnL1 w := by
  obtain ⟨top, hstored, hl1⟩ := hcursor
  obtain ⟨v, hv, hfetched⟩ := h.chain
  intro height hlt b hb
  rw [h.l1.agree hv hl1 (hfetched _ (h.storedHash hstored)) hlt.le]
  exact hfetched _ (h.storedHash hb)

/-- What only the sync task may change. -/
def blockView (w : World) :
    Table String BlockRecord × ObjectTables × List ((Nat × String) × ObjectTables) :=
  (w.store.blocks, w.store.objectTables, w.starts)

/-- What the invariant observes. -/
def chainView (w : World) :=
  (blockView w, w.store.undoLogs, w.l1)

theorem fetched_of_blockView {w w' : World} (hview : blockView w' = blockView w) :
    w'.fetched = w.fetched := by
  unfold World.fetched
  rw [show w'.starts = w.starts from (Prod.mk.inj (Prod.mk.inj hview).2).2]

theorem tables_of_blockView {w w' : World} (hview : blockView w' = blockView w) :
    w'.store.objectTables = w.store.objectTables :=
  (Prod.mk.inj (Prod.mk.inj hview).2).1

theorem OneChain.congr {w w' : World} (h : OneChain X B N w) (hview : blockView w' = blockView w)
    (hl1 : B.IsChain w'.l1)
    (hundo : ∀ (i : Nat) (log : UndoLogRecord), w'.store.undoLogs[i]? = some log →
      w.store.undoLogs[i]? = some log ∨ log.blockHeight = 0) : OneChain X B N w' := by
  have hblocks : w'.store.blocks = w.store.blocks := (Prod.mk.inj hview).1
  have hstarts : w'.starts = w.starts := (Prod.mk.inj (Prod.mk.inj hview).2).2
  refine ⟨hl1, ?_, ?_, ?_, fun i log hlog hchain ↦ ?_, ?_⟩
  · rw [fetched_of_blockView hview]
    exact h.chain
  · rw [fetched_of_blockView hview, tables_of_blockView hview]
    exact h.built
  · rw [hstarts]
    exact h.snapshots
  · rw [fetched_of_blockView hview]
    rcases hundo i log hlog with hlog | hzero
    · exact h.undo i log hlog hchain
    · exact .inl hzero
  · rw [hblocks, fetched_of_blockView hview]
    exact h.recorded

theorem OneChain.of_view {w w' : World} (h : OneChain X B N w)
    (hview : chainView w' = chainView w) : OneChain X B N w' := by
  obtain ⟨hblocks, hrest⟩ := Prod.mk.inj hview
  obtain ⟨hundo, hl1⟩ := Prod.mk.inj hrest
  refine h.congr hblocks ?_ fun i log hlog ↦ .inl ?_
  · rw [hl1]
    exact h.l1
  · rwa [hundo] at hlog

theorem OneChain.fetch {w : World} (h : OneChain X B N w) (hlast : LastOnL1 w) {height : Nat}
    {b : String} (hb : w.l1 height = some b) : OneChain X B N (w.fetch height b) where
  l1 := h.l1
  chain := by
    -- the L1 chain that serves the block holds the earlier ones as well
    refine ⟨w.l1, h.l1, fun e he ↦ ?_⟩
    rcases List.mem_cons.mp he with rfl | he
    · exact hb
    · exact hlast.all h.l1 h.chain e he
  built := h.built.block _
  snapshots := ⟨h.built, h.snapshots⟩
  undo i log hlog hchain := by
    rcases h.undo i log hlog hchain with hzero | ⟨e, he, hheight⟩
    · exact .inl hzero
    · exact .inr ⟨e, List.mem_cons_of_mem _ he, hheight⟩
  recorded key r hr :=
    have ⟨hkey, hmem⟩ := h.recorded key r hr
    ⟨hkey, List.mem_cons_of_mem _ hmem⟩

theorem OneChain.saveBlock {w : World} (h : OneChain X B N w) {r : BlockRecord}
    (hchain : r.chain = N.chain) (hmem : (r.blockHeight, r.blockHash) ∈ w.fetched) :
    OneChain X B N { w with store := { w.store with
      blocks := w.store.blocks.insert (blockKey r.chain r.blockHeight) r } } where
  l1 := h.l1
  chain := h.chain
  built := h.built
  snapshots := h.snapshots
  undo := h.undo
  recorded key r' hr' := by
    change (w.store.blocks.insert _ r)[key]? = some r' at hr'
    rw [Table.get_insert] at hr'
    split at hr'
    · rename_i hkey
      cases hr'
      rw [hchain] at hkey
      exact ⟨hkey, hmem⟩
    · exact h.recorded key r' hr'

/-- A write of a transaction that runs at the height of a fetched block. -/
theorem OneChain.scan {w : World} (h : OneChain X B N w) {height : Nat} {s : StateStore}
    (hs : ScanWrite X height w.store s) (hheight : ∃ e ∈ w.fetched, e.1 = height)
    (hbuilt : WorkOf X B N w.fetched s.objectTables) :
    OneChain X B N { w with store := s } where
  l1 := h.l1
  chain := h.chain
  built := hbuilt
  snapshots := h.snapshots
  undo i log hlog hchain := by
    rcases hs.undoLogs hlog with hlog | hlogged
    · exact h.undo i log hlog hchain
    · rw [hlogged]
      exact .inr hheight
  recorded := by
    show ∀ (key : String) (r : BlockRecord), s.blocks[key]? = some r → _
    rw [hs.frame.2.2.1]
    exact h.recorded

/-- A transaction outside a block, when it stores no object. -/
theorem OneChain.mempool {w : World} (h : OneChain X B N w) {s : StateStore}
    (hs : ScanWrite X 0 w.store s) (hconfirmed : Confirmed { w with store := s }) :
    OneChain X B N { w with store := s } ∧ blockView { w with store := s } = blockView w := by
  have hview : blockView { w with store := s } = blockView w := by
    cases hs with
    | object obj hobj =>
      -- the object would bear the height 0
      refine absurd hobj (hconfirmed obj.objectId obj ?_)
      change (w.store.objects.insert obj.objectId obj)[obj.objectId]? = _
      rw [Table.get_insert, if_pos rfl]
    | none => rfl
    | tree smt => rfl
    | undo undo hundo => rfl
    | transition trans => rfl
    | blob wasmBytes => rfl
  exact ⟨h.congr hview h.l1 fun _ _ hlog ↦ hs.undoLogs hlog, hview⟩

/-- A state that a rollback leads to. -/
def rolledBackTo (N : Node) (targetHeight : Nat) (w : World) : World :=
  let logs := replayList N.chain targetHeight w.store
  { w with store := undoAll N.chain targetHeight logs w.store }.dropAbove targetHeight

theorem cursor_rolledBackTo (targetHeight : Nat) (w : World) :
    N.cursor (rolledBackTo N targetHeight w) = targetHeight := by
  have htables := undoAll_syncTables N.chain targetHeight (replayList N.chain targetHeight w.store)
    w.store
  unfold cursor rolledBackTo World.dropAbove
  rw [show (undoAll N.chain targetHeight _ w.store).chainMeta = _ from (Prod.mk.inj htables).2,
    Table.get_insert, if_pos rfl]
  rfl

/-- The blocks above the target are gone from the store. -/
theorem OneChain.undoAll_blocks {w : World} (h : OneChain X B N w) {targetHeight : Nat}
    {logs : List (Nat × UndoLogRecord)} {key : String} {r : BlockRecord}
    (hr : (undoAll N.chain targetHeight logs w.store).blocks[key]? = some r) :
    w.store.blocks[key]? = some r ∧ r.blockHeight ≤ targetHeight := by
  rw [show (undoAll N.chain targetHeight logs w.store).blocks = _ from
      (Prod.mk.inj (undoAll_syncTables N.chain targetHeight logs w.store)).1,
    Std.ExtTreeMap.getElem?_filter', Option.filter_eq_some_iff] at hr
  obtain ⟨hr, hkept⟩ := hr
  obtain ⟨hkey, -⟩ := h.recorded key r hr
  have hstarts : startsWith key (N.chain ++ ":") = true := startsWith_iff.mpr ⟨_, hkey⟩
  rw [hstarts] at hkept
  exact ⟨hr, by simpa using hkept⟩

/-- Undo records above the target belong to blocks above it. -/
theorem OneChain.replayList_eq_nil {w : World} (h : OneChain X B N w) {targetHeight : Nat}
    (hbelow : ∀ e ∈ w.handled, e.height ≤ targetHeight) :
    replayList N.chain targetHeight w.store = [] := by
  rw [List.eq_nil_iff_forall_not_mem]
  rintro ⟨i, log⟩ hmem
  obtain ⟨hlog, habove⟩ := mem_replayList.mp hmem
  unfold isAbove at habove
  obtain ⟨hchain, hheight⟩ := of_decide_eq_true habove
  rcases h.undo i log hlog hchain with hzero | ⟨e, he, heq⟩
  · omega
  · obtain ⟨_, hstart, rfl⟩ := List.mem_map.mp he
    obtain ⟨b, hb, rfl⟩ := List.mem_map.mp hstart
    have hle := hbelow b hb
    change b.height = log.blockHeight at heq
    omega

/-- **A rollback leads back to the work of the blocks that are left.** -/
theorem OneChain.rollback {w : World} (h : OneChain X B N w) {targetHeight : Nat}
    (hrestores : (rolledBackTo N targetHeight w).handled.length < w.handled.length →
      Restorable N targetHeight w) : OneChain X B N (rolledBackTo N targetHeight w) := by
  have hmem (e : Nat × String) : e ∈ (rolledBackTo N targetHeight w).fetched ↔
      e ∈ w.fetched ∧ e.1 ≤ targetHeight := World.mem_fetched_dropAbove
  have hstate : WorkOf X B N (rolledBackTo N targetHeight w).fetched
        (rolledBackTo N targetHeight w).store.objectTables ∧
      Snapshots X B N (rolledBackTo N targetHeight w).starts := by
    by_cases hbelow : ∀ e ∈ w.handled, e.height ≤ targetHeight
    · -- nothing to drop, nothing to replay
      have hstarts : (rolledBackTo N targetHeight w).starts = w.starts :=
        World.starts_dropAbove (List.nil_append w.handled).symm
          (fun _ he ↦ (List.not_mem_nil he).elim) hbelow
      have htables : (rolledBackTo N targetHeight w).store.objectTables =
          w.store.objectTables := by
        show (undoAll N.chain targetHeight (replayList N.chain targetHeight w.store)
          w.store).objectTables = _
        rw [h.replayList_eq_nil hbelow]
        rfl
      unfold World.fetched
      rw [hstarts, htables]
      exact ⟨h.built, h.snapshots⟩
    · -- what is left was stored before the first of the dropped blocks
      obtain ⟨newer, b, older, hw, hnewer, hb, holder, htables⟩ := hrestores (by
        simp only [not_forall, not_le] at hbelow
        obtain ⟨e, he, habove⟩ := hbelow
        exact List.length_filter_lt_length_iff_exists.mpr ⟨e, he, by simpa using habove⟩)
      have hall : ∀ e ∈ newer ++ [b], targetHeight < e.height := by
        intro e he
        rcases List.mem_append.mp he with he | he
        · exact hnewer e he
        · rw [List.mem_singleton.mp he]
          exact hb
      have hstarts : (rolledBackTo N targetHeight w).starts =
          older.map fun b ↦ ((b.height, b.blockHash), b.before) :=
        World.starts_dropAbove (by simpa using hw) hall holder
      have hsnapshots := h.snapshots
      unfold World.starts at hsnapshots
      rw [hw, List.map_append] at hsnapshots
      obtain ⟨hbuilt, hrest⟩ := hsnapshots.of_append
      unfold World.fetched
      rw [hstarts, show (rolledBackTo N targetHeight w).store.objectTables = b.before from htables]
      exact ⟨hbuilt, hrest⟩
  refine ⟨h.l1, ?_, hstate.1, hstate.2, fun i log hlog hchain ↦ ?_, fun key r hr ↦ ?_⟩
  · obtain ⟨v, hv, hfetched⟩ := h.chain
    exact ⟨v, hv, fun e he ↦ hfetched e ((hmem e).mp he).1⟩
  · change (undoAll N.chain targetHeight _ w.store).undoLogs[i]? = some log at hlog
    rw [undoAll_undoLogs, Option.filter_eq_some_iff] at hlog
    obtain ⟨hlog, hkept⟩ := hlog
    rcases h.undo i log hlog hchain with hzero | ⟨e, he, heq⟩
    · exact .inl hzero
    · -- a record that is kept is of a block that is left
      refine .inr ⟨e, (hmem e).mpr ⟨he, ?_⟩, heq⟩
      simp only [isAbove, hchain, true_and, Bool.not_eq_true', decide_eq_false_iff_not] at hkept
      omega
  · obtain ⟨hr, hle⟩ := h.undoAll_blocks hr
    obtain ⟨hkey, hfetched⟩ := h.recorded key r hr
    exact ⟨hkey, (hmem _).mpr ⟨hfetched, hle⟩⟩

theorem OneChain.fresh {v : L1Chain} (hv : B.IsChain v) (consensus : ConsensusManager) :
    OneChain X B N (fresh X consensus v) where
  l1 := hv
  chain := ⟨v, hv, fun _ he ↦ (List.not_mem_nil he).elim⟩
  built := .empty
  snapshots := trivial
  undo i log hlog _ := by
    change (∅ : Table Nat UndoLogRecord)[i]? = some log at hlog
    rw [Std.ExtTreeMap.getElem?_empty] at hlog
    cases hlog
  recorded key r hr := by
    change (∅ : Table String BlockRecord)[key]? = some r at hr
    rw [Std.ExtTreeMap.getElem?_empty] at hr
    cases hr

end Node

end UtxoVm
