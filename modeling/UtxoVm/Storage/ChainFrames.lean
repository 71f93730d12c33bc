import UtxoVm.Scanner.Update
import UtxoVm.Storage.Rollback

/-!
# Rollback of one chain

All chains share the tables.  `rollback_to_block` tells them apart by the chain field of an undo
record, by the text before the height in the key of a block, by the key of the sync cursor, and for
the objects by the undo records; the transitions do not say which chain they belong to.
-/

namespace UtxoVm

open RustStd StateStore Prog BlockProcessor

/-! ## 1. Keys that begin with the name of a chain -/

/-- The block keys under the prefix of a chain are those of the chain and of the chains whose names
begin with that prefix. -/
theorem startsWith_blockKey {chain other : String} {height : Nat} :
    startsWith (blockKey other height) (chain ++ ":") = true ↔
      other = chain ∨ startsWith other (chain ++ ":") = true := by
  have hkey : (blockKey other height).toList = other.toList ++ ':' :: (padded20 height).toList := by
    simp [blockKey]
  have hstarts : (chain ++ ":").toList = chain.toList ++ [':'] := by simp
  rw [startsWith_iff_toList, startsWith_iff_toList, hkey, hstarts]
  constructor
  · rintro ⟨r, hr⟩
    rw [List.append_assoc, List.singleton_append] at hr
    rcases append_cons_prefix (colon_not_mem_padded20 height) hr with hsame | ⟨m, hm⟩
    · exact .inl (String.toList_injective hsame)
    · refine .inr ⟨m, ?_⟩
      rw [hm]
      simp
  · rintro (rfl | ⟨m, hm⟩)
    · exact ⟨(padded20 height).toList, by simp⟩
    · refine ⟨m ++ ':' :: (padded20 height).toList, ?_⟩
      rw [hm]
      simp

theorem lastBlockKey_inj {chain other : String} (h : lastBlockKey other = lastBlockKey chain) :
    other = chain := by
  have hlists := congrArg String.toList h
  unfold lastBlockKey at hlists
  rw [String.toList_append, String.toList_append] at hlists
  exact String.toList_injective (List.append_cancel_right hlists)

/-! ## 2. What the transaction of a rollback leaves in each table -/

namespace StateStore

variable {X : Crates} {chainOf : String → String} {chain : String} {targetHeight : Nat}
  {logs : List (Nat × UndoLogRecord)} {s s' : StateStore}

theorem undoAll_blocks {key : String} {b : BlockRecord} :
    (undoAll chain targetHeight logs s).blocks[key]? = some b ↔
      s.blocks[key]? = some b ∧
        ¬ (startsWith key (chain ++ ":") = true ∧ targetHeight < b.blockHeight) := by
  obtain ⟨objects, seals, hfold⟩ := foldl_undoOne_eq targetHeight (logs.map (·.2)) s
  unfold undoAll
  rw [hfold]
  dsimp only
  rw [Std.ExtTreeMap.getElem?_filter', Option.filter_eq_some_iff, Bool.not_eq_true',
    ← Bool.not_eq_true, Bool.and_eq_true, decide_eq_true_eq]

theorem undoAll_transitions (chain : String) {txid : String} {t : StateTransitionRecord} :
    (undoAll chain targetHeight logs s).transitions[txid]? = some t ↔
      s.transitions[txid]? = some t ∧ ¬ (t.readable = true ∧ targetHeight < t.blockHeight) := by
  obtain ⟨objects, seals, hfold⟩ := foldl_undoOne_eq targetHeight (logs.map (·.2)) s
  unfold undoAll
  rw [hfold]
  dsimp only
  rw [Std.ExtTreeMap.getElem?_filter', Option.filter_eq_some_iff, Bool.not_eq_true',
    ← Bool.not_eq_true, Bool.and_eq_true, decide_eq_true_eq]

theorem undoAll_chainMeta {other : String} (hother : other ≠ chain) :
    (undoAll chain targetHeight logs s).chainMeta[lastBlockKey other]? =
      s.chainMeta[lastBlockKey other]? := by
  obtain ⟨objects, seals, hfold⟩ := foldl_undoOne_eq targetHeight (logs.map (·.2)) s
  unfold undoAll
  rw [hfold]
  dsimp only
  rw [Table.get_insert, if_neg fun h ↦ hother (lastBlockKey_inj h)]

/-- A record is replayed on its own object. -/
theorem undoOne_objects_other {log : UndoLogRecord} {id : String} (hid : id ≠ log.objectId) :
    (undoOne targetHeight s log).objects[id]? = s.objects[id]? := by
  obtain ⟨seals, hdrop⟩ := dropSeal_eq log.objectId s
  unfold undoOne
  rw [hdrop]
  dsimp only
  split
  · rw [Table.get_erase, if_neg hid]
  · split
    · split
      · rw [Table.get_insert, if_neg hid]
      · rfl
    · rfl

theorem undoAll_objects_other {id : String} (hlogs : ∀ e ∈ logs, id ≠ e.2.objectId) :
    (undoAll chain targetHeight logs s).objects[id]? = s.objects[id]? := by
  show ((logs.map (·.2)).foldl (undoOne targetHeight) s).objects[id]? = _
  induction logs generalizing s with
  | nil => rfl
  | cons e logs ih =>
    rw [List.map_cons, List.foldl_cons, ih fun e' he' ↦ hlogs e' (List.mem_cons_of_mem _ he'),
      undoOne_objects_other (hlogs e List.mem_cons_self)]

/-! ## 3. Data of several chains -/

/-- The store holds data of several chains; `chainOf` says to which chain an object belongs.  Blocks
lie under the key of their chain, and undo records are about objects of their chain. -/
structure Attributed (chainOf : String → String) (s : StateStore) : Prop where
  blocks : ∀ (key : String) (b : BlockRecord), s.blocks[key]? = some b →
    key = blockKey b.chain b.blockHeight
  undoLogs : ∀ (i : Nat) (log : UndoLogRecord), s.undoLogs[i]? = some log →
    chainOf log.objectId = log.chain

theorem empty_attributed (X : Crates) (chainOf : String → String) :
    (empty X).Attributed chainOf where
  blocks key b h := by simp [empty] at h
  undoLogs i log h := by simp [empty] at h

theorem Attributed.saveBlock (hs : s.Attributed chainOf) (c : Bool) (block : BlockRecord) :
    (run (saveBlock c block) s).1.Attributed chainOf := by
  unfold StateStore.saveBlock
  rw [run_commit]
  cases c with
  | false => exact hs
  | true =>
    refine ⟨fun key b hb ↦ ?_, hs.undoLogs⟩
    change (s.blocks.insert _ _)[key]? = some b at hb
    rw [Table.get_insert] at hb
    split at hb
    · rename_i hkey
      cases hb
      exact hkey
    · exact hs.blocks key b hb

theorem Attributed.putUndo (hs : s.Attributed chainOf) {undo : UndoLogRecord}
    (hundo : chainOf undo.objectId = undo.chain) : (putUndo undo s).Attributed chainOf := by
  refine ⟨hs.blocks, fun i log hi ↦ ?_⟩
  rw [putUndo_undoLogs] at hi
  split at hi
  · cases hi
    exact hundo
  · exact hs.undoLogs i log hi

theorem Attributed.congr (hs : s.Attributed chainOf) (hblocks : s'.blocks = s.blocks)
    (hundo : s'.undoLogs = s.undoLogs) : s'.Attributed chainOf where
  blocks := by rw [hblocks]; exact hs.blocks
  undoLogs := by rw [hundo]; exact hs.undoLogs

/-- A processor that creates and calls objects of its own chain keeps the attribution. -/
theorem Attributed.runTx {ids : Set String} {P : BlockProcessor} {blockHeight : Nat} {r : TxRun}
    (hs : s.Attributed chainOf) (hintact : s.Intact ids)
    (hown : ∀ u, plannedUpdate X P s r.tx blockHeight = some u →
      chainOf u.undo.objectId = P.chain) :
    (runTx X P blockHeight s r).Attributed chainOf := by
  have hblocks : (BlockProcessor.runTx X P blockHeight s r).blocks = s.blocks :=
    (processTx_sameRest X P r.writes r.now r.tx blockHeight s).blocks
  have hundo : ∀ u, plannedUpdate X P s r.tx blockHeight = some u →
      (StateStore.putUndo u.undo s).Attributed chainOf := by
    intro u hu
    exact hs.putUndo ((hown u hu).trans (plannedUpdate_fits X P hintact hu).chain.symm)
  have hprogress := runTx_progress X P blockHeight s r
  cases hu : plannedUpdate X P s r.tx blockHeight with
  | none =>
    rw [hu] at hprogress
    cases hprogress with
    | nothing hcore => exact hs.congr hblocks hcore.undoLogs
  | some u =>
    rw [hu] at hprogress
    cases hprogress with
    | nothing hcore => exact hs.congr hblocks hcore.undoLogs
    | undo hcore => exact (hundo u hu).congr hblocks hcore.undoLogs
    | object hobj hcore => exact (hundo u hu).congr hblocks hcore.undoLogs

/-! ## 4. The frame -/

/-- Everything that belongs to another chain than `chain` is the same in both stores. -/
structure OtherChainsKept (chainOf : String → String) (chain : String) (s s' : StateStore) :
    Prop where
  blocks : ∀ (key : String) (b : BlockRecord), b.chain ≠ chain →
    (s'.blocks[key]? = some b ↔ s.blocks[key]? = some b)
  transitions : ∀ (txid : String) (t : StateTransitionRecord), chainOf t.objectId ≠ chain →
    (s'.transitions[txid]? = some t ↔ s.transitions[txid]? = some t)
  undoLogs : ∀ (i : Nat) (log : UndoLogRecord), log.chain ≠ chain →
    (s'.undoLogs[i]? = some log ↔ s.undoLogs[i]? = some log)
  lastBlocks : ∀ other, other ≠ chain →
    s'.chainMeta[lastBlockKey other]? = s.chainMeta[lastBlockKey other]?
  objects : ∀ id, chainOf id ≠ chain → s'.objects[id]? = s.objects[id]?

/-- Above the target height there are no transitions of another chain's objects, and no blocks of a
chain whose name begins with `chain` and the separator. -/
structure Separated (chainOf : String → String) (chain : String) (targetHeight : Nat)
    (s : StateStore) : Prop where
  transitions : ∀ (txid : String) (t : StateTransitionRecord), s.transitions[txid]? = some t →
    t.readable = true → targetHeight < t.blockHeight → chainOf t.objectId = chain
  blocks : ∀ (key : String) (b : BlockRecord), s.blocks[key]? = some b →
    targetHeight < b.blockHeight → startsWith b.chain (chain ++ ":") = false

/-- The undo records and the objects of other chains are safe. -/
theorem Attributed.undoAll_other (hs : s.Attributed chainOf) (chain : String)
    (targetHeight : Nat) :
    (∀ (i : Nat) (log : UndoLogRecord), log.chain ≠ chain →
      ((undoAll chain targetHeight (replayList chain targetHeight s) s).undoLogs[i]? = some log ↔
        s.undoLogs[i]? = some log)) ∧
    ∀ id, chainOf id ≠ chain →
      (undoAll chain targetHeight (replayList chain targetHeight s) s).objects[id]? =
        s.objects[id]? := by
  have habove {i : Nat} {log : UndoLogRecord} (he : (i, log) ∈ replayList chain targetHeight s) :
      s.undoLogs[i]? = some log ∧ log.chain = chain := by
    have ⟨hi, h⟩ := mem_replayList.mp he
    simp only [isAbove, decide_eq_true_eq] at h
    exact ⟨hi, h.1⟩
  constructor
  · intro i log hlog
    rw [undoAll_undoLogs, Option.filter_eq_some_iff]
    simp [isAbove, hlog]
  · intro id hid
    apply undoAll_objects_other
    rintro ⟨i, log⟩ he rfl
    obtain ⟨hi, hchain⟩ := habove he
    exact hid ((hs.undoLogs i log hi).trans hchain)

/-- **A rollback touches one chain only** exactly when the other chains are separated from it. -/
theorem rollback_touches_one_chain_iff (hs : s.Attributed chainOf) (X : Crates) (commits : Bool) :
    OtherChainsKept chainOf chain s (run (rollbackToBlock X commits chain targetHeight) s).1 ↔
      (commits = true → s.undoLogs.toList.all (·.2.readable) = true →
        Separated chainOf chain targetHeight s) := by
  rcases rollback_state X commits chain targetHeight s with ⟨hsame, hfails⟩ | ⟨hdone, smt, hstate⟩
  · rw [hsame]
    constructor
    · exact fun _ hc hreadable ↦ absurd ⟨hc, hreadable⟩ hfails
    · exact fun _ ↦ ⟨fun _ _ _ ↦ Iff.rfl, fun _ _ _ ↦ Iff.rfl, fun _ _ _ ↦ Iff.rfl,
        fun _ _ ↦ rfl, fun _ _ ↦ rfl⟩
  rw [hstate]
  obtain ⟨hundo, hobjects⟩ := hs.undoAll_other chain targetHeight
  constructor
  · intro hkept _ _
    constructor
    · intro txid t ht hreadable habove
      by_contra hother
      exact ((undoAll_transitions chain).mp ((hkept.transitions txid t hother).mpr ht)).2
        ⟨hreadable, habove⟩
    · intro key b hb habove
      rw [Bool.eq_false_iff]
      intro hstarts
      have hother : b.chain ≠ chain := by
        rintro rfl
        obtain ⟨r, hr⟩ := startsWith_iff_toList.mp hstarts
        have hlen := congrArg List.length hr
        simp at hlen
      refine (undoAll_blocks.mp ((hkept.blocks key b hother).mpr hb)).2 ⟨?_, habove⟩
      rw [hs.blocks key b hb]
      exact startsWith_blockKey.mpr (.inr hstarts)
  · intro hseparated
    have hseparated := hseparated hdone.1 hdone.2
    refine ⟨fun key b hb ↦ ?_, fun txid t ht ↦ ?_, hundo, fun other hother ↦ ?_, hobjects⟩
    · show (undoAll chain targetHeight (replayList chain targetHeight s) s).blocks[key]? =
        some b ↔ _
      rw [undoAll_blocks]
      refine ⟨And.left, fun hkey ↦ ⟨hkey, ?_⟩⟩
      rintro ⟨hstarts, habove⟩
      rw [hs.blocks key b hkey] at hstarts
      rcases startsWith_blockKey.mp hstarts with hsame | hlonger
      · exact hb hsame
      · rw [hseparated.blocks key b hkey habove] at hlonger
        cases hlonger
    · show (undoAll chain targetHeight (replayList chain targetHeight s) s).transitions[txid]? =
        some t ↔ _
      rw [undoAll_transitions chain]
      exact ⟨And.left,
        fun htxid ↦ ⟨htxid, fun h ↦ ht (hseparated.transitions txid t htxid h.1 h.2)⟩⟩
    · exact undoAll_chainMeta hother

/-- A transition of the object `object_id`, above the blocks of the tests. -/
def demoTransition (objectId : String) : StateTransitionRecord where
  txid := demoCallTx.txid
  objectId := objectId
  prevSeal := sealOf demoCreateTx.txid 0
  newSeal := sealOf demoCallTx.txid 0
  caller := sealOf demoCreateTx.txid 0
  method := "transfer"
  args := .object []
  newState := .object []
  satoshis := 900
  blockHeight := 7
  gasConsumed := 21500
  timestamp := 0

/-- Two chains whose objects have the first letter of their chain. -/
def demoChainOf (objectId : String) : String := if startsWith objectId "D" then "DOGE" else "JKC"

theorem putTransition_attributed (t : StateTransitionRecord) :
    (putTransition t (empty demoCrates)).Attributed demoChainOf :=
  (empty_attributed demoCrates demoChainOf).congr rfl rfl

/-- A block of the chain `chain`. -/
def demoBlock (chain : String) (height : Nat) : BlockRecord where
  chain := chain
  blockHeight := height
  blockHash := "aa"
  prevHash := none
  stateRoot := ""
  timestamp := 0

/-- The undo record of a call of the object `object_id`. -/
def demoUpdateUndo (chain : String) (id height : Nat) (objectId : String) : UndoLogRecord :=
  { ({ demoProcessor with chain }).updateUndo demoCallTx height 0
      { demoObject 1 with objectId } with id }

/-- An object of each of two chains, both called: `DOGE` in block 7 and `JKC` in block 2. -/
def demoTwoCalls : StateStore :=
  let s := putObject demoCrates { demoObject 1 with objectId := "D1", satoshis := 900 }
    (putObject demoCrates { demoObject 1 with objectId := "J1", sealRef := "j:0" }
      (empty demoCrates))
  let s := putUndo (demoUpdateUndo "DOGE" 0 7 "D1") (putUndo (demoUpdateUndo "JKC" 1 2 "J1") s)
  putTransition (demoTransition "D1")
    (putTransition { demoTransition "J1" with txid := "00", blockHeight := 2 } s)

/-- The same with the blocks, and one more of `JKC`. -/
def demoTwoChains : StateStore :=
  let s := (run (saveBlock true (demoBlock "JKC" 2)) demoTwoCalls).1
  let s := (run (saveBlock true (demoBlock "JKC" 9)) s).1
  (run (saveBlock true (demoBlock "DOGE" 7)) s).1

theorem demoTwoChains_attributed : demoTwoChains.Attributed demoChainOf := by
  have hundo (chain : String) (id height : Nat) (objectId : String)
      (hchain : demoChainOf objectId = chain) :
      demoChainOf (demoUpdateUndo chain id height objectId).objectId =
        (demoUpdateUndo chain id height objectId).chain := hchain
  have hcalls : demoTwoCalls.Attributed demoChainOf :=
    (((empty_attributed demoCrates demoChainOf).putUndo (hundo "JKC" 1 2 "J1" (by decide))).putUndo
      (hundo "DOGE" 0 7 "D1" (by decide))).congr rfl rfl
  exact ((hcalls.saveBlock true _).saveBlock true _).saveBlock true _

theorem demoTwoChains_separated : Separated demoChainOf "DOGE" 3 demoTwoChains where
  transitions txid t ht _ habove := by
    have hall : demoTwoChains.transitions.toList.all (fun e ↦
        decide (3 < e.2.blockHeight → demoChainOf e.2.objectId = "DOGE")) = true := by
      decide +kernel
    exact of_decide_eq_true (List.all_eq_true.mp hall (txid, t)
      (Std.ExtTreeMap.mem_toList_iff_getElem?_eq_some.mpr ht)) habove
  blocks key b hb _ := by
    have hall : demoTwoChains.blocks.toList.all (fun e ↦
        !startsWith e.2.chain ("DOGE" ++ ":")) = true := by decide +kernel
    simpa using List.all_eq_true.mp hall (key, b)
      (Std.ExtTreeMap.mem_toList_iff_getElem?_eq_some.mpr hb)

/-- The rollback of `DOGE` undoes its call, and leaves what belongs to `JKC`. -/
theorem rollback_touches_one_chain_iff_two :
    let s' := (run (rollbackToBlock demoCrates true "DOGE" 3) demoTwoChains).1
    OtherChainsKept demoChainOf "DOGE" demoTwoChains s' ∧
      (s'.objects["D1"]?.map (·.satoshis)) = some 1000 ∧ s'.blocks.size = 2 :=
  ⟨(rollback_touches_one_chain_iff demoTwoChains_attributed demoCrates true).mpr
    fun _ _ ↦ demoTwoChains_separated, by decide +kernel, by decide +kernel⟩

/-- A rollback of one chain removes a transition of the other. -/
theorem rollback_removes_foreign_transition :
    ¬ ∀ (chainOf : String → String) (s : StateStore) (chain : String) (targetHeight : Nat),
      s.Attributed chainOf → OtherChainsKept chainOf chain s
        (run (rollbackToBlock demoCrates true chain targetHeight) s).1 := by
  intro h
  let s := putTransition (demoTransition "J1") (empty demoCrates)
  have hkept := h demoChainOf s "DOGE" 3 (putTransition_attributed (demoTransition "J1"))
  have htransition := hkept.transitions demoCallTx.txid (demoTransition "J1") (by decide +kernel)
  have hgone : (run (rollbackToBlock demoCrates true "DOGE" 3) s).1.transitions[demoCallTx.txid]? =
      none := Option.isNone_iff_eq_none.mp (by decide +kernel)
  have hstored : s.transitions[demoCallTx.txid]? = some (demoTransition "J1") :=
    (Table.get_insert ..).trans (if_pos rfl)
  rw [htransition.mpr hstored] at hgone
  cases hgone

end StateStore

end UtxoVm
