import UtxoVm.Scanner.Update
import UtxoVm.Storage.Rollback

/-!
# Runs of the store

Any mix of saved objects, processed transactions and rollbacks leaves the tree that belongs to the
objects table: the incremental updates, the rebuild after a rollback and the rebuild on `open` all
agree.
-/

namespace UtxoVm

open RustStd StateStore Prog BlockProcessor

namespace StateStore

variable {X : Crates} {ids : Set String} {s s' : StateStore}

/-- The objects can be read back and the tree belongs to them. -/
structure Mirrored (X : Crates) (ids : Set String) (s : StateStore) : Prop where
  intact : s.Intact ids
  tracks : s.Tracks X

theorem empty_mirrored (X : Crates) (ids : Set String) : (empty X).Mirrored X ids :=
  ⟨empty_intact X ids, empty_tracks X⟩

theorem Mirrored.of_sameCore (hs : s.Mirrored X ids) (h : SameCore s s') : s'.Mirrored X ids :=
  ⟨hs.intact.of_sameCore h, hs.tracks.congr h.objects h.smt⟩

theorem Mirrored.putObject (hs : s.Mirrored X ids) (hideal : IdealHash X ids)
    {obj : SmartObjectRecord} (hmem : obj.objectId ∈ ids) (hreadable : obj.readable = true) :
    (putObject X obj s).Mirrored X ids :=
  ⟨hs.intact.putObject X hmem hreadable, hs.tracks.putObject hideal hs.intact.object hmem⟩

/-- The rebuild of the tree on `open`. -/
theorem Intact.open_mirrored (hs : s.Intact ids) (hideal : IdealHash X ids) :
    («open» X s).Mirrored X ids := by
  have hreadable : (s.objects.toList.map (·.2)).filter (·.readable) =
      s.objects.toList.map (·.2) :=
    List.filter_eq_self.mpr fun r hr ↦ (hs.object _ r ((mem_objects_iff hs r).mp hr)).2.1
  unfold «open»
  rw [hreadable]
  exact ⟨hs.congr rfl rfl, rebuild_tracks hideal hs⟩

/-- A rollback either leaves the store as it is or rebuilds the tree. -/
theorem Mirrored.rollback (hs : s.Mirrored X ids) (hideal : IdealHash X ids) (c : Bool)
    (chain : String) (targetHeight : Nat) :
    (run (rollbackToBlock X c chain targetHeight) s).1.Mirrored X ids := by
  cases c with
  | true =>
    rw [run_rollback hs.intact]
    exact ⟨(undoAll_intact hs.intact chain targetHeight).congr rfl rfl,
      rolledBack_tracks hideal hs.intact chain targetHeight⟩
  | false =>
    rw [run_rollbackToBlock, undoLogsAbove_eq hs.intact]
    exact hs

theorem Mirrored.currentStateRoot (hs : s.Mirrored X ids) :
    (run currentStateRoot s).1.Mirrored X ids where
  intact := hs.intact.congr rfl rfl
  tracks :=
    { wellFormed := SparseMerkleTree.root_wellFormed hs.tracks.wellFormed
      leaves := by
        show ∀ key v, s.smt.root.1.leaves key = some v ↔ _
        rw [SparseMerkleTree.root_leaves]
        exact hs.tracks.leaves }

end StateStore

/-- The object id of the update is in use, and its object can be read back. -/
structure Update.Readable (ids : Set String) (u : Update) : Prop where
  mem : u.undo.objectId ∈ ids
  object : ∀ obj, u.object = some obj → obj.readable = true

namespace StateStore

variable {X : Crates} {ids : Set String} {s s' : StateStore}

theorem Mirrored.of_progress (hs : s.Mirrored X ids) (hideal : IdealHash X ids)
    {P : BlockProcessor} {blockHeight : Nat} {tx : ElectrsTx}
    (hreadable : ∀ u, plannedUpdate X P s tx blockHeight = some u → u.Readable ids)
    (h : Progress X s (plannedUpdate X P s tx blockHeight) s') : s'.Mirrored X ids := by
  generalize hu? : plannedUpdate X P s tx blockHeight = u? at h
  have hundo {u : Update} (hu : plannedUpdate X P s tx blockHeight = some u) :
      (putUndo u.undo s).Mirrored X ids := by
    obtain ⟨obj?, hreplay⟩ := (plannedUpdate_fits X P hs.intact hu).replayable
    exact ⟨hs.intact.putUndo (hreadable u hu).mem hreplay, hs.tracks.congr rfl rfl⟩
  cases h with
  | nothing hcore => exact hs.of_sameCore hcore
  | undo hcore => exact (hundo hu?).of_sameCore hcore
  | object hobj hcore =>
    rename_i u obj
    have hid : obj.objectId = u.undo.objectId :=
      (plannedUpdate_fits X P hs.intact hu?).object obj hobj
    have hmem : obj.objectId ∈ ids := hid ▸ (hreadable u hu?).mem
    exact ((hundo hu?).putObject hideal hmem ((hreadable u hu?).object obj hobj)).of_sameCore hcore

/-- Sequential runs from an empty store.  A write may fail to commit; the records that are stored
can be read back, and their ids are in `ids`. -/
inductive Run (X : Crates) (ids : Set String) : StateStore → Prop
  | empty : Run X ids (empty X)
  | saveObject {s : StateStore} (c : Bool) {obj : SmartObjectRecord} : Run X ids s →
      obj.objectId ∈ ids → obj.readable = true → Run X ids (run (saveObject X c obj) s).1
  | processTx {s : StateStore} (P : BlockProcessor) (blockHeight : Nat) (r : TxRun) :
      Run X ids s →
      (∀ u, plannedUpdate X P s r.tx blockHeight = some u → u.Readable ids) →
      Run X ids (runTx X P blockHeight s r)
  | rollback {s : StateStore} (c : Bool) (chain : String) (targetHeight : Nat) : Run X ids s →
      Run X ids (run (rollbackToBlock X c chain targetHeight) s).1
  | stateRoot {s : StateStore} : Run X ids s → Run X ids (run currentStateRoot s).1

theorem Run.mirrored (h : Run X ids s) (hideal : IdealHash X ids) : s.Mirrored X ids := by
  induction h with
  | empty => exact empty_mirrored X ids
  | saveObject c _ hmem hreadable ih =>
    rw [run_saveObject]
    cases c with
    | true => exact ih.putObject hideal hmem hreadable
    | false => exact ih
  | processTx P blockHeight r _ hreadable ih =>
    exact ih.of_progress hideal hreadable (runTx_progress X P blockHeight _ r)
  | rollback c chain targetHeight _ ih => exact ih.rollback hideal c chain targetHeight
  | stateRoot _ ih => exact ih.currentStateRoot

/-- **Store, tree and restart agree.**  After any run the tree maps exactly the key hashes of the
stored objects to their hashes, and reopening the store gives the same state root. -/
theorem run_tree_and_restart (hideal : IdealHash X ids) (h : Run X ids s) :
    (∀ key v, s.smt.get key = some v ↔ ∃ id, ∃ r : SmartObjectRecord, s.objects[id]? = some r ∧
        hashKey X id = key ∧ hashObject X r = v) ∧
      (run currentStateRoot («open» X s)).2 = (run currentStateRoot s).2 := by
  have hs := h.mirrored hideal
  have hopen := hs.intact.open_mirrored hideal
  refine ⟨hs.tracks.leaves, ?_⟩
  have hroot := hopen.tracks.root_eq hs.tracks rfl
  show Except.ok (hexEncode (SparseMerkleTree.root _).2.toList) = Except.ok (hexEncode _)
  rw [hroot]

end StateStore

theorem demo_idealHash : IdealHash demoCrates {demoObjectId} where
  injOn := Set.injOn_singleton _ _
  nonzero _ := demoCrates_sha256_ne_zero _

/-- A store that was saved to, rolled back and saved to again. -/
theorem run_tree_and_restart_saved :
    let s := (run (saveObject demoCrates true (demoObject 1))
      (run (rollbackToBlock demoCrates true "JKC" 0)
        (run (saveObject demoCrates true (demoObject 1)) (empty demoCrates)).1).1).1
    (∀ key v, s.smt.get key = some v ↔ ∃ id, ∃ r : SmartObjectRecord, s.objects[id]? = some r ∧
        hashKey demoCrates id = key ∧ hashObject demoCrates r = v) ∧
      (run currentStateRoot («open» demoCrates s)).2 = (run currentStateRoot s).2 :=
  run_tree_and_restart demo_idealHash
    (.saveObject true (.rollback true "JKC" 0 (.saveObject true .empty rfl (by decide))) rfl
      (by decide))

def demoEmptyTree : SparseMerkleTree := SparseMerkleTree.new (smtHashes demoCrates)

/-- A leaf with a byte above those of the tags shows in the root. -/
theorem demoRoot_ne (blockHeight : Nat) : hexEncode demoEmptyTree.root.2.toList ≠
    hexEncode (smtInsert demoCrates demoEmptyTree (demoObject blockHeight)).root.2.toList := by
  have hempty : demoEmptyTree.WellFormed (smtHashes demoCrates) :=
    SparseMerkleTree.new_wellFormed _
  have hinserted : (smtInsert demoCrates demoEmptyTree (demoObject blockHeight)).WellFormed
      (smtHashes demoCrates) := SparseMerkleTree.update_wellFormed hempty ..
  have hleaf : (smtInsert demoCrates demoEmptyTree (demoObject blockHeight)).leaves
      (hashKey demoCrates demoObjectId) = some (hashObject demoCrates (demoObject blockHeight)) := by
    rw [smtInsert_leaves demo_idealHash]
    exact if_pos rfl
  intro heq
  have hroot := Vector.toList_inj.mp (hexEncode_injective heq)
  rw [SparseMerkleTree.root_eq hempty, SparseMerkleTree.root_eq hinserted] at hroot
  -- at level 0 all keys are below the same node
  have hsame : subtreeHash (smtHashes demoCrates) demoEmptyTree.leaves 0 zeroHash =
      subtreeHash (smtHashes demoCrates)
        (smtInsert demoCrates demoEmptyTree (demoObject blockHeight)).leaves 0
        (hashKey demoCrates demoObjectId) :=
    hroot.trans (subtreeHash_congr (Nat.zero_le _) (fun _ hi ↦ absurd hi (Nat.not_lt_zero _))
      fun _ _ ↦ rfl)
  obtain ⟨y, hy⟩ : ∃ y, y ∈ (subtreeHash (smtHashes demoCrates) demoEmptyTree.leaves 0
      zeroHash).toList := ⟨_, List.getElem_mem (by simp : 0 < _)⟩
  have hle : y ≤ 95 := by
    refine demo_subtreeHash_le (by decide) (fun key v hnone ↦ ?_) 0 zeroHash y hy
    cases show (none : Option Hash) = some v from hnone
  rw [hsame] at hy
  obtain ⟨x, hx, hlarge⟩ : ∃ x ∈ (hashObject demoCrates (demoObject 0)).toList, 95 < x := by
    decide +kernel
  have hge := demo_le_subtreeHash hleaf hx (Nat.zero_le _) y hy
  exact absurd (UInt8.le_trans hge hle) (UInt8.not_le.mpr hlarge)

end UtxoVm
