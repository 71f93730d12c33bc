import UtxoVm.Reasoning.UndoLog
import UtxoVm.Storage.Consistency

/-!
# Rollback

On a consistent store `rollback_to_block` replays the undo log as `UndoLog` describes it, keeps the
store consistent, and leaves the tree that belongs to the restored objects.
-/

namespace UtxoVm

open RustStd Prog

namespace StateStore

variable {X : Crates} {ids : Set String} {s s' : StateStore}

/-! ## 1. The tree of a store -/

/-- SHA-256 as an ideal hash: no collision among the object ids in use, and never the zero value. -/
structure IdealHash (X : Crates) (ids : Set String) : Prop where
  injOn : Set.InjOn (hashKey X) ids
  nonzero : ∀ obj, hashObject X obj ≠ zeroHash

/-- The tree holds exactly the hashes of the stored objects. -/
structure Tracks (X : Crates) (s : StateStore) : Prop where
  wellFormed : s.smt.WellFormed (smtHashes X)
  leaves : ∀ key v, s.smt.leaves key = some v ↔
    ∃ id, ∃ r : SmartObjectRecord, s.objects[id]? = some r ∧ hashKey X id = key ∧ hashObject X r = v

theorem empty_tracks (X : Crates) : (empty X).Tracks X where
  wellFormed := SparseMerkleTree.new_wellFormed _
  leaves key v := by simp [empty, SparseMerkleTree.new]

/-- Only the objects and the tree matter. -/
theorem Tracks.congr (h : s.Tracks X) (hobjects : s'.objects = s.objects) (hsmt : s'.smt = s.smt) :
    s'.Tracks X where
  wellFormed := by rw [hsmt]; exact h.wellFormed
  leaves := by rw [hsmt, hobjects]; exact h.leaves

/-- **Equal objects give equal roots.** -/
theorem Tracks.root_eq (h : s.Tracks X) (h' : s'.Tracks X) (hobjects : s.objects = s'.objects) :
    s.smt.root.2 = s'.smt.root.2 := by
  rw [SparseMerkleTree.root_eq h.wellFormed, SparseMerkleTree.root_eq h'.wellFormed]
  congr 1
  funext key
  apply Option.ext
  intro v
  rw [h.leaves, h'.leaves, hobjects]

theorem smtInsert_leaves (hideal : IdealHash X ids) (smt : SparseMerkleTree)
    (obj : SmartObjectRecord) (key : Hash) :
    (smtInsert X smt obj).leaves key =
      if key = hashKey X obj.objectId then some (hashObject X obj) else smt.leaves key := by
  unfold smtInsert
  rw [SparseMerkleTree.update_leaves, if_neg (hideal.nonzero obj)]

theorem Tracks.putObject (h : s.Tracks X) (hideal : IdealHash X ids) (hs : s.FiledIn ids)
    {obj : SmartObjectRecord} (hmem : obj.objectId ∈ ids) : (putObject X obj s).Tracks X where
  wellFormed := SparseMerkleTree.update_wellFormed h.wellFormed _ _
  leaves key v := by
    show (smtInsert X s.smt obj).leaves key = some v ↔ _
    rw [smtInsert_leaves hideal]
    split
    · rename_i hkey
      constructor
      · rintro ⟨⟩
        exact ⟨obj.objectId, obj, by rw [putObject_objects, if_pos rfl], hkey.symm, rfl⟩
      · rintro ⟨id, r, hr, hid, hv⟩
        rw [putObject_objects] at hr
        split at hr
        · cases hr
          rw [hv]
        · rename_i hne
          exact absurd (hideal.injOn (hs id r hr).2.2 hmem (hid.trans hkey)) hne
    · rename_i hkey
      rw [h.leaves]
      constructor
      · rintro ⟨id, r, hr, hid, hv⟩
        refine ⟨id, r, ?_, hid, hv⟩
        rw [putObject_objects, if_neg]
        · exact hr
        · rintro rfl
          exact hkey hid.symm
      · rintro ⟨id, r, hr, hid, hv⟩
        rw [putObject_objects, if_neg] at hr
        · exact ⟨id, r, hr, hid, hv⟩
        · rintro rfl
          exact hkey hid.symm

/-- A tree built from a list of objects with different key hashes holds exactly those. -/
theorem smtOf_leaves (hideal : IdealHash X ids) (objs : List SmartObjectRecord)
    (hdistinct : objs.Pairwise fun a b ↦ hashKey X a.objectId ≠ hashKey X b.objectId) :
    (smtOf X objs).WellFormed (smtHashes X) ∧ ∀ key v, (smtOf X objs).leaves key = some v ↔
      ∃ r ∈ objs, hashKey X r.objectId = key ∧ hashObject X r = v := by
  induction objs using List.reverseRecOn with
  | nil => exact ⟨SparseMerkleTree.new_wellFormed _, by simp [smtOf, SparseMerkleTree.new]⟩
  | append_singleton objs obj ih =>
    obtain ⟨hinit, -, hlast⟩ := List.pairwise_append.mp hdistinct
    obtain ⟨hwf, hleaves⟩ := ih hinit
    have hstep : smtOf X (objs ++ [obj]) = smtInsert X (smtOf X objs) obj := by
      simp [smtOf, List.foldl_append]
    rw [hstep]
    refine ⟨SparseMerkleTree.update_wellFormed hwf _ _, fun key v ↦ ?_⟩
    rw [smtInsert_leaves hideal]
    split
    · rename_i hkey
      constructor
      · rintro ⟨⟩
        exact ⟨obj, by simp, hkey.symm, rfl⟩
      · rintro ⟨r, hr, hrkey, hrv⟩
        rcases List.mem_append.mp hr with hr | hr
        · exact absurd (hrkey.trans hkey) (hlast r hr obj (by simp))
        · rw [← List.mem_singleton.mp hr, hrv]
    · rename_i hkey
      rw [hleaves]
      constructor
      · rintro ⟨r, hr, hrkey, hrv⟩
        exact ⟨r, by simp [hr], hrkey, hrv⟩
      · rintro ⟨r, hr, hrkey, hrv⟩
        rcases List.mem_append.mp hr with hr | hr
        · exact ⟨r, hr, hrkey, hrv⟩
        · rw [List.mem_singleton.mp hr] at hrkey
          exact absurd hrkey.symm hkey

/-- The objects of a consistent store, in key order. -/
theorem mem_objects_iff (hs : s.Intact ids) (r : SmartObjectRecord) :
    r ∈ s.objects.toList.map (·.2) ↔ s.objects[r.objectId]? = some r := by
  rw [List.mem_map]
  constructor
  · rintro ⟨⟨id, r'⟩, hmem, rfl⟩
    have hr := Std.ExtTreeMap.mem_toList_iff_getElem?_eq_some.mp hmem
    rwa [(hs.object id r' hr).1]
  · exact fun hr ↦ ⟨(r.objectId, r), Std.ExtTreeMap.mem_toList_iff_getElem?_eq_some.mpr hr, rfl⟩

theorem allObjects_eq (hs : s.Intact ids) :
    allObjects s = .ok (s.objects.toList.map (·.2)) := by
  unfold allObjects
  dsimp only
  rw [if_pos]
  rw [List.all_eq_true]
  exact fun r hr ↦ (hs.object _ r ((mem_objects_iff hs r).mp hr)).2.1

/-- Rebuilding the tree from the objects table. -/
theorem rebuild_tracks (hideal : IdealHash X ids) (hs : s.Intact ids) :
    ({ s with smt := smtOf X (s.objects.toList.map (·.2)) } : StateStore).Tracks X := by
  have hdistinct : (s.objects.toList.map (·.2)).Pairwise fun a b ↦
      hashKey X a.objectId ≠ hashKey X b.objectId := by
    rw [List.pairwise_map]
    refine (Std.ExtTreeMap.distinct_keys_toList (t := s.objects)).imp_of_mem ?_
    intro a b ha hb hne hkey
    have ha' := hs.object a.1 a.2 (Std.ExtTreeMap.mem_toList_iff_getElem?_eq_some.mp ha)
    have hb' := hs.object b.1 b.2 (Std.ExtTreeMap.mem_toList_iff_getElem?_eq_some.mp hb)
    have hid := hideal.injOn (ha'.1 ▸ ha'.2.2) (hb'.1 ▸ hb'.2.2) hkey
    rw [ha'.1, hb'.1] at hid
    exact hne (by rw [hid, Std.LawfulEqOrd.compare_eq_iff_eq])
  obtain ⟨hwf, hleaves⟩ := smtOf_leaves hideal _ hdistinct
  refine ⟨hwf, fun key v ↦ ?_⟩
  show (smtOf X _).leaves key = some v ↔ _
  rw [hleaves]
  constructor
  · rintro ⟨r, hr, hkey, hv⟩
    exact ⟨r.objectId, r, (mem_objects_iff hs r).mp hr, hkey, hv⟩
  · rintro ⟨id, r, hr, hkey, hv⟩
    have hid : r.objectId = id := (hs.object id r hr).1
    exact ⟨r, (mem_objects_iff hs r).mpr (hid ▸ hr), hid ▸ hkey, hv⟩

/-! ## 2. The journal of a chain -/

/-- What replaying an undo record sets its object to. -/
def undoValue (log : UndoLogRecord) : Option SmartObjectRecord :=
  if log.action = "CREATE" then none else prevObject 0 log

def undoEntry (log : UndoLogRecord) : UndoLog.Entry String SmartObjectRecord :=
  { height := log.blockHeight, key := log.objectId, prev := undoValue log }

/-- The records of `chain` above `height`. -/
def isAbove (chain : String) (height : Nat) (log : UndoLogRecord) : Bool :=
  log.chain = chain ∧ height < log.blockHeight

/-- The undo log above a height, as a journal. -/
def journal (chain : String) (height : Nat) (s : StateStore) :
    UndoLog.Journal String SmartObjectRecord :=
  fun i ↦ ((s.undoLogs[i]?).filter (isAbove chain height)).map undoEntry

/-- The records that a rollback replays, in replay order. -/
def replayList (chain : String) (height : Nat) (s : StateStore) : List (Nat × UndoLogRecord) :=
  (s.undoLogs.toList.filter fun e ↦ e.2.chain = chain ∧ height < e.2.blockHeight).mergeSort
    fun a b ↦ b.2.blockHeight ≤ a.2.blockHeight

theorem mem_replayList {chain : String} {height i : Nat} {log : UndoLogRecord} :
    (i, log) ∈ replayList chain height s ↔
      s.undoLogs[i]? = some log ∧ isAbove chain height log = true := by
  unfold replayList isAbove
  rw [List.mem_mergeSort, List.mem_filter, Std.ExtTreeMap.mem_toList_iff_getElem?_eq_some]

/-- Reading the undo log fails on a record that does not parse, of any chain. -/
theorem undoLogsAbove_if (chain : String) (height : Nat) (s : StateStore) :
    undoLogsAbove s chain height =
      if s.undoLogs.toList.all (·.2.readable) then .ok (replayList chain height s)
      else .error storageError :=
  rfl

theorem undoLogsAbove_eq (hs : s.Intact ids) (chain : String) (height : Nat) :
    undoLogsAbove s chain height = .ok (replayList chain height s) := by
  rw [undoLogsAbove_if, if_pos]
  rw [List.all_eq_true]
  rintro ⟨i, log⟩ hmem
  obtain ⟨-, -, obj?, hlog⟩ :=
    hs.undo i log (Std.ExtTreeMap.mem_toList_iff_getElem?_eq_some.mp hmem)
  exact hlog.readable

/-- The replay restores objects and seals. -/
theorem foldl_undoOne_eq (targetHeight : Nat) (logs : List UndoLogRecord) (s : StateStore) :
    ∃ objects seals, logs.foldl (undoOne targetHeight) s = { s with objects, seals } := by
  induction logs generalizing s with
  | nil => exact ⟨s.objects, s.seals, rfl⟩
  | cons log logs ih =>
    obtain ⟨objects, seals, hlog⟩ := undoOne_eq targetHeight s log
    obtain ⟨objects', seals', hlogs⟩ := ih (undoOne targetHeight s log)
    refine ⟨objects', seals', ?_⟩
    rw [List.foldl_cons, hlogs, hlog]

theorem foldl_undoOne_undoLogs (targetHeight : Nat) (logs : List UndoLogRecord) (s : StateStore) :
    (logs.foldl (undoOne targetHeight) s).undoLogs = s.undoLogs := by
  obtain ⟨objects, seals, hfold⟩ := foldl_undoOne_eq targetHeight logs s
  rw [hfold]

theorem foldl_undoOne_consistent (hs : s.Consistent ids) (hround : s.UndoRoundTrips)
    (targetHeight : Nat) (logs : List (Nat × UndoLogRecord))
    (hlogs : ∀ e ∈ logs, s.undoLogs[e.1]? = some e.2) :
    ((logs.map (·.2)).foldl (undoOne targetHeight) s).Consistent ids := by
  induction logs generalizing s with
  | nil => exact hs
  | cons e logs ih =>
    have he := hlogs e List.mem_cons_self
    have hundo := undoOne_undoLogs targetHeight s e.2
    refine ih (hs.undoOne he (hround _ _ he) targetHeight) (hround.congr hundo) fun e' he' ↦ ?_
    rw [hundo]
    exact hlogs e' (List.mem_cons_of_mem _ he')

theorem foldl_undoOne_intact (hs : s.Intact ids) (targetHeight : Nat)
    (logs : List (Nat × UndoLogRecord)) (hlogs : ∀ e ∈ logs, s.undoLogs[e.1]? = some e.2) :
    ((logs.map (·.2)).foldl (undoOne targetHeight) s).Intact ids := by
  induction logs generalizing s with
  | nil => exact hs
  | cons e logs ih =>
    refine ih (hs.undoOne (hlogs e List.mem_cons_self) targetHeight) fun e' he' ↦ ?_
    rw [undoOne_undoLogs]
    exact hlogs e' (List.mem_cons_of_mem _ he')

theorem claims_foldl_undoOne (hs : s.Intact ids) {targetHeight : Nat}
    {logs : List (Nat × UndoLogRecord)} (hlogs : ∀ e ∈ logs, s.undoLogs[e.1]? = some e.2)
    {σ id : String} (hc : ((logs.map (·.2)).foldl (undoOne targetHeight) s).Claims σ id) :
    s.Claims σ id := by
  induction logs generalizing s with
  | nil => exact hc
  | cons e logs ih =>
    have he := hlogs e List.mem_cons_self
    refine claims_undoOne hs he (ih (hs.undoOne he targetHeight) (fun e' he' ↦ ?_) hc)
    rw [undoOne_undoLogs]
    exact hlogs e' (List.mem_cons_of_mem _ he')

theorem claims_forget (hobjects : s'.objects = s.objects)
    (hundo : ∀ (i : Nat) (log : UndoLogRecord), s'.undoLogs[i]? = some log →
      s.undoLogs[i]? = some log) {σ id : String} (hc : s'.Claims σ id) : s.Claims σ id := by
  rcases hc with hobj | ⟨i, log, hi, hid, hσ⟩
  · rw [hobjects] at hobj
    exact .inl hobj
  · exact .inr ⟨i, log, hundo i log hi, hid, hσ⟩

/-- Forgetting undo records keeps a store consistent. -/
theorem Consistent.forget (hs : s.Consistent ids) (hobjects : s'.objects = s.objects)
    (hseals : s'.seals = s.seals)
    (hundo : ∀ (i : Nat) (log : UndoLogRecord), s'.undoLogs[i]? = some log →
      s.undoLogs[i]? = some log) : s'.Consistent ids where
  object := by rw [hobjects]; exact hs.object
  sealed := by rw [hseals, hobjects]; exact hs.sealed
  undo i log hi := hs.undo i log (hundo i log hi)
  claims σ id id' hc hc' :=
    hs.claims σ id id' (claims_forget hobjects hundo hc) (claims_forget hobjects hundo hc')

theorem get_foldl_erase (table : Table Nat UndoLogRecord) (slots : List Nat) (i : Nat) :
    (slots.foldl (fun t id ↦ t.erase id) table)[i]? = if i ∈ slots then none else table[i]? := by
  induction slots generalizing table with
  | nil => simp
  | cons j slots ih =>
    rw [List.foldl_cons, ih, Table.get_erase]
    by_cases hi : i ∈ slots
    · simp [hi]
    · by_cases hij : i = j <;> simp [hi, hij]

/-- The undo log after a rollback: the replayed records are gone. -/
theorem undoAll_undoLogs (chain : String) (targetHeight : Nat) (i : Nat) :
    (undoAll chain targetHeight (replayList chain targetHeight s) s).undoLogs[i]? =
      (s.undoLogs[i]?).filter fun log ↦ !isAbove chain targetHeight log := by
  show (((replayList chain targetHeight s).map (·.1)).foldl (fun t id ↦ t.erase id)
    (((replayList chain targetHeight s).map (·.2)).foldl (undoOne targetHeight) s).undoLogs)[i]? = _
  rw [get_foldl_erase, foldl_undoOne_undoLogs]
  cases hi : s.undoLogs[i]? with
  | none => simp
  | some log =>
    have hmem : i ∈ (replayList chain targetHeight s).map (·.1) ↔
        isAbove chain targetHeight log = true := by
      rw [List.mem_map]
      constructor
      · rintro ⟨⟨j, log'⟩, he, rfl⟩
        obtain ⟨hlog', habove⟩ := mem_replayList.mp he
        rw [hi] at hlog'
        cases hlog'
        exact habove
      · exact fun habove ↦ ⟨(i, log), mem_replayList.mpr ⟨hi, habove⟩, rfl⟩
    by_cases habove : isAbove chain targetHeight log = true
    · rw [if_pos (hmem.mpr habove), Option.filter, habove]
      rfl
    · rw [if_neg (mt hmem.mp habove), Option.filter, Bool.eq_false_iff.mpr habove]
      rfl

/-- A rollback adds no claim. -/
theorem claims_undoAll (hs : s.Intact ids) {chain : String} {targetHeight : Nat} {σ id : String}
    (hc : (undoAll chain targetHeight (replayList chain targetHeight s) s).Claims σ id) :
    s.Claims σ id := by
  have hlogs : ∀ e ∈ replayList chain targetHeight s, s.undoLogs[e.1]? = some e.2 :=
    fun e he ↦ (mem_replayList.mp he).1
  have hobjects : (undoAll chain targetHeight (replayList chain targetHeight s) s).objects =
      (((replayList chain targetHeight s).map (·.2)).foldl (undoOne targetHeight) s).objects := rfl
  refine claims_foldl_undoOne hs hlogs (claims_forget hobjects (fun i log hi ↦ ?_) hc)
  rw [undoAll_undoLogs] at hi
  rw [foldl_undoOne_undoLogs]
  exact (Option.filter_eq_some_iff.mp hi).1

theorem undoAll_consistent (hs : s.Consistent ids) (hround : s.UndoRoundTrips) (chain : String)
    (targetHeight : Nat) :
    (undoAll chain targetHeight (replayList chain targetHeight s) s).Consistent ids := by
  have hfold := foldl_undoOne_consistent hs hround targetHeight (replayList chain targetHeight s)
    fun e he ↦ (mem_replayList.mp he).1
  refine hfold.forget rfl rfl fun i log hi ↦ ?_
  rw [undoAll_undoLogs] at hi
  rw [foldl_undoOne_undoLogs]
  exact (Option.filter_eq_some_iff.mp hi).1

theorem undoAll_intact (hs : s.Intact ids) (chain : String) (targetHeight : Nat) :
    (undoAll chain targetHeight (replayList chain targetHeight s) s).Intact ids := by
  have hfold := foldl_undoOne_intact hs targetHeight (replayList chain targetHeight s)
    fun e he ↦ (mem_replayList.mp he).1
  refine ⟨hfold.object, fun i log hi ↦ hfold.undo i log ?_⟩
  rw [undoAll_undoLogs] at hi
  rw [foldl_undoOne_undoLogs]
  exact (Option.filter_eq_some_iff.mp hi).1

/-- The store after a rollback. -/
def rolledBack (X : Crates) (chain : String) (targetHeight : Nat) (s : StateStore) : StateStore :=
  let s' := undoAll chain targetHeight (replayList chain targetHeight s) s
  { s' with smt := smtOf X (s'.objects.toList.map (·.2)) }

/-- **A rollback of an intact store succeeds**: nothing in it fails to parse. -/
theorem run_rollback (hs : s.Intact ids) (X : Crates) (chain : String) (targetHeight : Nat) :
    run (rollbackToBlock X true chain targetHeight) s =
      (rolledBack X chain targetHeight s, .ok (replayList chain targetHeight s).length) := by
  rw [run_rollbackToBlock, undoLogsAbove_eq hs]
  dsimp only
  rw [if_pos rfl, allObjects_eq (undoAll_intact hs chain targetHeight)]
  rfl

/-- The store after any rollback: nothing is written unless the undo log parses and the transaction
commits, and then only the tree depends on what follows the commit. -/
theorem rollback_state (X : Crates) (c : Bool) (chain : String) (targetHeight : Nat)
    (s : StateStore) :
    ((run (rollbackToBlock X c chain targetHeight) s).1 = s ∧
        ¬ (c = true ∧ s.undoLogs.toList.all (·.2.readable) = true)) ∨
      ((c = true ∧ s.undoLogs.toList.all (·.2.readable) = true) ∧
        ∃ smt, (run (rollbackToBlock X c chain targetHeight) s).1 =
          { undoAll chain targetHeight (replayList chain targetHeight s) s with smt }) := by
  rw [run_rollbackToBlock, undoLogsAbove_if]
  cases hreadable : s.undoLogs.toList.all (·.2.readable) with
  | false => exact .inl ⟨rfl, by simp⟩
  | true =>
    cases c with
    | false => exact .inl ⟨rfl, by simp⟩
    | true =>
      refine .inr ⟨⟨rfl, rfl⟩, ?_⟩
      rw [if_pos rfl]
      dsimp only
      rw [if_pos rfl]
      split <;> exact ⟨_, rfl⟩

theorem rolledBack_consistent (hs : s.Consistent ids) (hround : s.UndoRoundTrips) (X : Crates)
    (chain : String) (targetHeight : Nat) : (rolledBack X chain targetHeight s).Consistent ids :=
  (undoAll_consistent hs hround chain targetHeight).congr rfl rfl rfl

theorem rolledBack_tracks (hideal : IdealHash X ids) (hs : s.Intact ids) (chain : String)
    (targetHeight : Nat) : (rolledBack X chain targetHeight s).Tracks X :=
  rebuild_tracks hideal (undoAll_intact hs chain targetHeight)

theorem rolledBack_undoLogs (X : Crates) (chain : String) (targetHeight i : Nat) :
    (rolledBack X chain targetHeight s).undoLogs[i]? =
      (s.undoLogs[i]?).filter fun log ↦ !isAbove chain targetHeight log :=
  undoAll_undoLogs chain targetHeight i

theorem UndoRoundTrips.rolledBack (h : s.UndoRoundTrips) (X : Crates) (chain : String)
    (targetHeight : Nat) : (rolledBack X chain targetHeight s).UndoRoundTrips := by
  intro i log hi
  rw [rolledBack_undoLogs] at hi
  exact h i log (Option.filter_eq_some_iff.mp hi).1

/-! ## 4. Exactness -/

/-- A consistent store with the tree that belongs to its objects. -/
structure Sound (X : Crates) (ids : Set String) (s : StateStore) : Prop where
  consistent : s.Consistent ids
  tracks : s.Tracks X

theorem empty_sound (X : Crates) (ids : Set String) : (empty X).Sound X ids :=
  ⟨empty_consistent X ids, empty_tracks X⟩

theorem Sound.putObject (h : s.Sound X ids) (hideal : IdealHash X ids) {obj : SmartObjectRecord}
    (hobj : s.Storable ids obj) : (putObject X obj s).Sound X ids :=
  ⟨h.consistent.putObject X hobj, h.tracks.putObject hideal h.consistent.object hobj.mem⟩

/-- `StateStore::open` rebuilds the tree of a consistent store. -/
theorem Consistent.open_sound (h : s.Consistent ids) (hideal : IdealHash X ids) :
    («open» X s).Sound X ids := by
  have hreadable : (s.objects.toList.map (·.2)).filter (·.readable) =
      s.objects.toList.map (·.2) :=
    List.filter_eq_self.mpr fun r hr ↦ (h.object _ r ((mem_objects_iff h.intact r).mp hr)).2.1
  unfold «open»
  rw [hreadable]
  exact ⟨h.congr rfl rfl rfl, rebuild_tracks hideal h.intact⟩

theorem Sound.currentStateRoot (h : s.Sound X ids) : (run currentStateRoot s).1.Sound X ids where
  consistent := h.consistent.congr rfl rfl rfl
  tracks :=
    { wellFormed := SparseMerkleTree.root_wellFormed h.tracks.wellFormed
      leaves := by
        show ∀ key v, s.smt.root.1.leaves key = some v ↔ _
        rw [SparseMerkleTree.root_leaves]
        exact h.tracks.leaves }

end StateStore

end UtxoVm
