import UtxoVm.CrossChain.LockReplay
import UtxoVm.Reasoning.Schedule

/-!
# Locks of one object at the same time

A lock reads the object, and writes it in a later transaction.  Calls that all read the object
before one of them has written it all find it unlocked, and all succeed.
-/

namespace UtxoVm

open RustStd StateStore Prog

namespace BridgeManager

/-! ## 1. The actions of a lock -/

/-- The writes of a lock whose checks have passed. -/
def lockWrites (X : Crates) (c : LockCall) (obj : SmartObjectRecord) :
    BridgeProg BridgeTransfer := do
  let transfer := lockTransfer c obj
  onStore (saveObject X c.objectCommits (lockObject obj))
  onStore (saveBridgeTransfer c.transferCommits transfer)
  .modify fun b ↦ { b with transfers := b.transfers.insert transfer.id transfer }
  pure transfer

/-- What a lock does once it has read the object. -/
def afterRead (X : Crates) (c : LockCall) :
    Except Exit (Option SmartObjectRecord) → BridgeProg BridgeTransfer
  | .error e => .fail (contextError "Object not found" e)
  | .ok none => bail ("Object not found: " ++ c.objectId)
  | .ok (some obj) => do
      .ofExcept (checkLock X c obj)
      lockWrites X c obj

variable {X : Crates} {b : BridgeManager} {c : LockCall} {obj : SmartObjectRecord}

/-- The read of the object is an action of its own. -/
theorem advance_lockAssets (X : Crates) (c : LockCall) (b : BridgeManager) :
    (lockAssets X c).advance b = (b, afterRead X c (parseObject b.store.objects[c.objectId]?)) := by
  refine Prod.ext rfl ?_
  unfold lockAssets withContext
  change Prog.bind (Prog.bind (Prog.attempt (Prog.zoom _ _
    (Prog.ofExcept (parseObject b.store.objects[c.objectId]?)))) _) _ = _
  cases parseObject b.store.objects[c.objectId]? with
  | error e => cases e <;> rfl
  | ok obj? => cases obj? <;> rfl

theorem afterRead_of_check (hcheck : checkLock X c obj = .ok ()) :
    afterRead X c (.ok (some obj)) = lockWrites X c obj := by
  unfold afterRead
  dsimp only
  rw [hcheck]
  rfl

/-- The object is found locked, and the call fails. -/
theorem afterRead_locked (h : ObjectLocked b c.objectId) :
    ∃ e, afterRead X c (parseObject b.store.objects[c.objectId]?) = .fail e := by
  obtain ⟨obj, hobj, hlocked⟩ := h
  have hcheck : ∃ e, checkLock X c obj = .error e := by
    obtain ⟨lockedOwner, howner⟩ := Option.isSome_iff_exists.mp hlocked
    unfold checkLock
    rw [howner]
    exact ⟨_, rfl⟩
  obtain ⟨e, he⟩ := hcheck
  refine ⟨e, ?_⟩
  rw [hobj]
  unfold afterRead
  dsimp only
  rw [he]
  rfl

/-! The writes of a lock of `obj` after the first, each with those that follow it. -/

def writeCache (c : LockCall) (obj : SmartObjectRecord) : BridgeProg BridgeTransfer :=
  .act (fun b ↦ { b with transfers := b.transfers.insert (lockTransferId c) (lockTransfer c obj) })
    fun _ ↦ .done (lockTransfer c obj)

def writeTransfer (c : LockCall) (obj : SmartObjectRecord) : BridgeProg BridgeTransfer :=
  .act
    (fun b ↦
      { b with
        store :=
          { b.store with
            bridgeTransfers :=
              b.store.bridgeTransfers.insert (lockTransferId c) (lockTransfer c obj) } })
    fun _ ↦ writeCache c obj

def writeTree (X : Crates) (c : LockCall) (obj : SmartObjectRecord) :
    BridgeProg BridgeTransfer :=
  .act
    (fun b ↦
      { b with store := { b.store with smt := smtInsert X b.store.smt (lockObject obj) } })
    fun _ ↦ writeTransfer c obj

theorem lockWrites_eq (hobject : c.objectCommits = true) (htransfer : c.transferCommits = true) :
    lockWrites X c obj =
      .act (fun b ↦ { b with store := insertObject (lockObject obj) b.store })
        fun _ ↦ writeTree X c obj := by
  unfold lockWrites
  rw [hobject, htransfer]
  rfl

theorem lockWrites_yields (hobject : c.objectCommits = true)
    (htransfer : c.transferCommits = true) :
    (lockWrites X c obj).Yields fun r ↦ ∃ t, r = .ok t := by
  rw [lockWrites_eq hobject htransfer]
  exact fun _ _ _ _ ↦ ⟨_, rfl⟩

/-! ## 2. Many locks of one object -/

/-- The ids of the transfers in the table that hold the object locked. -/
def lockedIn (objectId : String) (table : Table String BridgeTransfer) : Set String :=
  { id | ∃ t : BridgeTransfer, table[id]? = some t ∧ t.sourceObjectId = objectId ∧
    t.status = .locked }

theorem lockedIn_empty {objectId : String} : lockedIn objectId ∅ = ∅ := by
  simp [lockedIn]

theorem lockedIn_insert {objectId : String} {table : Table String BridgeTransfer}
    (hnone : lockedIn objectId table = ∅) (hobject : c.objectId = objectId) :
    lockedIn objectId (table.insert (lockTransferId c) (lockTransfer c obj)) =
      {lockTransferId c} := by
  ext id
  constructor
  · rintro ⟨t, ht, hlocked⟩
    rw [Table.get_insert] at ht
    split at ht
    · rename_i hid
      exact hid
    · have hmem : id ∈ lockedIn objectId table := ⟨t, ht, hlocked⟩
      rw [hnone] at hmem
      exact hmem.elim
  · rintro rfl
    exact ⟨lockTransfer c obj, (Table.get_insert ..).trans (if_pos rfl), hobject, rfl⟩

variable {ι : Type} [DecidableEq ι] {objectId : String} {calls : ι → LockCall}

/-- The object is unlocked, no transfer holds it, and each of the calls is a valid lock of it. -/
structure Contended (X : Crates) (b : BridgeManager) (objectId : String) (calls : ι → LockCall) :
    Prop where
  own : OwnIds b
  object : ∀ i, (calls i).objectId = objectId
  lockable : ∀ i, Lockable X b (calls i)
  stored : lockedIn objectId b.store.bridgeTransfers = ∅
  cached : lockedIn objectId b.transfers = ∅

/-- All calls are about to begin. -/
def allBegin (X : Crates) (b : BridgeManager) (calls : ι → LockCall) :
    Family BridgeManager Exit BridgeTransfer ι where
  state := b
  left i := lockAssets X (calls i)

/-- At most one call has succeeded, and one transfer holds the object. -/
structure Excluded (objectId : String) (w : Family BridgeManager Exit BridgeTransfer ι) : Prop where
  once : ∀ i j t t', w.left i = .done t → w.left j = .done t' → i = j
  stored : ∃ id, lockedIn objectId w.state.store.bridgeTransfers = {id}
  cached : ∃ id, lockedIn objectId w.state.transfers = {id}

omit [DecidableEq ι] in
/-- A call that reads the object in the state in which it is valid goes on to its writes. -/
theorem Contended.advance (h : Contended X b objectId calls) (i : ι) :
    ∃ obj, parseObject b.store.objects[objectId]? = .ok (some obj) ∧
      (lockAssets X (calls i)).advance b = (b, lockWrites X (calls i) obj) ∧
      (calls i).objectCommits = true ∧ (calls i).transferCommits = true := by
  obtain ⟨obj, hobj, hcheck, hobject, htransfer⟩ := h.lockable i
  rw [h.object i] at hobj
  refine ⟨obj, hobj, ?_, hobject, htransfer⟩
  rw [advance_lockAssets, h.object i, hobj, afterRead_of_check hcheck]

/-- **Two readers.**  If two calls read the object before either writes it, both succeed. -/
theorem Contended.both_succeed (h : Contended X b objectId calls) {i j : ι} (hij : j ≠ i)
    (rest : List ι) (hend : ((allBegin X b calls).runSchedule (i :: j :: rest)).AllEnded) :
    (∃ t, ((allBegin X b calls).runSchedule (i :: j :: rest)).left i = .done t) ∧
      ∃ t, ((allBegin X b calls).runSchedule (i :: j :: rest)).left j = .done t := by
  obtain ⟨obj, -, hi, hobject, htransfer⟩ := h.advance i
  obtain ⟨obj', -, hj, hobject', htransfer'⟩ := h.advance j
  let w := (allBegin X b calls).step i
  have hstate : w.state = b := congrArg (·.1) hi
  have hwj : w.left j = lockAssets X (calls j) := Family.step_left_ne hij
  have hyi : ((w.step j).left i).Yields fun r ↦ ∃ t, r = .ok t := by
    rw [Family.step_left_ne hij.symm, Family.step_left_self]
    change (((lockAssets X (calls i)).advance b).2).Yields _
    rw [hi]
    exact lockWrites_yields hobject htransfer
  have hyj : ((w.step j).left j).Yields fun r ↦ ∃ t, r = .ok t := by
    rw [Family.step_left_self, hwj, hstate, hj]
    exact lockWrites_yields hobject' htransfer'
  have hdone {k : ι} (hk : ((w.step j).left k).Yields fun r ↦ ∃ t, r = .ok t) :
      ∃ t, ((w.step j).runSchedule rest).left k = .done t := by
    rcases (Family.yields_runSchedule hk rest).of_ended (hend k) with
      ⟨t, ht, -⟩ | ⟨e, -, t, ht⟩
    · exact ⟨t, ht⟩
    · cases ht
  exact ⟨hdone hyi, hdone hyj⟩

/-! ## 3. One call holds the object -/

/-- Where a call stands that has written the object, and what it has left in the tables. -/
inductive Holder (X : Crates) (objectId : String) (c : LockCall) (obj : SmartObjectRecord)
    (b : BridgeManager) : BridgeProg BridgeTransfer → Prop
  | objectWritten : lockedIn objectId b.store.bridgeTransfers = ∅ →
      lockedIn objectId b.transfers = ∅ → Holder X objectId c obj b (writeTree X c obj)
  | treeWritten : lockedIn objectId b.store.bridgeTransfers = ∅ →
      lockedIn objectId b.transfers = ∅ → Holder X objectId c obj b (writeTransfer c obj)
  | transferWritten : lockedIn objectId b.store.bridgeTransfers = {lockTransferId c} →
      lockedIn objectId b.transfers = ∅ → Holder X objectId c obj b (writeCache c obj)
  | returned : lockedIn objectId b.store.bridgeTransfers = {lockTransferId c} →
      lockedIn objectId b.transfers = {lockTransferId c} →
      Holder X objectId c obj b (.done (lockTransfer c obj))

/-- The actions of the holder leave the objects alone and lead to the next place. -/
theorem Holder.advance {p : BridgeProg BridgeTransfer} (h : Holder X objectId c obj b p)
    (hobject : c.objectId = objectId) :
    (p.advance b).1.store.objects = b.store.objects ∧
      Holder X objectId c obj (p.advance b).1 (p.advance b).2 := by
  cases h with
  | objectWritten hstored hcached => exact ⟨rfl, .treeWritten hstored hcached⟩
  | treeWritten hstored hcached =>
    exact ⟨rfl, .transferWritten (lockedIn_insert hstored hobject) hcached⟩
  | transferWritten hstored hcached =>
    exact ⟨rfl, .returned hstored (lockedIn_insert hcached hobject)⟩
  | returned hstored hcached => exact ⟨rfl, .returned hstored hcached⟩

/-- The call `i` has locked the object, and the others have not read it or have failed. -/
structure HeldBy (X : Crates) (objectId : String) (calls : ι → LockCall) (i : ι)
    (obj : SmartObjectRecord) (w : Family BridgeManager Exit BridgeTransfer ι) : Prop where
  locked : ObjectLocked w.state objectId
  holder : Holder X objectId (calls i) obj w.state (w.left i)
  others : ∀ j, j ≠ i → w.left j = lockAssets X (calls j) ∨ ∃ e, w.left j = .fail e

variable {i : ι} {w : Family BridgeManager Exit BridgeTransfer ι}

theorem ObjectLocked.congr {b' : BridgeManager} {id : String} (h : ObjectLocked b id)
    (hobjects : b'.store.objects = b.store.objects) : ObjectLocked b' id := by
  unfold ObjectLocked
  rw [hobjects]
  exact h

omit [DecidableEq ι] in
/-- The others do not change the state, and fail when they read the object. -/
theorem HeldBy.advance_other (h : HeldBy X objectId calls i obj w)
    (hobject : ∀ j, (calls j).objectId = objectId) {j : ι} (hj : j ≠ i) :
    ((w.left j).advance w.state).1 = w.state ∧ ∃ e, ((w.left j).advance w.state).2 = .fail e := by
  rcases h.others j hj with hbegin | ⟨e, hfail⟩
  · rw [hbegin, advance_lockAssets]
    exact ⟨rfl, afterRead_locked (by rw [hobject j]; exact h.locked)⟩
  · rw [hfail]
    exact ⟨rfl, e, rfl⟩

theorem HeldBy.step (h : HeldBy X objectId calls i obj w)
    (hobject : ∀ j, (calls j).objectId = objectId) (j : ι) :
    HeldBy X objectId calls i obj (w.step j) := by
  by_cases hj : j = i
  · subst hj
    obtain ⟨hobjects, hholder⟩ := h.holder.advance (hobject j)
    refine ⟨h.locked.congr hobjects, ?_, fun k hk ↦ ?_⟩
    · rw [Family.step_left_self]
      exact hholder
    · rw [Family.step_left_ne hk]
      exact h.others k hk
  · obtain ⟨hstate, hfail⟩ := h.advance_other hobject hj
    have hstate' : (w.step j).state = w.state := hstate
    refine ⟨?_, ?_, fun k hk ↦ ?_⟩
    · rw [hstate']
      exact h.locked
    · rw [hstate', Family.step_left_ne (Ne.symm hj)]
      exact h.holder
    · by_cases hkj : k = j
      · subst hkj
        rw [Family.step_left_self]
        exact .inr hfail
      · rw [Family.step_left_ne hkj]
        exact h.others k hk

theorem HeldBy.excluded (h : HeldBy X objectId calls i obj w) (hend : w.AllEnded) :
    Excluded objectId w := by
  have hothers (j : ι) (t : BridgeTransfer) (hj : w.left j = .done t) : j = i := by
    by_contra hne
    rcases h.others j hne with hbegin | ⟨e, hfail⟩
    · rw [hj] at hbegin
      cases hbegin
    · rw [hj] at hfail
      cases hfail
  have hreturned : lockedIn objectId w.state.store.bridgeTransfers = {lockTransferId (calls i)} ∧
      lockedIn objectId w.state.transfers = {lockTransferId (calls i)} := by
    have hholder := h.holder
    have hi := hend i
    generalize w.left i = p at hholder hi
    cases hholder with
    | objectWritten => exact hi.elim
    | treeWritten => exact hi.elim
    | transferWritten => exact hi.elim
    | returned hstored hcached => exact ⟨hstored, hcached⟩
  exact ⟨fun j k t t' hj hk ↦ (hothers j t hj).trans (hothers k t' hk).symm,
    ⟨_, hreturned.1⟩, ⟨_, hreturned.2⟩⟩

/-- A call whose read and write come first holds the object. -/
theorem Contended.heldBy (h : Contended X b objectId calls) (i : ι) :
    ∃ obj, HeldBy X objectId calls i obj (((allBegin X b calls).step i).step i) := by
  obtain ⟨obj, hobj, hi, hobject, htransfer⟩ := h.advance i
  let w := (allBegin X b calls).step i
  have hstate : w.state = b := congrArg (·.1) hi
  have hleft : w.left i = lockWrites X (calls i) obj := by
    rw [Family.step_left_self]
    exact congrArg (·.2) hi
  have hwrite : (w.left i).advance w.state =
      ({ b with store := insertObject (lockObject obj) b.store }, writeTree X (calls i) obj) := by
    rw [hleft, hstate, lockWrites_eq hobject htransfer]
    rfl
  have hstate' : (w.step i).state = { b with store := insertObject (lockObject obj) b.store } :=
    congrArg (·.1) hwrite
  refine ⟨obj, ?_, ?_, fun j hj ↦ .inl ?_⟩
  · rw [← h.object i] at hobj
    have hput := (objectLocked_put (X := X) h.own hobj (calls i).objectId).mpr (.inl rfl)
    rw [h.object i] at hput
    rw [hstate']
    exact hput.congr rfl
  · rw [hstate', Family.step_left_self, hwrite]
    exact .objectWritten h.stored h.cached
  · rw [Family.step_left_ne hj, Family.step_left_ne hj]
    rfl

/-- **Concurrent locks exclude each other**, if and only if the call that reads the object first
writes it before any other call begins. -/
theorem locks_exclude_iff [Nonempty ι] (X : Crates) (b : BridgeManager) (objectId : String)
    (calls : ι → LockCall) (h : Contended X b objectId calls) (schedule : List ι)
    (hend : ((allBegin X b calls).runSchedule schedule).AllEnded) :
    Excluded objectId ((allBegin X b calls).runSchedule schedule) ↔
      ∃ i rest, schedule = i :: i :: rest := by
  constructor
  · intro hexcluded
    cases schedule with
    | nil => exact (hend (Classical.arbitrary ι)).elim
    | cons i rest =>
      cases rest with
      | nil =>
        obtain ⟨obj, -, hi, hobject, htransfer⟩ := h.advance i
        have hleft : ((allBegin X b calls).step i).left i = lockWrites X (calls i) obj := by
          rw [Family.step_left_self]
          exact congrArg (·.2) hi
        have hi := hend i
        rw [Family.runSchedule_cons, Family.runSchedule_nil, hleft,
          lockWrites_eq hobject htransfer] at hi
        exact hi.elim
      | cons j rest =>
        by_cases hj : j = i
        · exact ⟨i, rest, by rw [hj]⟩
        · obtain ⟨⟨t, ht⟩, t', ht'⟩ := h.both_succeed hj rest hend
          exact absurd (hexcluded.once j i t' t ht' ht) hj
  · rintro ⟨i, rest, rfl⟩
    obtain ⟨obj, hheld⟩ := h.heldBy i
    have hall : HeldBy X objectId calls i obj
        ((((allBegin X b calls).step i).step i).runSchedule rest) :=
      Family.runSchedule_induction hheld (fun _ j hw ↦ hw.step h.object j) rest
    exact hall.excluded hend

/-! Two locks of one object, to two chains. -/

def demoCallers (second : Bool) : LockCall :=
  if second then demoLock "a" "o" "x" "y" else demoLock "a" "o" "b" "c:d"

theorem demoCallers_contended :
    Contended demoCrates (freshBridge demoOwnerStore) "o" demoCallers where
  own := demoOwnerStore_ownIds
  object second := by cases second <;> rfl
  lockable second := by
    cases second with
    | false => exact lockSucceeds_iff.mp demoLock_succeeds
    | true => exact lockSucceeds_iff.mp (lockSucceeds_of_isOk (by decide +kernel))
  stored := lockedIn_empty
  cached := lockedIn_empty

theorem locks_exclude_in_turn : Excluded "o"
    ((allBegin demoCrates (freshBridge demoOwnerStore) demoCallers).runSchedule
      [false, false, true, false, false, false]) :=
  (locks_exclude_iff demoCrates (freshBridge demoOwnerStore) "o" demoCallers
    demoCallers_contended _ (by decide +kernel)).mpr ⟨false, _, rfl⟩

/-- **Both locks succeed.** -/
theorem concurrent_locks_both_succeed :
    Contended demoCrates (freshBridge demoOwnerStore) "o" demoCallers ∧
      ∃ schedule : List Bool,
        ((allBegin demoCrates (freshBridge demoOwnerStore) demoCallers).runSchedule
          schedule).AllEnded ∧
        ¬ Excluded "o" ((allBegin demoCrates (freshBridge demoOwnerStore) demoCallers).runSchedule
          schedule) := by
  have hend : ((allBegin demoCrates (freshBridge demoOwnerStore) demoCallers).runSchedule
      [false, true, false, false, false, false, true, true, true, true]).AllEnded := by
    decide +kernel
  refine ⟨demoCallers_contended, _, hend, fun hexcluded ↦ ?_⟩
  obtain ⟨⟨t, ht⟩, t', ht'⟩ := demoCallers_contended.both_succeed (by decide) _ hend
  exact absurd (hexcluded.once false true t t' ht ht') (by decide)

end BridgeManager

end UtxoVm
