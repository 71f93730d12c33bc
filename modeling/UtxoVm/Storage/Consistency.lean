import UtxoVm.Storage.DbRun
import UtxoVm.Storage.SmtRoot

/-!
# Consistent stores

The invariant that ties the tables together: the seals table is the inverse of the objects table,
every stored record can be read back, every undo record can be replayed, and no seal belongs to two
objects, neither now nor in the undo log.  The operations of the store keep it when the object they
write brings a seal of its own.
-/

namespace UtxoVm

open RustStd Prog

namespace Table

variable {κ ν : Type} [Ord κ] [Std.TransOrd κ] [Std.LawfulEqOrd κ] [DecidableEq κ]

theorem get_insert (t : Table κ ν) (k a : κ) (v : ν) :
    (t.insert k v)[a]? = if a = k then some v else t[a]? := by
  rw [Std.ExtTreeMap.getElem?_insert]
  simp only [Std.LawfulEqOrd.compare_eq_iff_eq, eq_comm (a := k)]

theorem get_erase (t : Table κ ν) (k a : κ) :
    (t.erase k)[a]? = if a = k then none else t[a]? := by
  rw [Std.ExtTreeMap.getElem?_erase]
  simp only [Std.LawfulEqOrd.compare_eq_iff_eq, eq_comm (a := k)]

theorem insert_eq_self_iff (t : Table κ ν) (k : κ) (v : ν) : t.insert k v = t ↔ t[k]? = some v := by
  constructor
  · intro h
    rw [← h, get_insert, if_pos rfl]
  · intro h
    apply Std.ExtTreeMap.ext_getElem?
    intro a
    rw [get_insert]
    split
    · rename_i ha
      rw [ha, h]
    · rfl

end Table

namespace StateStore

/-! The tables after a write. -/

theorem insertObject_objects (obj : SmartObjectRecord) (s : StateStore) (id : String) :
    (insertObject obj s).objects[id]? =
      if id = obj.objectId then some obj else s.objects[id]? :=
  Table.get_insert ..

theorem putObject_objects (X : Crates) (obj : SmartObjectRecord) (s : StateStore) (id : String) :
    (putObject X obj s).objects[id]? = if id = obj.objectId then some obj else s.objects[id]? :=
  Table.get_insert ..

theorem putUndo_undoLogs (undo : UndoLogRecord) (s : StateStore) (i : Nat) :
    (putUndo undo s).undoLogs[i]? = if i = undo.id then some undo else s.undoLogs[i]? :=
  Table.get_insert ..

theorem putTransition_transitions (trans : StateTransitionRecord) (s : StateStore) (txid : String) :
    (putTransition trans s).transitions[txid]? =
      if txid = trans.txid then some trans else s.transitions[txid]? :=
  Table.get_insert ..

theorem parseObject_ok {stored : Option SmartObjectRecord} {obj : SmartObjectRecord}
    (h : parseObject stored = .ok (some obj)) : stored = some obj ∧ obj.readable = true := by
  unfold parseObject at h
  split at h
  · split at h
    · rename_i hreadable
      cases h
      exact ⟨rfl, hreadable⟩
    · cases h
  · cases h

end StateStore

namespace UndoLogRecord

/-- The record is an UPDATE that holds all fields of `obj`. -/
structure Holds (log : UndoLogRecord) (obj : SmartObjectRecord) : Prop where
  action : log.action = "UPDATE"
  objectId : log.objectId = obj.objectId
  codeHash : log.prevCodeHash = some obj.codeHash
  sealRef : log.prevSeal = some obj.sealRef
  satoshis : log.prevSatoshis = some obj.satoshis
  owner : log.prevOwner = some obj.owner
  stateData : log.prevStateData = some obj.stateData
  updatedAtBlock : log.prevUpdatedAtBlock = some obj.updatedAtBlock
  createdAtBlock : log.prevCreatedAtBlock = some obj.createdAtBlock

/-- The record is read back as it was written: the `null` of an optional field is not. -/
def roundTrips (log : UndoLogRecord) : Bool :=
  match log.prevStateData with
  | some .null => false
  | _ => true

/-- The record can be replayed: it undoes a creation, or it holds a readable object. -/
inductive Replayable (log : UndoLogRecord) : Option SmartObjectRecord → Prop
  | create : log.action = "CREATE" → log.prevSeal = none → log.prevStateData = none →
      Replayable log none
  | update (obj : SmartObjectRecord) : Holds log obj → obj.readable = true →
      Replayable log (some obj)

theorem readOptional_of_roundTrips {log : UndoLogRecord} (h : log.roundTrips = true) :
    StateStore.readOptional log.prevStateData = log.prevStateData := by
  unfold roundTrips at h
  unfold StateStore.readOptional
  split
  · rename_i hnull
    rw [hnull] at h
    cases h
  · rfl

theorem Holds.prevObject {log : UndoLogRecord} {obj : SmartObjectRecord} (h : log.Holds obj)
    (hround : log.roundTrips = true) (targetHeight : Nat) :
    StateStore.prevObject targetHeight log = some obj := by
  unfold StateStore.prevObject
  rw [readOptional_of_roundTrips hround]
  simp [h.objectId, h.codeHash, h.sealRef, h.satoshis, h.owner, h.stateData, h.updatedAtBlock,
    h.createdAtBlock]

/-- A record of a `null` state restores nothing. -/
theorem prevObject_of_null {log : UndoLogRecord} (h : log.roundTrips = false)
    (targetHeight : Nat) : StateStore.prevObject targetHeight log = none := by
  unfold roundTrips at h
  split at h
  · rename_i hnull
    simp [StateStore.prevObject, hnull, StateStore.readOptional]
  · cases h

theorem Replayable.roundTrips_of_none {log : UndoLogRecord} (h : log.Replayable none) :
    log.roundTrips = true := by
  cases h with
  | create _ _ hstate =>
    unfold UndoLogRecord.roundTrips
    rw [hstate]

theorem Replayable.readable {log : UndoLogRecord} {obj? : Option SmartObjectRecord}
    (h : log.Replayable obj?) : log.readable = true := by
  unfold UndoLogRecord.readable
  cases h with
  | create _ _ hstate => rw [hstate]
  | update obj hholds hreadable =>
    rw [hholds.stateData]
    exact hreadable

/-- The object that a replayable record restores. -/
theorem Replayable.restored {log : UndoLogRecord} {obj : SmartObjectRecord}
    (h : log.Replayable (some obj)) : obj.objectId = log.objectId ∧ obj.readable = true ∧
      log.prevSeal = some obj.sealRef := by
  cases h with
  | update _ hholds hreadable => exact ⟨hholds.objectId.symm, hreadable, hholds.sealRef⟩

end UndoLogRecord

namespace StateStore

/-- `sealRef` belongs to the object `id`: it is its seal, or an undo record would make it so. -/
def Claims (s : StateStore) (sealRef id : String) : Prop :=
  (∃ r : SmartObjectRecord, s.objects[id]? = some r ∧ r.sealRef = sealRef) ∨
    ∃ (i : Nat) (log : UndoLogRecord), s.undoLogs[i]? = some log ∧ log.objectId = id ∧
      log.prevSeal = some sealRef

/-- The invariant of the tables; `ids` are the object ids in use. -/
structure Consistent (ids : Set String) (s : StateStore) : Prop where
  object : ∀ id (r : SmartObjectRecord), s.objects[id]? = some r →
    r.objectId = id ∧ r.readable = true ∧ id ∈ ids
  sealed : ∀ σ id, s.seals[σ]? = some id ↔
    ∃ r : SmartObjectRecord, s.objects[id]? = some r ∧ r.sealRef = σ
  undo : ∀ (i : Nat) (log : UndoLogRecord), s.undoLogs[i]? = some log →
    log.id = i ∧ log.objectId ∈ ids ∧ ∃ obj?, log.Replayable obj?
  claims : ∀ σ id id', s.Claims σ id → s.Claims σ id' → id = id'

/-- The part of the invariant that does not speak of seals. -/
structure Intact (ids : Set String) (s : StateStore) : Prop where
  object : ∀ id (r : SmartObjectRecord), s.objects[id]? = some r →
    r.objectId = id ∧ r.readable = true ∧ id ∈ ids
  undo : ∀ (i : Nat) (log : UndoLogRecord), s.undoLogs[i]? = some log →
    log.id = i ∧ log.objectId ∈ ids ∧ ∃ obj?, log.Replayable obj?

theorem Consistent.intact {ids : Set String} {s : StateStore} (h : s.Consistent ids) :
    s.Intact ids :=
  ⟨h.object, h.undo⟩

/-- Every undo record is read back as it was written. -/
def UndoRoundTrips (s : StateStore) : Prop :=
  ∀ (i : Nat) (log : UndoLogRecord), s.undoLogs[i]? = some log → log.roundTrips = true

theorem empty_intact (X : Crates) (ids : Set String) : (empty X).Intact ids where
  object id r h := by simp [empty] at h
  undo i log h := by simp [empty] at h

theorem empty_consistent (X : Crates) (ids : Set String) : (empty X).Consistent ids where
  object := (empty_intact X ids).object
  sealed σ id := by simp [empty]
  undo := (empty_intact X ids).undo
  claims σ id id' h := by simp [Claims, empty] at h

variable {ids : Set String} {s s' : StateStore}

/-- Only the objects, the seals and the undo log matter. -/
theorem Consistent.congr (h : s.Consistent ids) (hobjects : s'.objects = s.objects)
    (hseals : s'.seals = s.seals) (hundo : s'.undoLogs = s.undoLogs) : s'.Consistent ids where
  object := by rw [hobjects]; exact h.object
  sealed := by rw [hseals, hobjects]; exact h.sealed
  undo := by rw [hundo]; exact h.undo
  claims := by
    unfold Claims
    rw [hobjects, hundo]
    exact h.claims

/-! ## 1. Writing an object -/

/-- `obj` may be stored: it can be read back, and its seal belongs to no other object. -/
structure Storable (ids : Set String) (s : StateStore) (obj : SmartObjectRecord) : Prop where
  mem : obj.objectId ∈ ids
  readable : obj.readable = true
  fresh : ∀ id, s.Claims obj.sealRef id → id = obj.objectId

/-- The objects are filed under their ids, and can be read back. -/
def FiledIn (ids : Set String) (s : StateStore) : Prop :=
  ∀ id (r : SmartObjectRecord), s.objects[id]? = some r →
    r.objectId = id ∧ r.readable = true ∧ id ∈ ids

/-- The part of the invariant that does not speak of undo records. -/
structure Booked (ids : Set String) (s : StateStore) : Prop where
  object : s.FiledIn ids
  sealed : ∀ σ id, s.seals[σ]? = some id ↔
    ∃ r : SmartObjectRecord, s.objects[id]? = some r ∧ r.sealRef = σ

theorem Consistent.booked (h : s.Consistent ids) : s.Booked ids := ⟨h.object, h.sealed⟩

/-- The seals after `save_object`: the old seal of the object gives way to the new one. -/
theorem insertObject_seals (h : s.Booked ids) {obj : SmartObjectRecord} (σ : String) :
    (insertObject obj s).seals[σ]? =
      if σ = obj.sealRef then some obj.objectId
      else if ∃ r : SmartObjectRecord, s.objects[obj.objectId]? = some r ∧ r.sealRef = σ then none
      else s.seals[σ]? := by
  unfold insertObject
  dsimp only
  rw [Table.get_insert]
  split
  · rfl
  rename_i hσ
  cases hprev : s.objects[obj.objectId]? with
  | none => simp
  | some prevObj =>
    have hread : prevObj.readable = true := (h.object _ _ hprev).2.1
    dsimp only
    split
    · rw [Table.get_erase]
      simp [eq_comm]
    · rename_i hsame
      have hseal : prevObj.sealRef = obj.sealRef := by
        by_contra hne
        exact hsame ⟨hread, hne⟩
      rw [if_neg]
      rintro ⟨r, hr, hrσ⟩
      cases hr
      exact hσ (hrσ.symm.trans hseal)

theorem FiledIn.insertObject (h : s.FiledIn ids) {obj : SmartObjectRecord}
    (hmem : obj.objectId ∈ ids) (hreadable : obj.readable = true) :
    (insertObject obj s).FiledIn ids := by
  intro id r hr
  rw [insertObject_objects] at hr
  split at hr
  · rename_i hid
    cases hr
    exact ⟨hid.symm, hreadable, hid ▸ hmem⟩
  · exact h id r hr

theorem Intact.insertObject (h : s.Intact ids) {obj : SmartObjectRecord}
    (hmem : obj.objectId ∈ ids) (hreadable : obj.readable = true) :
    (insertObject obj s).Intact ids where
  object := FiledIn.insertObject h.object hmem hreadable
  undo := h.undo

/-- Storing an object claims its seal, and nothing else. -/
theorem claims_insertObject {obj : SmartObjectRecord} {σ id : String}
    (hc : (insertObject obj s).Claims σ id) :
    s.Claims σ id ∨ σ = obj.sealRef ∧ id = obj.objectId := by
  rcases hc with ⟨r, hr, hrσ⟩ | hlog
  · rw [insertObject_objects] at hr
    split at hr
    · cases hr
      exact .inr ⟨hrσ.symm, ‹_›⟩
    · exact .inl (.inl ⟨r, hr, hrσ⟩)
  · exact .inl (.inr hlog)

/-- No two objects share a seal. -/
theorem Booked.seal_unique (h : s.Booked ids) {id id' : String} {r r' : SmartObjectRecord}
    (hr : s.objects[id]? = some r) (hr' : s.objects[id']? = some r')
    (heq : r.sealRef = r'.sealRef) : id = id' := by
  have hid := (h.sealed r.sealRef id).mpr ⟨r, hr, rfl⟩
  have hid' := (h.sealed r.sealRef id').mpr ⟨r', hr', heq.symm⟩
  exact Option.some.inj (hid.symm.trans hid')

theorem Booked.insertObject (h : s.Booked ids) {obj : SmartObjectRecord}
    (hmem : obj.objectId ∈ ids) (hreadable : obj.readable = true)
    (hfresh : ∀ id (r : SmartObjectRecord), s.objects[id]? = some r → r.sealRef = obj.sealRef →
      id = obj.objectId) : (insertObject obj s).Booked ids := by
  refine ⟨h.object.insertObject hmem hreadable, fun σ id ↦ ?_⟩
  rw [insertObject_seals h, insertObject_objects]
  by_cases hσ : σ = obj.sealRef
  · rw [if_pos hσ]
    constructor
    · rintro ⟨⟩
      exact ⟨obj, if_pos rfl, hσ.symm⟩
    · rintro ⟨r, hr, hrσ⟩
      split at hr
      · rename_i hid
        rw [hid]
      · rw [hfresh id r hr (hrσ.trans hσ)]
  · rw [if_neg hσ]
    split
    · -- the seal that the object gives up
      rename_i hold
      constructor
      · rintro ⟨⟩
      · rintro ⟨r, hr, hrσ⟩
        split at hr
        · cases hr
          exact absurd hrσ.symm hσ
        · rename_i hid
          obtain ⟨r₀, hr₀, hr₀σ⟩ := hold
          exact absurd (h.seal_unique hr hr₀ (hrσ.trans hr₀σ.symm)) hid
    · rename_i hold
      rw [h.sealed]
      by_cases hid : id = obj.objectId
      · subst hid
        rw [if_pos rfl]
        constructor
        · exact fun hr ↦ absurd hr hold
        · rintro ⟨r, hr, hrσ⟩
          cases hr
          exact absurd hrσ.symm hσ
      · rw [if_neg hid]

theorem Consistent.insertObject (h : s.Consistent ids) {obj : SmartObjectRecord}
    (hobj : s.Storable ids obj) : (insertObject obj s).Consistent ids := by
  have hbooked := h.booked.insertObject hobj.mem hobj.readable fun id r hr hσ ↦
    hobj.fresh id (.inl ⟨r, hr, hσ⟩)
  constructor
  · exact hbooked.object
  · exact hbooked.sealed
  · exact h.undo
  · intro σ id id' hc hc'
    rcases claims_insertObject hc with hc | ⟨hσ, hid⟩
    · rcases claims_insertObject hc' with hc' | ⟨hσ, hid'⟩
      · exact h.claims σ id id' hc hc'
      · rw [hid', hobj.fresh id (hσ ▸ hc)]
    · rcases claims_insertObject hc' with hc' | ⟨-, hid'⟩
      · rw [hid, hobj.fresh id' (hσ ▸ hc')]
      · rw [hid, hid']

theorem Consistent.putObject (h : s.Consistent ids) (X : Crates) {obj : SmartObjectRecord}
    (hobj : s.Storable ids obj) : (putObject X obj s).Consistent ids :=
  (h.insertObject hobj).congr rfl rfl rfl

theorem Intact.congr (h : s.Intact ids) (hobjects : s'.objects = s.objects)
    (hundo : s'.undoLogs = s.undoLogs) : s'.Intact ids where
  object := by rw [hobjects]; exact h.object
  undo := by rw [hundo]; exact h.undo

theorem Intact.putObject (h : s.Intact ids) (X : Crates) {obj : SmartObjectRecord}
    (hmem : obj.objectId ∈ ids) (hreadable : obj.readable = true) :
    (putObject X obj s).Intact ids :=
  (h.insertObject hmem hreadable).congr rfl rfl

/-! ## 2. Writing an undo record -/

theorem Intact.putUndo (h : s.Intact ids) {log : UndoLogRecord} (hmem : log.objectId ∈ ids)
    {obj? : Option SmartObjectRecord} (hlog : log.Replayable obj?) :
    (putUndo log s).Intact ids where
  object := h.object
  undo i log' hi := by
    rw [putUndo_undoLogs] at hi
    split at hi
    · rename_i hid
      cases hi
      exact ⟨hid.symm, hmem, obj?, hlog⟩
    · exact h.undo i log' hi

theorem UndoRoundTrips.congr (h : s.UndoRoundTrips) (hundo : s'.undoLogs = s.undoLogs) :
    s'.UndoRoundTrips := by
  unfold UndoRoundTrips
  rw [hundo]
  exact h

theorem UndoRoundTrips.putUndo (h : s.UndoRoundTrips) {log : UndoLogRecord}
    (hlog : log.roundTrips = true) : (putUndo log s).UndoRoundTrips := by
  intro i log' hi
  rw [putUndo_undoLogs] at hi
  split at hi
  · cases hi
    exact hlog
  · exact h i log' hi

/-- A record about a claimed seal adds no claim. -/
theorem claims_putUndo {log : UndoLogRecord}
    (hclaim : ∀ σ, log.prevSeal = some σ → s.Claims σ log.objectId) {σ id : String}
    (hc : (putUndo log s).Claims σ id) : s.Claims σ id := by
  rcases hc with hobj | ⟨i, log', hi, hid, hσ⟩
  · exact .inl hobj
  · have hget : (putUndo log s).undoLogs[i]? = if i = log.id then some log else s.undoLogs[i]? :=
      Table.get_insert ..
    rw [hget] at hi
    split at hi
    · cases hi
      exact hid ▸ hclaim σ hσ
    · exact .inr ⟨i, log', hi, hid, hσ⟩

theorem Consistent.putUndo (h : s.Consistent ids) {log : UndoLogRecord} (hmem : log.objectId ∈ ids)
    {obj? : Option SmartObjectRecord} (hlog : log.Replayable obj?)
    (hclaim : ∀ σ, log.prevSeal = some σ → s.Claims σ log.objectId) :
    (putUndo log s).Consistent ids where
  object := h.object
  sealed := h.sealed
  undo := (h.intact.putUndo hmem hlog).undo
  claims σ id id' hc hc' := h.claims σ id id' (claims_putUndo hclaim hc) (claims_putUndo hclaim hc')

/-! ## 3. Replaying undo records -/

/-- What replaying a replayable record does to the objects. -/
theorem dropSeal_objects (objectId : String) (s : StateStore) :
    (dropSeal objectId s).objects = s.objects := by
  unfold dropSeal
  split
  · split <;> rfl
  · rfl

theorem undoOne_objects {log : UndoLogRecord} {obj? : Option SmartObjectRecord}
    (hlog : log.Replayable obj?) (hround : log.roundTrips = true) (targetHeight : Nat)
    (s : StateStore) (id : String) :
    (undoOne targetHeight s log).objects[id]? =
      if id = log.objectId then obj? else s.objects[id]? := by
  have hdrop := dropSeal_objects log.objectId s
  unfold undoOne
  cases hlog with
  | create haction =>
    rw [if_pos haction]
    show ((dropSeal log.objectId s).objects.erase log.objectId)[id]? = _
    rw [hdrop, Table.get_erase]
  | update obj hholds =>
    rw [if_neg (by rw [hholds.action]; decide), if_pos hholds.action, hholds.prevObject hround]
    show ((dropSeal log.objectId s).objects.insert log.objectId obj)[id]? = _
    rw [hdrop, Table.get_insert]

/-- A record that is not read back as it was written leaves the objects alone. -/
theorem undoOne_objects_null {log : UndoLogRecord} {obj : SmartObjectRecord} (hlog : log.Holds obj)
    (hnull : log.roundTrips = false) (targetHeight : Nat) (s : StateStore) :
    (undoOne targetHeight s log).objects = s.objects := by
  unfold undoOne
  rw [if_neg (by rw [hlog.action]; decide), if_pos hlog.action,
    UndoLogRecord.prevObject_of_null hnull]
  exact dropSeal_objects log.objectId s

/-- Whatever is read back, replaying sets the object to what the record holds, or leaves it. -/
theorem undoOne_objects_cases {log : UndoLogRecord} {obj? : Option SmartObjectRecord}
    (hlog : log.Replayable obj?) (targetHeight : Nat) (s : StateStore) {id : String}
    {r : SmartObjectRecord} (hr : (undoOne targetHeight s log).objects[id]? = some r) :
    (id = log.objectId ∧ obj? = some r) ∨ s.objects[id]? = some r := by
  cases hround : log.roundTrips with
  | true =>
    rw [undoOne_objects hlog hround] at hr
    split at hr
    · exact .inl ⟨‹_›, hr⟩
    · exact .inr hr
  | false =>
    -- only the record of an update holds a state
    cases hlog with
    | create haction hseal hstate =>
      rw [(UndoLogRecord.Replayable.create haction hseal hstate).roundTrips_of_none] at hround
      cases hround
    | update obj hholds =>
      rw [undoOne_objects_null hholds hround] at hr
      exact .inr hr

theorem dropSeal_seals (h : s.Consistent ids) (objectId σ : String) :
    (dropSeal objectId s).seals[σ]? =
      if s.seals[σ]? = some objectId then none else s.seals[σ]? := by
  unfold dropSeal
  cases hobj : s.objects[objectId]? with
  | none =>
    rw [if_neg]
    intro hσ
    obtain ⟨r, hr, -⟩ := (h.sealed σ objectId).mp hσ
    rw [hobj] at hr
    cases hr
  | some existing =>
    dsimp only
    rw [if_pos (h.object _ _ hobj).2.1, Table.get_erase]
    by_cases hσ : σ = existing.sealRef
    · rw [if_pos hσ, if_pos ((h.sealed σ objectId).mpr ⟨existing, hobj, hσ.symm⟩)]
    · rw [if_neg hσ, if_neg]
      intro hmap
      obtain ⟨r, hr, hrσ⟩ := (h.sealed σ objectId).mp hmap
      rw [hobj] at hr
      cases hr
      exact hσ hrσ.symm

theorem dropSeal_eq (objectId : String) (s : StateStore) :
    ∃ seals, dropSeal objectId s = { s with seals } := by
  unfold dropSeal
  split
  · split
    · exact ⟨_, rfl⟩
    · exact ⟨s.seals, rfl⟩
  · exact ⟨s.seals, rfl⟩

/-- Replaying a record writes objects and seals only. -/
theorem undoOne_eq (targetHeight : Nat) (s : StateStore) (log : UndoLogRecord) :
    ∃ objects seals, undoOne targetHeight s log = { s with objects, seals } := by
  obtain ⟨seals, hseals⟩ := dropSeal_eq log.objectId s
  unfold undoOne
  simp only [hseals]
  split
  · exact ⟨_, _, rfl⟩
  · split
    · split <;> exact ⟨_, _, rfl⟩
    · exact ⟨s.objects, s.seals, rfl⟩

theorem undoOne_undoLogs (targetHeight : Nat) (s : StateStore) (log : UndoLogRecord) :
    (undoOne targetHeight s log).undoLogs = s.undoLogs := by
  obtain ⟨objects, seals, hone⟩ := undoOne_eq targetHeight s log
  rw [hone]

/-- The seals after replaying a record: the object gives up its seal and gets back the old one. -/
theorem undoOne_seals (h : s.Consistent ids) {log : UndoLogRecord}
    {obj? : Option SmartObjectRecord} (hlog : log.Replayable obj?)
    (hround : log.roundTrips = true) (targetHeight : Nat) (σ : String) :
    (undoOne targetHeight s log).seals[σ]? =
      if ∃ obj, obj? = some obj ∧ obj.sealRef = σ then some log.objectId
      else if s.seals[σ]? = some log.objectId then none
      else s.seals[σ]? := by
  unfold undoOne
  cases hlog with
  | create haction =>
    rw [if_pos haction, if_neg (by simp)]
    exact dropSeal_seals h _ _
  | update obj hholds =>
    rw [if_neg (by rw [hholds.action]; decide), if_pos hholds.action, hholds.prevObject hround]
    show ((dropSeal log.objectId s).seals.insert obj.sealRef log.objectId)[σ]? = _
    rw [Table.get_insert, dropSeal_seals h]
    simp [eq_comm]

theorem Intact.undoOne (h : s.Intact ids) {i : Nat} {log : UndoLogRecord}
    (hi : s.undoLogs[i]? = some log) (targetHeight : Nat) :
    (undoOne targetHeight s log).Intact ids where
  object id r hr := by
    obtain ⟨-, hmem, obj?, hlog⟩ := h.undo i log hi
    rcases undoOne_objects_cases hlog targetHeight s hr with ⟨hid, rfl⟩ | hr
    · have ⟨hobjectId, hreadable, _⟩ := hlog.restored
      exact ⟨hobjectId.trans hid.symm, hreadable, hid ▸ hmem⟩
    · exact h.object id r hr
  undo := by
    rw [undoOne_undoLogs]
    exact h.undo

/-- A replayed record gives its object a seal that the log claims for it. -/
theorem Replayable.claims {i : Nat} {log : UndoLogRecord} (hi : s.undoLogs[i]? = some log)
    {obj : SmartObjectRecord} (hlog : log.Replayable (some obj)) :
    s.Claims obj.sealRef log.objectId :=
  .inr ⟨i, log, hi, rfl, hlog.restored.2.2⟩

/-- Replaying a record of the log adds no claim. -/
theorem claims_undoOne (h : s.Intact ids) {i : Nat} {log : UndoLogRecord}
    (hi : s.undoLogs[i]? = some log) {targetHeight : Nat} {σ id : String}
    (hc : (undoOne targetHeight s log).Claims σ id) : s.Claims σ id := by
  obtain ⟨-, -, obj?, hlog⟩ := h.undo i log hi
  rcases hc with ⟨r, hr, hrσ⟩ | hundo
  · rcases undoOne_objects_cases hlog targetHeight s hr with ⟨hid, rfl⟩ | hr
    · rw [hid, ← hrσ]
      exact Replayable.claims hi hlog
    · exact .inl ⟨r, hr, hrσ⟩
  · rw [undoOne_undoLogs] at hundo
    exact .inr hundo

/-- **Replaying a record of the log keeps the tables consistent.** -/
theorem Consistent.undoOne (h : s.Consistent ids) {i : Nat} {log : UndoLogRecord}
    (hi : s.undoLogs[i]? = some log) (hround : log.roundTrips = true) (targetHeight : Nat) :
    (undoOne targetHeight s log).Consistent ids := by
  obtain ⟨-, hmem, obj?, hlog⟩ := h.undo i log hi
  have hget := undoOne_objects hlog hround targetHeight s
  constructor
  · exact (h.intact.undoOne hi targetHeight).object
  · intro σ id
    rw [undoOne_seals h hlog hround, hget]
    split
    · rename_i hback
      obtain ⟨obj, hobj, hobjσ⟩ := hback
      constructor
      · rintro ⟨⟩
        exact ⟨obj, by rw [if_pos rfl, hobj], hobjσ⟩
      · rintro ⟨r, hr, hrσ⟩
        split at hr
        · rename_i hid
          rw [hid]
        · subst hobj
          have hc : s.Claims σ log.objectId := hobjσ ▸ Replayable.claims hi hlog
          rw [h.claims σ id log.objectId (.inl ⟨r, hr, hrσ⟩) hc]
    · rename_i hback
      by_cases hid : id = log.objectId
      · subst hid
        rw [if_pos rfl]
        constructor
        · intro hσ
          split at hσ
          · cases hσ
          · exact absurd hσ ‹_›
        · rintro ⟨r, hr, hrσ⟩
          exact absurd ⟨r, hr, hrσ⟩ hback
      · rw [if_neg hid, ← h.sealed]
        split
        · rename_i hold
          rw [hold]
          simp [eq_comm, hid]
        · rfl
  · rw [undoOne_undoLogs]
    exact h.undo
  · exact fun σ id id' hc hc' ↦
      h.claims σ id id' (claims_undoOne h.intact hi hc) (claims_undoOne h.intact hi hc')

end StateStore

end UtxoVm
