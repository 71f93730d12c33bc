import UtxoVm.Reasoning.Interleaving
import UtxoVm.Scanner.StoreRun

/-!
# Concurrent calls of the store

The tasks of the node share one store.  A save commits its record and then enters it into the tree,
and a rollback commits, reads all objects and then replaces the tree: what other calls do in between
decides whether the tree still belongs to the objects table.
-/

namespace UtxoVm

open RustStd Prog Interleaving

namespace StateStore

/-! ## 1. Calls and their atomic steps -/

/-- The calls of the store that change its tables or its tree. -/
inductive StoreCall where
  | save (commits : Bool) (obj : SmartObjectRecord)
  | saveUndo (commits : Bool) (undo : UndoLogRecord)
  | rollback (commits : Bool) (chain : String) (targetHeight : Nat)

variable (X : Crates)

def StoreCall.prog : StoreCall → StoreProg Unit
  | save commits obj => saveObject X commits obj
  | saveUndo commits undo => saveUndoLog commits undo
  | rollback commits chain targetHeight => do
      let _ ← rollbackToBlock X commits chain targetHeight
      pure ()

/-- What a caller may pass: records that can be read back, with an object id in use. -/
def StoreCall.Admissible (ids : Set String) : StoreCall → Prop
  | save _ obj => obj.objectId ∈ ids ∧ obj.readable = true
  | saveUndo _ undo => undo.objectId ∈ ids ∧ ∃ obj?, undo.Replayable obj?
  | rollback _ _ _ => True

/-- The last step of a save. -/
def enterObject (obj : SmartObjectRecord) : StoreProg Unit :=
  .modify fun s ↦ { s with smt := smtInsert X s.smt obj }

/-- The last step of a rollback. -/
def replaceTree (objs : List SmartObjectRecord) : StoreProg Unit :=
  .modify fun s ↦ { s with smt := smtOf X objs }

/-- A rollback whose transaction is committed. -/
def rereadObjects : StoreProg Unit :=
  .act id fun s ↦
    match allObjects s with
    | .ok objs => replaceTree X objs
    | .error e => .fail e

theorem saveObject_steps (commits : Bool) (obj : SmartObjectRecord) :
    saveObject X commits obj = .act (fun s ↦ if commits then insertObject obj s else s)
      fun _ ↦ if commits then enterObject X obj else .fail storageError := by
  cases commits <;> rfl

theorem saveUndoLog_steps (commits : Bool) (undo : UndoLogRecord) :
    saveUndoLog commits undo = .act (fun s ↦ if commits then putUndo undo s else s)
      fun _ ↦ if commits then .done () else .fail storageError := by
  cases commits <;> rfl

theorem rollback_steps (commits : Bool) (chain : String) (targetHeight : Nat) :
    (StoreCall.rollback commits chain targetHeight).prog X =
      .act
        (fun s ↦
          match undoLogsAbove s chain targetHeight with
          | .ok logs => if commits then undoAll chain targetHeight logs s else s
          | .error _ => s)
        fun s ↦
          match undoLogsAbove s chain targetHeight with
          | .ok _ => if commits then rereadObjects X else .fail storageError
          | .error e => .fail e := by
  have htxn (s : StateStore) : (do
      let logs ← undoLogsAbove s chain targetHeight
      pure (undoAll chain targetHeight logs s, logs.length) : Except Exit (StateStore × Nat)) =
      (undoLogsAbove s chain targetHeight).map fun logs ↦
        (undoAll chain targetHeight logs s, logs.length) := by
    cases undoLogsAbove s chain targetHeight <;> rfl
  unfold StoreCall.prog rollbackToBlock writeTxn
  simp only [htxn]
  show Prog.act _ _ = Prog.act _ _
  congr 1
  · funext s
    cases undoLogsAbove s chain targetHeight <;> rfl
  · funext s
    dsimp only
    cases undoLogsAbove s chain targetHeight with
    | error e => rfl
    | ok logs =>
      cases commits with
      | false => rfl
      | true =>
        show Prog.act _ _ = Prog.act _ _
        congr 1
        funext s'
        dsimp only [Prog.bind]
        cases allObjects s' <;> rfl

/-! ## 2. Runs -/

/-- The tree update that a call is about to make fits the objects table: the object that is entered
is the stored one, and the tree that is put in place is the tree of the stored objects. -/
def UpToDate (s : StateStore) : StoreCall → StoreProg Unit → Prop
  | .save _ obj, p => p = enterObject X obj →
      ∃ r : SmartObjectRecord, s.objects[obj.objectId]? = some r ∧
        hashObject X r = hashObject X obj
  | .saveUndo _ _, _ => True
  | .rollback _ _ _, p => ∀ objs, p = replaceTree X objs →
      ∃ now, allObjects s = .ok now ∧ smtOf X objs = smtOf X now

/-- Calls of the store in any number of threads; an action may be performed when `cond` holds of the
state, the call and the rest of its program. -/
def callSystem (ids : Set String) (ι : Type)
    (cond : StateStore → StoreCall → StoreProg Unit → Prop) :
    System StateStore Exit Unit ι StoreCall where
  prog := StoreCall.prog X
  canStart _ _ _ call := call.Admissible ids
  canAct s T i := ∀ call p, T i = some (call, p) → cond s call p
  restart _ _ := False

/-! ## 3. The outline -/

/-- How far a call is: its transaction is still to come, is committed, the objects are read again,
or nothing is left to do. -/
inductive Stage where
  | fresh
  | committed
  | reread (objs : List SmartObjectRecord)
  | finished

/-- The rest of a call at a stage. -/
def At (ids : Set String) : StoreCall → Stage → StoreProg Unit → Prop
  | call, .fresh, p => call.Admissible ids ∧ p = call.prog X
  | .save _ obj, .committed, p => p = enterObject X obj
  | .rollback _ _ _, .committed, p => p = rereadObjects X
  | .rollback _ _ _, .reread objs, p => p = replaceTree X objs
  | _, .finished, p => p = .done () ∨ ∃ e, p = .fail e
  | _, _, _ => False

/-- The call is still to bring the tree up to date for the object `id`. -/
def Owes : StoreCall → Stage → String → Prop
  | .save _ obj, .committed, id => obj.objectId = id
  | .rollback _ _ _, .committed, _ => True
  | .rollback _ _ _, .reread _, _ => True
  | _, _, _ => False

variable {ι : Type}

/-- No call owes the tree anything for the object. -/
def Settled (G : Stages ι StoreCall Stage) (id : String) : Prop :=
  ∀ i call stage, G i = some (call, stage) → ¬ Owes call stage id

/-- Tables and tree agree on every object that no call owes to the tree. -/
structure Agreed (ids : Set String) (s : StateStore) (G : Stages ι StoreCall Stage) : Prop where
  intact : s.Intact ids
  wellFormed : s.smt.WellFormed (smtHashes X)
  known : ∀ key v, s.smt.leaves key = some v → ∃ id ∈ ids, hashKey X id = key
  agrees : ∀ id ∈ ids, Settled G id →
    s.smt.leaves (hashKey X id) = (s.objects[id]?).map (hashObject X)

variable {X} {ids : Set String} {s : StateStore} {G : Stages ι StoreCall Stage}

theorem agrees_iff_tracks (hideal : IdealHash X ids) (hs : s.Intact ids)
    (hknown : ∀ key v, s.smt.leaves key = some v → ∃ id ∈ ids, hashKey X id = key) :
    (∀ id ∈ ids, s.smt.leaves (hashKey X id) = (s.objects[id]?).map (hashObject X)) ↔
      ∀ key v, s.smt.leaves key = some v ↔ ∃ id, ∃ r : SmartObjectRecord,
        s.objects[id]? = some r ∧ hashKey X id = key ∧ hashObject X r = v := by
  constructor
  · intro hagrees key v
    constructor
    · intro hleaf
      obtain ⟨id, hid, rfl⟩ := hknown key v hleaf
      rw [hagrees id hid, Option.map_eq_some_iff] at hleaf
      obtain ⟨r, hr, hv⟩ := hleaf
      exact ⟨id, r, hr, rfl, hv⟩
    · rintro ⟨id, r, hr, rfl, rfl⟩
      rw [hagrees id (hs.object id r hr).2.2, hr, Option.map_some]
  · intro hleaves id hid
    apply Option.ext
    intro v
    rw [hleaves, Option.map_eq_some_iff]
    constructor
    · rintro ⟨id', r, hr, hkey, hv⟩
      rw [hideal.injOn (hs.object id' r hr).2.2 hid hkey] at hr
      exact ⟨r, hr, hv⟩
    · rintro ⟨r, hr, hv⟩
      exact ⟨id, r, hr, rfl, hv⟩

theorem Tracks.known (h : s.Tracks X) (hs : s.Intact ids) (key v : Hash)
    (hleaf : s.smt.leaves key = some v) : ∃ id ∈ ids, hashKey X id = key := by
  obtain ⟨id, r, hr, hkey, _⟩ := (h.leaves key v).mp hleaf
  exact ⟨id, (hs.object id r hr).2.2, hkey⟩

/-- A store whose tree belongs to its objects, whatever is under way. -/
theorem Mirrored.agreed (hs : s.Mirrored X ids) (hideal : IdealHash X ids)
    (G : Stages ι StoreCall Stage) : Agreed X ids s G where
  intact := hs.intact
  wellFormed := hs.tracks.wellFormed
  known := hs.tracks.known hs.intact
  agrees id hid _ := (agrees_iff_tracks hideal hs.intact (hs.tracks.known hs.intact)).mpr
    hs.tracks.leaves id hid

theorem Agreed.putUndo (h : Agreed X ids s G) {undo : UndoLogRecord} (hmem : undo.objectId ∈ ids)
    {obj? : Option SmartObjectRecord} (hreplay : undo.Replayable obj?) :
    Agreed X ids (putUndo undo s) G where
  intact := h.intact.putUndo hmem hreplay
  wellFormed := h.wellFormed
  known := h.known
  agrees := h.agrees

/-- From its commit to the new tree, a rollback owes the tree everything. -/
theorem Agreed.owing {G' : Stages ι StoreCall Stage} (hs : s.Intact ids)
    (hwell : s.smt.WellFormed (smtHashes X))
    (hknown : ∀ key v, s.smt.leaves key = some v → ∃ id ∈ ids, hashKey X id = key) {i : ι}
    {commits : Bool} {chain : String} {targetHeight : Nat} {stage : Stage}
    (hi : G' i = some (.rollback commits chain targetHeight, stage))
    (hstage : ∀ id, Owes (.rollback commits chain targetHeight) stage id) : Agreed X ids s G' where
  intact := hs
  wellFormed := hwell
  known := hknown
  agrees id _ hsettled := absurd (hstage id) (hsettled i _ _ hi)

/-- Undoing does not touch the tree. -/
theorem undoAll_smt (chain : String) (targetHeight : Nat) (logs : List (Nat × UndoLogRecord))
    (s : StateStore) : (undoAll chain targetHeight logs s).smt = s.smt := by
  have hdrop (id : String) (s : StateStore) : (dropSeal id s).smt = s.smt := by
    unfold dropSeal
    split
    · split <;> rfl
    · rfl
  have hone (s : StateStore) (log : UndoLogRecord) : (undoOne targetHeight s log).smt = s.smt := by
    unfold undoOne
    split
    · exact hdrop _ _
    · split
      · split <;> exact hdrop _ _
      · rfl
  have hfold (logs : List UndoLogRecord) (s : StateStore) :
      (logs.foldl (undoOne targetHeight) s).smt = s.smt := by
    induction logs generalizing s with
    | nil => rfl
    | cons log logs ih => exact (ih _).trans (hone s log)
  exact hfold _ s

variable [DecidableEq ι]

/-- A program at its end owes nothing. -/
theorem owes_nothing {call : StoreCall} {stage : Stage} {p : StoreProg Unit}
    (hend : (∃ a, p = .done a) ∨ ∃ e, p = .fail e) (hat : At X ids call stage p) (id : String) :
    ¬ Owes call stage id := by
  rcases hend with ⟨a, rfl⟩ | ⟨e, rfl⟩ <;> cases stage <;> cases call <;>
    first
      | exact not_false
      | cases hat

theorem Settled.of_update {i : ι} {g? : Option (StoreCall × Stage)} {id : String}
    (h : Settled (Function.update G i g?) id)
    (hold : ∀ call stage, G i = some (call, stage) → ¬ Owes call stage id) : Settled G id := by
  intro j call stage hj
  by_cases hji : j = i
  · exact hold call stage (hji ▸ hj)
  · exact h j call stage (by rw [Function.update_of_ne hji, hj])

/-- A thread that owes nothing may come and go. -/
theorem Agreed.update (h : Agreed X ids s G) (i : ι) {g? : Option (StoreCall × Stage)}
    (hold : ∀ call stage, G i = some (call, stage) → ∀ id, ¬ Owes call stage id) :
    Agreed X ids s (Function.update G i g?) where
  intact := h.intact
  wellFormed := h.wellFormed
  known := h.known
  agrees id hid hsettled :=
    h.agrees id hid (hsettled.of_update fun call stage hi ↦ hold call stage hi id)

/-- A committed save owes the tree its object. -/
theorem Agreed.commitSave (h : Agreed X ids s G) {i : ι} {commits : Bool} {obj : SmartObjectRecord}
    (hi : G i = some (.save commits obj, .fresh)) (hmem : obj.objectId ∈ ids)
    (hreadable : obj.readable = true) :
    Agreed X ids (insertObject obj s) (Function.update G i (some (.save commits obj, .committed)))
    where
  intact := h.intact.insertObject hmem hreadable
  wellFormed := h.wellFormed
  known := h.known
  agrees id hid hsettled := by
    have hne : id ≠ obj.objectId := by
      intro heq
      exact hsettled i _ _ (Function.update_self ..) heq.symm
    rw [insertObject_objects, if_neg hne]
    refine h.agrees id hid (hsettled.of_update fun call stage hstage ↦ ?_)
    rw [hi] at hstage
    cases hstage
    exact not_false

/-- Entering the stored object into the tree. -/
theorem Agreed.enterObject (h : Agreed X ids s G) (hideal : IdealHash X ids) {i : ι}
    {commits : Bool} {obj r : SmartObjectRecord}
    (hi : G i = some (.save commits obj, .committed))
    (hstored : s.objects[obj.objectId]? = some r) (hhash : hashObject X r = hashObject X obj) :
    Agreed X ids { s with smt := smtInsert X s.smt obj }
      (Function.update G i (some (.save commits obj, .finished))) where
  intact := h.intact.congr rfl rfl
  wellFormed := SparseMerkleTree.update_wellFormed h.wellFormed _ _
  known key v hleaf := by
    rw [smtInsert_leaves hideal] at hleaf
    split at hleaf
    · rename_i hkey
      exact ⟨obj.objectId, (h.intact.object _ _ hstored).2.2, hkey.symm⟩
    · exact h.known key v hleaf
  agrees id hid hsettled := by
    have hmem := (h.intact.object _ _ hstored).2.2
    rw [smtInsert_leaves hideal]
    by_cases heq : id = obj.objectId
    · rw [heq, if_pos rfl]
      show _ = Option.map (hashObject X) s.objects[obj.objectId]?
      rw [hstored, Option.map_some, hhash]
    · rw [if_neg fun hkey ↦ heq (hideal.injOn hid hmem hkey)]
      refine h.agrees id hid (hsettled.of_update fun call stage hstage ↦ ?_)
      rw [hi] at hstage
      cases hstage
      exact fun howes ↦ heq howes.symm

/-- The steps of the calls keep tables and tree agreed, when every tree update is up to date. -/
theorem callOutline (hideal : IdealHash X ids) :
    Outline (callSystem X ids ι (UpToDate X)) (At X ids) (Agreed X ids) where
  start s T G i call hmatch h hfree hadm := by
    refine ⟨.fresh, ⟨hadm, rfl⟩, h.update i fun call' stage hi ↦ ?_⟩
    have hrel := hmatch i
    rw [hfree, hi] at hrel
    cases hrel
  act s T G i call stage upd next hmatch h hi hT hat hcan := by
    cases stage with
    | fresh =>
      obtain ⟨hadm, hprog⟩ := hat
      have hnone : ∀ call' stage', G i = some (call', stage') → ∀ id, ¬ Owes call' stage' id := by
        intro call' stage' hi'
        rw [hi] at hi'
        cases hi'
        cases call <;> exact fun _ ↦ not_false
      cases call with
      | save commits obj =>
        rw [StoreCall.prog, saveObject_steps, Prog.act.injEq] at hprog
        rw [hprog.1, hprog.2]
        cases commits with
        | false => exact ⟨.finished, .inr ⟨_, rfl⟩, h.update i hnone⟩
        | true => exact ⟨.committed, rfl, h.commitSave hi hadm.1 hadm.2⟩
      | saveUndo commits undo =>
        rw [StoreCall.prog, saveUndoLog_steps, Prog.act.injEq] at hprog
        rw [hprog.1, hprog.2]
        obtain ⟨hmem, obj?, hreplay⟩ := hadm
        cases commits with
        | false => exact ⟨.finished, .inr ⟨_, rfl⟩, h.update i hnone⟩
        | true => exact ⟨.finished, .inl rfl, (h.putUndo hmem hreplay).update i hnone⟩
      | rollback commits chain targetHeight =>
        rw [rollback_steps, Prog.act.injEq] at hprog
        rw [hprog.1, hprog.2]
        simp only [undoLogsAbove_eq h.intact]
        cases commits with
        | false => exact ⟨.finished, .inr ⟨_, rfl⟩, h.update i hnone⟩
        | true =>
          have hsmt := undoAll_smt chain targetHeight (replayList chain targetHeight s) s
          refine ⟨.committed, rfl, .owing (undoAll_intact h.intact chain targetHeight) ?_ ?_
            (Function.update_self ..) fun _ ↦ trivial⟩
          · show (undoAll chain targetHeight _ s).smt.WellFormed _
            rw [hsmt]
            exact h.wellFormed
          · show ∀ key v, (undoAll chain targetHeight _ s).smt.leaves key = some v → _
            rw [hsmt]
            exact h.known
    | committed =>
      have hfresh := hcan call _ hT
      cases call with
      | save commits obj =>
        obtain ⟨r, hstored, hhash⟩ := hfresh hat
        change Prog.act upd next = StateStore.enterObject X obj at hat
        unfold StateStore.enterObject Prog.modify at hat
        rw [Prog.act.injEq] at hat
        rw [hat.1, hat.2]
        exact ⟨.finished, .inl rfl, h.enterObject hideal hi hstored hhash⟩
      | saveUndo commits undo => exact hat.elim
      | rollback commits chain targetHeight =>
        -- the objects are read in one go, and all of them can be read
        change Prog.act upd next = rereadObjects X at hat
        unfold rereadObjects at hat
        rw [Prog.act.injEq] at hat
        rw [hat.1, hat.2]
        simp only [allObjects_eq h.intact]
        exact ⟨.reread _, rfl, .owing h.intact h.wellFormed h.known (Function.update_self ..)
          fun _ ↦ trivial⟩
    | reread objs =>
      have hfresh := hcan call _ hT
      cases call with
      | save commits obj => exact hat.elim
      | saveUndo commits undo => exact hat.elim
      | rollback commits chain targetHeight =>
        obtain ⟨now, hnow, htree⟩ := hfresh objs hat
        rw [allObjects_eq h.intact] at hnow
        cases hnow
        change Prog.act upd next = replaceTree X objs at hat
        unfold replaceTree Prog.modify at hat
        rw [Prog.act.injEq] at hat
        rw [hat.1, hat.2]
        refine ⟨.finished, .inl rfl, ?_⟩
        have hmirrored : ({ s with smt := smtOf X objs } : StateStore).Mirrored X ids := by
          rw [htree]
          exact ⟨h.intact.congr rfl rfl, rebuild_tracks hideal h.intact⟩
        exact hmirrored.agreed hideal _
    | finished =>
      exfalso
      cases call <;> rcases hat with hat | ⟨e, hat⟩ <;> cases hat
  returned s G i call stage a h hi hat := by
    have hdone : ∀ id, ¬ Owes call stage id := owes_nothing (.inl ⟨a, rfl⟩) hat
    refine h.update i fun call' stage' hi' ↦ ?_
    rw [hi] at hi'
    cases hi'
    exact hdone
  failed s G i call stage e h hi hat := by
    have hdone : ∀ id, ¬ Owes call stage id := owes_nothing (.inr ⟨e, rfl⟩) hat
    refine h.update i fun call' stage' hi' ↦ ?_
    rw [hi] at hi'
    cases hi'
    exact hdone
  restart s s' G h hre := hre.elim

/-! ## 4. Store and tree agree -/

/-- The tree maps exactly the key hashes of the stored objects to their hashes. -/
def TreeAgrees (X : Crates) (s : StateStore) : Prop :=
  ∀ key v, s.smt.get key = some v ↔ ∃ id, ∃ r : SmartObjectRecord, s.objects[id]? = some r ∧
    hashKey X id = key ∧ hashObject X r = v

/-- **Store and tree under concurrency.**  However the calls interleave, the tree belongs to the
objects table once all of them have returned, if every tree update was up to date when it was
made. -/
theorem tree_agrees_after_calls (hideal : IdealHash X ids) {s₀ : StateStore} (hs₀ : Run X ids s₀)
    (h : Reachable (callSystem X ids ι (UpToDate X)) s₀ s fun _ ↦ none) : TreeAgrees X s := by
  have hinit := (hs₀.mirrored hideal).agreed hideal (fun _ ↦ none : Stages ι StoreCall Stage)
  obtain ⟨G, hmatch, hagreed⟩ := h.outline (callOutline hideal) hinit
  refine (agrees_iff_tracks hideal hagreed.intact hagreed.known).mp fun id hid ↦ ?_
  refine hagreed.agrees id hid fun i call stage hi ↦ ?_
  rw [hmatch.stages_none i] at hi
  cases hi

end StateStore

open BlockProcessor StateStore

/-- An action that the program goes on from is not the last one. -/
theorem act_ne_modify {upd f : StateStore → StateStore} {next : StateStore → StoreProg Unit}
    (s : StateStore) (h : next s ≠ .done ()) : Prog.act upd next ≠ .modify f := by
  unfold Prog.modify
  intro heq
  rw [Prog.act.injEq] at heq
  exact h (congrFun heq.2 s)

/-- A save that is still to commit is not about to enter its object. -/
theorem saveObject_ne_enterObject (X : Crates) (obj obj' : SmartObjectRecord) :
    saveObject X true obj ≠ enterObject X obj' := by
  rw [saveObject_steps]
  exact act_ne_modify (empty X) nofun

/-- Nor is a rollback that is still to commit, or to read the objects, about to replace the tree. -/
theorem rollback_ne_replaceTree (X : Crates) (chain : String) (targetHeight : Nat)
    (objs : List SmartObjectRecord) :
    (StoreCall.rollback true chain targetHeight).prog X ≠ replaceTree X objs := by
  rw [rollback_steps]
  exact act_ne_modify (empty X) nofun

theorem rereadObjects_ne_replaceTree (X : Crates) (objs : List SmartObjectRecord) :
    rereadObjects X ≠ replaceTree X objs :=
  act_ne_modify (empty X) nofun

theorem smtOf_eq_of_replaceTree {X : Crates} {objs objs' : List SmartObjectRecord}
    (h : replaceTree X objs = replaceTree X objs') : smtOf X objs = smtOf X objs' := by
  unfold replaceTree Prog.modify at h
  rw [Prog.act.injEq] at h
  exact congrArg StateStore.smt (congrFun h.1 (empty X))

section

variable {X : Crates} {ids : Set String} {ι : Type} [DecidableEq ι]
  {cond : StateStore → StoreCall → StoreProg Unit → Prop} {s₀ s : StateStore}
  {T : Pool StateStore Exit Unit ι StoreCall}

theorem reachable_startSave (h : Reachable (callSystem X ids ι cond) s₀ s T) (i : ι)
    {obj : SmartObjectRecord} (hfree : T i = none)
    (hmem : obj.objectId ∈ ids) (hreadable : obj.readable = true) :
    Reachable (callSystem X ids ι cond) s₀ s
      (Function.update T i (some (.save true obj, saveObject X true obj))) := by
  have hadm : (StoreCall.save true obj).Admissible ids := ⟨hmem, hreadable⟩
  exact h.step (Step.start (S := callSystem X ids ι cond) hfree hadm)

theorem reachable_act (h : Reachable (callSystem X ids ι cond) s₀ s T) {i : ι} {call : StoreCall}
    {p : StoreProg Unit} {upd : StateStore → StateStore} {next : StateStore → StoreProg Unit}
    (hi : T i = some (call, p)) (hcond : cond s call p) (hp : p = .act upd next) :
    Reachable (callSystem X ids ι cond) s₀ (upd s)
      (Function.update T i (some (call, next s))) := by
  subst hp
  refine h.step (.act hi fun call' p' hp' ↦ ?_)
  rw [hi] at hp'
  cases hp'
  exact hcond

theorem reachable_commitSave (h : Reachable (callSystem X ids ι cond) s₀ s T) (i : ι)
    (obj : SmartObjectRecord)
    (hi : T i = some (.save true obj, saveObject X true obj))
    (hcond : cond s (.save true obj) (saveObject X true obj)) :
    Reachable (callSystem X ids ι cond) s₀ (insertObject obj s)
      (Function.update T i (some (.save true obj, enterObject X obj))) :=
  reachable_act h hi hcond (saveObject_steps ..)

theorem reachable_enterSave (h : Reachable (callSystem X ids ι cond) s₀ s T) (i : ι)
    (obj : SmartObjectRecord)
    (hi : T i = some (.save true obj, enterObject X obj))
    (hcond : cond s (.save true obj) (enterObject X obj)) :
    Reachable (callSystem X ids ι cond) s₀ { s with smt := smtInsert X s.smt obj }
      (Function.update T i (some (.save true obj, .done ()))) :=
  reachable_act h hi hcond rfl

theorem reachable_startRollback (h : Reachable (callSystem X ids ι cond) s₀ s T) (i : ι)
    (chain : String) (targetHeight : Nat) (hfree : T i = none) :
    Reachable (callSystem X ids ι cond) s₀ s (Function.update T i
      (some (.rollback true chain targetHeight,
        (StoreCall.rollback true chain targetHeight).prog X))) := by
  have hadm : (StoreCall.rollback true chain targetHeight).Admissible ids := trivial
  exact h.step (Step.start (S := callSystem X ids ι cond) hfree hadm)

theorem reachable_commitRollback (h : Reachable (callSystem X ids ι cond) s₀ s T) (i : ι)
    (chain : String) (targetHeight : Nat) (hs : s.Intact ids)
    (hi : T i = some (.rollback true chain targetHeight,
      (StoreCall.rollback true chain targetHeight).prog X))
    (hcond : cond s (.rollback true chain targetHeight)
      ((StoreCall.rollback true chain targetHeight).prog X)) :
    Reachable (callSystem X ids ι cond) s₀
      (undoAll chain targetHeight (replayList chain targetHeight s) s)
      (Function.update T i (some (.rollback true chain targetHeight, rereadObjects X))) := by
  have hstep := reachable_act h hi hcond (rollback_steps ..)
  simpa only [undoLogsAbove_eq hs, if_true] using hstep

theorem reachable_reread (h : Reachable (callSystem X ids ι cond) s₀ s T) (i : ι)
    (chain : String) (targetHeight : Nat) (hs : s.Intact ids)
    (hi : T i = some (.rollback true chain targetHeight, rereadObjects X))
    (hcond : cond s (.rollback true chain targetHeight) (rereadObjects X)) :
    Reachable (callSystem X ids ι cond) s₀ s (Function.update T i
      (some (.rollback true chain targetHeight, replaceTree X (s.objects.toList.map (·.2))))) := by
  have hstep := reachable_act h hi hcond rfl
  simpa only [allObjects_eq hs, id_eq] using hstep

theorem reachable_replaceTree (h : Reachable (callSystem X ids ι cond) s₀ s T) (i : ι)
    (chain : String) (targetHeight : Nat) (objs : List SmartObjectRecord)
    (hi : T i = some (.rollback true chain targetHeight, replaceTree X objs))
    (hcond : cond s (.rollback true chain targetHeight) (replaceTree X objs)) :
    Reachable (callSystem X ids ι cond) s₀ { s with smt := smtOf X objs }
      (Function.update T i (some (.rollback true chain targetHeight, .done ()))) :=
  reachable_act h hi hcond rfl

end

/-- A rollback that commits first and ends before the last step of either of two saves. -/
def overlapped (X : Crates) (chain : String) (targetHeight : Nat) (obj obj' : SmartObjectRecord)
    (s : StateStore) : StateStore :=
  let s := undoAll chain targetHeight (replayList chain targetHeight s) s
  let s := insertObject obj' (insertObject obj s)
  { s with smt := smtInsert X (smtInsert X (smtOf X (s.objects.toList.map (·.2))) obj) obj' }

/-- Such calls are up to date when the saves are of two objects. -/
theorem overlapped_reachable {X : Crates} {ids : Set String} {s : StateStore} (hs : s.Intact ids)
    {obj obj' : SmartObjectRecord} (hne : obj.objectId ≠ obj'.objectId) (hmem : obj.objectId ∈ ids)
    (hreadable : obj.readable = true) (hmem' : obj'.objectId ∈ ids)
    (hreadable' : obj'.readable = true) (chain : String) (targetHeight : Nat) :
    Reachable (callSystem X ids (Fin 3) (StateStore.UpToDate X)) s
      (overlapped X chain targetHeight obj obj' s) fun _ ↦ none := by
  have hinit : Reachable (callSystem X ids (Fin 3) (StateStore.UpToDate X)) s s fun _ ↦ none :=
    .init
  have hstart := reachable_startSave hinit 0 rfl hmem hreadable
  have hstart' := reachable_startSave hstart 1 rfl hmem' hreadable'
  have hbegun := reachable_startRollback hstart' 2 chain targetHeight rfl
  have hroll := reachable_commitRollback hbegun 2 chain targetHeight hs rfl fun objs h ↦
    absurd h (rollback_ne_replaceTree X chain targetHeight _)
  have hundone := undoAll_intact hs chain targetHeight
  have hcommit := reachable_commitSave hroll 0 obj rfl fun h ↦
    absurd h (saveObject_ne_enterObject X _ _)
  have hcommit' := reachable_commitSave hcommit 1 obj' rfl fun h ↦
    absurd h (saveObject_ne_enterObject X _ _)
  -- the rollback reads what the saves have committed
  have hsaved := (hundone.insertObject hmem hreadable).insertObject hmem' hreadable'
  have hreread := reachable_reread hcommit' 2 chain targetHeight hsaved rfl
    fun objs h ↦ absurd h (rereadObjects_ne_replaceTree X _)
  have hreplace := reachable_replaceTree hreread 2 chain targetHeight _ rfl fun objs h ↦
    ⟨_, allObjects_eq hsaved, (smtOf_eq_of_replaceTree h).symm⟩
  have henter := reachable_enterSave hreplace 0 obj rfl fun _ ↦
    ⟨obj, (insertObject_objects ..).trans ((if_neg hne).trans
      ((insertObject_objects ..).trans (if_pos rfl))), rfl⟩
  have henter' := reachable_enterSave henter 1 obj' rfl fun _ ↦
    ⟨obj', (insertObject_objects ..).trans (if_pos rfl), rfl⟩
  have hend := ((henter'.step (.returned (i := 2) rfl)).step (.returned (i := 1) rfl)).step
    (.returned (i := 0) rfl)
  exact hend.of_idle fun i ↦ by fin_cases i <;> rfl

/-- The object of `demoCreateTx` is rolled back while two other objects are saved. -/
theorem tree_agrees_after_calls_overlapped :
    let s₀ := runTx demoCrates demoProcessor 1 (empty demoCrates) ⟨{}, 0, demoCreateTx⟩
    let s := overlapped demoCrates "JKC" 0 { demoObject 1 with objectId := "a" }
      { demoObject 1 with objectId := "b", sealRef := "b:0" } s₀
    (s₀.objects.contains demoObjectId = true ∧ s.objects.contains demoObjectId = false ∧
      s.objects.contains "a" = true ∧ s.objects.contains "b" = true) ∧ TreeAgrees demoCrates s := by
  have hideal : IdealHash demoCrates {demoObjectId, "a", "b"} := by
    refine ⟨?_, fun _ ↦ demoCrates_sha256_ne_zero _⟩
    have hkeys : hashKey demoCrates demoObjectId ≠ hashKey demoCrates "a" ∧
        hashKey demoCrates demoObjectId ≠ hashKey demoCrates "b" ∧
        hashKey demoCrates "a" ≠ hashKey demoCrates "b" := by decide +kernel
    obtain ⟨hoa, hob, hab⟩ := hkeys
    rintro x (rfl | rfl | rfl) y (rfl | rfl | rfl) h
    · rfl
    · exact absurd h hoa
    · exact absurd h hob
    · exact absurd h.symm hoa
    · rfl
    · exact absurd h hab
    · exact absurd h.symm hob
    · exact absurd h.symm hab
    · rfl
  have hrun : Run demoCrates {demoObjectId, "a", "b"} (runTx demoCrates demoProcessor 1
      (empty demoCrates) ⟨{}, 0, demoCreateTx⟩) := by
    refine .processTx demoProcessor 1 ⟨{}, 0, demoCreateTx⟩ .empty fun u hu ↦ ?_
    rw [demoCreateTx_planned] at hu
    cases hu
    exact ⟨.inl rfl, fun obj hobj ↦ by
      cases hobj
      decide⟩
  refine ⟨by decide +kernel, tree_agrees_after_calls hideal hrun
    (overlapped_reachable (hrun.mirrored hideal).intact (by decide) ?_ (by decide) ?_ (by decide)
      "JKC" 0)⟩
  · exact .inr (.inl rfl)
  · exact .inr (.inr rfl)

/-- The same object with another value. -/
def demoOther : SmartObjectRecord := { demoObject 1 with satoshis := 255 }

/-- Two saves of one object that commit in one order and enter the tree in the other. -/
def raced (X : Crates) (s : StateStore) (obj obj' : SmartObjectRecord) : StateStore :=
  { insertObject obj' (insertObject obj s) with
    smt := smtInsert X (smtInsert X s.smt obj') obj }

theorem raced_objects (X : Crates) (s : StateStore) (obj obj' : SmartObjectRecord) :
    (raced X s obj obj').objects[obj'.objectId]? = some obj' :=
  (Table.get_insert ..).trans (if_pos rfl)

/-- The table holds one object, the tree the hash of the other. -/
theorem raced_not_agrees {X : Crates} {ids : Set String} (hideal : IdealHash X ids)
    {obj obj' : SmartObjectRecord} (hid : obj.objectId = obj'.objectId)
    (hhash : hashObject X obj ≠ hashObject X obj') (s : StateStore) :
    ¬ TreeAgrees X (raced X s obj obj') := by
  intro hagrees
  have hleaf := (hagrees (hashKey X obj'.objectId) (hashObject X obj')).mpr
    ⟨obj'.objectId, obj', raced_objects .., rfl, rfl⟩
  have hold : (raced X s obj obj').smt.get (hashKey X obj'.objectId) = some (hashObject X obj) :=
    (smtInsert_leaves hideal _ obj _).trans (if_pos (by rw [hid]))
  rw [hold] at hleaf
  exact hhash (Option.some.inj hleaf)

theorem raced_reachable {X : Crates} {ids : Set String} {obj obj' : SmartObjectRecord}
    (hmem : obj.objectId ∈ ids) (hreadable : obj.readable = true) (hmem' : obj'.objectId ∈ ids)
    (hreadable' : obj'.readable = true) (s : StateStore) :
    Reachable (callSystem X ids Bool fun _ _ _ ↦ True) s (raced X s obj obj') fun _ ↦ none := by
  have hinit : Reachable (callSystem X ids Bool fun _ _ _ ↦ True) s s fun _ ↦ none := .init
  have hstart := reachable_startSave hinit false rfl hmem hreadable
  have hstart' := reachable_startSave hstart true rfl hmem' hreadable'
  have hcommit := reachable_commitSave hstart' false obj rfl trivial
  have hcommit' := reachable_commitSave hcommit true obj' rfl trivial
  -- the tree is updated the other way round
  have henter' := reachable_enterSave hcommit' true obj' rfl trivial
  have henter := reachable_enterSave henter' false obj rfl trivial
  have hend := (henter.step (.returned (i := true) rfl)).step (.returned (i := false) rfl)
  exact hend.of_idle fun i ↦ by cases i <;> rfl

/-- The tree keeps the hash of the record that is gone. -/
theorem race_of_two_saves :
    Reachable (callSystem demoCrates {demoObjectId} Bool fun _ _ _ ↦ True) (empty demoCrates)
        (raced demoCrates (empty demoCrates) (demoObject 1) demoOther) (fun _ ↦ none) ∧
      ¬ TreeAgrees demoCrates (raced demoCrates (empty demoCrates) (demoObject 1) demoOther) := by
  have hreadable : (demoObject 1).readable = true ∧ demoOther.readable = true := by decide
  have hmem : (demoObject 1).objectId ∈ ({demoObjectId} : Set String) := rfl
  have hmem' : demoOther.objectId ∈ ({demoObjectId} : Set String) := rfl
  have hhash : hashObject demoCrates (demoObject 1) ≠ hashObject demoCrates demoOther := by
    decide +kernel
  have hid : (demoObject 1).objectId = demoOther.objectId := rfl
  exact ⟨raced_reachable hmem hreadable.1 hmem' hreadable.2 _,
    raced_not_agrees demo_idealHash hid hhash _⟩

end UtxoVm
