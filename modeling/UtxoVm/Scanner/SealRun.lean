import UtxoVm.Scanner.RollbackExact

/-!
# Single-use seals

A transaction gives the object that it changes a seal of its own, an output of the transaction.  In
a run over transactions with different txids no seal is therefore ever given twice, and the seals
table stays the inverse of the objects table, whatever is rolled back in between.
-/

namespace UtxoVm

open RustStd StateStore Prog

/-- A seal names its transaction and output. -/
theorem sealOf_inj {txid txid' : String} {vout vout' : Nat}
    (h : sealOf txid vout = sealOf txid' vout') : txid = txid' ∧ vout = vout' := by
  have hchars (txid : String) (vout : Nat) :
      (sealOf txid vout).toList = txid.toList ++ ':' :: Nat.toDigits 10 vout := by
    simp [sealOf]
  have hlists := congrArg String.toList h
  rw [hchars, hchars] at hlists
  obtain ⟨htxid, hvout⟩ := append_cons_inj (colon_not_mem_toDigits vout)
    (colon_not_mem_toDigits vout') hlists
  refine ⟨String.toList_injective htxid, ?_⟩
  rw [← Nat.ofDigitChars_ten_toDigits (n := vout), hvout, Nat.ofDigitChars_ten_toDigits]

/-! ## 1. What a transaction writes -/

/-- The record that the update stores can be read back. -/
def Update.RoundTrips (u : Update) : Prop := ∀ obj, u.object = some obj → obj.readable = true

namespace BlockProcessor

variable {X : Crates} {P : BlockProcessor} {s : StateStore} {tx : ElectrsTx} {blockHeight : Nat}

/-- The output `voutIdx` of the transaction carries the envelope. -/
def Carries (X : Crates) (tx : ElectrsTx) (voutIdx : Nat) (out : ElectrsTxOutput)
    (envelope : UtxoVmEnvelope) : Prop :=
  tx.vout[voutIdx]? = some out ∧ outputEnvelope X out = .ok (some envelope)

/-- The output and the envelope of an action. -/
def Action.Of (X : Crates) (tx : ElectrsTx) : Action → Prop
  | .create voutIdx out envelope => Carries X tx voutIdx out envelope
  | .call voutIdx out envelope _ => Carries X tx voutIdx out envelope

private theorem selectOutput_of {start : Nat} {outs : List ElectrsTxOutput}
    (houts : tx.vout.drop start = outs) {action : Action}
    (h : selectOutput X P s tx start outs = .ok (some action)) : action.Of X tx := by
  induction outs generalizing start with
  | nil => cases h
  | cons out rest ih =>
    have hout : tx.vout[start]? = some out := by
      rw [← List.head?_drop, houts, List.head?_cons]
    have hrest : tx.vout.drop (start + 1) = rest := by
      rw [← List.tail_drop, houts, List.tail_cons]
    unfold selectOutput at h
    split at h
    · cases h
    · exact ih hrest h
    · rename_i envelope henvelope
      split at h
      · split at h
        · cases h
          exact ⟨hout, henvelope⟩
        · cases h
      · split at h
        · split at h
          · cases h
            exact ⟨hout, henvelope⟩
          · exact ih hrest h
        · cases h

/-- The selected action comes from an envelope of the transaction. -/
theorem selectAction_of {action : Action} (h : selectAction X P s tx = .ok (some action)) :
    action.Of X tx :=
  selectOutput_of (List.drop_zero) h

/-- The object that an update stores is sealed by an output that carries an envelope. -/
theorem plannedUpdate_seal {u : Update} (hu : plannedUpdate X P s tx blockHeight = some u)
    {obj : SmartObjectRecord} (hobj : u.object = some obj) :
    ∃ voutIdx out envelope, Carries X tx voutIdx out envelope ∧
      obj.sealRef = sealOf tx.txid voutIdx := by
  unfold plannedUpdate at hu
  split at hu
  · rename_i voutIdx out envelope haction
    split at hu
    · cases hu
      cases hobj
      exact ⟨voutIdx, out, envelope, selectAction_of haction, rfl⟩
    · cases hu
  · rename_i voutIdx out envelope target haction
    cases hu
    unfold calledUpdate at hobj
    split at hobj
    · cases hobj
      exact ⟨voutIdx, out, envelope, selectAction_of haction, rfl⟩
    · cases hobj
  · cases hu

/-- What a transaction does to the transitions: nothing, or it saves one about the call that it has
made. -/
theorem runTx_transitions (X : Crates) (P : BlockProcessor) (blockHeight : Nat) (s : StateStore)
    (r : TxRun) :
    (runTx X P blockHeight s r).transitions = s.transitions ∨
      ∃ voutIdx out envelope obj result,
        selectAction X P s r.tx = .ok (some (.call voutIdx out envelope obj)) ∧
        callOutcome X P s obj (methodOf (metadataOf envelope)) (argsOf (metadataOf envelope))
          (sender r.tx) out.value = .ok (some result) ∧
        SameCore (putObject X (calledObject obj blockHeight (sealOf r.tx.txid voutIdx) out.value
          (argsOf (metadataOf envelope)) result.1)
          (putUndo (P.updateUndo r.tx blockHeight voutIdx obj) s)) (runTx X P blockHeight s r) ∧
        (runTx X P blockHeight s r).transitions = s.transitions.insert r.tx.txid
          (callTransition r.now r.tx blockHeight voutIdx out envelope obj result) := by
  unfold runTx
  rw [run_processTx]
  cases haction : selectAction X P s r.tx with
  | error e => exact .inl rfl
  | ok action? =>
    rcases action? with _ | ⟨voutIdx, out, envelope⟩ | ⟨voutIdx, out, envelope, obj⟩
    · exact .inl rfl
    · left
      show (run (processCreate ..) s).1.transitions = _
      have hblob : (afterBlob X r.writes envelope s).transitions = s.transitions := by
        unfold afterBlob
        split <;> rfl
      rw [run_processCreate]
      dsimp only
      cases createdObjectId r.tx.txid with
      | error e => exact hblob
      | ok objId =>
        cases r.writes.undo with
        | false => exact hblob
        | true => cases r.writes.object <;> exact hblob
    · show (run (processCall ..) s).1.transitions = _ ∨ _
      simp only [performAction]
      rw [run_processCall]
      cases r.writes.undo with
      | false => exact .inl rfl
      | true =>
        cases houtcome : callOutcome X P s obj (methodOf (metadataOf envelope))
            (argsOf (metadataOf envelope)) (sender r.tx) out.value with
        | error e => exact .inl (by simp only; rfl)
        | ok result? =>
          cases result? with
          | none => exact .inl (by simp only; rfl)
          | some result =>
            cases r.writes.object with
            | false => exact .inl (by simp only; rfl)
            | true =>
              cases r.writes.transition with
              | false => exact .inl (by simp only; rfl)
              | true =>
                right
                refine ⟨voutIdx, out, envelope, obj, result, rfl, houtcome, ?_, ?_⟩
                · simp only [if_true]
                  exact ⟨rfl, rfl, rfl, rfl⟩
                · simp only [if_true]
                  rfl

end BlockProcessor

/-! ## 2. Runs over transactions with different txids -/

open BlockProcessor

namespace StateStore

/-- Runs of `process_tx`, by any processors and at any heights, over transactions with the txids
`txids`, and of rollbacks when `rollbacks` says so.  A write may fail to commit; every record that
is stored can be read back, and the undo records that a rollback reads are as they were written. -/
inductive SealRun (X : Crates) (rollbacks : Bool) : List String → StateStore → Prop
  | empty : SealRun X rollbacks [] (empty X)
  | processTx {txids : List String} {s : StateStore} (P : BlockProcessor) (blockHeight : Nat)
      (r : TxRun) : SealRun X rollbacks txids s → r.tx.txid ∉ txids →
      (∀ u, plannedUpdate X P s r.tx blockHeight = some u → u.RoundTrips) →
      SealRun X rollbacks (r.tx.txid :: txids) (runTx X P blockHeight s r)
  | rollback {txids : List String} {s : StateStore} (c : Bool) (chain : String)
      (targetHeight : Nat) : rollbacks = true → SealRun X rollbacks txids s → s.UndoRoundTrips →
      SealRun X rollbacks txids (run (rollbackToBlock X c chain targetHeight) s).1

/-- The tables are consistent, and every seal that they claim is an output of a transaction of the
run. -/
structure Sealed (txids : List String) (s : StateStore) : Prop where
  consistent : s.Consistent Set.univ
  spent : ∀ σ id, s.Claims σ id → ∃ txid ∈ txids, ∃ vout, σ = sealOf txid vout

variable {X : Crates} {P : BlockProcessor} {rollbacks : Bool} {txids : List String}
  {s s' : StateStore} {blockHeight : Nat}

theorem Sealed.of_sameCore (h : s.Sealed txids) (hcore : SameCore s s') : s'.Sealed txids where
  consistent := h.consistent.of_sameCore hcore
  spent σ id hc := by
    unfold Claims at hc
    rw [hcore.objects, hcore.undoLogs] at hc
    exact h.spent σ id hc

/-- No object claims an output of a transaction that has not run yet. -/
theorem Sealed.unclaimed (h : s.Sealed txids) {txid : String} (hfresh : txid ∉ txids)
    (vout : Nat) (id : String) : ¬ s.Claims (sealOf txid vout) id := by
  intro hc
  obtain ⟨txid', hmem, vout', hseal⟩ := h.spent _ _ hc
  rw [(sealOf_inj hseal).1] at hfresh
  exact hfresh hmem

theorem Sealed.putUndo (h : s.Sealed txids) {tx : ElectrsTx} {u : Update}
    (hu : plannedUpdate X P s tx blockHeight = some u) : (putUndo u.undo s).Sealed txids := by
  have hfits := plannedUpdate_fits X P h.consistent.intact hu
  obtain ⟨obj?, hreplay⟩ := hfits.replayable
  exact ⟨h.consistent.putUndo trivial hreplay hfits.prevSeal, fun σ id hc ↦
    h.spent σ id (claims_putUndo hfits.prevSeal hc)⟩

theorem Sealed.putObject (h : s.Sealed txids) {obj : SmartObjectRecord}
    (hread : obj.readable = true) {txid : String} {vout : Nat}
    (hseal : obj.sealRef = sealOf txid vout) (hfresh : txid ∉ txids) :
    (putObject X obj s).Sealed (txid :: txids) where
  consistent := h.consistent.putObject X ⟨trivial, hread, fun id hc ↦
    absurd hc (hseal ▸ h.unclaimed hfresh vout id)⟩
  spent σ id hc := by
    rcases claims_insertObject (s := s) hc with hc | ⟨hσ, -⟩
    · obtain ⟨txid', hmem, hvout⟩ := h.spent σ id hc
      exact ⟨txid', List.mem_cons_of_mem _ hmem, hvout⟩
    · exact ⟨txid, List.mem_cons_self, vout, hσ.trans hseal⟩

theorem Sealed.weaken (h : s.Sealed txids) (txid : String) : s.Sealed (txid :: txids) where
  consistent := h.consistent
  spent σ id hc := by
    obtain ⟨txid', hmem, hvout⟩ := h.spent σ id hc
    exact ⟨txid', List.mem_cons_of_mem _ hmem, hvout⟩

/-- **One step.** -/
theorem Sealed.runTx (h : s.Sealed txids) (r : TxRun) (hfresh : r.tx.txid ∉ txids)
    (hread : ∀ u, plannedUpdate X P s r.tx blockHeight = some u → u.RoundTrips) :
    (runTx X P blockHeight s r).Sealed (r.tx.txid :: txids) := by
  have hprogress := runTx_progress X P blockHeight s r
  generalize hu? : plannedUpdate X P s r.tx blockHeight = u? at hprogress
  cases hprogress with
  | nothing hcore => exact (h.weaken _).of_sameCore hcore
  | undo hcore => exact ((h.putUndo hu?).weaken _).of_sameCore hcore
  | object hobj hcore =>
    obtain ⟨voutIdx, -, -, -, hseal⟩ := plannedUpdate_seal hu? hobj
    have hobject := (h.putUndo hu?).putObject (X := X) (hread _ hu? _ hobj) hseal hfresh
    exact hobject.of_sameCore hcore

theorem Sealed.rollback (h : s.Sealed txids) (hround : s.UndoRoundTrips) (X : Crates) (c : Bool)
    (chain : String) (targetHeight : Nat) :
    (run (rollbackToBlock X c chain targetHeight) s).1.Sealed txids := by
  cases c with
  | false =>
    rw [run_rollbackToBlock, undoLogsAbove_eq h.consistent.intact]
    exact h
  | true =>
    rw [run_rollback h.consistent.intact]
    exact ⟨rolledBack_consistent h.consistent hround X chain targetHeight, fun σ id hc ↦
      h.spent σ id (claims_undoAll h.consistent.intact hc)⟩

theorem SealRun.sealed (h : SealRun X rollbacks txids s) : s.Sealed txids := by
  induction h with
  | empty =>
    refine ⟨empty_consistent X _, fun σ id hc ↦ ?_⟩
    simp [Claims, StateStore.empty] at hc
  | processTx P blockHeight r _ hfresh hread ih => exact ih.runTx r hfresh hread
  | rollback c chain targetHeight _ _ hround ih => exact ih.rollback hround X c chain targetHeight

/-! ## 3. No seal is consumed twice -/

/-- The seals that the transitions consumed: each consumed by one of them, and in use no more. -/
structure Consumed (txids : List String) (s : StateStore) : Prop where
  once : ∀ (a b : String) (t t' : StateTransitionRecord), s.transitions[a]? = some t →
    s.transitions[b]? = some t' → t.prevSeal = t'.prevSeal → a = b
  gone : ∀ (a : String) (t : StateTransitionRecord), s.transitions[a]? = some t →
    (∀ (id : String) (obj : SmartObjectRecord), s.objects[id]? = some obj →
      obj.sealRef ≠ t.prevSeal) ∧ ∃ txid ∈ txids, ∃ vout, t.prevSeal = sealOf txid vout

theorem Consumed.of_objects (h : Consumed txids s) {txid : String} (hfresh : txid ∉ txids)
    (htransitions : s'.transitions = s.transitions)
    (hobjects : ∀ (id : String) (obj : SmartObjectRecord), s'.objects[id]? = some obj →
      s.objects[id]? = some obj ∨ ∃ vout, obj.sealRef = sealOf txid vout) :
    Consumed (txid :: txids) s' where
  once := by
    rw [htransitions]
    exact h.once
  gone a t ht := by
    rw [htransitions] at ht
    obtain ⟨hgone, txid', hmem, vout', hseal⟩ := h.gone a t ht
    refine ⟨fun id obj hobj ↦ ?_, txid', List.mem_cons_of_mem _ hmem, vout', hseal⟩
    rcases hobjects id obj hobj with hold | ⟨vout, hnew⟩
    · exact hgone id obj hold
    · rw [hnew, hseal]
      intro heq
      rw [(sealOf_inj heq).1] at hfresh
      exact hfresh hmem

/-- What the objects of the store are after a transaction. -/
theorem runTx_objects_cases (X : Crates) (P : BlockProcessor) (blockHeight : Nat) (s : StateStore)
    (r : TxRun) (id : String) (obj : SmartObjectRecord)
    (hobj : (BlockProcessor.runTx X P blockHeight s r).objects[id]? = some obj) :
    s.objects[id]? = some obj ∨ ∃ vout, obj.sealRef = sealOf r.tx.txid vout := by
  have hprogress := runTx_progress X P blockHeight s r
  generalize hu? : plannedUpdate X P s r.tx blockHeight = u? at hprogress
  cases hprogress with
  | nothing hcore => exact .inl (hcore.objects ▸ hobj)
  | undo hcore =>
    rw [hcore.objects] at hobj
    exact .inl hobj
  | object hstored hcore =>
    rename_i u stored
    rw [hcore.objects, putObject_objects] at hobj
    split at hobj
    · cases hobj
      obtain ⟨voutIdx, -, -, -, hseal⟩ := plannedUpdate_seal hu? hstored
      exact .inr ⟨voutIdx, hseal⟩
    · exact .inl hobj

theorem Consumed.runTx (h : Consumed txids s) (hs : s.Sealed txids) (r : TxRun)
    (hfresh : r.tx.txid ∉ txids) :
    Consumed (r.tx.txid :: txids) (BlockProcessor.runTx X P blockHeight s r) := by
  have hobjects := runTx_objects_cases X P blockHeight s r
  rcases runTx_transitions X P blockHeight s r with
    hsame | ⟨voutIdx, out, envelope, obj, result, haction, -, hcore, hsaved⟩
  · exact h.of_objects hfresh hsame hobjects
  obtain ⟨hstored, -⟩ := target_stored hs.consistent.intact (selectAction_call X P haction)
  have hget (a : String) : (BlockProcessor.runTx X P blockHeight s r).transitions[a]? =
      if a = r.tx.txid then
        some (callTransition r.now r.tx blockHeight voutIdx out envelope obj result)
      else s.transitions[a]? := by
    rw [hsaved]
    exact Table.get_insert ..
  -- the consumed seal is the one that the object had before
  have hold (a : String) (t : StateTransitionRecord) (ht : s.transitions[a]? = some t) :
      t.prevSeal ≠ obj.sealRef :=
    fun heq ↦ (h.gone a t ht).1 _ _ hstored heq.symm
  constructor
  · intro a b t t' ht ht' hseal
    rw [hget] at ht ht'
    split at ht
    · cases ht
      split at ht'
      · rename_i ha hb
        rw [ha, hb]
      · exact absurd hseal.symm (hold b t' ht')
    · split at ht'
      · cases ht'
        exact absurd hseal (hold a t ht)
      · exact h.once a b t t' ht ht' hseal
  · intro a t ht
    rw [hget] at ht
    split at ht
    · cases ht
      obtain ⟨txid, hmem, vout, hseal⟩ :=
        hs.spent obj.sealRef obj.objectId (.inl ⟨obj, hstored, rfl⟩)
      refine ⟨fun id obj' hobj' hsame ↦ ?_, txid, List.mem_cons_of_mem _ hmem, vout, hseal⟩
      change obj'.sealRef = obj.sealRef at hsame
      rw [hcore.objects, putObject_objects] at hobj'
      split at hobj'
      · cases hobj'
        exact hs.unclaimed hfresh voutIdx obj.objectId (.inl ⟨obj, hstored, hsame.symm⟩)
      · rename_i hne
        exact hne (hs.consistent.claims obj.sealRef id obj.objectId (.inl ⟨obj', hobj', hsame⟩)
          (.inl ⟨obj, hstored, rfl⟩))
    · let before := { BlockProcessor.runTx X P blockHeight s r with transitions := s.transitions }
      have hbefore : Consumed (r.tx.txid :: txids) before := h.of_objects hfresh rfl hobjects
      exact hbefore.gone a t ht

theorem SealRun.consumed (h : SealRun X false txids s) : Consumed txids s := by
  generalize hflag : false = rollbacks at h
  induction h with
  | empty => exact ⟨fun a b t t' ht ↦ by simp [StateStore.empty] at ht,
      fun a t ht ↦ by simp [StateStore.empty] at ht⟩
  | processTx P blockHeight r hrun hfresh _ ih => exact ih.runTx hrun.sealed r hfresh
  | rollback c chain targetHeight hallowed => exact absurd (hflag.trans hallowed) Bool.false_ne_true

/-! ## 4. The seals table -/

/-- The seals table is the inverse of the objects table. -/
def SealsInverse (s : StateStore) : Prop :=
  (∀ (id : String) (obj : SmartObjectRecord), s.objects[id]? = some obj →
      s.seals[obj.sealRef]? = some id) ∧
    ∀ (σ id : String), s.seals[σ]? = some id →
      ∃ obj : SmartObjectRecord, s.objects[id]? = some obj ∧ obj.sealRef = σ

/-- **The seal invariant** holds after every run, and no two transitions of a run without rollbacks
consume the same seal. -/
theorem seals_inverse_of_objects (h : SealRun X rollbacks txids s) :
    s.SealsInverse ∧ (rollbacks = false →
      ∀ (a b : String) (t t' : StateTransitionRecord), s.transitions[a]? = some t →
        s.transitions[b]? = some t' → t.prevSeal = t'.prevSeal → a = b) := by
  have hsealed := h.sealed.consistent.sealed
  refine ⟨⟨fun id obj hobj ↦ (hsealed _ _).mpr ⟨obj, hobj, rfl⟩, fun σ id ↦ (hsealed σ id).mp⟩, ?_⟩
  rintro rfl
  exact h.consumed.once

/-- A store that created an object, called it, and rolled both back. -/
theorem seals_inverse_of_objects_rolledBack :
    let s := (run (rollbackToBlock demoCrates true "JKC" 0)
      (BlockProcessor.runTx demoCrates demoProcessor 2
        (BlockProcessor.runTx demoCrates demoProcessor 1 (StateStore.empty demoCrates)
          demoCreateRun) demoCallRun)).1
    s.SealsInverse ∧ (true = false →
      ∀ (a b : String) (t t' : StateTransitionRecord), s.transitions[a]? = some t →
        s.transitions[b]? = some t' → t.prevSeal = t'.prevSeal → a = b) := by
  have hread {s : StateStore} {tx : ElectrsTx} {blockHeight : Nat}
      (h : (plannedUpdate demoCrates demoProcessor s tx blockHeight).all
        fun u ↦ u.object.all (·.readable)) :
      ∀ u, plannedUpdate demoCrates demoProcessor s tx blockHeight = some u → u.RoundTrips := by
    intro u hu obj hobj
    simpa [hu, hobj] using h
  have hround {s : StateStore} (h : s.undoLogs.toList.all fun e ↦ e.2.roundTrips) :
      s.UndoRoundTrips := by
    intro i log hlog
    exact List.all_eq_true.mp h (i, log) (Std.ExtTreeMap.mem_toList_iff_getElem?_eq_some.mpr hlog)
  let created := BlockProcessor.runTx demoCrates demoProcessor 1 (StateStore.empty demoCrates)
    demoCreateRun
  have hruns : (plannedUpdate demoCrates demoProcessor (StateStore.empty demoCrates)
          demoCreateRun.tx 1).all (fun u ↦ u.object.all (·.readable)) = true ∧
      (plannedUpdate demoCrates demoProcessor created demoCallRun.tx 2).all
        (fun u ↦ u.object.all (·.readable)) = true ∧
      ((BlockProcessor.runTx demoCrates demoProcessor 2 created demoCallRun).undoLogs.toList.all
        fun e ↦ e.2.roundTrips) = true := by
    decide +kernel
  obtain ⟨hcreate, hcall, hlogs⟩ := hruns
  exact seals_inverse_of_objects (.rollback true "JKC" 0 rfl
    (.processTx demoProcessor 2 demoCallRun (.processTx demoProcessor 1 demoCreateRun .empty
      (by decide) (hread hcreate)) (by decide) (hread hcall)) (hround hlogs))

/-! ## 5. Who may change an object -/

/-- The stores differ in the object `id` alone: in its record, its seals and its leaf. -/
structure DiffersAt (X : Crates) (id : String) (s s' : StateStore) : Prop where
  objects : ∀ id', id' ≠ id → s'.objects[id']? = s.objects[id']?
  seals : ∀ σ, (∀ obj : SmartObjectRecord, s.objects[id]? = some obj → obj.sealRef ≠ σ) →
    (∀ obj : SmartObjectRecord, s'.objects[id]? = some obj → obj.sealRef ≠ σ) →
      s'.seals[σ]? = s.seals[σ]?
  leaves : ∀ key, key ≠ hashKey X id → s'.smt.get key = s.smt.get key

/-- The transaction is a create, and its object id is `id`. -/
def CreatesAs (X : Crates) (P : BlockProcessor) (s : StateStore) (tx : ElectrsTx) (id : String) :
    Prop :=
  (∃ voutIdx out envelope, selectAction X P s tx = .ok (some (.create voutIdx out envelope))) ∧
    createdObjectId tx.txid = .ok id

/-- The transaction may change the object `id` of `s` into `new`: it spends the seal of the object
or creates it, and `new` is sealed by an output with an envelope. -/
structure MayChange (X : Crates) (P : BlockProcessor) (s : StateStore) (tx : ElectrsTx)
    (id : String) (new : SmartObjectRecord) : Prop where
  spends : ∀ obj : SmartObjectRecord, s.objects[id]? = some obj →
    (∃ vin ∈ tx.vin, obj.sealRef = sealOf vin.txid vin.vout) ∨ CreatesAs X P s tx id
  sealed : ∃ voutIdx out envelope, Carries X tx voutIdx out envelope ∧
    new.sealRef = sealOf tx.txid voutIdx

/-- Storing an object changes nothing else. -/
theorem Consistent.putObject_differsAt {ids : Set String} (h : s.Consistent ids) (X : Crates)
    (obj : SmartObjectRecord) : DiffersAt X obj.objectId s (StateStore.putObject X obj s) := by
  constructor
  · intro id hne
    rw [putObject_objects, if_neg hne]
  · intro σ hold hnew
    show (StateStore.insertObject obj s).seals[σ]? = _
    have hσ : σ ≠ obj.sealRef := fun heq ↦ hnew obj (by rw [putObject_objects, if_pos rfl]) heq.symm
    rw [insertObject_seals h.booked, if_neg hσ, if_neg]
    rintro ⟨r, hr, hrσ⟩
    exact hold r hr hrσ
  · intro key hkey
    show (smtInsert X s.smt obj).leaves key = s.smt.leaves key
    unfold smtInsert
    rw [SparseMerkleTree.update_leaves]
    exact if_neg hkey

theorem plannedUpdate_mayChange {ids : Set String} (h : s.Consistent ids) {tx : ElectrsTx}
    {u : Update} (hu : plannedUpdate X P s tx blockHeight = some u) {new : SmartObjectRecord}
    (hnew : u.object = some new) : MayChange X P s tx new.objectId new := by
  refine ⟨fun obj hobj ↦ ?_, plannedUpdate_seal hu hnew⟩
  unfold plannedUpdate at hu
  split at hu
  · rename_i voutIdx out envelope haction
    split at hu
    · rename_i objId hid
      cases hu
      cases hnew
      exact .inr ⟨⟨_, _, _, haction⟩, hid⟩
    · cases hu
  · rename_i voutIdx out envelope called haction
    cases hu
    unfold calledUpdate at hnew
    split at hnew
    · cases hnew
      left
      -- the object behind a spent seal carries that very seal
      obtain ⟨hstored, vin, hmem, hseal⟩ := target_stored h.intact (selectAction_call X P haction)
      obtain ⟨r, hr, hrσ⟩ := (h.sealed _ _).mp hseal
      change s.objects[called.objectId]? = some obj at hobj
      rw [hobj] at hr
      cases hr
      exact ⟨vin, hmem, hrσ⟩
    · cases hnew
  · cases hu

/-- **State changes only by spending the seal.**  In a reachable store a transaction leaves objects,
seals and tree as they are, or it changes one object that it may change, and nothing else. -/
theorem changes_by_spending (h : SealRun X rollbacks txids s) (P : BlockProcessor)
    (blockHeight : Nat) (r : TxRun) :
    let s' := BlockProcessor.runTx X P blockHeight s r
    (s'.objects = s.objects ∧ s'.seals = s.seals ∧ s'.smt = s.smt) ∨
      ∃ new : SmartObjectRecord, s'.objects[new.objectId]? = some new ∧
        DiffersAt X new.objectId s s' ∧ MayChange X P s r.tx new.objectId new := by
  have hs := h.sealed
  have hprogress := runTx_progress X P blockHeight s r
  generalize hu? : plannedUpdate X P s r.tx blockHeight = u? at hprogress
  cases hprogress with
  | nothing hcore => exact .inl ⟨hcore.objects, hcore.seals, hcore.smt⟩
  | undo hcore => exact .inl ⟨hcore.objects, hcore.seals, hcore.smt⟩
  | object hnew hcore =>
    rename_i u new
    right
    have hdiff := (hs.putUndo hu?).consistent.putObject_differsAt X new
    refine ⟨new, by rw [hcore.objects, putObject_objects, if_pos rfl], ⟨?_, ?_, ?_⟩,
      plannedUpdate_mayChange hs.consistent hu? hnew⟩
    · rw [hcore.objects]
      exact hdiff.objects
    · rw [hcore.objects, hcore.seals]
      exact hdiff.seals
    · rw [hcore.smt]
      exact hdiff.leaves

/-- A call of an object that was created before. -/
theorem changes_by_spending_call :
    let s := BlockProcessor.runTx demoCrates demoProcessor 1 (StateStore.empty demoCrates)
      demoCreateRun
    let s' := BlockProcessor.runTx demoCrates demoProcessor 2 s demoCallRun
    (s'.objects = s.objects ∧ s'.seals = s.seals ∧ s'.smt = s.smt) ∨
      ∃ new : SmartObjectRecord, s'.objects[new.objectId]? = some new ∧
        DiffersAt demoCrates new.objectId s s' ∧
        MayChange demoCrates demoProcessor s demoCallTx new.objectId new := by
  have hrun : SealRun demoCrates true [demoCreateTx.txid] (BlockProcessor.runTx demoCrates
      demoProcessor 1 (StateStore.empty demoCrates) demoCreateRun) :=
    .processTx demoProcessor 1 demoCreateRun .empty (by decide) ?_
  · exact changes_by_spending hrun demoProcessor 2 demoCallRun
  intro u hu obj hobj
  rw [demoCreateRun, demoCreateTx_planned] at hu
  cases hu
  cases hobj
  decide

end StateStore

end UtxoVm
