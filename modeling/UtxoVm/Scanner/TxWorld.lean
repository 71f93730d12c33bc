import UtxoVm.Reasoning.RelyGuarantee
import UtxoVm.Scanner.SealRun

/-!
# Transactions that run at the same time

The mempool task and the sync loop run `process_tx` on one store without a lock: the seal is looked
up in one database transaction and the object written back in another.  Ghost state records, object
by object, which record each call replaces and which one it had found.
-/

namespace UtxoVm

open RustStd StateStore Prog Interleaving BlockProcessor

/-! ## 1. Calls and what they replace -/

/-- One call of `process_tx`. -/
structure TxCall extends TxRun where
  processor : BlockProcessor
  blockHeight : Nat

/-- The transaction `txid` stored `new` in the place of `old`; its seal lookup had found `found`. -/
structure Replacement where
  txid : String
  found : Option SmartObjectRecord
  old : SmartObjectRecord
  new : SmartObjectRecord

/-- Every change of an object gives it another seal. -/
def noteReplacement (txid : String) (found : Option SmartObjectRecord) :
    Option SmartObjectRecord → Option SmartObjectRecord → List Replacement → List Replacement
  | some old, some new, history =>
      if old.sealRef = new.sealRef then history else ⟨txid, found, old, new⟩ :: history
  | _, _, history => history

/-- The store, the calls that have started, and what was replaced: by object, the newest first. -/
structure TxWorld where
  store : StateStore
  started : List TxCall
  history : String → List Replacement

abbrev TxProg := Prog TxWorld Exit

/-- Nothing has started yet. -/
def TxWorld.idle (s : StateStore) : TxWorld := { store := s, started := [], history := fun _ ↦ [] }

/-- One action of the transaction `txid` changes the store into `s`. -/
def TxWorld.step (w : TxWorld) (txid : String) (found : Option SmartObjectRecord) (s : StateStore) :
    TxWorld :=
  { w with
    store := s
    history := fun id ↦
      noteReplacement txid found w.store.objects[id]? s.objects[id]? (w.history id) }

namespace TxCall

variable (X : Crates) (k : TxCall)

/-- Code of the call on the store, after its seal lookup has found `found`. -/
def tracked {α : Type} (found : Option SmartObjectRecord) (p : StoreProg α) : TxProg α :=
  p.zoom (·.store) fun s w ↦ w.step k.tx.txid found s

/-- `processOutputs`, with the ghost state. -/
def trackedOutputs : Nat → List ElectrsTxOutput → TxProg (Option String)
  | _, [] => pure none
  | voutIdx, out :: rest =>
      match outputEnvelope X out with
      | .error e => .fail e
      | .ok none => trackedOutputs (voutIdx + 1) rest
      | .ok (some envelope) =>
          if isCreate envelope then
            if k.processor.validateFee k.tx then
              k.tracked none
                (k.processor.processCreate X k.writes k.tx k.blockHeight voutIdx out envelope)
            else pure none
          else if k.processor.validateFee k.tx then do
            match ← k.tracked none (findTarget k.tx.vin) with
            | some obj =>
                k.tracked (some obj)
                  (k.processor.processCall X k.writes k.now k.tx k.blockHeight voutIdx out envelope
                    obj)
            | none => trackedOutputs (voutIdx + 1) rest
          else pure none

def run : TxProg (Option String) := trackedOutputs X k 0 k.tx.vout

theorem erases_tracked {α : Type} (found : Option SmartObjectRecord) (p : StoreProg α) :
    Erases (·.store) (k.tracked found p) p :=
  .zoom (fun _ _ ↦ rfl) p

/-- On the store the call performs the actions of `process_tx`. -/
theorem erases_run :
    Erases (·.store) (k.run X) (k.processor.processTx X k.writes k.now k.tx k.blockHeight) := by
  unfold run processTx
  generalize k.tx.vout = outs
  generalize 0 = voutIdx
  induction outs generalizing voutIdx with
  | nil => exact .pure _
  | cons out rest ih =>
    unfold trackedOutputs processOutputs
    cases outputEnvelope X out with
    | error e => exact .fail _
    | ok envelope? =>
      cases envelope? with
      | none => exact ih _
      | some envelope =>
        dsimp only
        by_cases hcreate : isCreate envelope = true
        · rw [if_pos hcreate, if_pos hcreate]
          split
          · exact k.erases_tracked _ _
          · exact .pure _
        · rw [if_neg hcreate, if_neg hcreate]
          split
          · refine (k.erases_tracked _ _).bind fun obj? ↦ ?_
            cases obj? with
            | none => exact ih _
            | some obj => exact k.erases_tracked _ _
          · exact .pure _

/-- The call enters itself among those that have started. -/
def program : TxProg (Option String) := do
  .modify fun w ↦ { w with started := k :: w.started }
  k.run X

end TxCall

/-- Calls for different transactions, none of them in `earlier`, one thread a transaction; `allowed`
restricts the actions that are performed. -/
def txCalls (X : Crates) (earlier : List String) (allowed : TxWorld → TxWorld → Prop) :
    System TxWorld Exit (Option String) String TxCall where
  prog k := k.program X
  canStart w _ txid k := k.tx.txid = txid ∧ txid ∉ earlier ∧ ∀ k' ∈ w.started, k'.tx.txid ≠ txid
  canAct w T txid := ∀ k upd next, T txid = some (k, .act upd next) → allowed w (upd w)
  restart _ _ := False

/-- A step replaces no record, or the one that the call has found. -/
def UpToDate (w w' : TxWorld) : Prop :=
  ∀ id e, w'.history id = e :: w.history id → e.found = some e.old

/-- The call ran on `e.old`, made it `e.new`, and `t` is its transition. -/
def Performs (X : Crates) (k : TxCall) (e : Replacement) (t : StateTransitionRecord) : Prop :=
  ∃ voutIdx out envelope s result, Carries X k.tx voutIdx out envelope ∧
    callOutcome X k.processor s e.old (methodOf (metadataOf envelope))
      (argsOf (metadataOf envelope)) (sender k.tx) out.value = .ok (some result) ∧
    e.new = calledObject e.old k.blockHeight (sealOf k.tx.txid voutIdx) out.value
      (argsOf (metadataOf envelope)) result.1 ∧
    t = callTransition k.now k.tx k.blockHeight voutIdx out envelope e.old result ∧
    e.txid = k.tx.txid

/-- The records of an object lead from one to the next, and on to the stored one. -/
def Chained : Option SmartObjectRecord → List Replacement → Prop
  | _, [] => True
  | stored, e :: earlier => stored = some e.new ∧ Chained (some e.old) earlier

/-! ## 2. The invariant -/

namespace TxWorld

variable (X : Crates) (earlier : List String) (s₀ : StateStore)

/-- The seals that the object has and had. -/
def seals (w : TxWorld) (id : String) : List String :=
  (w.store.objects[id]?.toList ++ (w.history id).map (·.old)).map (·.sealRef)

/-- The transaction is one of those before, or it has started. -/
def Used (w : TxWorld) (txid : String) : Prop :=
  txid ∈ earlier ∨ ∃ k ∈ w.started, k.tx.txid = txid

structure Traced (w : TxWorld) : Prop where
  filed : ∀ (id : String) (obj : SmartObjectRecord), w.store.objects[id]? = some obj →
    obj.objectId = id
  used : ∀ id, ∀ σ ∈ w.seals id, ∃ txid, w.Used earlier txid ∧ ∃ vout, σ = sealOf txid vout
  nodup : ∀ id, (w.seals id).Nodup
  unique : ∀ id id' σ, σ ∈ w.seals id → σ ∈ w.seals id' → id = id'
  chained : ∀ id, Chained w.store.objects[id]? (w.history id)
  applied : ∀ id, ∀ e ∈ w.history id,
    e.old.objectId = id ∧ ∃ k ∈ w.started, ∃ t, Performs X k e t
  saved : ∀ (a : String) (t : StateTransitionRecord), w.store.transitions[a]? = some t →
    s₀.transitions[a]? = some t ∨
      ∃ e ∈ w.history t.objectId, ∃ k ∈ w.started, k.tx.txid = a ∧ Performs X k e t
  settled : ∀ (a : String) (t : StateTransitionRecord), s₀.transitions[a]? = some t →
    ∀ id, t.prevSeal ∉ w.seals id

/-- What the invariant observes. -/
def view (w : TxWorld) : Table String SmartObjectRecord × Table String StateTransitionRecord ×
    List TxCall × (String → List Replacement) :=
  (w.store.objects, w.store.transitions, w.started, w.history)

variable {X earlier s₀} {w w' : TxWorld}

theorem seals_congr (hview : view w' = view w) (id : String) : w'.seals id = w.seals id := by
  obtain ⟨hobjects, -, -, hhistory⟩ := by simpa only [view, Prod.mk.injEq] using hview
  unfold seals
  rw [hobjects, hhistory]

theorem Traced.congr (h : w.Traced X earlier s₀) (hview : view w' = view w) :
    w'.Traced X earlier s₀ := by
  have hseals := seals_congr hview
  obtain ⟨hobjects, htransitions, hstarted, hhistory⟩ := by
    simpa only [view, Prod.mk.injEq] using hview
  constructor
  · rw [hobjects]
    exact h.filed
  · unfold Used
    simp only [hseals, hstarted]
    exact h.used
  · simpa only [hseals] using h.nodup
  · simpa only [hseals] using h.unique
  · rw [hobjects, hhistory]
    exact h.chained
  · rw [hhistory, hstarted]
    exact h.applied
  · rw [htransitions, hhistory, hstarted]
    exact h.saved
  · simpa only [hseals] using h.settled

/-- What the transactions in `A` may do. -/
structure Evolves (A : Set String) (w w' : TxWorld) : Prop where
  seals : ∀ id, ∀ σ ∈ w'.seals id, σ ∈ w.seals id ∨ ∃ txid ∈ A, ∃ vout, σ = sealOf txid vout
  starts : ∀ k ∈ w'.started, k ∈ w.started ∨ k.tx.txid ∈ A
  started : ∀ k ∈ w.started, k ∈ w'.started
  history : ∀ id, ∀ e ∈ w.history id, e ∈ w'.history id
  stored : ∀ id : String, w.store.objects[id]?.isSome → w'.store.objects[id]?.isSome

theorem Evolves.of_view (A : Set String) (hview : view w' = view w) : Evolves A w w' := by
  have hseals := seals_congr hview
  obtain ⟨hobjects, -, hstarted, hhistory⟩ := by simpa only [view, Prod.mk.injEq] using hview
  constructor
  · intro id σ hσ
    exact .inl (hseals id ▸ hσ)
  · intro k hk
    exact .inl (hstarted ▸ hk)
  · rw [hstarted]
    exact fun _ ↦ id
  · rw [hhistory]
    exact fun _ _ ↦ id
  · rw [hobjects]
    exact fun _ ↦ id

theorem Evolves.mono {A A' : Set String} (h : Evolves A w w') (hA : A ⊆ A') : Evolves A' w w' where
  seals id σ hσ := (h.seals id σ hσ).imp_right fun ⟨txid, htxid, hvout⟩ ↦ ⟨txid, hA htxid, hvout⟩
  starts k hk := (h.starts k hk).imp_right fun htxid ↦ hA htxid
  started := h.started
  history := h.history
  stored := h.stored

/-! ## 3. The steps of a call -/

/-- The object commit. -/
def put (w : TxWorld) (txid : String) (found : Option SmartObjectRecord) (obj : SmartObjectRecord) :
    TxWorld :=
  w.step txid found (insertObject obj w.store)

/-- No object has or had a seal of the transaction, which has started after `earlier`. -/
structure Fresh (earlier : List String) (k : TxCall) (w : TxWorld) : Prop where
  started : k ∈ w.started
  late : k.tx.txid ∉ earlier
  unsealed : ∀ id vout, sealOf k.tx.txid vout ∉ w.seals id

variable {k : TxCall} {obj : SmartObjectRecord} {vout : Nat} {found : Option SmartObjectRecord}

theorem Fresh.ne_seal (h : Fresh earlier k w) (hseal : obj.sealRef = sealOf k.tx.txid vout)
    {id : String} {r : SmartObjectRecord} (hr : w.store.objects[id]? = some r) :
    r.sealRef ≠ obj.sealRef := by
  intro heq
  apply h.unsealed id vout
  rw [← hseal, ← heq]
  unfold seals
  rw [hr]
  exact List.mem_cons_self

theorem put_objects (w : TxWorld) (txid : String) (found : Option SmartObjectRecord)
    (obj : SmartObjectRecord) (id : String) :
    (w.put txid found obj).store.objects[id]? =
      if id = obj.objectId then some obj else w.store.objects[id]? :=
  insertObject_objects obj w.store id

theorem noteReplacement_self (txid : String) (found stored : Option SmartObjectRecord)
    (history : List Replacement) : noteReplacement txid found stored stored history = history := by
  cases stored with
  | none => rfl
  | some r => exact if_pos rfl

theorem view_step {s : StateStore} {txid : String} (hobjects : s.objects = w.store.objects) :
    view (w.step txid found s) = (w.store.objects, s.transitions, w.started, w.history) := by
  show (s.objects, s.transitions, w.started, _) = _
  rw [hobjects]
  congr 3
  funext id
  show noteReplacement txid found w.store.objects[id]? s.objects[id]? (w.history id) = w.history id
  rw [hobjects]
  exact noteReplacement_self ..

theorem put_history (hne : ∀ r, w.store.objects[obj.objectId]? = some r → r.sealRef ≠ obj.sealRef)
    (txid : String) (found : Option SmartObjectRecord) (id : String) :
    (w.put txid found obj).history id =
      if id = obj.objectId then
        w.store.objects[id]?.toList.map (⟨txid, found, ·, obj⟩) ++ w.history id
      else w.history id := by
  show noteReplacement txid found w.store.objects[id]? (insertObject obj w.store).objects[id]?
    (w.history id) = _
  rw [insertObject_objects]
  split
  · rename_i hid
    cases hr : w.store.objects[id]? with
    | none => rfl
    | some r => exact if_neg (hne r (hid ▸ hr))
  · exact noteReplacement_self ..

theorem put_history_cons
    (hne : ∀ r, w.store.objects[obj.objectId]? = some r → r.sealRef ≠ obj.sealRef)
    {r : SmartObjectRecord} (hr : w.store.objects[obj.objectId]? = some r) (txid : String)
    (found : Option SmartObjectRecord) :
    (w.put txid found obj).history obj.objectId =
      ⟨txid, found, r, obj⟩ :: w.history obj.objectId := by
  rw [put_history hne, if_pos rfl, hr]
  rfl

theorem put_seals (hne : ∀ r, w.store.objects[obj.objectId]? = some r → r.sealRef ≠ obj.sealRef)
    (txid : String) (found : Option SmartObjectRecord) (id : String) :
    (w.put txid found obj).seals id =
      if id = obj.objectId then obj.sealRef :: w.seals id else w.seals id := by
  unfold seals
  rw [put_history hne, put_objects]
  split
  · cases w.store.objects[id]? <;> rfl
  · rfl

theorem put_mem_seals (hne : ∀ r, w.store.objects[obj.objectId]? = some r →
    r.sealRef ≠ obj.sealRef) {txid : String} {found : Option SmartObjectRecord} {id σ : String}
    (h : σ ∈ (w.put txid found obj).seals id) :
    σ ∈ w.seals id ∨ id = obj.objectId ∧ σ = obj.sealRef := by
  rw [put_seals hne] at h
  split at h
  · rename_i hid
    exact (List.mem_cons.mp h).symm.imp_right fun hσ ↦ ⟨hid, hσ⟩
  · exact .inl h

/-- The object commit of a call that replaces the record it has found, or none. -/
theorem Traced.put (h : w.Traced X earlier s₀) (hsettled : Consumed earlier s₀)
    (hk : Fresh earlier k w) (hseal : obj.sealRef = sealOf k.tx.txid vout)
    (hresult : ∀ r, w.store.objects[obj.objectId]? = some r →
      ∃ t, Performs X k ⟨k.tx.txid, found, r, obj⟩ t) :
    (w.put k.tx.txid found obj).Traced X earlier s₀ ∧
      Evolves {k.tx.txid} w (w.put k.tx.txid found obj) := by
  have hne (r : SmartObjectRecord) (hr : w.store.objects[obj.objectId]? = some r) :
      r.sealRef ≠ obj.sealRef := hk.ne_seal hseal hr
  have hunsealed (id : String) : obj.sealRef ∉ w.seals id := hseal ▸ hk.unsealed id vout
  have hgrows (id : String) (e : Replacement) (he : e ∈ w.history id) :
      e ∈ (w.put k.tx.txid found obj).history id := by
    rw [put_history hne]
    split
    · exact List.mem_append_right _ he
    · exact he
  refine ⟨⟨?_, ?_, ?_, ?_, ?_, ?_, ?_, ?_⟩, ⟨?_, fun _ ↦ .inl, fun _ ↦ id, hgrows, ?_⟩⟩
  · intro id r hr
    rw [put_objects] at hr
    split at hr
    · rename_i hid
      cases hr
      exact hid.symm
    · exact h.filed id r hr
  · intro id σ hσ
    rcases put_mem_seals hne hσ with hold | ⟨-, rfl⟩
    · exact h.used id σ hold
    · exact ⟨k.tx.txid, .inr ⟨k, hk.started, rfl⟩, vout, hseal⟩
  · intro id
    rw [put_seals hne]
    split
    · exact List.nodup_cons.mpr ⟨hunsealed id, h.nodup id⟩
    · exact h.nodup id
  · intro id id' σ hσ hσ'
    rcases put_mem_seals hne hσ with hold | ⟨hid, rfl⟩
    · rcases put_mem_seals hne hσ' with hold' | ⟨-, rfl⟩
      · exact h.unique id id' σ hold hold'
      · exact absurd hold (hunsealed id)
    · rcases put_mem_seals hne hσ' with hold' | ⟨hid', -⟩
      · exact absurd hold' (hunsealed id')
      · rw [hid, hid']
  · intro id
    have hchained := h.chained id
    rw [put_history hne, put_objects]
    split
    · cases hr : w.store.objects[id]? with
      | some r =>
        rw [hr] at hchained
        exact ⟨rfl, hchained⟩
      | none =>
        -- an object that is not stored has no history
        rw [hr] at hchained
        cases hold : w.history id with
        | nil => trivial
        | cons e rest =>
          rw [hold] at hchained
          cases hchained.1
    · exact hchained
  · intro id e he
    rw [put_history hne] at he
    split at he
    · rename_i hid
      rcases List.mem_append.mp he with hnew | hold
      · obtain ⟨r, hr, rfl⟩ := List.mem_map.mp hnew
        have hr := Option.mem_toList.mp hr
        exact ⟨h.filed id r hr, k, hk.started, hresult r (hid ▸ hr)⟩
      · exact h.applied id e hold
    · exact h.applied id e he
  · intro a t ht
    exact (h.saved a t ht).imp_right fun ⟨e, he, hperforms⟩ ↦ ⟨e, hgrows _ e he, hperforms⟩
  · intro a t ht id hmem
    rcases put_mem_seals hne hmem with hold | ⟨-, heq⟩
    · exact h.settled a t ht id hold
    · -- a seal consumed before belongs to a transaction from before
      obtain ⟨-, txid, hearlier, vout', hprev⟩ := hsettled.gone a t ht
      rw [hprev, hseal] at heq
      exact hk.late ((sealOf_inj heq).1 ▸ hearlier)
  · intro id σ hσ
    rcases put_mem_seals hne hσ with hold | ⟨-, rfl⟩
    · exact .inl hold
    · exact .inr ⟨k.tx.txid, rfl, vout, hseal⟩
  · intro id hstored
    rw [put_objects]
    split
    · rfl
    · exact hstored

variable (found) in
/-- The transition commit of a call that has replaced a record. -/
theorem Traced.report (h : w.Traced X earlier s₀) {t : StateTransitionRecord}
    (ht : t.txid = k.tx.txid) (hk : k ∈ w.started)
    (hperforms : ∃ e ∈ w.history t.objectId, Performs X k e t) :
    let w' := w.step k.tx.txid found (putTransition t w.store)
    w'.Traced X earlier s₀ ∧ Evolves {k.tx.txid} w w' := by
  let w₁ : TxWorld := { w with store := putTransition t w.store }
  have hview : view (w.step k.tx.txid found (putTransition t w.store)) = view w₁ := view_step rfl
  have htraced : w₁.Traced X earlier s₀ :=
    { filed := h.filed, used := h.used, nodup := h.nodup, unique := h.unique
      chained := h.chained, applied := h.applied, settled := h.settled
      saved := by
        intro a t' ht'
        change (w.store.transitions.insert t.txid t)[a]? = some t' at ht'
        rw [Table.get_insert] at ht'
        split at ht'
        · rename_i ha
          cases ht'
          obtain ⟨e, he, hperforms⟩ := hperforms
          exact .inr ⟨e, he, k, hk, by rw [ha, ht], hperforms⟩
        · exact h.saved a t' ht' }
  refine ⟨htraced.congr hview, ?_⟩
  have hevolves : Evolves {k.tx.txid} w₁ (w.step k.tx.txid found (putTransition t w.store)) :=
    .of_view _ hview
  exact ⟨hevolves.seals, hevolves.starts, hevolves.started, hevolves.history, hevolves.stored⟩

end TxWorld

end UtxoVm
