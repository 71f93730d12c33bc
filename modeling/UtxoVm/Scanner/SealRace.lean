import UtxoVm.Scanner.TxWorld

/-!
# Are seals consumed once when transactions run at the same time?

Each call is verified on its own, against what the others may do.  As long as every record that is
replaced is the one that the call has found, no seal is consumed twice and no update is lost; two
calls that look the same seal up before either commits break both.
-/

namespace UtxoVm

open RustStd StateStore Prog Interleaving BlockProcessor TxWorld

/-! ## 1. Each call on its own -/

/-- A commit that is up to date replaces the record that the call has found. -/
theorem UpToDate.found_eq {earlier : List String} {k : TxCall} {found : Option SmartObjectRecord}
    {w : TxWorld} {obj r : SmartObjectRecord} {vout : Nat}
    (h : UpToDate w (w.put k.tx.txid found obj)) (hk : Fresh earlier k w)
    (hseal : obj.sealRef = sealOf k.tx.txid vout)
    (hr : w.store.objects[obj.objectId]? = some r) : found = some r :=
  h obj.objectId ⟨k.tx.txid, found, r, obj⟩
    (put_history_cons (fun _ hr ↦ hk.ne_seal hseal hr) hr k.tx.txid found)

namespace TxCall

variable (X : Crates) (earlier : List String) (s₀ : StateStore)

def raceSetting : Setting TxWorld where
  inv := Traced X earlier s₀
  allowed := UpToDate

def raceContract (txid : String) : Contract TxWorld where
  rely := Evolves {txid}ᶜ
  guar := Evolves {txid}

variable {X earlier s₀} {k : TxCall} {found : Option SmartObjectRecord} {α β : Type}
  {P Q : TxWorld → Prop}

theorem tracked_bind (p : StoreProg α) (f : α → StoreProg β) :
    k.tracked found (p >>= f) = k.tracked found p >>= fun a ↦ k.tracked found (f a) :=
  zoom_bind ..

/-- An assertion about what the invariant observes, that the other calls keep. -/
structure Local (X : Crates) (earlier : List String) (s₀ : StateStore) (k : TxCall)
    (P : TxWorld → Prop) : Prop where
  stable : Stable (raceSetting X earlier s₀) (raceContract k.tx.txid) P
  congr : ∀ w w', view w' = view w → P w → P w'

/-- The tables that the invariant observes. -/
def objectTables (s : StateStore) :
    Table String SmartObjectRecord × Table String StateTransitionRecord :=
  (s.objects, s.transitions)

theorem holds_quiet {p : StoreProg α} (hp : Keeps objectTables p) (hP : Local X earlier s₀ k P) :
    Holds (raceSetting X earlier s₀) (raceContract k.tx.txid) P (k.tracked found p) fun _ ↦ P := by
  have hkeeps : Keeps view (k.tracked found p) := by
    refine hp.zoom fun s w hs ↦ ?_
    obtain ⟨hobjects, htransitions⟩ := Prod.mk.inj hs
    rw [view_step hobjects, htransitions]
    rfl
  refine .keeps hkeeps hP.stable fun w w' hview hw hPw ↦ ?_
  exact ⟨hw.congr hview, .of_view _ hview, hP.congr w w' hview hPw⟩

theorem local_true : Local X earlier s₀ k fun _ ↦ True :=
  ⟨fun _ _ _ _ _ _ ↦ trivial, fun _ _ _ _ ↦ trivial⟩

theorem Local.and (hP : Local X earlier s₀ k P) (hQ : Local X earlier s₀ k Q) :
    Local X earlier s₀ k fun w ↦ P w ∧ Q w :=
  ⟨fun w w' hw hw' hrely h ↦ ⟨hP.stable w w' hw hw' hrely h.1, hQ.stable w w' hw hw' hrely h.2⟩,
    fun w w' hview h ↦ ⟨hP.congr w w' hview h.1, hQ.congr w w' hview h.2⟩⟩

theorem local_fresh : Local X earlier s₀ k (Fresh earlier k) := by
  constructor
  · intro w w' _ _ hrely h
    refine ⟨hrely.started k h.started, h.late, fun id vout hmem ↦ ?_⟩
    rcases hrely.seals id _ hmem with hold | ⟨txid, hother, vout', heq⟩
    · exact h.unsealed id vout hold
    · exact hother (sealOf_inj heq).1.symm
  · intro w w' hview h
    obtain ⟨-, -, hstarted, -⟩ := by simpa only [view, Prod.mk.injEq] using hview
    refine ⟨hstarted ▸ h.started, h.late, fun id vout ↦ ?_⟩
    rw [seals_congr hview]
    exact h.unsealed id vout

/-- The object is stored. -/
def Stored (id : String) (w : TxWorld) : Prop := w.store.objects[id]?.isSome

theorem local_stored (id : String) : Local X earlier s₀ k (Stored id) := by
  constructor
  · intro w w' _ _ hrely h
    exact hrely.stored id h
  · intro w w' hview h
    obtain ⟨hobjects, -⟩ := by simpa only [view, Prod.mk.injEq] using hview
    unfold Stored
    rw [hobjects]
    exact h

/-- The call has replaced a record of the object, which the transition `t` reports. -/
def Committed (X : Crates) (k : TxCall) (t : StateTransitionRecord) (w : TxWorld) : Prop :=
  k ∈ w.started ∧ ∃ e ∈ w.history t.objectId, Performs X k e t

theorem local_committed (t : StateTransitionRecord) :
    Local X earlier s₀ k (Committed X k t) := by
  constructor
  · rintro w w' _ _ hrely ⟨hstarted, e, he, hperforms⟩
    exact ⟨hrely.started k hstarted, e, hrely.history _ e he, hperforms⟩
  · intro w w' hview h
    obtain ⟨-, -, hstarted, hhistory⟩ := by simpa only [view, Prod.mk.injEq] using hview
    unfold Committed
    rw [hstarted, hhistory]
    exact h

/-- The object commit; it may fail. -/
theorem holds_saveObject {c : Bool} {obj : SmartObjectRecord} (hP : Local X earlier s₀ k P)
    (hQ : Local X earlier s₀ k Q)
    (hput : ∀ w, w.Traced X earlier s₀ → P w → UpToDate w (w.put k.tx.txid found obj) →
      (w.put k.tx.txid found obj).Traced X earlier s₀ ∧
        Evolves {k.tx.txid} w (w.put k.tx.txid found obj) ∧ Q (w.put k.tx.txid found obj)) :
    Holds (raceSetting X earlier s₀) (raceContract k.tx.txid) P
      (k.tracked found (saveObject X c obj)) fun r w ↦ r = .ok () → Q w := by
  unfold saveObject
  rw [tracked_bind]
  refine Holds.bind (M := fun r w ↦ r = .ok () → Q w) ?_ (fun _ _ _ _ h ↦ nomatch h) fun _ ↦ ?_
  · intro w hw hPw hallowed
    cases c with
    | false =>
      have hview : view (w.step k.tx.txid found w.store) = view w := view_step rfl
      exact ⟨hw.congr hview, .of_view _ hview, P, hP.stable, hP.congr _ _ hview hPw,
        fun _ _ _ h ↦ nomatch h⟩
    | true =>
      obtain ⟨htraced, hevolves, hQw⟩ := hput w hw hPw hallowed
      exact ⟨htraced, hevolves, Q, hQ.stable, hQw, fun _ _ hQ' _ ↦ hQ'⟩
  · have htree : Keeps objectTables (.modify fun s ↦ { s with smt := smtInsert X s.smt obj } :
        StoreProg Unit) := .modify fun _ ↦ rfl
    exact ((holds_quiet htree hQ).post fun _ _ _ h _ ↦ h).pre fun _ _ h ↦ h rfl

theorem holds_processCreate (hconsumed : Consumed earlier s₀) (voutIdx : Nat)
    (out : ElectrsTxOutput) (envelope : UtxoVmEnvelope) :
    Holds (raceSetting X earlier s₀) (raceContract k.tx.txid) (Fresh earlier k)
      (k.tracked none
        (k.processor.processCreate X k.writes k.tx k.blockHeight voutIdx out envelope))
      fun _ _ ↦ True := by
  have hquiet {α : Type} {p : StoreProg α} (hp : Keeps objectTables p) :
      Holds (raceSetting X earlier s₀) (raceContract k.tx.txid) (Fresh earlier k)
        (k.tracked none p) fun _ ↦ Fresh earlier k := holds_quiet hp local_fresh
  unfold processCreate
  rw [tracked_bind]
  refine (hquiet (keeps_storeBlob X fun _ _ _ ↦ rfl)).bind (fun _ _ _ _ ↦ trivial) fun _ ↦ ?_
  rw [tracked_bind]
  refine (hquiet (.ofExcept _)).bind (fun _ _ _ _ ↦ trivial) fun objId ↦ ?_
  rw [tracked_bind]
  refine (hquiet (keeps_saveUndoLog fun _ ↦ rfl)).bind (fun _ _ _ _ ↦ trivial) fun _ ↦ ?_
  rw [tracked_bind]
  refine (holds_saveObject local_fresh local_true ?_).bind (fun _ _ _ _ ↦ trivial) fun _ ↦
    .pure _ fun _ _ _ ↦ trivial
  intro w hw hfresh hup
  -- a create has found nothing, so it replaces nothing
  obtain ⟨htraced, hevolves⟩ := hw.put hconsumed hfresh rfl fun r hr ↦
    nomatch hup.found_eq hfresh rfl hr
  exact ⟨htraced, hevolves, trivial⟩

/-- The transition of a call that has replaced a record is saved. -/
theorem holds_saveTransition {t : StateTransitionRecord} (ht : t.txid = k.tx.txid) (c : Bool) :
    Holds (raceSetting X earlier s₀) (raceContract k.tx.txid) (Committed X k t)
      (k.tracked found (saveTransition c t)) fun _ _ ↦ True := by
  intro w hw hcommitted _
  cases c with
  | false =>
    have hview : view (w.step k.tx.txid found w.store) = view w := view_step rfl
    exact ⟨hw.congr hview, .of_view _ hview, _, local_true.stable, trivial, fun _ _ _ ↦ trivial⟩
  | true =>
    obtain ⟨htraced, hevolves⟩ := hw.report found ht hcommitted.1 hcommitted.2
    exact ⟨htraced, hevolves, _, local_true.stable, trivial, fun _ _ _ ↦ trivial⟩

/-- The object commit of a call. -/
theorem put_called {w : TxWorld} (hw : w.Traced X earlier s₀) (hconsumed : Consumed earlier s₀)
    (hfresh : Fresh earlier k w) {obj new : SmartObjectRecord}
    (hup : UpToDate w (w.put k.tx.txid (some obj) new)) (hstored : Stored new.objectId w)
    {vout : Nat} (hseal : new.sealRef = sealOf k.tx.txid vout) {t : StateTransitionRecord}
    (hperforms : Performs X k ⟨k.tx.txid, some obj, obj, new⟩ t) :
    (w.put k.tx.txid (some obj) new).Traced X earlier s₀ ∧
      Evolves {k.tx.txid} w (w.put k.tx.txid (some obj) new) ∧
      Committed X k t (w.put k.tx.txid (some obj) new) := by
  have hfound (r : SmartObjectRecord) (hr : w.store.objects[new.objectId]? = some r) : obj = r :=
    Option.some.inj (hup.found_eq hfresh hseal hr)
  obtain ⟨htraced, hevolves⟩ := hw.put hconsumed hfresh hseal fun r hr ↦
    ⟨t, hfound r hr ▸ hperforms⟩
  refine ⟨htraced, hevolves, hevolves.started k hfresh.started, _, ?_, hperforms⟩
  obtain ⟨r, hr⟩ := Option.isSome_iff_exists.mp hstored
  have hid : t.objectId = new.objectId := by
    obtain ⟨_, _, _, _, _, -, -, hnew, ht, -⟩ := hperforms
    change new = _ at hnew
    rw [hnew, ht]
    rfl
  rw [hid, put_history_cons (fun r hr ↦ hfresh.ne_seal hseal hr) hr, hfound r hr]
  exact List.mem_cons_self

theorem holds_processCall (hconsumed : Consumed earlier s₀) {voutIdx : Nat} {out : ElectrsTxOutput}
    {envelope : UtxoVmEnvelope} (hcarries : Carries X k.tx voutIdx out envelope)
    (obj : SmartObjectRecord) :
    Holds (raceSetting X earlier s₀) (raceContract k.tx.txid)
      (fun w ↦ Fresh earlier k w ∧ Stored obj.objectId w)
      (k.tracked (some obj)
        (k.processor.processCall X k.writes k.now k.tx k.blockHeight voutIdx out envelope obj))
      fun _ _ ↦ True := by
  have hfound : Local X earlier s₀ k fun w ↦ Fresh earlier k w ∧ Stored obj.objectId w :=
    local_fresh.and (local_stored obj.objectId)
  unfold processCall
  dsimp only
  rw [tracked_bind]
  refine (holds_quiet (keeps_saveUndoLog fun _ ↦ rfl) hfound).bind (fun _ _ _ _ ↦ trivial)
    fun _ ↦ ?_
  rw [tracked_bind]
  refine ((holds_quiet (keeps_callResult ..) hfound).yields
    ((callResult_once ..).yields s₀).zoom).bind (fun _ _ _ _ ↦ trivial) fun result? ↦ ?_
  cases result? with
  | none => exact .pure _ fun _ _ _ ↦ trivial
  | some result =>
    refine .of_fact (fun _ _ h ↦ h.1) fun ⟨s, hs⟩ ↦ ?_
    rw [run_callResult] at hs
    dsimp only
    rw [tracked_bind]
    let t := callTransition k.now k.tx k.blockHeight voutIdx out envelope obj result
    refine (Holds.pre (holds_saveObject hfound (local_committed t) ?_) fun _ _ h ↦ h.2).bind
      (fun _ _ _ _ ↦ trivial) fun _ ↦ ?_
    · rintro w hw ⟨hfresh, hstored⟩ hup
      exact put_called hw hconsumed hfresh hup hstored rfl
        ⟨voutIdx, out, envelope, s, result, hcarries, hs, rfl, rfl, rfl⟩
    · rw [tracked_bind]
      refine (Holds.pre (holds_saveTransition (t := t) rfl _) fun _ _ h ↦ h rfl).bind
        (fun _ _ _ _ ↦ trivial) fun _ ↦ .pure _ fun _ _ _ ↦ trivial

/-- The lookup returns an object that is stored. -/
theorem holds_getObjectBySeal (sealRef : String) :
    Holds (raceSetting X earlier s₀) (raceContract k.tx.txid) (Fresh earlier k)
      (k.tracked none (getObjectBySeal sealRef)) fun r w ↦
        Fresh earlier k w ∧ ∀ obj, r = .ok (some obj) → Stored obj.objectId w := by
  have hquiet {α : Type} {p : StoreProg α} (hp : Keeps objectTables p) :
      Holds (raceSetting X earlier s₀) (raceContract k.tx.txid) (Fresh earlier k)
        (k.tracked none p) fun _ ↦ Fresh earlier k := holds_quiet hp local_fresh
  unfold getObjectBySeal
  rw [tracked_bind]
  refine (hquiet (.read _)).bind (fun _ _ _ h ↦ ⟨h, fun _ h ↦ nomatch h⟩) fun id? ↦ ?_
  cases id? with
  | none => exact fun w _ hfresh ↦ ⟨hfresh, fun _ h ↦ nomatch h⟩
  | some objId =>
    intro w hw hfresh _
    have hview : view (w.step k.tx.txid none w.store) = view w := view_step rfl
    refine ⟨hw.congr hview, .of_view _ hview, fun w' ↦ Fresh earlier k w' ∧
      ∀ obj, w.store.objects[objId]? = some obj → Stored obj.objectId w', ?_, ?_, ?_⟩
    · intro w₁ w₂ h₁ h₂ hrely ⟨hfresh₁, hstored⟩
      exact ⟨local_fresh.stable w₁ w₂ h₁ h₂ hrely hfresh₁, fun obj hobj ↦
        (local_stored _).stable w₁ w₂ h₁ h₂ hrely (hstored obj hobj)⟩
    · refine ⟨(local_fresh : Local X earlier s₀ k _).congr _ _ hview hfresh, fun obj hobj ↦ ?_⟩
      rw [hw.filed objId obj hobj]
      exact Option.isSome_iff_exists.mpr ⟨obj, hobj⟩
    · show Holds _ _ _ (k.tracked none (ofExcept (parseObject w.store.objects[objId]?))) _
      cases hparse : parseObject w.store.objects[objId]? with
      | error e => exact fun w' _ h ↦ ⟨h.1, fun _ h ↦ nomatch h⟩
      | ok obj? =>
        refine fun w' _ h ↦ ⟨h.1, fun obj hobj ↦ h.2 obj ?_⟩
        cases hobj
        exact (parseObject_ok hparse).1

theorem holds_findTarget (vins : List ElectrsTxInput) :
    Holds (raceSetting X earlier s₀) (raceContract k.tx.txid) (Fresh earlier k)
      (k.tracked none (findTarget vins)) fun r w ↦
        Fresh earlier k w ∧ ∀ obj, r = .ok (some obj) → Stored obj.objectId w := by
  induction vins with
  | nil => exact fun w _ h ↦ ⟨h, fun _ hnone ↦ by cases hnone⟩
  | cons vin rest ih =>
    unfold findTarget
    rw [tracked_bind]
    have hlookup : Holds (raceSetting X earlier s₀) (raceContract k.tx.txid) (Fresh earlier k)
        (k.tracked none (getObjectBySeal (sealOf vin.txid vin.vout)).attempt : TxProg _) fun r w ↦
          Fresh earlier k w ∧ ∀ obj, r = .ok (.ok (some obj)) → Stored obj.objectId w := by
      unfold tracked
      rw [zoom_attempt]
      refine (((holds_getObjectBySeal _).post ?_).attempt : Holds _ _ _ _ _)
      intro r w _ h
      exact ⟨h.1, fun obj hobj ↦ h.2 obj (Except.ok.inj hobj)⟩
    refine hlookup.bind (fun _ _ _ h ↦ ⟨h.1, fun _ herror ↦ by cases herror⟩) fun r ↦ ?_
    rcases r with e | _ | obj
    · exact ih.pre fun _ _ h ↦ h.1
    · exact ih.pre fun _ _ h ↦ h.1
    · refine fun w _ h ↦ ⟨h.1, fun obj' hobj ↦ ?_⟩
      cases hobj
      exact h.2 _ rfl

theorem holds_trackedOutputs (hconsumed : Consumed earlier s₀) (voutIdx : Nat)
    (outs : List ElectrsTxOutput) (houts : k.tx.vout.drop voutIdx = outs) :
    Holds (raceSetting X earlier s₀) (raceContract k.tx.txid) (Fresh earlier k)
      (k.trackedOutputs X voutIdx outs) fun _ _ ↦ True := by
  induction outs generalizing voutIdx with
  | nil => exact fun _ _ _ ↦ trivial
  | cons out rest ih =>
    have hout : k.tx.vout[voutIdx]? = some out := by
      rw [← List.head?_drop, houts, List.head?_cons]
    have hrest : k.tx.vout.drop (voutIdx + 1) = rest := by
      rw [← List.tail_drop, houts, List.tail_cons]
    unfold trackedOutputs
    split
    · exact fun _ _ _ ↦ trivial
    · exact ih _ hrest
    · rename_i envelope henvelope
      split
      · split
        · exact holds_processCreate hconsumed voutIdx out envelope
        · exact fun _ _ _ ↦ trivial
      · split
        · refine (holds_findTarget _).bind (fun _ _ _ _ ↦ trivial) fun obj? ↦ ?_
          cases obj? with
          | none => exact (ih _ hrest).pre fun _ _ h ↦ h.1
          | some obj =>
            exact (holds_processCall hconsumed ⟨hout, henvelope⟩ obj).pre fun _ _ h ↦
              ⟨h.1, h.2 obj rfl⟩
        · exact fun _ _ _ ↦ trivial

/-- The transaction is not among those that ran before or have started. -/
def Waiting (earlier : List String) (k : TxCall) (w : TxWorld) : Prop :=
  k.tx.txid ∉ earlier ∧ ∀ k' ∈ w.started, k'.tx.txid ≠ k.tx.txid

theorem stable_waiting :
    Stable (raceSetting X earlier s₀) (raceContract k.tx.txid) (Waiting earlier k) := by
  intro w w' _ _ hrely ⟨hlate, hstarted⟩
  refine ⟨hlate, fun k' hk' ↦ ?_⟩
  rcases hrely.starts k' hk' with hold | hother
  · exact hstarted k' hold
  · exact hother

theorem start_traced {w : TxWorld} (hw : w.Traced X earlier s₀) (hwaiting : Waiting earlier k w) :
    let w' : TxWorld := { w with started := k :: w.started }
    w'.Traced X earlier s₀ ∧ Evolves {k.tx.txid} w w' ∧ Fresh earlier k w' := by
  refine ⟨{ filed := hw.filed, nodup := hw.nodup, unique := hw.unique, chained := hw.chained
            settled := hw.settled, used := ?_, applied := ?_, saved := ?_ },
    ⟨fun _ _ ↦ .inl, ?_, fun _ ↦ List.mem_cons_of_mem _, fun _ _ ↦ id, fun _ ↦ id⟩,
    ⟨List.mem_cons_self, hwaiting.1, ?_⟩⟩
  · intro id σ hσ
    obtain ⟨txid, hused, hvout⟩ := hw.used id σ hσ
    exact ⟨txid, hused.imp_right fun ⟨k', hk', htxid⟩ ↦ ⟨k', List.mem_cons_of_mem _ hk', htxid⟩,
      hvout⟩
  · intro id e he
    obtain ⟨hid, k', hk', hperforms⟩ := hw.applied id e he
    exact ⟨hid, k', List.mem_cons_of_mem _ hk', hperforms⟩
  · intro a t ht
    refine (hw.saved a t ht).imp_right fun ⟨e, he, k', hk', hperforms⟩ ↦ ?_
    exact ⟨e, he, k', List.mem_cons_of_mem _ hk', hperforms⟩
  · intro k' hk'
    rcases List.mem_cons.mp hk' with rfl | hold
    · exact .inr rfl
    · exact .inl hold
  · intro id vout hmem
    obtain ⟨txid, hused, vout', heq⟩ := hw.used id _ hmem
    rcases hused with hearlier | ⟨k', hk', htxid⟩
    · exact hwaiting.1 ((sealOf_inj heq).1 ▸ hearlier)
    · exact hwaiting.2 k' hk' (htxid.trans (sealOf_inj heq).1.symm)

theorem holds_program (hconsumed : Consumed earlier s₀) :
    Holds (raceSetting X earlier s₀) (raceContract k.tx.txid) (Waiting earlier k) (k.program X)
      fun _ _ ↦ True := by
  refine Holds.bind (M := fun _ ↦ Fresh earlier k) ?_ (fun _ _ _ _ ↦ trivial) fun _ ↦
    holds_trackedOutputs hconsumed 0 k.tx.vout List.drop_zero
  exact .modify local_fresh.stable fun w hw hwaiting _ ↦ start_traced hw hwaiting

variable (X)

theorem race_verified (hconsumed : Consumed earlier s₀) :
    Verified (raceSetting X earlier s₀) raceContract (txCalls X earlier UpToDate) where
  start w T txid k _ hstart := by
    obtain ⟨rfl, hlate, hstarted⟩ := hstart
    exact ⟨_, _, stable_waiting, ⟨hlate, hstarted⟩, holds_program hconsumed⟩
  compatible txid other w w' hne hguar := by
    refine Evolves.mono hguar ?_
    rintro _ rfl heq
    exact hne heq.symm
  allowed w T txid k upd next hcan hi := hcan k upd next hi
  restart w w' _ hrestart := hrestart.elim

end TxCall

/-! ## 2. Every seal is consumed once -/

/-- No seal is consumed by two transitions of an object; the records of every object lead from one
to the next, each the result of a call on the one before; and every transition that is new since
`s₀` tells of such a call. -/
structure ConsumedOnce (X : Crates) (s₀ : StateStore) (w : TxWorld) : Prop where
  once : ∀ (a b : String) (t t' : StateTransitionRecord), w.store.transitions[a]? = some t →
    w.store.transitions[b]? = some t' → t.objectId = t'.objectId → t.prevSeal = t'.prevSeal → a = b
  chained : ∀ id : String, Chained w.store.objects[id]? (w.history id)
  applied : ∀ id, ∀ e ∈ w.history id, ∃ k ∈ w.started, ∃ t, Performs X k e t
  saved : ∀ (a : String) (t : StateTransitionRecord), w.store.transitions[a]? = some t →
    s₀.transitions[a]? = some t ∨
      ∃ e ∈ w.history t.objectId, ∃ k ∈ w.started, k.tx.txid = a ∧ Performs X k e t

variable {X : Crates} {earlier : List String} {s₀ : StateStore} {w : TxWorld}

theorem Performs.prevSeal {k : TxCall} {e : Replacement} {t : StateTransitionRecord}
    (h : Performs X k e t) : t.prevSeal = e.old.sealRef ∧ e.txid = k.tx.txid := by
  obtain ⟨_, _, _, _, _, -, -, -, rfl, htxid⟩ := h
  exact ⟨rfl, htxid⟩

theorem TxWorld.mem_seals_old {id : String} {e : Replacement} (he : e ∈ w.history id) :
    e.old.sealRef ∈ w.seals id :=
  List.mem_map.mpr ⟨e.old, List.mem_append_right _ (List.mem_map.mpr ⟨e, he, rfl⟩), rfl⟩

/-- A seal is given up once. -/
theorem TxWorld.Traced.replacement_unique (h : w.Traced X earlier s₀) {id id' : String}
    {e e' : Replacement} (he : e ∈ w.history id) (he' : e' ∈ w.history id')
    (heq : e.old.sealRef = e'.old.sealRef) : e = e' := by
  cases h.unique id id' e.old.sealRef (mem_seals_old he) (heq ▸ mem_seals_old he')
  have hnodup := h.nodup id
  unfold TxWorld.seals at hnodup
  rw [List.map_append, List.map_map] at hnodup
  exact List.inj_on_of_nodup_map hnodup.of_append_right he he' heq

theorem TxWorld.Traced.consumedOnce (h : w.Traced X earlier s₀) (hconsumed : Consumed earlier s₀) :
    ConsumedOnce X s₀ w where
  once a b t t' ht ht' _ hprev := by
    rcases h.saved a t ht with hold | ⟨e, he, k, -, rfl, hperforms⟩
    · rcases h.saved b t' ht' with hold' | ⟨e', he', k', -, rfl, hperforms'⟩
      · exact hconsumed.once a b t t' hold hold' hprev
      · have hmem := mem_seals_old he'
        rw [← hperforms'.prevSeal.1, ← hprev] at hmem
        exact absurd hmem (h.settled a t hold _)
    · rcases h.saved b t' ht' with hold' | ⟨e', he', k', -, rfl, hperforms'⟩
      · have hmem := mem_seals_old he
        rw [← hperforms.prevSeal.1, hprev] at hmem
        exact absurd hmem (h.settled b t' hold' _)
      · have heq : e = e' := h.replacement_unique he he'
          (by rw [← hperforms.prevSeal.1, ← hperforms'.prevSeal.1, hprev])
        rw [← hperforms.prevSeal.2, ← hperforms'.prevSeal.2, heq]
  chained := h.chained
  applied id e he := (h.applied id e he).2
  saved := h.saved

theorem TxWorld.traced_idle {rollbacks : Bool} (h : SealRun X rollbacks earlier s₀)
    (hconsumed : Consumed earlier s₀) : (idle s₀).Traced X earlier s₀ := by
  have hsealed := h.sealed
  have hseals {id σ : String} (hσ : σ ∈ (idle s₀).seals id) :
      ∃ obj : SmartObjectRecord, s₀.objects[id]? = some obj ∧ obj.sealRef = σ := by
    obtain ⟨obj, hobj, rfl⟩ := List.mem_map.mp hσ
    exact ⟨obj, Option.mem_toList.mp (by simpa [idle] using hobj), rfl⟩
  constructor
  · exact fun id obj hobj ↦ (hsealed.consistent.object id obj hobj).1
  · intro id σ hσ
    obtain ⟨obj, hobj, rfl⟩ := hseals hσ
    obtain ⟨txid, hmem, hvout⟩ := hsealed.spent _ id (.inl ⟨obj, hobj, rfl⟩)
    exact ⟨txid, .inl hmem, hvout⟩
  · intro id
    unfold TxWorld.seals idle
    cases s₀.objects[id]? <;> simp
  · intro id id' σ hσ hσ'
    exact hsealed.consistent.claims σ id id' (.inl (hseals hσ)) (.inl (hseals hσ'))
  · exact fun _ ↦ trivial
  · exact fun _ e he ↦ (List.not_mem_nil he).elim
  · exact fun _ _ ↦ .inl
  · intro a t ht id hmem
    obtain ⟨obj, hobj, hseal⟩ := hseals hmem
    exact (hconsumed.gone a t ht).1 id obj hobj hseal

/-- **Every seal is consumed once** in every interleaving of calls in which a record is replaced
only by a call that has found that record. -/
theorem seals_consumed_once (h₀ : SealRun X false earlier s₀)
    {T : Pool TxWorld Exit (Option String) String TxCall}
    (h : Reachable (txCalls X earlier UpToDate) (.idle s₀) w T) : ConsumedOnce X s₀ w := by
  have hconsumed := h₀.consumed
  exact ((TxCall.race_verified X hconsumed).reachable (traced_idle h₀ hconsumed) h).1.consumedOnce
    hconsumed

/-! ## 3. Calls that do not overlap -/

namespace TxCall

variable {k : TxCall} {found : Option SmartObjectRecord} {α : Type}

/-- The objects that are stored, and what was replaced. -/
def replacing (w : TxWorld) : Table String SmartObjectRecord × (String → List Replacement) :=
  (w.store.objects, w.history)

theorem upToDate_of_history {w w' : TxWorld} (h : w'.history = w.history) : UpToDate w w' := by
  intro id e he
  rw [h] at he
  exact absurd he List.ne_cons_self

theorem upToDate_put {w : TxWorld} {obj : SmartObjectRecord} {txid : String}
    (h : ∀ r, w.store.objects[obj.objectId]? = some r → found = some r) :
    UpToDate w (w.put txid found obj) := by
  intro id e he
  change noteReplacement txid found w.store.objects[id]? (insertObject obj w.store).objects[id]?
    (w.history id) = _ at he
  rw [insertObject_objects] at he
  split at he
  · rename_i hid
    cases hr : w.store.objects[id]? with
    | none =>
      rw [hr] at he
      exact absurd he List.ne_cons_self
    | some r =>
      rw [hr] at he
      change (if _ then _ else _) = _ at he
      split at he
      · exact absurd he List.ne_cons_self
      · cases List.head_eq_of_cons_eq he
        exact h r (hid ▸ hr)
  · rw [noteReplacement_self] at he
    exact absurd he List.ne_cons_self

theorem keeps_replacing {p : StoreProg α} (hp : Keeps (·.objects) p) :
    Keeps replacing (k.tracked found p) := by
  refine hp.zoom fun s w hs ↦ ?_
  have hview : view (w.step k.tx.txid found s) =
      (w.store.objects, s.transitions, w.started, w.history) :=
    view_step hs
  show ((w.step k.tx.txid found s).store.objects, (w.step k.tx.txid found s).history) = _
  obtain ⟨hobjects, -, -, hhistory⟩ := by simpa only [view, Prod.mk.injEq] using hview
  rw [hobjects, hhistory]
  rfl

/-- What does not store objects is up to date, and what follows meets the same objects. -/
theorem stepwise_quiet {β : Type} {p : StoreProg α} (hp : Keeps (·.objects) p) {w : TxWorld}
    {f : α → TxProg β} (hf : ∀ w' a, w'.store.objects = w.store.objects →
      (p.run w.store).2 = .ok a → Stepwise UpToDate (f a) w') :
    Stepwise UpToDate (k.tracked found p >>= f) w := by
  have hkeeps : Keeps replacing (k.tracked found p) := keeps_replacing hp
  refine (hkeeps.stepwise (fun w w' h ↦ upToDate_of_history (Prod.mk.inj h).2) w).bind
    fun w' a hrun ↦ ?_
  have hstore := (k.erases_tracked found p).run w
  have hobjects := hkeeps.run w
  rw [hrun] at hstore hobjects
  exact hf w' a (Prod.mk.inj hobjects).1 (by rw [hstore])

theorem stepwise_saveObject (X : Crates) (c : Bool) {w : TxWorld} {obj : SmartObjectRecord}
    (h : ∀ r, w.store.objects[obj.objectId]? = some r → found = some r) :
    Stepwise UpToDate (k.tracked found (saveObject X c obj)) w := by
  unfold saveObject
  rw [tracked_bind]
  have htree : Keeps (fun s ↦ s.objects)
      (.modify fun s ↦ { s with smt := smtInsert X s.smt obj } : StoreProg Unit) :=
    .modify fun _ ↦ rfl
  refine Stepwise.bind ?_ fun w' _ _ ↦
    (keeps_replacing htree).stepwise (fun _ _ h ↦ upToDate_of_history (Prod.mk.inj h).2) w'
  cases c with
  | false => exact ⟨upToDate_of_history (funext fun _ ↦ noteReplacement_self ..), trivial⟩
  | true => exact ⟨upToDate_put h, trivial⟩

variable (X : Crates)

theorem stepwise_processCall {w : TxWorld} {obj : SmartObjectRecord}
    (hobj : w.store.objects[obj.objectId]? = some obj) {voutIdx : Nat} {out : ElectrsTxOutput}
    {envelope : UtxoVmEnvelope} :
    let p := k.processor.processCall X k.writes k.now k.tx k.blockHeight voutIdx out envelope obj
    Stepwise UpToDate (k.tracked (some obj) p) w := by
  unfold processCall
  dsimp only
  rw [tracked_bind]
  refine stepwise_quiet (keeps_saveUndoLog fun _ ↦ rfl) fun w₁ _ h₁ _ ↦ ?_
  rw [tracked_bind]
  refine stepwise_quiet (keeps_callResult ..) fun w₂ result? h₂ _ ↦ ?_
  cases result? with
  | none => trivial
  | some result =>
    dsimp only
    rw [tracked_bind]
    refine (stepwise_saveObject X _ fun r hr ↦ ?_).bind fun w₃ _ _ ↦ ?_
    · rw [h₂, h₁] at hr
      exact hobj.symm.trans hr
    · rw [tracked_bind]
      exact stepwise_quiet (keeps_saveTransition fun _ ↦ rfl) fun _ _ _ _ ↦ trivial

theorem target_filed {s : StateStore} (hfiled : ∀ (id : String) (obj : SmartObjectRecord),
    s.objects[id]? = some obj → obj.objectId = id) {vins : List ElectrsTxInput}
    {obj : SmartObjectRecord} (h : (.ok (target s vins) : Except Exit _) = .ok (some obj)) :
    s.objects[obj.objectId]? = some obj := by
  obtain ⟨vin, -, hlookup⟩ := target_eq_some (Except.ok.inj h)
  unfold lookupSeal at hlookup
  split at hlookup
  · rename_i id hid
    have hstored := (parseObject_ok hlookup).1
    rw [hfiled id obj hstored]
    exact hstored
  · cases hlookup

theorem stepwise_trackedOutputs {w : TxWorld}
    (hfiled : ∀ (id : String) (obj : SmartObjectRecord), w.store.objects[id]? = some obj →
      obj.objectId = id)
    (hfree : ∀ id, createdObjectId k.tx.txid = .ok id → w.store.objects[id]? = none)
    (voutIdx : Nat) (outs : List ElectrsTxOutput) :
    Stepwise UpToDate (k.trackedOutputs X voutIdx outs) w := by
  induction outs generalizing voutIdx w with
  | nil => trivial
  | cons out rest ih =>
    unfold trackedOutputs
    split
    · trivial
    · exact ih hfiled hfree _
    · rename_i envelope _
      split
      · split
        · unfold processCreate
          rw [tracked_bind]
          refine stepwise_quiet (keeps_storeBlob X fun _ _ _ ↦ rfl) fun w₁ _ h₁ _ ↦ ?_
          rw [tracked_bind]
          refine stepwise_quiet (.ofExcept _) fun w₂ objId h₂ hid ↦ ?_
          rw [run_ofExcept] at hid
          rw [tracked_bind]
          refine stepwise_quiet (keeps_saveUndoLog fun _ ↦ rfl) fun w₃ _ h₃ _ ↦ ?_
          rw [tracked_bind]
          refine (stepwise_saveObject X _ fun r hr ↦ ?_).bind fun _ _ _ ↦ trivial
          change w₃.store.objects[objId]? = some r at hr
          rw [h₃, h₂, h₁, hfree objId hid] at hr
          cases hr
        · trivial
      · split
        · refine stepwise_quiet (keeps_findTarget _) fun w₁ obj? h₁ htarget ↦ ?_
          rw [run_findTarget] at htarget
          cases obj? with
          | none => exact ih (h₁ ▸ hfiled) (h₁ ▸ hfree) _
          | some obj => exact k.stepwise_processCall X (h₁ ▸ target_filed hfiled htarget)
        · trivial

/-- **A call that runs alone is up to date**, unless it creates an object that exists. -/
theorem alone_upToDate {w : TxWorld}
    (hfiled : ∀ (id : String) (obj : SmartObjectRecord), w.store.objects[id]? = some obj →
      obj.objectId = id)
    (hfree : ∀ id, createdObjectId k.tx.txid = .ok id → w.store.objects[id]? = none) :
    Stepwise UpToDate (k.program X) w :=
  Stepwise.bind ⟨upToDate_of_history rfl, trivial⟩ fun w' _ hrun ↦ by
    cases hrun
    exact stepwise_trackedOutputs (w := { w with started := k :: w.started }) X hfiled hfree 0
      k.tx.vout

end TxCall

/-! ## 4. Two runs -/

/-- The object of `demoCreateTx`. -/
def demoCreated : StateStore := runTx demoCrates demoProcessor 1 (empty demoCrates) demoCreateRun

theorem demoCreated_run : SealRun demoCrates false [demoCreateTx.txid] demoCreated := by
  refine .processTx demoProcessor 1 demoCreateRun .empty (by decide) fun u hu obj hobj ↦ ?_
  rw [demoCreateRun, demoCreateTx_planned] at hu
  cases hu
  cases hobj
  decide

def demoTxCall : TxCall :=
  { demoCallRun with processor := demoProcessor, blockHeight := 2 }

/-- A second transaction that spends the seal of the object. -/
def demoRivalCall : TxCall :=
  { writes := {}, now := 0, tx := demoTransferTx, processor := demoProcessor, blockHeight := 0 }

/-- Both calls look the seal up before either writes the object back. -/
theorem seal_consumed_twice :
    ¬ ∀ (X : Crates) (earlier : List String) (s₀ : StateStore) (w : TxWorld)
      (T : Pool TxWorld Exit (Option String) String TxCall), SealRun X false earlier s₀ →
      Reachable (txCalls X earlier fun _ _ ↦ True) (.idle s₀) w T → ConsumedOnce X s₀ w := by
  intro hclaim
  let w₀ := TxWorld.idle demoCreated
  let p := demoTxCall.program demoCrates
  let q := demoRivalCall.program demoCrates
  let s := ((p.after 3 w₀).crash 4 (q.crash 7 (p.crash 3 w₀))).store
  have hruns : (∀ k ∈ (p.crash 3 w₀).started, k.tx.txid ≠ demoTransferTx.txid) ∧
      ∀ a ∈ [demoCallTx.txid, demoTransferTx.txid],
        s.transitions[a]?.map (fun t ↦ (t.objectId, t.prevSeal)) =
          some (demoObjectId, sealOf demoCreateTx.txid 0) := by
    decide +kernel
  obtain ⟨hstarted, hprev⟩ := hruns
  have hinit : Reachable (txCalls demoCrates [demoCreateTx.txid] fun _ _ ↦ True) w₀ w₀
      fun _ ↦ none := .init
  -- the first call marks itself and looks the seal up, in three actions
  have hstart := hinit.step (.start (i := demoCallTx.txid) (k := demoTxCall) rfl
    ⟨rfl, by decide, fun _ h ↦ (List.not_mem_nil h).elim⟩)
  obtain ⟨T₁, hreach₁, hcall₁, hothers₁⟩ :=
    hstart.acts (Function.update_self ..) 3 fun _ _ _ _ _ _ _ _ ↦ trivial
  -- the second call runs to its end
  have hfree : T₁ demoTransferTx.txid = none := by
    rw [hothers₁ _ (by decide), Function.update_of_ne (by decide)]
  have hstart' := hreach₁.step (.start (k := demoRivalCall) hfree
    ⟨rfl, by decide, hstarted⟩)
  obtain ⟨T₂, hreach₂, -, hothers₂⟩ :=
    hstart'.acts (Function.update_self ..) 7 fun _ _ _ _ _ _ _ _ ↦ trivial
  -- the first goes on with what it has found
  have hcall₂ : T₂ demoCallTx.txid = some (demoTxCall, p.after 3 w₀) := by
    rw [hothers₂ _ (by decide), Function.update_of_ne (by decide)]
    exact hcall₁
  obtain ⟨T₃, hreach₃, -⟩ := hreach₂.acts hcall₂ 4 fun _ _ _ _ _ _ _ _ ↦ trivial
  have honce := (hclaim demoCrates _ _ _ T₃ demoCreated_run hreach₃).once
  obtain ⟨t, ht, hof⟩ := Option.map_eq_some_iff.mp (hprev demoCallTx.txid (by decide))
  obtain ⟨t', ht', hof'⟩ := Option.map_eq_some_iff.mp (hprev demoTransferTx.txid (by decide))
  obtain ⟨hobject, hseal⟩ := Prod.mk.inj (hof.trans hof'.symm)
  exact absurd (honce _ _ t t' ht ht' hobject hseal) (by decide)

/-- A thread whose program is up to date as it runs performs its next actions. -/
theorem TxCall.acts_upToDate {X : Crates} {earlier : List String} {w₀ w : TxWorld}
    {T : Pool TxWorld Exit (Option String) String TxCall} {txid : String} {k : TxCall}
    {p : TxProg (Option String)} (h : Reachable (txCalls X earlier UpToDate) w₀ w T)
    (hi : T txid = some (k, p)) (hp : Stepwise UpToDate p w) (n : Nat) :
    ∃ T', Reachable (txCalls X earlier UpToDate) w₀ (p.crash n w) T' ∧
      T' txid = some (k, p.after n w) ∧ ∀ j, j ≠ txid → T' j = T j := by
  refine h.acts hi n fun m _ T' hT' k' upd next hact ↦ ?_
  rw [hT'] at hact
  exact hp.after m (Prod.mk.inj (Option.some.inj hact)).2

/-- A transaction that spends the output of `demoCallTx`. -/
def demoChainedCall : TxCall :=
  { demoRivalCall with tx := { demoTransferTx with vin := [⟨demoCallTx.txid, 0⟩] } }

/-- A call that runs to the end of its `n` actions while another has only begun: both are up to
date, unless one creates an object that exists. -/
theorem reachable_nested {X : Crates} {earlier : List String} {s₀ : StateStore}
    (h₀ : SealRun X false earlier s₀) {k l : TxCall} (hne : k.tx.txid ≠ l.tx.txid)
    (hk : k.tx.txid ∉ earlier) (hk' : l.tx.txid ∉ earlier) (n m : Nat)
    (hfree : ∀ id, createdObjectId k.tx.txid = .ok id → s₀.objects[id]? = none)
    (hfree' : ∀ id, createdObjectId l.tx.txid = .ok id → s₀.objects[id]? = none ∧
      ((k.program X).crash n ((l.program X).crash 1 (.idle s₀))).store.objects[id]? = none) :
    ∃ T, Reachable (txCalls X earlier UpToDate) (.idle s₀)
      ((l.trackedOutputs X 0 l.tx.vout).crash m
        ((k.program X).crash n ((l.program X).crash 1 (.idle s₀)))) T := by
  have hfiled {w : TxWorld} {T : Pool TxWorld Exit (Option String) String TxCall}
      (h : Reachable (txCalls X earlier UpToDate) (.idle s₀) w T) :=
    ((TxCall.race_verified X h₀.consumed).reachable (traced_idle h₀ h₀.consumed) h).1.filed
  -- the outer call marks itself
  have hstart' := (Reachable.init (S := txCalls X earlier UpToDate)).step
    (.start (s := .idle s₀) (i := l.tx.txid) (k := l) rfl
      ⟨rfl, hk', fun _ h ↦ (List.not_mem_nil h).elim⟩)
  obtain ⟨T₁, hreach₁, hcall₁, hothers₁⟩ := TxCall.acts_upToDate hstart'
    (Function.update_self ..) (TxCall.alone_upToDate X (hfiled .init) fun id hid ↦
      (hfree' id hid).1) 1
  -- the inner call runs to its end
  have hnone : T₁ k.tx.txid = none := by
    rw [hothers₁ _ hne, Function.update_of_ne hne]
  have hstart := hreach₁.step (.start (k := k) hnone ⟨rfl, hk, fun k₁ hk₁ ↦ by
    cases List.mem_singleton.mp hk₁
    exact hne.symm⟩)
  obtain ⟨T₂, hreach₂, -, hothers₂⟩ := TxCall.acts_upToDate hstart (Function.update_self ..)
    (TxCall.alone_upToDate X (hfiled hreach₁) hfree) n
  -- the outer call goes on
  have hcall₂ : T₂ l.tx.txid = some (l, l.trackedOutputs X 0 l.tx.vout) := by
    rw [hothers₂ _ hne.symm, Function.update_of_ne hne.symm]
    exact hcall₁
  obtain ⟨T₃, hreach₃, -⟩ := TxCall.acts_upToDate hreach₂ hcall₂
    (TxCall.stepwise_trackedOutputs X (hfiled hreach₂) (fun id hid ↦ (hfree' id hid).2) 0 _) m
  exact ⟨T₃, hreach₃⟩

/-- The ids of the two calls are free, and in the end both have their transitions. -/
theorem demoCalls_evaluated :
    let w₀ := TxWorld.idle demoCreated
    let p := demoTxCall.program demoCrates
    let q := demoChainedCall.program demoCrates
    let nested := p.crash 7 (q.crash 1 w₀)
    let w := (demoChainedCall.trackedOutputs demoCrates 0 demoChainedCall.tx.vout).crash 6 nested
    demoCreated.objects["obj_0000000200000000"]?.isNone ∧
      demoCreated.objects["obj_0000000300000000"]?.isNone ∧
      nested.store.objects["obj_0000000300000000"]?.isNone ∧
      (∀ txid ∈ [demoCallTx.txid, demoChainedCall.tx.txid],
        w.store.transitions.contains txid = true) ∧
      (w.store.objects[demoObjectId]?.map (·.sealRef)) =
        some (sealOf demoChainedCall.tx.txid 0) := by
  decide +kernel

/-- The second call starts first, and looks its seal up after the other has replaced the record: the
one calls the object as it was created, the other what the first has made of it. -/
theorem seals_consumed_once_calls : ∃ w : TxWorld,
    ((∀ txid ∈ [demoCallTx.txid, demoChainedCall.tx.txid],
        w.store.transitions.contains txid = true) ∧
      (w.store.objects[demoObjectId]?.map (·.sealRef)) =
        some (sealOf demoChainedCall.tx.txid 0)) ∧
      ConsumedOnce demoCrates demoCreated w := by
  have hid : createdObjectId demoCallTx.txid = .ok "obj_0000000200000000" := by decide
  have hid' : createdObjectId demoChainedCall.tx.txid = .ok "obj_0000000300000000" := by decide
  obtain ⟨hfree, hfree', hstill, htransitions, hseal⟩ := demoCalls_evaluated
  obtain ⟨T, hreach⟩ := reachable_nested demoCreated_run (k := demoTxCall) (l := demoChainedCall)
    (by decide) (by decide) (by decide) 7 6
    (fun id h ↦ by
      cases hid.symm.trans h
      exact Option.isNone_iff_eq_none.mp hfree)
    (fun id h ↦ by
      cases hid'.symm.trans h
      exact ⟨Option.isNone_iff_eq_none.mp hfree', Option.isNone_iff_eq_none.mp hstill⟩)
  exact ⟨_, ⟨htransitions, hseal⟩, seals_consumed_once demoCreated_run hreach⟩

end UtxoVm
