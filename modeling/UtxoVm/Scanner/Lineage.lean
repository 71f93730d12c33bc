import UtxoVm.Scanner.Readback
import UtxoVm.Sdk.LightLineage

/-!
# The lineage of an object

Each call consumes the seal that the object has and gives it a new one, so the transitions of an
object form a chain.  `get_transitions_for_object` finds them by txid and sorts them by height:
within one block the chain comes out in the order of the txids.
-/

namespace UtxoVm

open RustStd StateStore Prog BlockProcessor

/-! ## 1. Chains of transitions -/

/-- The first transition consumes `first`, each next one the seal that the one before has made, and
the last one makes `tip`. -/
def InChainOrder (first : String) : List StateTransitionRecord → String → Prop
  | [], tip => first = tip
  | t :: rest, tip => t.prevSeal = first ∧ InChainOrder t.newSeal rest tip

theorem InChainOrder.append {first tip : String} {list : List StateTransitionRecord}
    (h : InChainOrder first list tip) {t : StateTransitionRecord} (ht : t.prevSeal = tip) :
    InChainOrder first (list ++ [t]) t.newSeal := by
  induction list generalizing first with
  | nil => exact ⟨ht.trans h.symm, rfl⟩
  | cons t' rest ih => exact ⟨h.1, ih h.2⟩

/-- By height, and by txid within a block: the order in which the store lists transitions. -/
def Before (a b : StateTransitionRecord) : Prop :=
  a.blockHeight < b.blockHeight ∨ a.blockHeight = b.blockHeight ∧ compare a.txid b.txid = .lt

theorem Before.asymm {a b : StateTransitionRecord} (hab : Before a b) : ¬ Before b a := by
  rintro (hba | ⟨hheight, hba⟩)
  · rcases hab with hab | ⟨hheight, -⟩ <;> omega
  · rcases hab with hab | ⟨-, hab⟩
    · omega
    · exact Std.OrientedCmp.not_lt_of_lt hab hba

/-- What an indexer serves about the inputs of a transaction. -/
def fetchedInputs (tx : ElectrsTx) : List FetchedInput :=
  tx.vin.map fun vin ↦
    { txid := some vin.txid, vout := some (vin.vout : Int)
      prevoutTxid := none, prevoutVout := none }

/-- The steps of a history for the light client. -/
def lineageSteps (list : List StateTransitionRecord) : List LineageTransition :=
  list.map fun t ↦ { txid := t.txid, consumedSeal := t.prevSeal, newSeal := t.newSeal }

theorem InChainOrder.continuous {first tip : String} {list : List StateTransitionRecord}
    (h : InChainOrder first list tip) :
    Continuous first (lineageSteps list) tip := by
  induction list generalizing first with
  | nil => exact h
  | cons t rest ih => exact ⟨h.1, ih h.2⟩

theorem colon_not_mem_of_hex {txid : String} {len : Nat} (h : validateHexHash txid len = true) :
    ':' ∉ txid.toList := by
  unfold validateHexHash at h
  rw [Bool.and_eq_true, List.all_eq_true] at h
  intro hmem
  exact absurd (h.2 ':' hmem) (by decide)

namespace StateStore

variable {X : Crates} {P : BlockProcessor} {s s' : StateStore} {blockHeight : Nat}

/-- The transitions are filed under their txids. -/
def Filed (s : StateStore) : Prop :=
  ∀ (txid : String) (t : StateTransitionRecord), s.transitions[txid]? = some t → t.txid = txid

theorem run_getTransitionsForObject (id : String) (s : StateStore) :
    (run (getTransitionsForObject id) s).2 = transitionsOf s id := by
  unfold getTransitionsForObject
  rw [run_bind, run_read, andThen_ok, run_ofExcept]

/-- The list served for an object is the one that is sorted by height and txid. -/
theorem transitionsOf_eq (hfiled : s.Filed) (hread : s.Readable) {id : String}
    {list : List StateTransitionRecord} (hsorted : list.Pairwise Before)
    (hmem : ∀ t, t ∈ list ↔ s.transitions[t.txid]? = some t ∧ t.objectId = id) :
    transitionsOf s id = .ok list := by
  have hall : (s.transitions.toList.map (·.2)).all (·.readable) = true := by
    rw [List.all_eq_true]
    intro t ht
    obtain ⟨⟨txid, t'⟩, hentry, rfl⟩ := List.mem_map.mp ht
    exact hread.transitions txid t' (Std.ExtTreeMap.mem_toList_iff_getElem?_eq_some.mp hentry)
  unfold transitionsOf
  dsimp only
  rw [if_pos hall]
  congr 1
  -- the entries come in key order, and the sort by height keeps that order within a block
  have hkeys : (s.transitions.toList.map (·.2)).Pairwise fun a b ↦ compare a.txid b.txid = .lt := by
    rw [List.pairwise_map]
    refine (Std.ExtTreeMap.ordered_keys_toList (t := s.transitions)).imp_of_mem fun ha hb hab ↦ ?_
    rw [hfiled _ _ (Std.ExtTreeMap.mem_toList_iff_getElem?_eq_some.mp ha),
      hfiled _ _ (Std.ExtTreeMap.mem_toList_iff_getElem?_eq_some.mp hb)]
    exact hab
  have hirrefl (a : StateTransitionRecord) : ¬ compare a.txid a.txid = .lt := by simp
  have htotal (a b : StateTransitionRecord) :
      (decide (a.blockHeight ≤ b.blockHeight) ||
        decide (b.blockHeight ≤ a.blockHeight)) = true := by
    simpa using le_total a.blockHeight b.blockHeight
  have hstable := pairwise_mergeSort_stable
    (fun a b : StateTransitionRecord ↦ decide (a.blockHeight ≤ b.blockHeight))
    (by simpa using fun a b c hab hbc ↦ le_trans hab hbc) htotal hirrefl
    (hkeys.filter (·.objectId == id))
  have hserved := hstable.imp (S := Before) fun {a b} hab ↦ by
    simp only [decide_eq_true_eq] at hab
    rcases Nat.lt_or_eq_of_le hab.1 with hlt | heq
    · exact .inl hlt
    · exact .inr ⟨heq, hab.2 heq.ge⟩
  have hnodup {l : List StateTransitionRecord} (hl : l.Pairwise Before) : l.Nodup :=
    hl.imp fun hab heq ↦ (heq ▸ hab).asymm (heq ▸ hab)
  refine List.Perm.eq_of_pairwise (fun a b _ _ hab hba ↦ absurd hba hab.asymm) hserved hsorted ?_
  refine (List.perm_ext_iff_of_nodup (hnodup hserved) (hnodup hsorted)).mpr fun t ↦ ?_
  rw [List.mem_mergeSort, List.mem_filter, hmem, List.mem_map, beq_iff_eq]
  refine and_congr_left' ⟨?_, fun ht ↦ ?_⟩
  · rintro ⟨⟨txid, t'⟩, hentry, rfl⟩
    have ht := Std.ExtTreeMap.mem_toList_iff_getElem?_eq_some.mp hentry
    rw [hfiled _ _ ht]
    exact ht
  · exact ⟨(t.txid, t), Std.ExtTreeMap.mem_toList_iff_getElem?_eq_some.mpr ht, rfl⟩

/-! ## 2. The lineage of one object -/

/-- The transitions of the object `id` are those of the list, which is a chain from `first` to `tip`
in the order of the store. -/
structure IsLineage (s : StateStore) (id first : String) (list : List StateTransitionRecord)
    (tip : String) : Prop where
  chained : InChainOrder first list tip
  sorted : list.Pairwise Before
  mem : ∀ t, t ∈ list ↔ s.transitions[t.txid]? = some t ∧ t.objectId = id

variable {id first tip : String} {list : List StateTransitionRecord}

theorem IsLineage.congr (h : IsLineage s id first list tip)
    (htransitions : s'.transitions = s.transitions) : IsLineage s' id first list tip where
  chained := h.chained
  sorted := h.sorted
  mem := by
    rw [htransitions]
    exact h.mem

/-- A transition of another object. -/
theorem IsLineage.other (h : IsLineage s id first list tip) {t : StateTransitionRecord}
    (hfresh : s.transitions[t.txid]? = none) (hother : t.objectId ≠ id)
    (htransitions : s'.transitions = s.transitions.insert t.txid t) :
    IsLineage s' id first list tip where
  chained := h.chained
  sorted := h.sorted
  mem t' := by
    rw [htransitions, Table.get_insert, h.mem]
    split
    · rename_i htxid
      rw [htxid, hfresh]
      constructor
      · rintro ⟨hnone, -⟩
        cases hnone
      · rintro ⟨hsame, hid⟩
        cases hsame
        exact absurd hid hother
    · rfl

/-- The next transition of the object. -/
theorem IsLineage.append (h : IsLineage s id first list tip) {t : StateTransitionRecord}
    (hfresh : s.transitions[t.txid]? = none) (hid : t.objectId = id) (hprev : t.prevSeal = tip)
    (hlast : ∀ t' ∈ list, Before t' t)
    (htransitions : s'.transitions = s.transitions.insert t.txid t) :
    IsLineage s' id first (list ++ [t]) t.newSeal where
  chained := h.chained.append hprev
  sorted := by
    rw [List.pairwise_append]
    refine ⟨h.sorted, List.pairwise_singleton _ _, fun t' ht' u hu ↦ ?_⟩
    rw [List.mem_singleton.mp hu]
    exact hlast t' ht'
  mem t' := by
    rw [htransitions, Table.get_insert, List.mem_append, List.mem_singleton, h.mem]
    split
    · rename_i htxid
      rw [htxid, hfresh]
      constructor
      · rintro (⟨hnone, -⟩ | rfl)
        · cases hnone
        · exact ⟨rfl, hid⟩
      · rintro ⟨hsame, -⟩
        cases hsame
        exact .inr rfl
    · rename_i htxid
      refine ⟨?_, .inl⟩
      rintro (hold | rfl)
      · exact hold
      · exact absurd rfl htxid

/-! ## 3. One transaction -/

/-- What the transaction writes to the objects and the transitions, when a call that saves its
object also saves its transition. -/
theorem runTx_lineage (X : Crates) (P : BlockProcessor) (blockHeight : Nat) (s : StateStore)
    (r : TxRun) (hsaved : r.writes.object = true → r.writes.transition = true) :
    ((runTx X P blockHeight s r).objects = s.objects ∧
      (runTx X P blockHeight s r).transitions = s.transitions) ∨
    (∃ voutIdx out envelope objId,
      selectAction X P s r.tx = .ok (some (.create voutIdx out envelope)) ∧
      createdObjectId r.tx.txid = .ok objId ∧
      (runTx X P blockHeight s r).objects = s.objects.insert objId
        (createdObject X r.tx blockHeight voutIdx out envelope objId) ∧
      (runTx X P blockHeight s r).transitions = s.transitions) ∨
    ∃ voutIdx out envelope obj result,
      selectAction X P s r.tx = .ok (some (.call voutIdx out envelope obj)) ∧
      (runTx X P blockHeight s r).objects = s.objects.insert obj.objectId
        (calledObject obj blockHeight (sealOf r.tx.txid voutIdx) out.value
          (argsOf (metadataOf envelope)) result.1) ∧
      (runTx X P blockHeight s r).transitions = s.transitions.insert r.tx.txid
        (callTransition r.now r.tx blockHeight voutIdx out envelope obj result) := by
  unfold runTx
  rw [run_processTx]
  cases haction : selectAction X P s r.tx with
  | error e => exact .inl ⟨rfl, rfl⟩
  | ok action? =>
    rcases action? with _ | ⟨voutIdx, out, envelope⟩ | ⟨voutIdx, out, envelope, obj⟩
    · exact .inl ⟨rfl, rfl⟩
    · simp only [performAction]
      have hobjects : (afterBlob X r.writes envelope s).objects = s.objects :=
        (afterBlob_sameCore X r.writes envelope s).objects
      have htransitions : (afterBlob X r.writes envelope s).transitions = s.transitions := by
        unfold afterBlob
        split <;> rfl
      rw [run_processCreate]
      dsimp only
      cases hid : createdObjectId r.tx.txid with
      | error e => exact .inl ⟨hobjects, htransitions⟩
      | ok objId =>
        cases r.writes.undo with
        | false => exact .inl ⟨hobjects, htransitions⟩
        | true =>
          cases r.writes.object with
          | false => exact .inl ⟨hobjects, htransitions⟩
          | true =>
            refine .inr (.inl ⟨voutIdx, out, envelope, objId, rfl, rfl, ?_, htransitions⟩)
            exact congrArg (Std.ExtTreeMap.insert · objId _) hobjects
    · simp only [performAction]
      rw [run_processCall]
      cases r.writes.undo with
      | false => exact .inl ⟨rfl, rfl⟩
      | true =>
        cases houtcome : callOutcome X P s obj (methodOf (metadataOf envelope))
            (argsOf (metadataOf envelope)) (sender r.tx) out.value with
        | error e => exact .inl ⟨rfl, rfl⟩
        | ok result? =>
          cases result? with
          | none => exact .inl ⟨rfl, rfl⟩
          | some result =>
            cases hobject : r.writes.object with
            | false => exact .inl ⟨rfl, rfl⟩
            | true =>
              rw [hsaved hobject]
              exact .inr (.inr ⟨voutIdx, out, envelope, obj, result, rfl, rfl, rfl⟩)

/-- A run goes as the node intends: contracts return shallow states, a call that saves its object
saves its transition, and a create does not take the id of a stored object. -/
structure Regular (X : Crates) (P : BlockProcessor) (s : StateStore) (r : TxRun) : Prop where
  shallow : ShallowResults X P s r.tx
  saved : r.writes.object = true → r.writes.transition = true
  fresh : ∀ voutIdx out envelope objId,
    selectAction X P s r.tx = .ok (some (.create voutIdx out envelope)) →
    createdObjectId r.tx.txid = .ok objId → s.objects[objId]? = none

/-- A call comes after the calls of the same object in the same block in the order of the txids. -/
def InTxidOrder (X : Crates) (P : BlockProcessor) (blockHeight : Nat) (s : StateStore) (r : TxRun) :
    Prop :=
  ∀ voutIdx out envelope obj,
    selectAction X P s r.tx = .ok (some (.call voutIdx out envelope obj)) →
    ∀ (txid : String) (t : StateTransitionRecord), s.transitions[txid]? = some t →
      t.objectId = obj.objectId → t.blockHeight = blockHeight → compare txid r.tx.txid = .lt

/-- The seals with which the objects first appeared, after a step from `s` to `s'`. -/
def firstSeals (born : String → Option String) (s s' : StateStore) (id : String) : Option String :=
  match s.objects[id]? with
  | some _ => born id
  | none => s'.objects[id]?.map (·.sealRef)

/-- Runs over a sequence of blocks, the last at `blockHeight`, of transactions `txs` with different
txids that meet `cond`; `born` says with which seal each object was created. -/
inductive LineageRun (X : Crates) (P : BlockProcessor)
    (cond : Nat → StateStore → TxRun → Prop) :
    Nat → List ElectrsTx → (String → Option String) → StateStore → Prop
  | genesis (blockHeight : Nat) : LineageRun X P cond blockHeight [] (fun _ ↦ none) (empty X)
  | nextBlock {blockHeight : Nat} {txs : List ElectrsTx} {born : String → Option String}
      {s : StateStore} : LineageRun X P cond blockHeight txs born s →
      LineageRun X P cond (blockHeight + 1) txs born s
  | processTx {blockHeight : Nat} {txs : List ElectrsTx} {born : String → Option String}
      {s : StateStore} (r : TxRun) : LineageRun X P cond blockHeight txs born s →
      r.tx.txid ∉ txs.map (·.txid) → cond blockHeight s r →
      LineageRun X P cond blockHeight (r.tx :: txs)
        (firstSeals born s (runTx X P blockHeight s r)) (runTx X P blockHeight s r)

/-- The lineages of all stored objects, and where their transitions come from. -/
structure Lineages (txs : List ElectrsTx) (born : String → Option String) (blockHeight : Nat)
    (s : StateStore) : Prop where
  filed : s.Filed
  below : ∀ (txid : String) (t : StateTransitionRecord), s.transitions[txid]? = some t →
    t.blockHeight ≤ blockHeight
  stored : ∀ (txid : String) (t : StateTransitionRecord), s.transitions[txid]? = some t →
    ∃ obj, s.objects[t.objectId]? = some obj
  spent : ∀ (txid : String) (t : StateTransitionRecord), s.transitions[txid]? = some t →
    ∃ tx ∈ txs, tx.txid = txid ∧ ∃ vin ∈ tx.vin, t.prevSeal = sealOf vin.txid vin.vout ∧
      vin.txid ∈ txs.map (·.txid)
  lineage : ∀ (id : String) (obj : SmartObjectRecord), s.objects[id]? = some obj →
    ∃ first list, born id = some first ∧ IsLineage s id first list obj.sealRef

variable {txs : List ElectrsTx} {born : String → Option String} {r : TxRun}

theorem empty_lineages (X : Crates) (blockHeight : Nat) :
    Lineages [] (fun _ ↦ none) blockHeight (empty X) where
  filed txid t h := by simp [empty] at h
  below txid t h := by simp [empty] at h
  stored txid t h := by simp [empty] at h
  spent txid t h := by simp [empty] at h
  lineage id obj h := by simp [empty] at h

theorem Lineages.nextBlock (h : Lineages txs born blockHeight s) :
    Lineages txs born (blockHeight + 1) s :=
  ⟨h.filed, fun txid t ht ↦ (h.below txid t ht).trans (Nat.le_succ _), h.stored, h.spent, h.lineage⟩

/-- The inputs of the transitions stay known when a transaction is added. -/
theorem Lineages.spent_cons (h : Lineages txs born blockHeight s) (tx : ElectrsTx)
    {txid : String} {t : StateTransitionRecord} (ht : s.transitions[txid]? = some t) :
    ∃ tx' ∈ tx :: txs, tx'.txid = txid ∧ ∃ vin ∈ tx'.vin, t.prevSeal = sealOf vin.txid vin.vout ∧
      vin.txid ∈ (tx :: txs).map (·.txid) := by
  obtain ⟨tx', htx', htxid, vin, hvin, hseal, hmem⟩ := h.spent txid t ht
  exact ⟨tx', List.mem_cons_of_mem _ htx', htxid, vin, hvin, hseal, List.mem_cons_of_mem _ hmem⟩

/-- Nothing happened to the objects and the transitions. -/
theorem Lineages.same (h : Lineages txs born blockHeight s) (tx : ElectrsTx)
    (hobjects : s'.objects = s.objects) (htransitions : s'.transitions = s.transitions) :
    Lineages (tx :: txs) (firstSeals born s s') blockHeight s' where
  filed := by
    unfold Filed
    rw [htransitions]
    exact h.filed
  below := by
    rw [htransitions]
    exact h.below
  stored := by
    rw [htransitions, hobjects]
    exact h.stored
  spent := by
    rw [htransitions]
    exact fun txid t ht ↦ h.spent_cons tx ht
  lineage id obj hobj := by
    rw [hobjects] at hobj
    obtain ⟨first, list, hborn, hlist⟩ := h.lineage id obj hobj
    refine ⟨first, list, ?_, hlist.congr htransitions⟩
    unfold firstSeals
    rw [hobj]
    exact hborn

/-- An object was created. -/
theorem Lineages.created (h : Lineages txs born blockHeight s) (tx : ElectrsTx) {objId : String}
    {new : SmartObjectRecord} (hfresh : s.objects[objId]? = none)
    (hobjects : s'.objects = s.objects.insert objId new)
    (htransitions : s'.transitions = s.transitions) :
    Lineages (tx :: txs) (firstSeals born s s') blockHeight s' where
  filed := by
    unfold Filed
    rw [htransitions]
    exact h.filed
  below := by
    rw [htransitions]
    exact h.below
  stored txid t ht := by
    rw [htransitions] at ht
    obtain ⟨obj, hobj⟩ := h.stored txid t ht
    rw [hobjects, Table.get_insert]
    split
    · exact ⟨new, rfl⟩
    · exact ⟨obj, hobj⟩
  spent := by
    rw [htransitions]
    exact fun txid t ht ↦ h.spent_cons tx ht
  lineage id obj hobj := by
    have hget : s'.objects[id]? = if id = objId then some new else s.objects[id]? := by
      rw [hobjects, Table.get_insert]
    rw [hget] at hobj
    unfold firstSeals
    split at hobj
    · rename_i hid
      cases hobj
      rw [hid, hfresh, ← hid, hget, if_pos hid]
      refine ⟨new.sealRef, [], rfl, ⟨rfl, List.Pairwise.nil, fun t ↦ ⟨fun ht ↦ (by cases ht), ?_⟩⟩⟩
      rintro ⟨ht, htid⟩
      rw [htransitions] at ht
      obtain ⟨obj', hobj'⟩ := h.stored t.txid t ht
      rw [htid, hid, hfresh] at hobj'
      cases hobj'
    · obtain ⟨first, list, hborn, hlist⟩ := h.lineage id obj hobj
      refine ⟨first, list, ?_, hlist.congr htransitions⟩
      rw [hobj]
      exact hborn

/-- An object was called. -/
theorem Lineages.called (h : Lineages txs born blockHeight s) {tx : ElectrsTx}
    (hfresh : tx.txid ∉ txs.map (·.txid)) {obj obj' : SmartObjectRecord}
    {t : StateTransitionRecord} (hobj : s.objects[obj.objectId]? = some obj)
    (hobjects : s'.objects = s.objects.insert obj.objectId obj')
    (htransitions : s'.transitions = s.transitions.insert tx.txid t) (htxid : t.txid = tx.txid)
    (hid : t.objectId = obj.objectId) (hprev : t.prevSeal = obj.sealRef)
    (hnew : t.newSeal = obj'.sealRef) (hheight : t.blockHeight = blockHeight)
    (hspent : ∃ vin ∈ tx.vin, obj.sealRef = sealOf vin.txid vin.vout ∧
      vin.txid ∈ txs.map (·.txid))
    (horder : ∀ (txid : String) (t' : StateTransitionRecord), s.transitions[txid]? = some t' →
      t'.objectId = obj.objectId → t'.blockHeight = blockHeight → compare txid tx.txid = .lt) :
    Lineages (tx :: txs) (firstSeals born s s') blockHeight s' := by
  have hget (txid : String) : s'.transitions[txid]? =
      if txid = tx.txid then some t else s.transitions[txid]? := by
    rw [htransitions, Table.get_insert]
  have hnone : s.transitions[t.txid]? = none := by
    rw [Option.eq_none_iff_forall_ne_some]
    intro t' ht'
    obtain ⟨tx', htx', htxid', -⟩ := h.spent _ t' ht'
    exact hfresh (List.mem_map.mpr ⟨tx', htx', htxid'.trans htxid⟩)
  constructor
  · intro txid t' ht'
    rw [hget] at ht'
    split at ht'
    · rename_i hsame
      cases ht'
      rw [htxid, hsame]
    · exact h.filed txid t' ht'
  · intro txid t' ht'
    rw [hget] at ht'
    split at ht'
    · cases ht'
      exact hheight.le
    · exact h.below txid t' ht'
  · intro txid t' ht'
    rw [hget] at ht'
    rw [hobjects, Table.get_insert]
    split at ht'
    · cases ht'
      rw [if_pos hid]
      exact ⟨obj', rfl⟩
    · obtain ⟨obj₀, hobj₀⟩ := h.stored txid t' ht'
      split
      · exact ⟨obj', rfl⟩
      · exact ⟨obj₀, hobj₀⟩
  · intro txid t' ht'
    rw [hget] at ht'
    split at ht'
    · rename_i hsame
      cases ht'
      obtain ⟨vin, hvin, hseal, hmem⟩ := hspent
      exact ⟨tx, List.mem_cons_self, hsame.symm, vin, hvin, hprev.trans hseal,
        List.mem_cons_of_mem _ hmem⟩
    · exact h.spent_cons tx ht'
  · intro id o ho
    rw [hobjects, Table.get_insert] at ho
    unfold firstSeals
    split at ho
    · rename_i hsame
      cases ho
      obtain ⟨first, list, hborn, hlist⟩ := h.lineage obj.objectId obj hobj
      refine ⟨first, list ++ [t], ?_, ?_⟩
      · rw [hsame, hobj]
        exact hborn
      · rw [hsame, ← hnew]
        refine hlist.append hnone hid hprev (fun t' ht' ↦ ?_) (htxid ▸ htransitions)
        obtain ⟨hstored, ht'id⟩ := (hlist.mem t').mp ht'
        rcases Nat.lt_or_eq_of_le (h.below _ t' hstored) with hlt | heq
        · exact .inl (hheight ▸ hlt)
        · refine .inr ⟨heq.trans hheight.symm, ?_⟩
          rw [htxid]
          exact horder _ t' hstored ht'id heq
    · rename_i hother
      obtain ⟨first, list, hborn, hlist⟩ := h.lineage id o ho
      refine ⟨first, list, ?_, hlist.other hnone ?_ (htxid ▸ htransitions)⟩
      · rw [ho]
        exact hborn
      · rw [hid]
        exact fun heq ↦ hother heq.symm

/-- **One transaction keeps the lineages.** -/
theorem Lineages.runTx (h : Lineages txs born blockHeight s) (hsealed : s.Sealed (txs.map (·.txid)))
    (hfresh : r.tx.txid ∉ txs.map (·.txid)) (hregular : Regular X P s r)
    (horder : InTxidOrder X P blockHeight s r) :
    Lineages (r.tx :: txs) (firstSeals born s (runTx X P blockHeight s r)) blockHeight
      (runTx X P blockHeight s r) := by
  rcases runTx_lineage X P blockHeight s r hregular.saved with
    ⟨hobjects, htransitions⟩ |
    ⟨voutIdx, out, envelope, objId, haction, hid, hobjects, htransitions⟩ |
    ⟨voutIdx, out, envelope, obj, result, haction, hobjects, htransitions⟩
  · exact h.same r.tx hobjects htransitions
  · exact h.created r.tx (hregular.fresh voutIdx out envelope objId haction hid)
      hobjects htransitions
  · obtain ⟨hobj, vin, hvin, hseal⟩ :=
      target_stored hsealed.consistent.intact (selectAction_call X P haction)
    have hspent : ∃ vin ∈ r.tx.vin, obj.sealRef = sealOf vin.txid vin.vout ∧
        vin.txid ∈ txs.map (·.txid) := by
      obtain ⟨obj₀, hobj₀, hseal₀⟩ := (hsealed.consistent.sealed _ _).mp hseal
      rw [hobj] at hobj₀
      cases hobj₀
      obtain ⟨txid, hmem, vout, heq⟩ := hsealed.spent _ _ (.inl ⟨obj, hobj, hseal₀⟩)
      rw [← (sealOf_inj heq).1] at hmem
      exact ⟨vin, hvin, hseal₀, hmem⟩
    exact h.called hfresh hobj hobjects htransitions rfl rfl rfl rfl rfl hspent
      (horder voutIdx out envelope obj haction)

/-! ## 4. Runs -/

variable {cond : Nat → StateStore → TxRun → Prop}

theorem LineageRun.readable (hparse : ParsesShallow X)
    (hcond : ∀ height s r, cond height s r → Regular X P s r)
    (h : LineageRun X P cond blockHeight txs born s) : s.Readable := by
  induction h with
  | genesis => exact empty_readable X
  | nextBlock _ ih => exact ih
  | processTx r _ _ hr ih => exact ih.runTx hparse _ (hcond _ _ _ hr).shallow

theorem LineageRun.sealed (hparse : ParsesShallow X)
    (hcond : ∀ height s r, cond height s r → Regular X P s r)
    (h : LineageRun X P cond blockHeight txs born s) : s.Sealed (txs.map (·.txid)) := by
  induction h with
  | genesis => exact SealRun.sealed (X := X) (.empty : SealRun X false [] _)
  | nextBlock _ ih => exact ih
  | processTx r _ hfresh hr ih =>
    exact ih.runTx r hfresh fun u hu ↦
      (plannedUpdate_readable hparse (hcond _ _ _ hr).shallow hu).2

theorem LineageRun.lineages (hparse : ParsesShallow X)
    (h : LineageRun X P (fun height s r ↦ Regular X P s r ∧ InTxidOrder X P height s r) blockHeight
      txs born s) : Lineages txs born blockHeight s := by
  induction h with
  | genesis => exact empty_lineages X _
  | nextBlock _ ih => exact ih.nextBlock
  | processTx r hrun hfresh hr ih =>
    exact ih.runTx (hrun.sealed hparse fun _ _ _ hr ↦ hr.1) hfresh hr.1 hr.2

/-- Each transition of a run is made by a transaction that spends the seal. -/
theorem Lineages.spendsSeal (h : Lineages txs born blockHeight s)
    {fetchTx : String → Except String (List FetchedInput)}
    (hfetch : ∀ tx ∈ txs, validateHexHash tx.txid 32 = true ∧
      fetchTx tx.txid = .ok (fetchedInputs tx)) {t : StateTransitionRecord}
    (ht : s.transitions[t.txid]? = some t) :
    ∃ vin, fetchTx t.txid = .ok vin ∧ UtxoVm.spendsSeal vin t.prevSeal = true := by
  obtain ⟨tx, htx, htxid, vin, hvin, hseal, hmem⟩ := h.spent _ t ht
  obtain ⟨tx', htx', hvintx⟩ := List.mem_map.mp hmem
  refine ⟨fetchedInputs tx, htxid ▸ (hfetch tx htx).2, ?_⟩
  rw [hseal]
  exact spendsSeal_of_mem (List.mem_map.mpr ⟨vin, hvin, rfl⟩)
    (colon_not_mem_of_hex (hvintx ▸ (hfetch tx' htx').1)) rfl rfl

/-- **The lineage is served in chain order**, and the light client accepts it, in the runs whose
calls come in the order of their txids within a block. -/
theorem lineage_served_in_order (hparse : ParsesShallow X)
    (h : LineageRun X P (fun height s r ↦ Regular X P s r ∧ InTxidOrder X P height s r) blockHeight
      txs born s) {obj : SmartObjectRecord} (hobj : s.objects[id]? = some obj) :
    ∃ first list, born id = some first ∧ (run (getTransitionsForObject id) s).2 = .ok list ∧
      InChainOrder first list obj.sealRef ∧
      ∀ fetchTx, (∀ tx ∈ txs, validateHexHash tx.txid 32 = true ∧
          fetchTx tx.txid = .ok (fetchedInputs tx)) →
        ∀ genesis : LineageTransition, genesis.newSeal = first →
          (verifyObjectLineage fetchTx id (genesis :: lineageSteps list)).verified = true ∧
          (verifyObjectLineage fetchTx id (genesis :: lineageSteps list)).tipSeal = obj.sealRef := by
  have hlineages := h.lineages hparse
  obtain ⟨first, list, hborn, hlist⟩ := hlineages.lineage id obj hobj
  have hreadable := h.readable hparse fun _ _ _ hr ↦ hr.1
  refine ⟨first, list, hborn, ?_, hlist.chained, fun fetchTx hfetch genesis hgenesis ↦ ?_⟩
  · rw [run_getTransitionsForObject]
    exact transitionsOf_eq hlineages.filed hreadable hlist.sorted hlist.mem
  · unfold verifyObjectLineage
    dsimp only
    refine verifySteps_accepts (hgenesis ▸ hlist.chained.continuous) (fun step hstep ↦ ?_) 1
    obtain ⟨t, ht, rfl⟩ := List.mem_map.mp hstep
    exact hlineages.spendsSeal hfetch ((hlist.mem t).mp ht).1

/-! ## 5. Two calls in one block -/

theorem demo_regular (s : StateStore) (tx : ElectrsTx)
    (hfresh : ∀ objId, createdObjectId tx.txid = .ok objId → s.objects[objId]? = none) :
    Regular demoCrates demoProcessor s { writes := {}, now := 0, tx } where
  shallow := by
    intro _ _ _ _ _ _ _ _ _ hexecute
    cases hexecute
  saved _ := rfl
  fresh _ _ _ objId _ hid := hfresh objId hid

theorem demo_fresh {s : StateStore} {tx : ElectrsTx} (objId : String)
    (hid : createdObjectId tx.txid = .ok objId) (hnone : s.objects[objId]?.isNone = true) :
    ∀ objId', createdObjectId tx.txid = .ok objId' → s.objects[objId']? = none := by
  intro objId' hid'
  rw [hid] at hid'
  cases hid'
  exact Option.isNone_iff_eq_none.mp hnone

def demoFirstSeals : String → Option String :=
  firstSeals (fun _ ↦ none) (empty demoCrates)
    (BlockProcessor.runTx demoCrates demoProcessor 1 (empty demoCrates) demoCreateRun)

/-- A call with a late txid, and a call that spends its output with an early one. -/
def demoLateCallTx : ElectrsTx :=
  { demoCallTx with txid := "0000000500000000000000000000000000000000000000000000000000000000" }

def demoEarlyCallTx : ElectrsTx :=
  { demoCallTx with
    txid := "0000000400000000000000000000000000000000000000000000000000000000"
    vin := [⟨demoLateCallTx.txid, 0⟩] }

/-- The store after the creation, after the late call and after the early one. -/
def demoCreatedStore : StateStore :=
  BlockProcessor.runTx demoCrates demoProcessor 1 (empty demoCrates) demoCreateRun

def demoLateStore : StateStore :=
  BlockProcessor.runTx demoCrates demoProcessor 2 demoCreatedStore ⟨{}, 0, demoLateCallTx⟩

def demoEarlyStore : StateStore :=
  BlockProcessor.runTx demoCrates demoProcessor 2 demoLateStore ⟨{}, 0, demoEarlyCallTx⟩

/-- The transitions of the object, in the order of their keys. -/
def demoServed (s : StateStore) : List StateTransitionRecord :=
  (s.transitions.toList.map (·.2)).filter (·.objectId == demoObjectId)

theorem transitionsOf_demo {s : StateStore}
    (hreadable : (s.transitions.toList.map (·.2)).all (·.readable) = true)
    (hsorted : (demoServed s).Pairwise (fun a b ↦ decide (a.blockHeight ≤ b.blockHeight))) :
    transitionsOf s demoObjectId = .ok (demoServed s) := by
  unfold transitionsOf
  dsimp only
  rw [if_pos hreadable]
  exact congrArg _ (List.mergeSort_of_pairwise hsorted)

def demoTwoCallSeals : String → Option String :=
  firstSeals (firstSeals demoFirstSeals demoCreatedStore demoLateStore) demoLateStore demoEarlyStore

/-- The two transitions have the same height, and come in the order of their keys. -/
theorem demoTwoCalls_evaluated :
    createdObjectId demoLateCallTx.txid = .ok "obj_0000000500000000" ∧
      demoCreatedStore.objects["obj_0000000500000000"]?.isNone = true ∧
      createdObjectId demoEarlyCallTx.txid = .ok "obj_0000000400000000" ∧
      demoLateStore.objects["obj_0000000400000000"]?.isNone = true ∧
      demoEarlyStore.objects[demoObjectId]?.isSome = true ∧
      demoTwoCallSeals demoObjectId = some (sealOf demoCreateTx.txid 0) ∧
      (demoEarlyStore.transitions.toList.map (·.2)).all (·.readable) = true ∧
      (demoServed demoEarlyStore).Pairwise (fun a b ↦ decide (a.blockHeight ≤ b.blockHeight)) ∧
      (demoServed demoEarlyStore).map (·.prevSeal) =
        [sealOf demoLateCallTx.txid 0, sealOf demoCreateTx.txid 0] := by
  decide +kernel

theorem demoTwoCalls_run : LineageRun demoCrates demoProcessor
    (fun _ s r ↦ Regular demoCrates demoProcessor s r) 2
    [demoEarlyCallTx, demoLateCallTx, demoCreateTx] demoTwoCallSeals demoEarlyStore := by
  obtain ⟨hlateId, hlateNew, hearlyId, hearlyNew, -⟩ := demoTwoCalls_evaluated
  have hcreated : LineageRun demoCrates demoProcessor
      (fun _ s r ↦ Regular demoCrates demoProcessor s r) 1 [demoCreateTx] demoFirstSeals
      demoCreatedStore :=
    .processTx demoCreateRun (.genesis 1) (by decide)
      (demo_regular _ demoCreateTx fun objId _ ↦ by simp [empty])
  refine .processTx ⟨{}, 0, demoEarlyCallTx⟩ (.processTx ⟨{}, 0, demoLateCallTx⟩
    (.nextBlock hcreated) (by decide) ?_) (by decide) ?_
  · exact demo_regular _ demoLateCallTx (demo_fresh _ hlateId hlateNew)
  · exact demo_regular _ demoEarlyCallTx (demo_fresh _ hearlyId hearlyNew)

/-- Two calls of the object in the order of their txids: the second spends the output of the
first. -/
def demoFirstCallTx : ElectrsTx := { demoCallTx with txid := demoEarlyCallTx.txid }

def demoSecondCallTx : ElectrsTx :=
  { demoCallTx with txid := demoLateCallTx.txid, vin := [⟨demoFirstCallTx.txid, 0⟩] }

def demoFirstCallStore : StateStore :=
  BlockProcessor.runTx demoCrates demoProcessor 2 demoCreatedStore ⟨{}, 0, demoFirstCallTx⟩

def demoSecondCallStore : StateStore :=
  BlockProcessor.runTx demoCrates demoProcessor 2 demoFirstCallStore ⟨{}, 0, demoSecondCallTx⟩

def demoOrderedSeals : String → Option String :=
  firstSeals (firstSeals demoFirstSeals demoCreatedStore demoFirstCallStore) demoFirstCallStore
    demoSecondCallStore

theorem demoOrderedCalls_evaluated :
    demoCreatedStore.objects["obj_0000000400000000"]?.isNone = true ∧
      demoFirstCallStore.objects["obj_0000000500000000"]?.isNone = true ∧
      demoSecondCallStore.objects[demoObjectId]?.isSome = true ∧
      demoCreatedStore.transitions.toList.all
        (fun e ↦ compare e.1 demoFirstCallTx.txid == .lt) = true ∧
      demoFirstCallStore.transitions.toList.all
        (fun e ↦ compare e.1 demoSecondCallTx.txid == .lt) = true ∧
      (demoSecondCallStore.transitions.toList.map (·.2)).all (·.readable) = true ∧
      (demoServed demoSecondCallStore).Pairwise
        (fun a b ↦ decide (a.blockHeight ≤ b.blockHeight)) ∧
      (demoServed demoSecondCallStore).map (·.prevSeal) =
        [sealOf demoCreateTx.txid 0, sealOf demoFirstCallTx.txid 0] := by
  decide +kernel

/-- Calls under larger txids than all stored ones are in order. -/
theorem inTxidOrder_of_all {X : Crates} {P : BlockProcessor} {s : StateStore} {tx : ElectrsTx}
    {blockHeight : Nat}
    (hall : s.transitions.toList.all (fun e ↦ compare e.1 tx.txid == .lt) = true) :
    InTxidOrder X P blockHeight s ⟨{}, 0, tx⟩ := by
  intro _ _ _ _ _ txid t ht _ _
  simpa using List.all_eq_true.mp hall (txid, t)
    (Std.ExtTreeMap.mem_toList_iff_getElem?_eq_some.mpr ht)

theorem demoOrderedCalls_run : LineageRun demoCrates demoProcessor
    (fun height s r ↦ Regular demoCrates demoProcessor s r ∧
      InTxidOrder demoCrates demoProcessor height s r) 2
    [demoSecondCallTx, demoFirstCallTx, demoCreateTx] demoOrderedSeals demoSecondCallStore := by
  obtain ⟨hlateId, -, hearlyId, -⟩ := demoTwoCalls_evaluated
  obtain ⟨hfirstNew, hsecondNew, -, hfirstOrder, hsecondOrder, -⟩ := demoOrderedCalls_evaluated
  refine .processTx ⟨{}, 0, demoSecondCallTx⟩ (.processTx ⟨{}, 0, demoFirstCallTx⟩
    (.nextBlock (.processTx demoCreateRun (.genesis 1) (by decide) ⟨?_, ?_⟩))
      (by decide) ⟨?_, ?_⟩) (by decide) ⟨?_, ?_⟩
  · exact demo_regular _ demoCreateTx fun objId _ ↦ by simp [empty]
  · exact inTxidOrder_of_all (by rfl)
  · exact demo_regular _ demoFirstCallTx (demo_fresh _ hearlyId hfirstNew)
  · exact inTxidOrder_of_all hfirstOrder
  · exact demo_regular _ demoSecondCallTx (demo_fresh _ hlateId hsecondNew)
  · exact inTxidOrder_of_all hsecondOrder

/-- The lineage of an object that two transactions of one block have called: both transitions are
served, in the order in which they were made. -/
theorem lineage_served_in_order_calls :
    ∃ obj first list, demoSecondCallStore.objects[demoObjectId]? = some obj ∧
      demoOrderedSeals demoObjectId = some first ∧
      (run (getTransitionsForObject demoObjectId) demoSecondCallStore).2 = .ok list ∧
      list.map (·.prevSeal) = [sealOf demoCreateTx.txid 0, sealOf demoFirstCallTx.txid 0] ∧
      InChainOrder first list obj.sealRef ∧
      ∀ fetchTx, (∀ tx ∈ [demoSecondCallTx, demoFirstCallTx, demoCreateTx],
          validateHexHash tx.txid 32 = true ∧ fetchTx tx.txid = .ok (fetchedInputs tx)) →
        ∀ genesis : LineageTransition, genesis.newSeal = first →
          (verifyObjectLineage fetchTx demoObjectId (genesis :: lineageSteps list)).verified = true ∧
          (verifyObjectLineage fetchTx demoObjectId (genesis :: lineageSteps list)).tipSeal =
            obj.sealRef := by
  obtain ⟨-, -, hstored, -, -, hreadable, hsorted, hseals⟩ := demoOrderedCalls_evaluated
  obtain ⟨obj, hobj⟩ := Option.isSome_iff_exists.mp hstored
  obtain ⟨first, list, hborn, hserved, haccepted⟩ :=
    lineage_served_in_order demoCrates_parsesShallow demoOrderedCalls_run hobj
  refine ⟨obj, first, list, hobj, hborn, hserved, ?_, haccepted⟩
  rw [run_getTransitionsForObject] at hserved
  have hlist := Except.ok.inj ((transitionsOf_demo hreadable hsorted).symm.trans hserved)
  exact hlist ▸ hseals

/-- Two calls of an object in one block, against the order of their txids: the served lineage begins
with the second. -/
theorem lineage_out_of_order :
    ¬ ∀ blockHeight txs born s, LineageRun demoCrates demoProcessor
        (fun _ s r ↦ Regular demoCrates demoProcessor s r) blockHeight txs born s →
      ∀ (id : String) (obj : SmartObjectRecord), s.objects[id]? = some obj →
        ∃ first list, born id = some first ∧ (run (getTransitionsForObject id) s).2 = .ok list ∧
          InChainOrder first list obj.sealRef := by
  intro hclaim
  obtain ⟨-, -, -, -, hstored, hfirst, hreadable, hsorted, hseals⟩ := demoTwoCalls_evaluated
  obtain ⟨obj, hobj⟩ := Option.isSome_iff_exists.mp hstored
  obtain ⟨first, list, hborn, hserved, hchain⟩ :=
    hclaim _ _ _ _ demoTwoCalls_run demoObjectId obj hobj
  have hkeys := transitionsOf_demo hreadable hsorted
  rw [run_getTransitionsForObject] at hserved
  rw [Except.ok.inj (hkeys.symm.trans hserved)] at hseals
  rw [hfirst] at hborn
  cases hborn
  cases list with
  | nil => cases hseals
  | cons t rest =>
    have ht : t.prevSeal = sealOf demoLateCallTx.txid 0 := (List.cons.inj hseals).1
    rw [hchain.1] at ht
    exact absurd ht (by decide +kernel)

end StateStore

end UtxoVm
