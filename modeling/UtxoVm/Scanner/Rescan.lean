import UtxoVm.Scanner.Scan

/-!
# Scanning a block twice

When the node stops before the sync cursor is saved, it scans the block again.  The second scan
meets the objects that the first one left: those that the block creates are created anew and run
through the same calls, and the others are no longer found, since their seals are consumed.  What
goes wrong is a transaction that then finds something else to do.
-/

namespace UtxoVm

open RustStd StateStore Prog

namespace BlockProcessor

variable (X : Crates) (P : BlockProcessor) (blockHeight : Nat)

/-! ## 1. The second scan -/

/-- The objects that the transaction creates. -/
def createdBy (s : StateStore) (r : TxRun) : List String :=
  match selectAction X P s r.tx with
  | .ok (some (.create ..)) => (storesObject X P blockHeight s r).toList.map (·.objectId)
  | _ => []

/-- A transaction that calls an object, one that the block has not created, would store nothing if
the seal of that object were gone. -/
def CallsOnce (created : List String) (s : StateStore) (r : TxRun) : Prop :=
  ∀ voutIdx out envelope obj,
    selectAction X P s r.tx = .ok (some (.call voutIdx out envelope obj)) →
    obj.objectId ∉ created → (storesObject X P blockHeight s r).isSome →
    storesObject X P blockHeight { s with seals := s.seals.erase obj.sealRef } r = none

/-- The first scan stands at `t` before `rest`, and the second one at `u` after `done`: the objects
that have been created so far are as at `t`, the others as at the end of the first scan. -/
structure Rescans (ids : Set String) (block : List TxRun) (created : List String)
    (done rest : List TxRun) (t u : StateStore) : Prop where
  new : NewTo rest t
  first : t.Kept X ids
  regular : AlongScan X P blockHeight (ScanSafe X P blockHeight ids block) rest t
  second : u.Kept X ids
  path : u = runBlock X P blockHeight done (runBlock X P blockHeight rest t)
  within : ∀ r ∈ rest ++ done, ∃ r' ∈ block, r'.tx = r.tx
  agree : ∀ id : String, u.objects[id]? =
    if id ∈ created then t.objects[id]? else (runBlock X P blockHeight rest t).objects[id]?

variable {X P blockHeight} {ids : Set String} {block rest : List TxRun} {created : List String}
  {done : List TxRun} {s s' t u : StateStore} {r : TxRun}

/-- A transaction finds again what the block has created, and what it has not changed itself. -/
theorem Rescans.lookup (h : Rescans X P blockHeight ids block created done (r :: rest) t u)
    (hideal : IdealHash X ids) {σ : String} (hσ : Spends r.tx σ) (obj : SmartObjectRecord) :
    lookupSeal u σ = .ok (some obj) ↔ lookupSeal t σ = .ok (some obj) ∧
      (obj.objectId ∉ created → ∀ new, storesObject X P blockHeight t r = some new →
        new.objectId ≠ obj.objectId) := by
  rw [h.second.booked.lookupSeal_iff, h.first.booked.lookupSeal_iff, h.agree]
  obtain ⟨hown, hother, -⟩ := h.new.ordered
  have hstep (id : String) := runTx_storesObject X P blockHeight t r id
  have hfinal : runBlock X P blockHeight (r :: rest) t =
    runBlock X P blockHeight rest (runTx X P blockHeight t r) := rfl
  by_cases hcreated : obj.objectId ∈ created
  · rw [if_pos hcreated]
    exact ⟨fun hobj ↦ ⟨hobj, fun hnot ↦ absurd hcreated hnot⟩, fun hobj ↦ hobj.1⟩
  rw [if_neg hcreated]
  constructor
  · rintro ⟨hobj, rfl⟩
    refine ⟨⟨?_, rfl⟩, fun _ new hnew heq ↦ ?_⟩
    · rcases runBlock_seal hobj with hold | ⟨r', hr', vout, hseal⟩
      · exact hold
      · exact absurd (hseal ▸ hσ) (hown r' hr' vout)
    · -- the object that the transaction has changed has another seal
      rw [hfinal] at hobj
      rcases runBlock_seal hobj with hold | ⟨r', hr', vout, hseal⟩
      · rw [hstep, hnew] at hold
        dsimp only at hold
        rw [if_pos heq.symm] at hold
        cases hold
        obtain ⟨vout, hseal⟩ := storesObject_seal hnew
        exact hown r List.mem_cons_self vout (hseal ▸ hσ)
      · exact hown r' (List.mem_cons_of_mem _ hr') vout (hseal ▸ hσ)
  · rintro ⟨⟨hobj, rfl⟩, hunchanged⟩
    refine ⟨?_, rfl⟩
    rw [hfinal]
    refine runBlock_unspent hideal (h.new.step h.first.booked)
      (h.new.runTx_kept hideal h.first h.regular.1) h.regular.2 ?_
      fun r' hr' ↦ (hother r' hr').2 _ hσ
    rw [hstep]
    cases hnew : storesObject X P blockHeight t r with
    | none => exact hobj
    | some new => exact (if_neg (hunchanged hcreated new hnew).symm).trans hobj

theorem lookupSeal_erase (s : StateStore) (a σ : String) :
    lookupSeal { s with seals := s.seals.erase a } σ =
      if σ = a then .ok none else lookupSeal s σ := by
  unfold lookupSeal
  dsimp only
  rw [Table.get_erase]
  by_cases hσ : σ = a
  · rw [if_pos hσ, if_pos hσ]
  · rw [if_neg hσ, if_neg hσ]

/-- Lookups that find the same objects are the same. -/
theorem lookupSeal_eq {σ : String} (hs : ∃ obj?, lookupSeal s σ = .ok obj?)
    (hs' : ∃ obj?, lookupSeal s' σ = .ok obj?)
    (h : ∀ obj, lookupSeal s σ = .ok (some obj) ↔ lookupSeal s' σ = .ok (some obj)) :
    lookupSeal s σ = lookupSeal s' σ := by
  obtain ⟨obj?, hobj⟩ := hs
  obtain ⟨obj?', hobj'⟩ := hs'
  rw [hobj, hobj']
  congr 1
  apply Option.ext
  intro obj
  have hiff := h obj
  rw [hobj, hobj', Except.ok.injEq, Except.ok.injEq] at hiff
  exact hiff

/-- The code of an object that the second scan calls is that of the first. -/
theorem Rescans.code (h : Rescans X P blockHeight ids block created done (r :: rest) t u)
    (hideal : IdealHash X ids) {obj : SmartObjectRecord} (hobj : target u r.tx.vin = some obj) :
    u.wasmBlobs[obj.codeHash]? = t.wasmBlobs[obj.codeHash]? := by
  obtain ⟨σ, hσ, hlookup⟩ := target_spends hobj
  have hready := h.regular.1.ready σ obj hσ ((h.lookup hideal hσ obj).mp hlookup).1
  have hscan : Ready X (r :: rest ++ done) t obj.codeHash := by
    intro r' hr' payload hdeploys hhash
    obtain ⟨r'', hr'', htx⟩ := h.within r' hr'
    exact hready r'' hr'' payload (htx ▸ hdeploys) hhash
  have hkept := hscan.kept P blockHeight
  unfold runBlock at hkept
  rw [List.foldl_append] at hkept
  rw [h.path]
  exact hkept

/-- A transaction that creates, or calls what the block has created, does the same again. -/
theorem Rescans.stored_same (h : Rescans X P blockHeight ids block created done (r :: rest) t u)
    (hideal : IdealHash X ids) (hsame : ∀ new, storesObject X P blockHeight t r = some new →
      new.objectId ∈ created ∨ t.objects[new.objectId]? = none) :
    storesObject X P blockHeight u r = storesObject X P blockHeight t r := by
  refine storesObject_congr (target_congr fun vin hvin ↦ ?_) fun obj hobj ↦ h.code hideal hobj
  refine lookupSeal_eq (h.second.booked.lookupSeal_cases _) (h.first.booked.lookupSeal_cases _)
    fun obj ↦ ?_
  rw [h.lookup hideal ⟨vin, hvin, rfl⟩ obj]
  refine ⟨fun hobj ↦ hobj.1, fun hobj ↦ ⟨hobj, fun hcreated new hnew heq ↦ ?_⟩⟩
  rcases hsame new hnew with hmem | hnone
  · exact hcreated (heq ▸ hmem)
  · rw [heq, (h.first.booked.lookupSeal_iff.mp hobj).1] at hnone
    cases hnone

/-- A transaction that has called another object does what it would do without the seal of that. -/
theorem Rescans.stored_called
    (h : Rescans X P blockHeight ids block created done (r :: rest) t u)
    (hideal : IdealHash X ids) {voutIdx : Nat} {out : ElectrsTxOutput} {envelope : UtxoVmEnvelope}
    {obj new : SmartObjectRecord}
    (haction : selectAction X P t r.tx = .ok (some (.call voutIdx out envelope obj)))
    (hcreated : obj.objectId ∉ created) (hnew : storesObject X P blockHeight t r = some new)
    (hid : new.objectId = obj.objectId) :
    storesObject X P blockHeight u r =
      storesObject X P blockHeight { t with seals := t.seals.erase obj.sealRef } r := by
  have hobj := (selectAction_called h.first.booked haction).1
  refine storesObject_congr (target_congr fun vin hvin ↦ ?_) fun obj' hobj' ↦ h.code hideal hobj'
  have hlookup := h.lookup hideal (σ := sealOf vin.txid vin.vout) ⟨vin, hvin, rfl⟩
  refine lookupSeal_eq (h.second.booked.lookupSeal_cases _) ?_ fun obj' ↦ ?_
  · rw [lookupSeal_erase]
    split
    · exact ⟨none, rfl⟩
    · exact h.first.booked.lookupSeal_cases _
  · rw [hlookup, lookupSeal_erase]
    split
    · rename_i hseal
      refine ⟨fun ⟨hobj', hunchanged⟩ ↦ ?_, fun hnone ↦ by cases hnone⟩
      rw [hseal] at hobj'
      have hself : lookupSeal t obj.sealRef = .ok (some obj) :=
        h.first.booked.lookupSeal_iff.mpr ⟨hobj, rfl⟩
      cases hself.symm.trans hobj'
      exact absurd hid (hunchanged hcreated new hnew)
    · rename_i hseal
      refine ⟨fun hobj' ↦ hobj'.1, fun hobj' ↦ ⟨hobj', fun _ new' hnew' heq ↦ ?_⟩⟩
      obtain ⟨hstored', hseal'⟩ := h.first.booked.lookupSeal_iff.mp hobj'
      cases hnew.symm.trans hnew'
      rw [← heq, hid, hobj] at hstored'
      cases hstored'
      exact hseal hseal'.symm

theorem mem_createdBy {id : String} (h : id ∈ createdBy X P blockHeight t r) :
    ∃ new, storesObject X P blockHeight t r = some new ∧ new.objectId = id := by
  unfold createdBy at h
  split at h
  · obtain ⟨new, hnew, hid⟩ := List.mem_map.mp h
    exact ⟨new, Option.mem_toList.mp hnew, hid⟩
  · cases h

/-- What a transaction stores in the second scan. -/
theorem Rescans.stored (h : Rescans X P blockHeight ids block created done (r :: rest) t u)
    (hideal : IdealHash X ids) (honce : CallsOnce X P blockHeight created t r) :
    storesObject X P blockHeight u r =
      (storesObject X P blockHeight t r).filter
        (·.objectId ∈ createdBy X P blockHeight t r ++ created) := by
  cases hnew : storesObject X P blockHeight t r with
  | none =>
    have hsame := h.stored_same hideal fun new hnew' ↦ by
      rw [hnew] at hnew'
      cases hnew'
    rw [hsame, hnew, Option.filter_none]
  | some new =>
    have hself {new' : SmartObjectRecord}
        (hnew' : storesObject X P blockHeight t r = some new') : new' = new :=
      Option.some.inj (hnew'.symm.trans hnew)
    rcases storesObject_cases hnew with
      ⟨hid, voutIdx, out, envelope, haction⟩ | ⟨voutIdx, out, envelope, called, hid, haction⟩
    · have hcreates : createdBy X P blockHeight t r = [new.objectId] := by
        unfold createdBy
        rw [haction, hnew]
        rfl
      rw [h.stored_same hideal fun new' hnew' ↦
        .inr (hself hnew' ▸ h.new.freshId r List.mem_cons_self _ hid), hnew, hcreates,
        Option.filter_some_pos (by simp)]
    · have hcreates : createdBy X P blockHeight t r = [] := by
        unfold createdBy
        rw [haction]
      rw [hcreates, List.nil_append]
      by_cases hcreated : new.objectId ∈ created
      · rw [h.stored_same hideal fun new' hnew' ↦ .inl (hself hnew' ▸ hcreated), hnew,
          Option.filter_some_pos (by simpa using hcreated)]
      · have hother : called.objectId ∉ created := hid ▸ hcreated
        rw [h.stored_called hideal haction hother hnew hid.symm,
          honce voutIdx out envelope called haction hother (by rw [hnew]; rfl),
          Option.filter_some_neg (by simpa using hcreated)]

/-- **One transaction of the second scan.** -/
theorem Rescans.step (h : Rescans X P blockHeight ids block created done (r :: rest) t u)
    (hideal : IdealHash X ids) (honce : CallsOnce X P blockHeight created t r) (now : Int) :
    Rescans X P blockHeight ids block (createdBy X P blockHeight t r ++ created)
      (done ++ [{ r with now }]) rest (runTx X P blockHeight t r)
      (runTx X P blockHeight u { r with now }) := by
  have hstored : storesObject X P blockHeight u { r with now } = _ := h.stored hideal honce
  obtain ⟨hown, hother, -⟩ := h.new.ordered
  refine ⟨h.new.step h.first.booked, h.new.runTx_kept hideal h.first h.regular.1, h.regular.2, ?_,
    ?_, ?_, ?_⟩
  · refine runTx_kept hideal h.second (fun obj hobj ↦ ?_) fun obj hobj id r' hr' hseal ↦ ?_
    · rw [hstored] at hobj
      exact h.regular.1.readable obj (Option.filter_eq_some_iff.mp hobj).1
    · rw [hstored] at hobj
      have hobj := (Option.filter_eq_some_iff.mp hobj).1
      obtain ⟨vout, hnew⟩ := storesObject_seal hobj
      have hnot (id : String) (r' : SmartObjectRecord) (hr' : t.objects[id]? = some r') :
          r'.sealRef ≠ sealOf r.tx.txid vout :=
        fun heq ↦ h.new.unsealed r List.mem_cons_self id r' hr' vout heq
      rw [h.agree] at hr'
      split at hr'
      · exact absurd (hseal.trans hnew) (hnot id r' hr')
      · change (runBlock X P blockHeight rest (runTx X P blockHeight t r)).objects[id]? = _ at hr'
        rcases runBlock_seal hr' with hold | ⟨r'', hr'', vout', hseal'⟩
        · rw [runTx_storesObject, hobj] at hold
          dsimp only at hold
          split at hold
          · assumption
          · exact absurd (hseal.trans hnew) (hnot id r' hold)
        · have heq := hseal'.symm.trans (hseal.trans hnew)
          exact absurd (sealOf_inj heq).1 (hother r'' hr'').1
  · rw [h.path]
    unfold runBlock
    rw [List.foldl_append]
    rfl
  · intro r' hr'
    rcases List.mem_append.mp hr' with hrest | hdone
    · exact h.within r' (List.mem_append_left _ (List.mem_cons_of_mem _ hrest))
    · rcases List.mem_append.mp hdone with hdone | hlast
      · exact h.within r' (List.mem_append_right _ hdone)
      · cases List.mem_singleton.mp hlast
        exact h.within r (List.mem_append_left _ List.mem_cons_self)
  · intro id
    rw [runTx_storesObject, hstored, runTx_storesObject _ _ _ t]
    cases hnew : storesObject X P blockHeight t r with
    | none =>
      have hcreates : createdBy X P blockHeight t r = [] := by
        unfold createdBy
        rw [hnew]
        split <;> rfl
      rw [hcreates]
      exact h.agree id
    | some new =>
      by_cases hid : id = new.objectId
      · by_cases hmem : new.objectId ∈ createdBy X P blockHeight t r ++ created
        · rw [Option.filter_some_pos (by simpa using hmem)]
          dsimp only
          rw [if_pos hid, hid, if_pos hmem, if_pos rfl]
        · rw [Option.filter_some_neg (by simpa using hmem), hid, if_neg hmem]
          have hold : new.objectId ∉ created := fun hin ↦ hmem (List.mem_append_right _ hin)
          exact (h.agree new.objectId).trans (if_neg hold)
      · have hmem : id ∈ createdBy X P blockHeight t r ++ created ↔ id ∈ created := by
          refine ⟨fun hin ↦ ?_, List.mem_append_right _⟩
          rcases List.mem_append.mp hin with hcreates | hold
          · obtain ⟨new', hnew', heq⟩ := mem_createdBy hcreates
            cases hnew.symm.trans hnew'
            exact absurd heq.symm hid
          · exact hold
        by_cases hagain : new.objectId ∈ createdBy X P blockHeight t r ++ created
        · rw [Option.filter_some_pos (by simpa using hagain)]
          dsimp only
          rw [if_neg hid, if_neg hid, h.agree]
          simp only [hmem]
          rfl
        · rw [Option.filter_some_neg (by simpa using hagain)]
          dsimp only
          rw [if_neg hid, h.agree]
          simp only [hmem]
          rfl

variable (X P blockHeight)

variable {X P blockHeight} {now : TxRun → Int}

/-! ## 2. When the second scan changes nothing -/

end BlockProcessor

open BlockProcessor

end UtxoVm
