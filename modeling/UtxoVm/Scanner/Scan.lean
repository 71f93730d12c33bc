import UtxoVm.Scanner.SealRun
import UtxoVm.Scanner.StoreRun

/-!
# Scanning a block

What each transaction of a block stores, in the state that the scan has reached, and what the scan
leaves alone: an object whose seal no transaction spends, and an id that none creates.
-/

namespace UtxoVm

open RustStd StateStore Prog

namespace StateStore

/-- The two stores agree on the objects, the seals and the tree. -/
structure SameObjects (s s' : StateStore) : Prop where
  objects : s'.objects = s.objects
  seals : s'.seals = s.seals
  smt : s'.smt = s.smt

theorem SameObjects.refl (s : StateStore) : SameObjects s s := ⟨rfl, rfl, rfl⟩

theorem SameCore.sameObjects {s s' : StateStore} (h : SameCore s s') : SameObjects s s' :=
  ⟨h.objects, h.seals, h.smt⟩

/-- The objects are filed and sealed, and the tree belongs to them. -/
structure Kept (X : Crates) (ids : Set String) (s : StateStore) : Prop where
  booked : s.Booked ids
  tracks : s.Tracks X

variable {X : Crates} {ids : Set String} {s s' : StateStore}

theorem Kept.congr (h : s.Kept X ids) (hsame : SameObjects s s') : s'.Kept X ids := by
  refine ⟨⟨?_, ?_⟩, h.tracks.congr hsame.objects hsame.smt⟩
  · unfold FiledIn
    rw [hsame.objects]
    exact h.booked.object
  · rw [hsame.objects, hsame.seals]
    exact h.booked.sealed

theorem Kept.putObject (h : s.Kept X ids) (hideal : IdealHash X ids) {obj : SmartObjectRecord}
    (hmem : obj.objectId ∈ ids) (hreadable : obj.readable = true)
    (hfresh : ∀ id (r : SmartObjectRecord), s.objects[id]? = some r → r.sealRef = obj.sealRef →
      id = obj.objectId) : (putObject X obj s).Kept X ids where
  booked :=
    have hinsert := h.booked.insertObject hmem hreadable hfresh
    ⟨hinsert.object, hinsert.sealed⟩
  tracks := h.tracks.putObject hideal h.booked.object hmem

/-- Stores with the same objects have the same seals and the same state root. -/
theorem Kept.agree (h : s.Kept X ids) (h' : s'.Kept X ids) (hobjects : s'.objects = s.objects) :
    s'.seals = s.seals ∧ (run currentStateRoot s').2 = (run currentStateRoot s).2 := by
  constructor
  · apply Std.ExtTreeMap.ext_getElem?
    intro σ
    apply Option.ext
    intro id
    rw [h.booked.sealed, h'.booked.sealed, hobjects]
  · have hroot := h'.tracks.root_eq h.tracks hobjects
    show Except.ok (hexEncode (SparseMerkleTree.root _).2.toList) = Except.ok (hexEncode _)
    rw [hroot]

/-- A seal leads to the object that carries it. -/
theorem Booked.lookupSeal_iff (h : s.Booked ids) {σ : String} {obj : SmartObjectRecord} :
    lookupSeal s σ = .ok (some obj) ↔ s.objects[obj.objectId]? = some obj ∧ obj.sealRef = σ := by
  have hparse {id : String} {r : SmartObjectRecord} (hr : s.objects[id]? = some r) :
      parseObject s.objects[id]? = .ok (some r) := by
    rw [hr]
    exact if_pos (h.object id r hr).2.1
  constructor
  · intro hlookup
    unfold lookupSeal at hlookup
    split at hlookup
    · rename_i id hid
      obtain ⟨r, hr, hseal⟩ := (h.sealed σ id).mp hid
      rw [hparse hr] at hlookup
      cases hlookup
      rw [(h.object id obj hr).1]
      exact ⟨hr, hseal⟩
    · cases hlookup
  · rintro ⟨hobj, hseal⟩
    unfold lookupSeal
    rw [(h.sealed σ obj.objectId).mpr ⟨obj, hobj, hseal⟩]
    exact hparse hobj

/-- A lookup finds an object, or nothing. -/
theorem Booked.lookupSeal_cases (h : s.Booked ids) (σ : String) :
    ∃ obj?, lookupSeal s σ = .ok obj? := by
  unfold lookupSeal
  split
  · rename_i id hid
    obtain ⟨r, hr, -⟩ := (h.sealed σ id).mp hid
    rw [hr]
    exact ⟨some r, if_pos (h.object id r hr).2.1⟩
  · exact ⟨none, rfl⟩

end StateStore

namespace BlockProcessor

variable (X : Crates) (P : BlockProcessor) (blockHeight : Nat)

/-! ## 1. What one transaction stores -/

/-- The object that the transaction stores. -/
def storesObject (s : StateStore) (r : TxRun) : Option SmartObjectRecord :=
  if r.writes.undo && r.writes.object then
    (plannedUpdate X P s r.tx blockHeight).bind (·.object)
  else none

/-- The store after the object of a transaction, if it stores one. -/
def putStored (obj? : Option SmartObjectRecord) (s : StateStore) : StateStore :=
  match obj? with
  | some obj => putObject X obj s
  | none => s

theorem runTx_sameObjects (s : StateStore) (r : TxRun) :
    SameObjects (putStored X (storesObject X P blockHeight s r) s) (runTx X P blockHeight s r) := by
  unfold runTx storesObject plannedUpdate
  rw [run_processTx]
  cases haction : selectAction X P s r.tx with
  | error e => cases r.writes.undo && r.writes.object <;> exact .refl s
  | ok action? =>
    rcases action? with _ | ⟨voutIdx, out, envelope⟩ | ⟨voutIdx, out, envelope, obj⟩
    · cases r.writes.undo && r.writes.object <;> exact .refl s
    · have hblob := (afterBlob_sameCore X r.writes envelope s)
      show SameObjects _ (run (processCreate ..) s).1
      rw [run_processCreate]
      dsimp only
      cases createdObjectId r.tx.txid with
      | error e => cases r.writes.undo && r.writes.object <;> exact hblob.sameObjects
      | ok objId =>
        cases r.writes.undo with
        | false => exact hblob.sameObjects
        | true =>
          cases r.writes.object with
          | false => exact ⟨hblob.objects, hblob.seals, hblob.smt⟩
          | true =>
            have hput := hblob.putObject X
              (createdObject X r.tx blockHeight voutIdx out envelope objId)
            exact ⟨hput.objects, hput.seals, hput.smt⟩
    · show SameObjects _ (run (processCall ..) s).1
      rw [run_processCall]
      dsimp only
      unfold calledUpdate
      cases r.writes.undo with
      | false => exact .refl s
      | true =>
        cases callOutcome X P s obj (methodOf (metadataOf envelope)) (argsOf (metadataOf envelope))
            (sender r.tx) out.value with
        | error e => cases r.writes.object <;> exact ⟨rfl, rfl, rfl⟩
        | ok result? =>
          cases result? with
          | none => cases r.writes.object <;> exact ⟨rfl, rfl, rfl⟩
          | some result =>
            cases r.writes.object with
            | false => exact ⟨rfl, rfl, rfl⟩
            | true => cases r.writes.transition <;> exact ⟨rfl, rfl, rfl⟩

variable {X P blockHeight} {s s' : StateStore} {r : TxRun}

theorem storesObject_create {voutIdx : Nat} {out : ElectrsTxOutput} {envelope : UtxoVmEnvelope}
    (haction : selectAction X P s r.tx = .ok (some (.create voutIdx out envelope))) :
    storesObject X P blockHeight s r =
      if r.writes.undo && r.writes.object then
        (createdObjectId r.tx.txid).toOption.map
          (createdObject X r.tx blockHeight voutIdx out envelope)
      else none := by
  unfold storesObject plannedUpdate
  rw [haction]
  cases createdObjectId r.tx.txid <;> rfl

theorem storesObject_call {voutIdx : Nat} {out : ElectrsTxOutput} {envelope : UtxoVmEnvelope}
    {obj : SmartObjectRecord}
    (haction : selectAction X P s r.tx = .ok (some (.call voutIdx out envelope obj))) :
    storesObject X P blockHeight s r =
      if r.writes.undo && r.writes.object then
        calledUpdate X P s r.tx blockHeight voutIdx out envelope obj
      else none := by
  unfold storesObject plannedUpdate
  rw [haction]
  rfl

/-- The object that is stored has a seal of the transaction. -/
theorem storesObject_seal {obj : SmartObjectRecord}
    (h : storesObject X P blockHeight s r = some obj) :
    ∃ vout, obj.sealRef = sealOf r.tx.txid vout := by
  unfold storesObject at h
  split at h
  · obtain ⟨u, hu, hobj⟩ := Option.bind_eq_some_iff.mp h
    obtain ⟨voutIdx, -, -, -, hseal⟩ := plannedUpdate_seal hu hobj
    exact ⟨voutIdx, hseal⟩
  · cases h

/-- It is created, or it is the object whose seal the transaction spends. -/
theorem storesObject_cases {obj : SmartObjectRecord}
    (h : storesObject X P blockHeight s r = some obj) :
    (createdObjectId r.tx.txid = .ok obj.objectId ∧
      ∃ voutIdx out envelope,
        selectAction X P s r.tx = .ok (some (.create voutIdx out envelope))) ∨
    ∃ voutIdx out envelope called, called.objectId = obj.objectId ∧
      selectAction X P s r.tx = .ok (some (.call voutIdx out envelope called)) := by
  cases haction : selectAction X P s r.tx with
  | error e => simp [storesObject, plannedUpdate, haction] at h
  | ok action? =>
    rcases action? with _ | ⟨voutIdx, out, envelope⟩ | ⟨voutIdx, out, envelope, called⟩
    · simp [storesObject, plannedUpdate, haction] at h
    · left
      rw [storesObject_create haction] at h
      split at h
      · obtain ⟨objId, hid, rfl⟩ := Option.map_eq_some_iff.mp h
        refine ⟨?_, voutIdx, out, envelope, rfl⟩
        cases hcreated : createdObjectId r.tx.txid with
        | error e =>
          rw [hcreated] at hid
          cases hid
        | ok objId' =>
          rw [hcreated] at hid
          cases hid
          rfl
      · cases h
    · right
      refine ⟨voutIdx, out, envelope, called, ?_, rfl⟩
      rw [storesObject_call haction] at h
      split at h
      · unfold calledUpdate at h
        split at h
        · cases h
          rfl
        · cases h
      · cases h

theorem callOutcome_congr {obj : SmartObjectRecord}
    (hcode : s.wasmBlobs[obj.codeHash]? = s'.wasmBlobs[obj.codeHash]?) (method : String)
    (args : Json) (caller : String) (satoshis : Nat) :
    callOutcome X P s obj method args caller satoshis =
      callOutcome X P s' obj method args caller satoshis := by
  unfold callOutcome
  rw [hcode]

/-- What a transaction stores depends on the target of its call, and on the code of that. -/
theorem storesObject_congr (htarget : target s r.tx.vin = target s' r.tx.vin)
    (hcode : ∀ obj, target s r.tx.vin = some obj →
      s.wasmBlobs[obj.codeHash]? = s'.wasmBlobs[obj.codeHash]?) :
    storesObject X P blockHeight s r = storesObject X P blockHeight s' r := by
  have haction : selectAction X P s r.tx = selectAction X P s' r.tx := selectAction_congr htarget
  cases hs : selectAction X P s r.tx with
  | error e => simp [storesObject, plannedUpdate, ← haction, hs]
  | ok action? =>
    rcases action? with _ | ⟨voutIdx, out, envelope⟩ | ⟨voutIdx, out, envelope, obj⟩
    · simp [storesObject, plannedUpdate, ← haction, hs]
    · rw [storesObject_create hs, storesObject_create (haction ▸ hs)]
    · rw [storesObject_call hs, storesObject_call (haction ▸ hs)]
      unfold calledUpdate
      rw [callOutcome_congr (hcode obj (selectAction_call X P hs))]

/-! ## 2. The code that is deployed -/

/-- The transaction carries the WASM payload. -/
def Deploys (X : Crates) (tx : ElectrsTx) (payload : Bytes) : Prop :=
  ∃ voutIdx out envelope, Carries X tx voutIdx out envelope ∧ isWasm envelope = true ∧
    envelope.payload = payload

variable (X P blockHeight) in
theorem runTx_wasmBlobs (s : StateStore) (r : TxRun) (codeHash : String) :
    (runTx X P blockHeight s r).wasmBlobs[codeHash]? = s.wasmBlobs[codeHash]? ∨
      ∃ payload, Deploys X r.tx payload ∧ wasmHash X payload = codeHash ∧
        (runTx X P blockHeight s r).wasmBlobs[codeHash]? = some payload := by
  unfold runTx
  rw [run_processTx]
  cases haction : selectAction X P s r.tx with
  | error e => exact .inl rfl
  | ok action? =>
    rcases action? with _ | ⟨voutIdx, out, envelope⟩ | ⟨voutIdx, out, envelope, obj⟩
    · exact .inl rfl
    · have hblobs :
          (run (processCreate X P r.writes r.tx blockHeight voutIdx out envelope) s).1.wasmBlobs =
            (afterBlob X r.writes envelope s).wasmBlobs := by
        rw [run_processCreate]
        dsimp only
        cases createdObjectId r.tx.txid with
        | error e => rfl
        | ok objId =>
          cases r.writes.undo with
          | false => rfl
          | true => cases r.writes.object <;> rfl
      show (run (processCreate ..) s).1.wasmBlobs[codeHash]? = _ ∨ ∃ payload, _ ∧ _ ∧
        (run (processCreate ..) s).1.wasmBlobs[codeHash]? = _
      rw [hblobs]
      unfold afterBlob
      split
      · rename_i hdeploys
        by_cases hcode : codeHash = wasmHash X envelope.payload
        · right
          simp only [Bool.and_eq_true] at hdeploys
          refine ⟨envelope.payload, ⟨voutIdx, out, envelope, selectAction_of haction,
            hdeploys.1.1, rfl⟩, hcode.symm, ?_⟩
          exact (Table.get_insert ..).trans (if_pos hcode)
        · left
          exact (Table.get_insert ..).trans (if_neg hcode)
      · exact .inl rfl
    · left
      show (run (processCall ..) s).1.wasmBlobs[codeHash]? = _
      rw [run_processCall]
      dsimp only
      cases r.writes.undo with
      | false => rfl
      | true =>
        cases callOutcome X P s obj (methodOf (metadataOf envelope)) (argsOf (metadataOf envelope))
            (sender r.tx) out.value with
        | error e => rfl
        | ok result? =>
          cases result? with
          | none => rfl
          | some result => cases r.writes.object <;> cases r.writes.transition <;> rfl

/-- Whatever the transactions deploy under the hash is stored already. -/
def Ready (X : Crates) (block : List TxRun) (s : StateStore) (codeHash : String) : Prop :=
  ∀ r ∈ block, ∀ payload, Deploys X r.tx payload → wasmHash X payload = codeHash →
    s.wasmBlobs[codeHash]? = some payload

variable (P blockHeight) in
/-- Code that is ready stays as it is. -/
theorem Ready.kept {block : List TxRun} {codeHash : String} (h : Ready X block s codeHash) :
    (runBlock X P blockHeight block s).wasmBlobs[codeHash]? = s.wasmBlobs[codeHash]? := by
  induction block generalizing s with
  | nil => rfl
  | cons r rest ih =>
    have hstep : (runTx X P blockHeight s r).wasmBlobs[codeHash]? = s.wasmBlobs[codeHash]? := by
      rcases runTx_wasmBlobs X P blockHeight s r codeHash with
        hsame | ⟨payload, hdeploys, hhash, hstored⟩
      · exact hsame
      · rw [hstored, h r List.mem_cons_self payload hdeploys hhash]
    show (runBlock X P blockHeight rest (runTx X P blockHeight s r)).wasmBlobs[codeHash]? = _
    rw [ih fun r' hr' payload hdeploys hhash ↦ by
      rw [hstep]
      exact h r' (List.mem_cons_of_mem _ hr') payload hdeploys hhash, hstep]

/-! ## 3. The first scan -/

/-- The transaction spends the seal. -/
def Spends (tx : ElectrsTx) (sealRef : String) : Prop :=
  ∃ vin ∈ tx.vin, sealRef = sealOf vin.txid vin.vout

/-- A block of L1: no transaction spends its own outputs or those of a later one, no two have the
same txid, and no two spend the same output. -/
def L1Ordered : List TxRun → Prop
  | [] => True
  | r :: rest =>
      (∀ r' ∈ r :: rest, ∀ vout, ¬ Spends r.tx (sealOf r'.tx.txid vout)) ∧
      (∀ r' ∈ rest, r'.tx.txid ≠ r.tx.txid ∧ ∀ σ, Spends r.tx σ → ¬ Spends r'.tx σ) ∧
      L1Ordered rest

/-- The transactions of the block are new to the store, and so are the ids of the objects that they
would create. -/
structure NewTo (block : List TxRun) (s : StateStore) : Prop where
  ordered : L1Ordered block
  unsealed : ∀ r ∈ block, ∀ (id : String) (obj : SmartObjectRecord), s.objects[id]? = some obj →
    ∀ vout, obj.sealRef ≠ sealOf r.tx.txid vout
  freshId : ∀ r ∈ block, ∀ id, createdObjectId r.tx.txid = .ok id → s.objects[id]? = none
  distinctIds : block.Pairwise fun r r' ↦
    ∀ id, createdObjectId r.tx.txid = .ok id → createdObjectId r'.tx.txid ≠ .ok id

variable (X P blockHeight)

/-- A property of every transaction of a block, in the state that the scan has reached. -/
def AlongScan (φ : StateStore → TxRun → Prop) : List TxRun → StateStore → Prop
  | [], _ => True
  | r :: rest, s => φ s r ∧ AlongScan φ rest (runTx X P blockHeight s r)

/-- The object that the transaction stores can be read back, and the code of each object whose seal
it spends is not deployed by the block later on. -/
structure ScanSafe (ids : Set String) (block : List TxRun) (s : StateStore) (r : TxRun) : Prop where
  readable : ∀ obj, storesObject X P blockHeight s r = some obj →
    obj.readable = true ∧ obj.objectId ∈ ids
  ready : ∀ σ obj, Spends r.tx σ → lookupSeal s σ = .ok (some obj) → Ready X block s obj.codeHash

variable {X P blockHeight} {ids : Set String} {block rest : List TxRun}

variable (X P blockHeight) in
theorem runTx_storesObject (s : StateStore) (r : TxRun) (id : String) :
    (runTx X P blockHeight s r).objects[id]? =
      match storesObject X P blockHeight s r with
      | some obj => if id = obj.objectId then some obj else s.objects[id]?
      | none => s.objects[id]? := by
  rw [(runTx_sameObjects X P blockHeight s r).objects]
  unfold putStored
  cases storesObject X P blockHeight s r with
  | none => rfl
  | some obj => exact putObject_objects X obj s id

theorem target_spends {tx : ElectrsTx} {obj : SmartObjectRecord} (h : target s tx.vin = some obj) :
    ∃ σ, Spends tx σ ∧ lookupSeal s σ = .ok (some obj) := by
  obtain ⟨vin, hmem, hlookup⟩ := target_eq_some h
  exact ⟨_, ⟨vin, hmem, rfl⟩, hlookup⟩

/-- A call acts on an object that is stored, and spends its seal. -/
theorem selectAction_called (hs : s.Booked ids) {tx : ElectrsTx} {voutIdx : Nat}
    {out : ElectrsTxOutput} {envelope : UtxoVmEnvelope} {obj : SmartObjectRecord}
    (haction : selectAction X P s tx = .ok (some (.call voutIdx out envelope obj))) :
    s.objects[obj.objectId]? = some obj ∧ Spends tx obj.sealRef := by
  obtain ⟨σ, hspends, hlookup⟩ := target_spends (selectAction_call X P haction)
  obtain ⟨hobj, rfl⟩ := hs.lookupSeal_iff.mp hlookup
  exact ⟨hobj, hspends⟩

/-- What is stored in the place of an object is a call that spends its seal. -/
theorem storesObject_replaces (hs : s.Booked ids)
    (hfresh : ∀ id, createdObjectId r.tx.txid = .ok id → s.objects[id]? = none)
    {obj old : SmartObjectRecord} (h : storesObject X P blockHeight s r = some obj)
    (hold : s.objects[obj.objectId]? = some old) : Spends r.tx old.sealRef := by
  rcases storesObject_cases h with ⟨hid, -⟩ | ⟨voutIdx, out, envelope, called, hid, haction⟩
  · rw [hfresh _ hid] at hold
    cases hold
  · obtain ⟨hstored, hspends⟩ := selectAction_called hs haction
    rw [hid, hold] at hstored
    cases hstored
    exact hspends

theorem runTx_kept (hideal : IdealHash X ids) (hs : s.Kept X ids)
    (hread : ∀ obj, storesObject X P blockHeight s r = some obj →
      obj.readable = true ∧ obj.objectId ∈ ids)
    (hfresh : ∀ obj, storesObject X P blockHeight s r = some obj →
      ∀ id (r' : SmartObjectRecord), s.objects[id]? = some r' → r'.sealRef = obj.sealRef →
        id = obj.objectId) : (runTx X P blockHeight s r).Kept X ids := by
  refine Kept.congr ?_ (runTx_sameObjects X P blockHeight s r)
  unfold putStored
  cases hstored : storesObject X P blockHeight s r with
  | none => exact hs
  | some obj =>
    obtain ⟨hreadable, hmem⟩ := hread obj hstored
    exact hs.putObject hideal hmem hreadable (hfresh obj hstored)

theorem NewTo.step (h : NewTo (r :: rest) s) (hs : s.Booked ids) :
    NewTo rest (runTx X P blockHeight s r) := by
  obtain ⟨-, hother, hordered⟩ := h.ordered
  obtain ⟨hids, hdistinct⟩ := List.pairwise_cons.mp h.distinctIds
  refine ⟨hordered, ?_, ?_, hdistinct⟩
  · intro r' hr' id obj hobj vout hseal
    rcases runTx_objects_cases X P blockHeight s r id obj hobj with hold | ⟨vout', hnew⟩
    · exact h.unsealed r' (List.mem_cons_of_mem _ hr') id obj hold vout hseal
    · exact (hother r' hr').1 (sealOf_inj (hseal.symm.trans hnew)).1
  · intro r' hr' id hid
    have hnone := h.freshId r' (List.mem_cons_of_mem _ hr') id hid
    rw [runTx_storesObject]
    cases hstored : storesObject X P blockHeight s r with
    | none => exact hnone
    | some obj =>
      dsimp only
      rw [if_neg]
      · exact hnone
      · rintro rfl
        rcases storesObject_cases hstored with
          ⟨hcreated, -⟩ | ⟨voutIdx, out, envelope, called, hcalled, haction⟩
        · exact hids r' hr' _ hcreated hid
        · have hobj := (selectAction_called hs haction).1
          rw [hcalled, hnone] at hobj
          cases hobj

theorem NewTo.runTx_kept (h : NewTo (r :: rest) s) (hideal : IdealHash X ids) (hs : s.Kept X ids)
    (hregular : ScanSafe X P blockHeight ids block s r) :
    (runTx X P blockHeight s r).Kept X ids := by
  refine BlockProcessor.runTx_kept hideal hs hregular.readable fun obj hobj id r' hr' hseal ↦ ?_
  obtain ⟨vout, hnew⟩ := storesObject_seal hobj
  exact absurd (hseal.trans hnew) (h.unsealed r List.mem_cons_self id r' hr' vout)

/-- A seal that an object has at the end is one that it had, or an output of the block. -/
theorem runBlock_seal {id : String} {obj : SmartObjectRecord}
    (h : (runBlock X P blockHeight rest s).objects[id]? = some obj) :
    s.objects[id]? = some obj ∨ ∃ r ∈ rest, ∃ vout, obj.sealRef = sealOf r.tx.txid vout := by
  induction rest generalizing s with
  | nil => exact .inl h
  | cons r rest ih =>
    rcases ih h with hstep | ⟨r', hr', hvout⟩
    · rcases runTx_objects_cases X P blockHeight s r id obj hstep with hold | ⟨vout, hnew⟩
      · exact .inl hold
      · exact .inr ⟨r, List.mem_cons_self, vout, hnew⟩
    · exact .inr ⟨r', List.mem_cons_of_mem _ hr', hvout⟩

/-- An object whose seal no transaction spends stays as it is. -/
theorem runBlock_unspent (hideal : IdealHash X ids) (h : NewTo rest s) (hs : s.Kept X ids)
    (hregular : AlongScan X P blockHeight (ScanSafe X P blockHeight ids block) rest s) {id : String}
    {obj : SmartObjectRecord} (hobj : s.objects[id]? = some obj)
    (hunspent : ∀ r ∈ rest, ¬ Spends r.tx obj.sealRef) :
    (runBlock X P blockHeight rest s).objects[id]? = some obj := by
  induction rest generalizing s with
  | nil => exact hobj
  | cons r rest ih =>
    refine ih (h.step hs.booked) (h.runTx_kept hideal hs hregular.1) hregular.2 ?_
      fun r' hr' ↦ hunspent r' (List.mem_cons_of_mem _ hr')
    rw [runTx_storesObject]
    cases hstored : storesObject X P blockHeight s r with
    | none => exact hobj
    | some new =>
      dsimp only
      rw [if_neg]
      · exact hobj
      · rintro rfl
        exact hunspent r List.mem_cons_self (storesObject_replaces hs.booked
          (h.freshId r List.mem_cons_self) hstored hobj)

end BlockProcessor

end UtxoVm
