import UtxoVm.Scanner.RollbackExact

/-!
# Object ids of creates

A create stores its object under the first sixteen hex digits of its txid, over whatever is stored
there, and its undo record deletes that id.  The objects of another transaction are safe from it
exactly when the two txids do not begin alike.
-/

namespace UtxoVm

open RustStd StateStore Prog BlockProcessor

/-- The create `tx`, run on `s`, leaves the object `id` as it is, and so does the replay of its undo
record in any later store. -/
structure CreateSpares (X : Crates) (P : BlockProcessor) (s : StateStore) (tx : ElectrsTx)
    (blockHeight voutIdx : Nat) (id : String) : Prop where
  run : ∀ w now, (Prog.run (P.processTx X w now tx blockHeight) s).1.objects[id]? = s.objects[id]?
  rollback : ∀ objId, createdObjectId tx.txid = .ok objId → ∀ targetHeight (later : StateStore),
    (undoOne targetHeight later (P.createUndo tx blockHeight voutIdx objId)).objects[id]? =
      later.objects[id]?

variable {X : Crates} {P : BlockProcessor} {s : StateStore} {tx tx' : ElectrsTx}
  {blockHeight voutIdx : Nat} {out : ElectrsTxOutput} {envelope : UtxoVmEnvelope} {id : String}

theorem afterBlob_objects (w : Writes) (envelope : UtxoVmEnvelope) (s : StateStore) :
    (afterBlob X w envelope s).objects = s.objects :=
  (afterBlob_sameCore X w envelope s).objects

/-- A create writes no object but its own. -/
theorem processCreate_objects (w : Writes) (hne : createdObjectId tx.txid ≠ .ok id) :
    (run (P.processCreate X w tx blockHeight voutIdx out envelope) s).1.objects[id]? =
      s.objects[id]? := by
  rw [run_processCreate]
  dsimp only
  cases hid : createdObjectId tx.txid with
  | error e =>
    dsimp only
    rw [afterBlob_objects]
  | ok objId =>
    dsimp only
    cases w.undo with
    | false => exact congrArg (·[id]?) (afterBlob_objects w envelope s)
    | true =>
      cases w.object with
      | false => exact congrArg (·[id]?) (afterBlob_objects w envelope s)
      | true =>
        have hother : id ≠ objId := by
          rintro rfl
          exact hne hid
        show ((afterBlob X w envelope s).objects.insert objId _)[id]? = _
        rw [Table.get_insert, if_neg hother, afterBlob_objects]

/-- The undo record of a create removes its object. -/
theorem undoOne_createUndo (targetHeight : Nat) (later : StateStore) (objId : String) :
    (undoOne targetHeight later (P.createUndo tx blockHeight voutIdx objId)).objects[id]? =
      if id = objId then none else later.objects[id]? :=
  undoOne_objects (.create rfl rfl rfl) rfl targetHeight later id

/-- **A create never clobbers a foreign object** exactly when the object ids differ. -/
theorem create_spares_iff
    (hcreate : selectAction X P s tx = .ok (some (.create voutIdx out envelope)))
    (hid : createdObjectId tx'.txid = .ok id) :
    CreateSpares X P s tx blockHeight voutIdx id ↔
      createdObjectId tx.txid ≠ createdObjectId tx'.txid := by
  rw [hid]
  constructor
  · rintro ⟨-, hrollback⟩ hsame
    let obj : SmartObjectRecord :=
      { objectId := id, codeHash := "", sealRef := "", satoshis := 0, owner := ""
        stateData := .null, createdAtBlock := 0, updatedAtBlock := 0 }
    have hkept := hrollback id hsame 0 (putObject X obj s)
    have hstored : (putObject X obj s).objects[id]? = some obj :=
      (Table.get_insert ..).trans (if_pos rfl)
    rw [undoOne_createUndo, if_pos rfl, hstored] at hkept
    cases hkept
  · intro hne
    constructor
    · intro w now
      rw [run_processTx, hcreate]
      exact processCreate_objects w hne
    · intro objId hobjId targetHeight later
      rw [undoOne_createUndo, if_neg]
      rintro rfl
      exact hne hobjId

/-- The envelope of `demoCreateTx`. -/
def demoCreateEnvelope : UtxoVmEnvelope :=
  mkEnvelope demoCrates 1 (asBytes "application/json") (asBytes demoCreate.compact)

/-- The creates of two transactions with different first digits. -/
theorem create_spares_iff_other :
    CreateSpares demoCrates demoProcessor (putObject demoCrates (demoObject 1) (empty demoCrates))
      { demoCreateTx with txid := demoCallTx.txid } 2 0 demoObjectId ↔
    createdObjectId demoCallTx.txid ≠ createdObjectId demoCreateTx.txid := by
  have haction : selectAction demoCrates demoProcessor
      (putObject demoCrates (demoObject 1) (empty demoCrates))
      { demoCreateTx with txid := demoCallTx.txid } =
      .ok (some (.create 0 (jsonOutput 1000 demoCreate) demoCreateEnvelope)) := by
    set_option maxRecDepth 4000 in
    rfl
  have hid : createdObjectId demoCreateTx.txid = .ok demoObjectId := by decide +kernel
  exact create_spares_iff haction hid

/-- A create whose txid begins like that of `demoCreateTx`. -/
def demoGroundTx : ElectrsTx :=
  { demoCreateTx with txid := "00000001000000000000000000000000000000000000000000000000000000ff" }

/-- Two creates with different txids and the same object id: the second takes the place of the
object of the first. -/
theorem create_clobbers :
    ¬ ∀ (s : StateStore) (tx tx' : ElectrsTx) (blockHeight voutIdx : Nat) (out : ElectrsTxOutput)
        (envelope : UtxoVmEnvelope) (id : String),
      validateHexHash tx.txid 32 = true → validateHexHash tx'.txid 32 = true → tx.txid ≠ tx'.txid →
      selectAction demoCrates demoProcessor s tx = .ok (some (.create voutIdx out envelope)) →
      createdObjectId tx'.txid = .ok id →
      CreateSpares demoCrates demoProcessor s tx blockHeight voutIdx id := by
  intro h
  let s := putObject demoCrates (demoObject 1) (empty demoCrates)
  have haction : selectAction demoCrates demoProcessor s demoGroundTx =
      .ok (some (.create 0 (jsonOutput 1000 demoCreate) demoCreateEnvelope)) := by
    set_option maxRecDepth 4000 in
    rfl
  have hspares := h s demoGroundTx demoCreateTx 2 0 _ _ demoObjectId (by decide +kernel)
    (by decide +kernel) (by decide +kernel) haction (by decide +kernel)
  -- the object of the first transaction now has the seal of the second
  have hseal := congrArg (·.map (·.sealRef)) (hspares.run {} 0)
  exact absurd hseal (by decide +kernel)

end UtxoVm
