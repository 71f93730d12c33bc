import UtxoVm.Scanner.RollbackExact

/-!
# What a rejected transaction leaves behind

`process_tx` writes the undo record of a call before it runs the contract.  When the contract fails,
or its code is missing, the record stays: a rejected transaction leaves no trace exactly when it is
not such a call, or when the record is already in the table.
-/

namespace UtxoVm

open RustStd StateStore Prog

/-- The objects, the seals, the transitions, the undo log and the state root are as before. -/
structure NoTrace (s s' : StateStore) : Prop where
  objects : s'.objects = s.objects
  seals : s'.seals = s.seals
  transitions : s'.transitions = s.transitions
  undoLogs : s'.undoLogs = s.undoLogs
  root : (run currentStateRoot s').2 = (run currentStateRoot s).2

theorem NoTrace.refl (s : StateStore) : NoTrace s s := ⟨rfl, rfl, rfl, rfl, rfl⟩

/-- `Ok(None)`, or an error that is not one of the database. -/
def Rejected (result : Except Exit (Option String)) : Prop :=
  result = .ok none ∨ ∃ e, result = .error e ∧ e ≠ storageError

namespace BlockProcessor

variable (X : Crates) (P : BlockProcessor)

/-- The undo record of a call that the transaction makes is already in the table. -/
def UndoInPlace (s : StateStore) (tx : ElectrsTx) (blockHeight : Nat) : Prop :=
  ∀ voutIdx out envelope obj,
    selectAction X P s tx = .ok (some (.call voutIdx out envelope obj)) →
      s.undoLogs[undoId blockHeight voutIdx tx.txid]? =
        some (P.updateUndo tx blockHeight voutIdx obj)

variable {X P} {s : StateStore} {w : Writes} {now : Int} {tx : ElectrsTx} {blockHeight : Nat}

theorem noTrace_putUndo_iff (undo : UndoLogRecord) (s : StateStore) :
    NoTrace s (putUndo undo s) ↔ s.undoLogs[undo.id]? = some undo := by
  rw [← Table.insert_eq_self_iff]
  constructor
  · exact fun h ↦ h.undoLogs
  · exact fun h ↦ ⟨rfl, rfl, rfl, h, rfl⟩

theorem noTrace_afterBlob (envelope : UtxoVmEnvelope) : NoTrace s (afterBlob X w envelope s) := by
  unfold afterBlob
  split <;> exact ⟨rfl, rfl, rfl, rfl, rfl⟩

/-- A create that is not carried out has written at most a WASM blob. -/
theorem processCreate_rejected {voutIdx : Nat} {out : ElectrsTxOutput} {envelope : UtxoVmEnvelope}
    (h : Rejected (run (processCreate X P w tx blockHeight voutIdx out envelope) s).2) :
    NoTrace s (run (processCreate X P w tx blockHeight voutIdx out envelope) s).1 := by
  rw [run_processCreate] at h ⊢
  dsimp only at h ⊢
  have hstorage : ¬ Rejected (.error storageError) := by
    rintro (h | ⟨e, h, hne⟩)
    · cases h
    · cases h
      exact hne rfl
  cases hid : createdObjectId tx.txid with
  | error e => exact noTrace_afterBlob envelope
  | ok objId =>
    rw [hid] at h
    dsimp only at h
    cases hundo : w.undo with
    | false =>
      rw [hundo] at h
      exact absurd h hstorage
    | true =>
      rw [hundo, if_pos rfl] at h
      cases hobject : w.object with
      | false =>
        rw [hobject] at h
        exact absurd h hstorage
      | true =>
        rw [hobject, if_pos rfl] at h
        rcases h with h | ⟨e, h, -⟩ <;> cases h

/-- A call that is not carried out has written its undo record. -/
theorem processCall_rejected {voutIdx : Nat} {out : ElectrsTxOutput} {envelope : UtxoVmEnvelope}
    {obj : SmartObjectRecord}
    (h : Rejected (run (processCall X P w now tx blockHeight voutIdx out envelope obj) s).2) :
    (run (processCall X P w now tx blockHeight voutIdx out envelope obj) s).1 =
      putUndo (P.updateUndo tx blockHeight voutIdx obj) s := by
  rw [run_processCall] at h ⊢
  have hstorage : ¬ Rejected (.error storageError) := by
    rintro (h | ⟨e, h, hne⟩)
    · cases h
    · cases h
      exact hne rfl
  cases hundo : w.undo with
  | false =>
    rw [hundo] at h
    exact absurd h hstorage
  | true =>
    rw [hundo, if_pos rfl] at h
    rw [if_pos rfl]
    dsimp only at h ⊢
    cases houtcome : callOutcome X P s obj (methodOf (metadataOf envelope))
        (argsOf (metadataOf envelope)) (sender tx) out.value with
    | error e => rfl
    | ok result? =>
      cases result? with
      | none => rfl
      | some result =>
        rw [houtcome] at h
        dsimp only at h
        cases hobject : w.object with
        | false =>
          rw [hobject] at h
          exact absurd h hstorage
        | true =>
          rw [hobject, if_pos rfl] at h
          cases htransition : w.transition with
          | false =>
            rw [htransition] at h
            exact absurd h hstorage
          | true =>
            rw [htransition, if_pos rfl] at h
            rcases h with h | ⟨e, h, -⟩ <;> cases h

/-- **A rejected transaction leaves no trace** exactly when it makes no call, or when the undo
record of the call is in the table already. -/
theorem rejected_leaves_no_trace_iff
    (h : Rejected (run (processTx X P w now tx blockHeight) s).2) :
    NoTrace s (run (processTx X P w now tx blockHeight) s).1 ↔
      UndoInPlace X P s tx blockHeight := by
  unfold UndoInPlace
  rw [run_processTx] at h ⊢
  cases haction : selectAction X P s tx with
  | error e =>
    constructor
    · intro _ _ _ _ _ hcall
      cases hcall
    · exact fun _ ↦ .refl s
  | ok action? =>
    rw [haction] at h
    rcases action? with _ | ⟨voutIdx, out, envelope⟩ | ⟨voutIdx, out, envelope, obj⟩
    · constructor
      · intro _ _ _ _ _ hcall
        cases hcall
      · exact fun _ ↦ .refl s
    · constructor
      · intro _ _ _ _ _ hcall
        cases hcall
      · exact fun _ ↦ processCreate_rejected h
    · show NoTrace s (run (processCall ..) s).1 ↔ _
      rw [processCall_rejected h, noTrace_putUndo_iff]
      constructor
      · intro hplace voutIdx' out' envelope' obj' hcall
        cases hcall
        exact hplace
      · exact fun hplace ↦ hplace voutIdx out envelope obj rfl

/-- A rejected transaction finds its undo record in place when it is tried again. -/
theorem rejected_undoInPlace (h : Rejected (run (processTx X P w now tx blockHeight) s).2) :
    UndoInPlace X P (run (processTx X P w now tx blockHeight) s).1 tx blockHeight := by
  unfold UndoInPlace
  -- a rejected transaction leaves the tables that the selection reads
  have hsame {s' : StateStore} (hobjects : s'.objects = s.objects) (hseals : s'.seals = s.seals) :
      selectAction X P s' tx = selectAction X P s tx := by
    refine selectAction_congr (target_congr fun vin _ ↦ ?_)
    unfold lookupSeal
    rw [hobjects, hseals]
  rw [run_processTx] at h ⊢
  cases haction : selectAction X P s tx with
  | error e =>
    intro voutIdx out envelope obj hcall
    change selectAction X P s tx = _ at hcall
    rw [haction] at hcall
    cases hcall
  | ok action? =>
    rw [haction] at h
    rcases action? with _ | ⟨voutIdx, out, envelope⟩ | ⟨voutIdx, out, envelope, obj⟩
    · intro voutIdx out envelope obj hcall
      change selectAction X P s tx = _ at hcall
      rw [haction] at hcall
      cases hcall
    · have hkept := processCreate_rejected h
      intro voutIdx' out' envelope' obj hcall
      change selectAction X P (run (processCreate ..) s).1 tx = _ at hcall
      rw [hsame hkept.objects hkept.seals, haction] at hcall
      cases hcall
    · have hundo := processCall_rejected h
      intro voutIdx' out' envelope' obj' hcall
      change selectAction X P (run (processCall ..) s).1 tx = _ at hcall
      show (run (processCall ..) s).1.undoLogs[_]? = _
      rw [hsame (by rw [hundo]; rfl) (by rw [hundo]; rfl), haction] at hcall
      cases hcall
      -- the first try wrote the record that the second would write
      rw [hundo]
      exact (putUndo_undoLogs ..).trans (if_pos rfl)

/-- An object whose contract runs out of gas. -/
def demoFailing : SmartObjectRecord := { demoObject 1 with codeHash := "" }

theorem demoFailing_rejected {s : StateStore}
    (h : (run (processTx demoCrates demoProcessor {} 0 demoCallTx 2) s).2.toOption = some none) :
    Rejected (run (processTx demoCrates demoProcessor {} 0 demoCallTx 2) s).2 := by
  left
  revert h
  cases (run (processTx demoCrates demoProcessor {} 0 demoCallTx 2) s).2 with
  | error e => exact fun h ↦ by cases h
  | ok r => exact fun h ↦ by rw [Option.some.inj h]

/-- The call of the object is reverted, and reverted again at a second try. -/
theorem demoFailing_evaluated :
    let tried := run (processTx demoCrates demoProcessor {} 0 demoCallTx 2)
      (putObject demoCrates demoFailing (empty demoCrates))
    tried.2.toOption = some none ∧ tried.1.undoLogs.size = 1 ∧
      (run (processTx demoCrates demoProcessor {} 0 demoCallTx 2) tried.1).2.toOption =
        some none := by
  decide +kernel

/-- The second try leaves no trace besides the undo record of the first. -/
theorem rejected_leaves_no_trace_iff_retried :
    let s := (run (processTx demoCrates demoProcessor {} 0 demoCallTx 2)
      (putObject demoCrates demoFailing (empty demoCrates))).1
    s.undoLogs.size = 1 ∧
      NoTrace s (run (processTx demoCrates demoProcessor {} 0 demoCallTx 2) s).1 := by
  obtain ⟨htried, hsize, hretried⟩ := demoFailing_evaluated
  exact ⟨hsize, (rejected_leaves_no_trace_iff (demoFailing_rejected hretried)).mpr
    (rejected_undoInPlace (demoFailing_rejected htried))⟩

/-- The contract fails, the call is reverted, and its undo record is left behind. -/
theorem reverted_call_leaves_undo :
    ¬ ∀ (s : StateStore) (w : Writes) (now : Int) (tx : ElectrsTx) (blockHeight : Nat),
      Rejected (run (processTx demoCrates demoProcessor w now tx blockHeight) s).2 →
        NoTrace s (run (processTx demoCrates demoProcessor w now tx blockHeight) s).1 := by
  intro hclaim
  let s := putObject demoCrates demoFailing (empty demoCrates)
  obtain ⟨htried, hsize, -⟩ := demoFailing_evaluated
  have hundo := congrArg Std.ExtTreeMap.size
    (hclaim s {} 0 demoCallTx 2 (demoFailing_rejected htried)).undoLogs
  have hnone : s.undoLogs.size = 0 := rfl
  rw [hsize, hnone] at hundo
  cases hundo

end BlockProcessor

end UtxoVm
