import UtxoVm.CrossChain.Bridge
import UtxoVm.Storage.Consistency

/-!
# Sequential runs of the bridge

What the operations of the bridge do when one call runs alone: the rule for operations of the
store, the replay guard, and the tables that an operation leaves alone.
-/

namespace UtxoVm

open RustStd StateStore Prog

namespace BridgeManager

variable (X : Crates)

/-! ## 1. Operations of the store -/

@[simp] theorem run_onStore {α : Type} (p : StoreProg α) (b : BridgeManager) :
    run (onStore p) b = ({ b with store := (run p b.store).1 }, (run p b.store).2) := by
  have hget (s : StateStore) (b : BridgeManager) : { b with store := s }.store = s := rfl
  exact run_zoom hget (fun _ _ _ ↦ rfl) (fun _ ↦ rfl) p b

/-- An error with its context. -/
def contextError (text : String) : Exit → Exit
  | .err _ => .err (.context text)
  | .panic => .panic

theorem run_withContext {α : Type} (text : String) (p : BridgeProg α) (b : BridgeManager) :
    run (withContext text p) b =
      match run p b with
      | (b', .ok a) => (b', .ok a)
      | (b', .error e) => (b', .error (contextError text e)) := by
  unfold withContext
  rw [run_bind, run_attempt, andThen_ok]
  cases run p b with
  | mk b' r =>
    cases r with
    | ok a => rfl
    | error e => cases e <;> rfl

/-! ## 2. The replay guard -/

/-- The two places where the replay guard keeps its entries: the table and the cache. -/
def guardEntries (b : BridgeManager) : Table String String × Table String String :=
  (b.store.mintedProofs, b.mintedObjects)

/-- The manager with an entry of the guard in the table. -/
def withProof (objectId transferId : String) (b : BridgeManager) : BridgeManager :=
  { b with
    store := { b.store with mintedProofs := b.store.mintedProofs.insert objectId transferId } }

/-- What the replay guard does in the state `b`. -/
def guardOutcome (c : MintCall) (b : BridgeManager) : BridgeManager × Except Exit Unit :=
  match b.store.mintedProofs[c.proof.objectId]? with
  | none =>
      if c.guardCommits then (withProof c.proof.objectId c.transferId b, .ok ())
      else (b, .error (.err (.context "Failed to check minted proofs store")))
  | some existing =>
      if existing ≠ c.transferId then
        (b, .error (.err (.message (replayError c.proof.objectId existing c.transferId))))
      else
        match b.transfers[c.transferId]? with
        | some t =>
            if t.status.isFinal then
              (b, .error (.err (.message (remintError c.transferId t.status))))
            else (b, .ok ())
        | none => (b, .ok ())

theorem contains_eq_isSome {ν : Type} (t : Table String ν) (k : String) :
    t.contains k = (t[k]?).isSome := by
  rw [Std.ExtTreeMap.isSome_getElem?_eq_contains]

theorem run_replayGuard (c : MintCall) (b : BridgeManager) :
    run (replayGuard c) b = guardOutcome c b := by
  unfold replayGuard guardOutcome
  rw [run_bind, run_withContext, run_onStore]
  unfold checkAndInsertMintedProof
  rw [run_act, contains_eq_isSome]
  cases hentry : b.store.mintedProofs[c.proof.objectId]? with
  | none =>
    cases c.guardCommits <;> rfl
  | some existing =>
    show run (onStore (getMintedProof c.proof.objectId) >>= _) b = _
    rw [run_bind, run_onStore]
    unfold getMintedProof
    rw [run_read, andThen_ok, hentry]
    dsimp only
    split
    · rfl
    · rw [run_bind, run_read, andThen_ok]
      cases b.transfers[c.transferId]? with
      | none => rfl
      | some t =>
        dsimp only
        split <;> rfl

/-! ## 3. What the operations leave alone -/

theorem keeps_onStore {α : Type} {p : StoreProg α} (hp : Keeps (·.mintedProofs) p) :
    Keeps guardEntries (onStore p) := by
  have hguard (s : StateStore) (b : BridgeManager) (hs : s.mintedProofs = b.store.mintedProofs) :
      guardEntries { b with store := s } = guardEntries b := Prod.ext hs rfl
  exact Keeps.zoom hp hguard

theorem keeps_withContext {γ α : Type} {f : BridgeManager → γ} {text : String} {p : BridgeProg α}
    (hp : Keeps f p) : Keeps f (withContext text p) := by
  refine hp.attempt.bind fun r ↦ ?_
  cases r with
  | ok a => trivial
  | error e => cases e <;> trivial

private theorem keeps_save (c : Bool) (obj : SmartObjectRecord) :
    Keeps guardEntries (onStore (saveObject X c obj)) :=
  keeps_onStore (keeps_saveObject (fun _ ↦ rfl) fun _ _ ↦ rfl)

private theorem keeps_saveTransfer (c : Bool) (t : BridgeTransfer) :
    Keeps guardEntries (onStore (saveBridgeTransfer c t)) :=
  keeps_onStore (keeps_commit fun _ ↦ rfl)

theorem updateTransfer_keeps (c : Bool) (t : BridgeTransfer) :
    Keeps guardEntries (updateTransfer c t) :=
  (Keeps.modify fun _ ↦ rfl).bind fun _ ↦ keeps_saveTransfer c t

theorem unlockObject_keeps (c : Bool) (t : BridgeTransfer) :
    Keeps guardEntries (unlockObject X c t) := by
  refine (keeps_withContext (keeps_onStore (keeps_getObject _))).bind fun obj? ↦ ?_
  cases obj? with
  | none => trivial
  | some obj =>
    dsimp only
    split
    · exact keeps_save X c _
    · trivial

theorem lockAssets_keeps (c : LockCall) : Keeps guardEntries (lockAssets X c) := by
  refine (keeps_withContext (keeps_onStore (keeps_getObject _))).bind fun obj? ↦ ?_
  cases obj? with
  | none => trivial
  | some obj =>
    refine (Keeps.ofExcept _).bind fun _ ↦ (keeps_save X _ _).bind fun _ ↦ ?_
    refine (keeps_saveTransfer _ _).bind fun _ ↦ Keeps.bind ?_ fun _ ↦ .pure _
    exact Keeps.modify fun _ ↦ rfl

theorem cancelTransfer_keeps (c : CancelCall) : Keeps guardEntries (cancelTransfer X c) := by
  refine (Keeps.read _).bind fun t? ↦ ?_
  cases t? with
  | none => trivial
  | some t =>
    refine (Keeps.ofExcept _).bind fun _ ↦ (keeps_onStore (keeps_getObject _)).bind fun obj? ↦ ?_
    cases obj? with
    | none => trivial
    | some obj =>
      refine (Keeps.ofExcept _).bind fun _ ↦ (unlockObject_keeps X _ _).bind fun _ ↦ ?_
      exact (updateTransfer_keeps _ _).bind fun _ ↦ .pure _

theorem rejectProof_keeps (c : MintCall) (t : BridgeTransfer) (error : Option String) :
    Keeps guardEntries (rejectProof X c t error) :=
  (updateTransfer_keeps _ _).bind fun _ ↦ (unlockObject_keeps X _ _).attempt.bind fun _ ↦ trivial

theorem completeMint_keeps (c : MintCall) (t : BridgeTransfer) :
    Keeps guardEntries (completeMint X c t) :=
  (updateTransfer_keeps _ _).bind fun _ ↦ (keeps_save X _ _).bind fun _ ↦
    (updateTransfer_keeps _ _).bind fun _ ↦ .pure _

/-- After the replay guard, no entry of the guard changes. -/
theorem mintTransfer_keeps (c : MintCall) : Keeps guardEntries (mintTransfer X c) := by
  refine (Keeps.read _).bind fun t? ↦ ?_
  cases t? with
  | none => trivial
  | some t =>
    dsimp only
    split
    · trivial
    · split
      · exact rejectProof_keeps X c t _
      · exact (Keeps.ofExcept _).bind fun _ ↦ completeMint_keeps X c t

/-! ## 4. The outcome of a mint -/

@[simp] theorem run_updateTransfer (commits : Bool) (t : BridgeTransfer) (b : BridgeManager) :
    run (updateTransfer commits t) b =
      let b' := { b with transfers := b.transfers.insert t.id t }
      if commits then
        ({ b' with store :=
            { b'.store with bridgeTransfers := b'.store.bridgeTransfers.insert t.id t } }, .ok ())
      else (b', .error storageError) := by
  unfold updateTransfer saveBridgeTransfer
  rw [run_bind, run_modify, andThen_ok, run_onStore, run_commit]
  cases commits <;> rfl

theorem completeMint_ok_iff (c : MintCall) (t : BridgeTransfer) (b : BridgeManager) :
    (∃ t', (run (completeMint X c t) b).2 = .ok t') ↔
      c.verifiedCommits = true ∧ c.objectCommits = true ∧ c.mintedCommits = true := by
  unfold completeMint
  simp only [run_bind, run_updateTransfer]
  cases c.verifiedCommits with
  | false => simp
  | true =>
    simp only [if_true, andThen_ok, run_bind, run_onStore, run_saveObject]
    cases c.objectCommits with
    | false => simp
    | true => cases c.mintedCommits <;> simp

theorem rejectProof_error (c : MintCall) (t : BridgeTransfer) (error : Option String)
    (b : BridgeManager) : ∃ e, (run (rejectProof X c t error) b).2 = .error e := by
  unfold rejectProof
  simp only [run_bind, run_updateTransfer]
  cases c.failedCommits with
  | false => simp
  | true => simp [bail]

/-- The transfer can be minted with this proof, and all writes commit. -/
def Accepts (c : MintCall) (b : BridgeManager) : Prop :=
  ∃ t, b.transfers[c.transferId]? = some t ∧ t.status.isFinal = false ∧
    (CrossChainVerifier.verifyProof X c.consensus c.proof).valid = true ∧
    checkBinding c t = .ok () ∧
    c.verifiedCommits = true ∧ c.objectCommits = true ∧ c.mintedCommits = true

theorem mintTransfer_ok_iff (c : MintCall) (b : BridgeManager) :
    (∃ t, (run (mintTransfer X c) b).2 = .ok t) ↔ Accepts X c b := by
  unfold mintTransfer Accepts
  rw [run_bind, run_read, andThen_ok]
  cases b.transfers[c.transferId]? with
  | none => simp [bail]
  | some t =>
    dsimp only
    cases hfinal : t.status.isFinal with
    | true => simp [bail, hfinal]
    | false =>
      cases hvalid : (CrossChainVerifier.verifyProof X c.consensus c.proof).valid with
      | false =>
        obtain ⟨e, he⟩ := rejectProof_error X c t
          (CrossChainVerifier.verifyProof X c.consensus c.proof).error b
        simp [he]
      | true =>
        have hok := completeMint_ok_iff X c t b
        cases hbind : checkBinding c t with
        | error e => simp [hbind]
        | ok u => simp [hbind, hfinal, hok]

end BridgeManager

end UtxoVm
