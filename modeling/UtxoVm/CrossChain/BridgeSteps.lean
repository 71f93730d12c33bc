import UtxoVm.CrossChain.LockRuns
import UtxoVm.CrossChain.RejectedMint

/-!
# What a call of the bridge can do

One inversion lemma for `mint_from_proof` and one for `cancel_transfer`, as `lock_step` is for
`lock_assets`: every outcome with the writes that it leaves behind.
-/

namespace UtxoVm

open RustStd StateStore Prog

namespace BridgeManager

/-! ## 1. The writes -/

/-- The manager with a transfer written, in the cache and perhaps in the table. -/
def fileTransfer (commits : Bool) (t : BridgeTransfer) (b : BridgeManager) : BridgeManager :=
  { b with
    store :=
      if commits then
        { b.store with bridgeTransfers := b.store.bridgeTransfers.insert t.id t }
      else b.store
    transfers := b.transfers.insert t.id t }

variable (X : Crates)

/-- The manager after `unlock_object`, whether it succeeds or not. -/
def release (commits : Bool) (objectId : String) (b : BridgeManager) : BridgeManager :=
  match parseObject b.store.objects[objectId]? with
  | .ok (some obj) =>
      match stripPrefix obj.owner lockPrefix with
      | some owner =>
          if commits then { b with store := putObject X { obj with owner } b.store } else b
      | none => b
  | _ => b

def failedTransfer (t : BridgeTransfer) : BridgeTransfer := { t with status := .failed }

def verifiedTransfer (t : BridgeTransfer) : BridgeTransfer := { t with status := .verified }

def mintedTransfer (c : MintCall) (t : BridgeTransfer) : BridgeTransfer :=
  { t with status := .minted, completedAt := some c.completedAt }

def cancelledTransfer (c : CancelCall) (t : BridgeTransfer) : BridgeTransfer :=
  { t with status := .failed, completedAt := some c.now }

/-- What a proof that does not verify leaves behind. -/
def rejected (c : MintCall) (t : BridgeTransfer) (b : BridgeManager) : BridgeManager :=
  if c.failedCommits then
    release X c.unlockCommits t.sourceObjectId (fileTransfer true (failedTransfer t) b)
  else fileTransfer false (failedTransfer t) b

/-- What an accepted proof leaves behind, as far as its writes commit. -/
def completed (c : MintCall) (t : BridgeTransfer) (b : BridgeManager) : BridgeManager :=
  let b₁ := fileTransfer c.verifiedCommits (verifiedTransfer t) b
  if c.verifiedCommits && c.objectCommits then
    fileTransfer c.mintedCommits (mintedTransfer c t)
      { b₁ with store := putObject X (mintedObject c (verifiedTransfer t)) b₁.store }
  else b₁

/-- The manager after a cancellation whose object is released. -/
def cancelled (c : CancelCall) (t : BridgeTransfer) (b : BridgeManager) : BridgeManager :=
  fileTransfer c.failedCommits (cancelledTransfer c t)
    (release X c.unlockCommits t.sourceObjectId b)

/-- What a mint does: nothing, an entry in the replay guard, or an entry and the writes of a
rejected or of an accepted proof. -/
inductive MintStep (b : BridgeManager) (c : MintCall) : Prop
  | refused : guardRefuses c b = true → b.call X (.mint c) = b → MintStep b c
  | passed : guardRefuses c b = false →
      (∀ t, b.transfers[c.transferId]? = some t → t.status.isFinal = false →
        (CrossChainVerifier.verifyProof X c.consensus c.proof).valid = true →
        checkBinding c t ≠ .ok ()) →
      b.call X (.mint c) = entered c b → MintStep b c
  | disproved {t : BridgeTransfer} : guardRefuses c b = false →
      b.transfers[c.transferId]? = some t → t.status.isFinal = false →
      (CrossChainVerifier.verifyProof X c.consensus c.proof).valid = false →
      b.call X (.mint c) = rejected X c t (entered c b) → MintStep b c
  | accepted {t : BridgeTransfer} : guardRefuses c b = false →
      b.transfers[c.transferId]? = some t → t.status.isFinal = false →
      (CrossChainVerifier.verifyProof X c.consensus c.proof).valid = true →
      checkBinding c t = .ok () →
      b.call X (.mint c) = completed X c t (entered c b) → MintStep b c

/-- What a cancellation does: nothing, or it releases the object and fails the transfer. -/
inductive CancelStep (b : BridgeManager) (c : CancelCall) : Prop
  | failed : b.call X (.cancel c) = b → CancelStep b c
  | done {t : BridgeTransfer} : b.transfers[c.transferId]? = some t →
      t.status = .pending ∨ t.status = .locked →
      b.call X (.cancel c) = cancelled X c t b → CancelStep b c

variable {X} {b : BridgeManager}

/-! ## 2. The operations -/

theorem run_updateTransfer_eq (commits : Bool) (t : BridgeTransfer) (b : BridgeManager) :
    run (updateTransfer commits t) b =
      (fileTransfer commits t b, if commits then .ok () else .error storageError) := by
  rw [run_updateTransfer]
  unfold fileTransfer
  cases commits <;> rfl

/-- An unlock that fails has changed nothing. -/
theorem run_unlockObject (commits : Bool) (t : BridgeTransfer) (b : BridgeManager) :
    (run (unlockObject X commits t) b).1 = release X commits t.sourceObjectId b ∧
      ((∃ e, (run (unlockObject X commits t) b).2 = .error e) →
        release X commits t.sourceObjectId b = b) := by
  unfold unlockObject release
  rw [run_bind, run_withContext, run_onStore, run_getObject]
  cases parseObject b.store.objects[t.sourceObjectId]? with
  | error e => exact ⟨rfl, fun _ ↦ rfl⟩
  | ok obj? =>
    cases obj? with
    | none => exact ⟨rfl, fun _ ↦ rfl⟩
    | some obj =>
      dsimp only
      rw [andThen_ok]
      dsimp only
      cases stripPrefix obj.owner lockPrefix with
      | none => exact ⟨rfl, fun _ ↦ rfl⟩
      | some owner =>
        dsimp only
        rw [run_onStore, run_saveObject]
        cases commits with
        | false => exact ⟨rfl, fun _ ↦ rfl⟩
        | true =>
          refine ⟨rfl, ?_⟩
          rintro ⟨e, he⟩
          cases he

theorem run_rejectProof (c : MintCall) (t : BridgeTransfer) (error : Option String)
    (b : BridgeManager) : (run (rejectProof X c t error) b).1 = rejected X c t b := by
  unfold rejectProof rejected
  dsimp only
  rw [run_bind, run_updateTransfer_eq]
  cases c.failedCommits with
  | false => rfl
  | true =>
    rw [if_pos rfl, if_pos rfl, andThen_ok, run_bind, run_attempt, andThen_ok]
    exact (run_unlockObject ..).1

theorem run_completeMint (c : MintCall) (t : BridgeTransfer) (b : BridgeManager) :
    (run (completeMint X c t) b).1 = completed X c t b := by
  unfold completeMint completed
  dsimp only
  rw [run_bind, run_updateTransfer_eq]
  cases c.verifiedCommits with
  | false => rfl
  | true =>
    rw [if_pos rfl, andThen_ok, run_bind, run_onStore, run_saveObject]
    cases c.objectCommits with
    | false => rfl
    | true =>
      rw [if_pos rfl, andThen_ok, run_bind, run_updateTransfer_eq]
      cases c.mintedCommits <;> rfl

theorem mint_step (b : BridgeManager) (c : MintCall) : MintStep X b c := by
  cases hrefuses : guardRefuses c b with
  | true =>
    obtain ⟨e, he⟩ := run_mintFromProof_refused (X := X) hrefuses
    exact .refused hrefuses (congrArg Prod.fst he)
  | false =>
    have hcall : b.call X (.mint c) = (run (mintTransfer X c) (entered c b)).1 :=
      congrArg Prod.fst (run_mintFromProof_passed hrefuses)
    have htransfers : (entered c b).transfers = b.transfers := rfl
    unfold mintTransfer at hcall
    rw [run_bind, run_read, andThen_ok, htransfers] at hcall
    cases ht : b.transfers[c.transferId]? with
    | none =>
      rw [ht] at hcall
      refine .passed hrefuses (fun t ht' ↦ ?_) hcall
      rw [ht] at ht'
      cases ht'
    | some t =>
      rw [ht] at hcall
      dsimp only at hcall
      have hsame {t' : BridgeTransfer} (ht' : b.transfers[c.transferId]? = some t') : t = t' :=
        Option.some.inj (ht.symm.trans ht')
      cases hfinal : t.status.isFinal with
      | true =>
        rw [if_pos hfinal] at hcall
        refine .passed hrefuses (fun t' ht' hfinal' ↦ ?_) hcall
        rw [← hsame ht', hfinal] at hfinal'
        cases hfinal'
      | false =>
        rw [if_neg (by rw [hfinal]; exact Bool.false_ne_true)] at hcall
        cases hvalid : (CrossChainVerifier.verifyProof X c.consensus c.proof).valid with
        | false =>
          rw [if_pos (by rw [hvalid]; rfl), run_rejectProof] at hcall
          exact .disproved hrefuses ht hfinal hvalid hcall
        | true =>
          rw [if_neg (by rw [hvalid]; exact Bool.false_ne_true), run_bind, run_ofExcept] at hcall
          cases hbinding : checkBinding c t with
          | error e =>
            rw [hbinding] at hcall
            refine .passed hrefuses (fun t' ht' _ _ hbinding' ↦ ?_) hcall
            rw [← hsame ht', hbinding] at hbinding'
            cases hbinding'
          | ok u =>
            rw [hbinding, andThen_ok, run_completeMint] at hcall
            exact .accepted hrefuses ht hfinal hvalid hbinding hcall

theorem cancel_step (b : BridgeManager) (c : CancelCall) : CancelStep X b c := by
  have hcall : b.call X (.cancel c) = (run (cancelTransfer X c) b).1 := rfl
  unfold cancelTransfer at hcall
  rw [run_bind, run_read, andThen_ok] at hcall
  cases ht : b.transfers[c.transferId]? with
  | none =>
    rw [ht] at hcall
    exact .failed hcall
  | some t =>
    rw [ht] at hcall
    dsimp only at hcall
    rw [run_bind, run_ofExcept] at hcall
    cases hcheck : checkCancel c t with
    | error e =>
      rw [hcheck] at hcall
      exact .failed hcall
    | ok u =>
      have hstatus : t.status = .pending ∨ t.status = .locked := by
        by_contra hneither
        unfold checkCancel at hcheck
        rw [if_pos (not_or.mp hneither)] at hcheck
        cases hcheck
      rw [hcheck, andThen_ok, run_bind, run_onStore, run_getObject] at hcall
      cases hobj : parseObject b.store.objects[t.sourceObjectId]? with
      | error e =>
        rw [hobj] at hcall
        exact .failed hcall
      | ok obj? =>
        rw [hobj] at hcall
        cases obj? with
        | none => exact .failed hcall
        | some obj =>
          rw [andThen_ok] at hcall
          dsimp only at hcall
          rw [run_bind, run_ofExcept] at hcall
          cases howner : checkOwner X c obj with
          | error e =>
            rw [howner] at hcall
            exact .failed hcall
          | ok u =>
            rw [howner, andThen_ok, run_bind] at hcall
            obtain ⟨hreleased, herror⟩ := run_unlockObject (X := X) c.unlockCommits t b
            cases hunlock : run (unlockObject X c.unlockCommits t) b with
            | mk b₁ r =>
              rw [hunlock] at hreleased herror hcall
              cases r with
              | error e =>
                refine .failed (hcall.trans ?_)
                show b₁ = b
                rw [← herror ⟨e, rfl⟩]
                exact hreleased
              | ok u =>
                rw [andThen_ok, run_bind, run_updateTransfer_eq] at hcall
                refine .done ht hstatus (hcall.trans ?_)
                unfold cancelled
                rw [← hreleased]
                cases c.failedCommits <;> rfl

end BridgeManager

end UtxoVm
