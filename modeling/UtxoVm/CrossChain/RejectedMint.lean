import UtxoVm.CrossChain.Accountability
import UtxoVm.CrossChain.BridgeRun

/-!
# What a rejected mint leaves in the replay guard

The guard writes its entry before the transfer is looked up and the proof is verified, and no
rejection takes it back.  A rejected call leaves the guard as it was only if the guard itself
refuses it, or has its entry already.
-/

namespace UtxoVm

open RustStd StateStore Prog

namespace BridgeManager

/-! ## 1. The guard and what follows it -/

/-- The guard refuses the call: its write does not commit, the object has the entry of another
transfer, or the transfer has been minted. -/
def guardRefuses (c : MintCall) (b : BridgeManager) : Bool :=
  match b.store.mintedProofs[c.proof.objectId]? with
  | none => !c.guardCommits
  | some existing =>
      if existing ≠ c.transferId then true
      else
        match b.transfers[c.transferId]? with
        | some t => t.status.isFinal
        | none => false

/-- The manager with the entry of the call in the table and in the cache. -/
def entered (c : MintCall) (b : BridgeManager) : BridgeManager :=
  { withProof c.proof.objectId c.transferId b with
    mintedObjects := b.mintedObjects.insert c.proof.objectId c.transferId }

/-- Both places have the entry of the call. -/
def HasEntry (c : MintCall) (b : BridgeManager) : Prop :=
  b.store.mintedProofs[c.proof.objectId]? = some c.transferId ∧
    b.mintedObjects[c.proof.objectId]? = some c.transferId

section

variable {X : Crates} {c : MintCall} {b : BridgeManager} {calls : List MintCall}

theorem withProof_self {objectId transferId : String}
    (hentry : b.store.mintedProofs[objectId]? = some transferId) :
    withProof objectId transferId b = b := by
  unfold withProof
  rw [(Table.insert_eq_self_iff ..).mpr hentry]

/-- The guard refuses the call and changes nothing, or makes sure that the table has its entry. -/
theorem guardOutcome_eq (c : MintCall) (b : BridgeManager) :
    (guardRefuses c b = true ∧ ∃ e, guardOutcome c b = (b, .error e)) ∨
      (guardRefuses c b = false ∧
        guardOutcome c b = (withProof c.proof.objectId c.transferId b, .ok ())) := by
  unfold guardRefuses guardOutcome
  cases hentry : b.store.mintedProofs[c.proof.objectId]? with
  | none =>
    cases c.guardCommits with
    | true => exact .inr ⟨rfl, rfl⟩
    | false => exact .inl ⟨rfl, _, rfl⟩
  | some existing =>
    dsimp only
    by_cases hother : existing ≠ c.transferId
    · rw [if_pos hother, if_pos hother]
      exact .inl ⟨rfl, _, rfl⟩
    · rw [if_neg hother, if_neg hother]
      rw [ne_eq, not_not] at hother
      rw [hother] at hentry
      -- a retry of the same transfer passes until the transfer is minted
      rw [withProof_self hentry]
      cases b.transfers[c.transferId]? with
      | none => exact .inr ⟨rfl, rfl⟩
      | some t =>
        dsimp only
        cases hfinal : t.status.isFinal with
        | true => exact .inl ⟨rfl, _, if_pos rfl⟩
        | false => exact .inr ⟨rfl, if_neg Bool.false_ne_true⟩

theorem run_mintFromProof_refused (h : guardRefuses c b = true) :
    ∃ e, run (mintFromProof X c) b = (b, .error e) := by
  rcases guardOutcome_eq c b with ⟨-, e, he⟩ | ⟨hpasses, -⟩
  · refine ⟨e, ?_⟩
    unfold mintFromProof
    rw [run_bind, run_replayGuard, he]
    rfl
  · rw [h] at hpasses
    cases hpasses

theorem run_mintFromProof_passed (h : guardRefuses c b = false) :
    run (mintFromProof X c) b = run (mintTransfer X c) (entered c b) := by
  rcases guardOutcome_eq c b with ⟨hrefuses, -⟩ | ⟨-, he⟩
  · rw [h] at hrefuses
    cases hrefuses
  · unfold mintFromProof
    rw [run_bind, run_replayGuard, he, andThen_ok, run_bind, run_modify, andThen_ok]
    rfl

theorem run_mintTransfer_unknown (h : b.transfers[c.transferId]? = none) :
    run (mintTransfer X c) b =
      (b, .error (.err (.message ("Transfer not found: " ++ c.transferId)))) := by
  unfold mintTransfer
  rw [run_bind, run_read, andThen_ok, h]
  rfl

/-- When a mint succeeds. -/
theorem mintFromProof_ok_iff : (∃ t, (run (mintFromProof X c) b).2 = .ok t) ↔
    guardRefuses c b = false ∧ Accepts X c b := by
  cases hrefuses : guardRefuses c b with
  | true =>
    obtain ⟨e, he⟩ := run_mintFromProof_refused (X := X) hrefuses
    simp [he]
  | false =>
    rw [run_mintFromProof_passed hrefuses, mintTransfer_ok_iff]
    exact (and_iff_right rfl).symm

/-- The guard after a call that it lets pass, whatever comes of it. -/
theorem guardEntries_passed (h : guardRefuses c b = false) :
    guardEntries (run (mintFromProof X c) b).1 =
      (b.store.mintedProofs.insert c.proof.objectId c.transferId,
        b.mintedObjects.insert c.proof.objectId c.transferId) := by
  rw [run_mintFromProof_passed h, (mintTransfer_keeps X c).run]
  rfl

/-- One call leaves the guard as it was. -/
theorem guardEntries_kept_iff : guardEntries (run (mintFromProof X c) b).1 = guardEntries b ↔
    guardRefuses c b = true ∨ HasEntry c b := by
  cases hrefuses : guardRefuses c b with
  | true =>
    obtain ⟨e, he⟩ := run_mintFromProof_refused (X := X) hrefuses
    simp [he]
  | false =>
    rw [guardEntries_passed hrefuses]
    unfold guardEntries HasEntry
    rw [Prod.mk.injEq, Table.insert_eq_self_iff, Table.insert_eq_self_iff]
    simp

/-! ## 2. Calls one after the other -/

variable (X)

def runMints (b : BridgeManager) (calls : List MintCall) : BridgeManager :=
  calls.foldl (fun b c ↦ (run (mintFromProof X c) b).1) b

/-- Every call returns `Err`. -/
def Rejected : BridgeManager → List MintCall → Prop
  | _, [] => True
  | b, c :: calls =>
      (∃ e, (run (mintFromProof X c) b).2 = .error e) ∧ Rejected (run (mintFromProof X c) b).1 calls

/-- No call leaves a trace in the guard. -/
def Untraced : BridgeManager → List MintCall → Prop
  | _, [] => True
  | b, c :: calls =>
      guardEntries (run (mintFromProof X c) b).1 = guardEntries b ∧
        Untraced (run (mintFromProof X c) b).1 calls

/-- Every call is refused by the guard, or finds its entry there. -/
def RefusedOrEntered : BridgeManager → List MintCall → Prop
  | _, [] => True
  | b, c :: calls =>
      (guardRefuses c b = true ∨ HasEntry c b) ∧
        RefusedOrEntered (run (mintFromProof X c) b).1 calls

/-- The guard rejects the call as a replay. -/
def RejectedAsReplay (c : MintCall) (b : BridgeManager) : Prop :=
  ∃ existing, (run (replayGuard c) b).2 =
    .error (.err (.message (replayError c.proof.objectId existing c.transferId)))

variable {X}

theorem untraced_iff : Untraced X b calls ↔ RefusedOrEntered X b calls := by
  induction calls generalizing b with
  | nil => exact Iff.rfl
  | cons c calls ih => exact and_congr guardEntries_kept_iff ih

theorem Untraced.guardEntries_eq (h : Untraced X b calls) :
    guardEntries (runMints X b calls) = guardEntries b := by
  induction calls generalizing b with
  | nil => rfl
  | cons c calls ih => exact (ih h.2).trans h.1

theorem head?_append {literal : String} {letter : Char} {letters : List Char}
    (hliteral : literal.toList = letter :: letters) (text : String) :
    (literal ++ text).toList.head? = some letter := by
  rw [String.toList_append, hliteral]
  rfl

/-- The texts begin with different letters. -/
theorem remintError_ne_replayError (transferId objectId existing transferId' : String)
    (status : BridgeStatus) :
    remintError transferId status ≠ replayError objectId existing transferId' := by
  unfold remintError replayError
  intro htext
  have hletter := congrArg (fun s : String ↦ s.toList.head?) htext
  have hremint : "Transfer '".toList = 'T' :: "ransfer '".toList := by decide
  have hreplay : "Replay rejected: source object '".toList =
      'R' :: "eplay rejected: source object '".toList := by decide
  simp only [String.append_assoc] at hletter
  rw [head?_append hremint, head?_append hreplay] at hletter
  exact absurd hletter (by decide)

/-- A replay is rejected because of the entry of another transfer. -/
theorem entry_of_rejectedAsReplay (h : RejectedAsReplay c b) :
    ∃ existing, b.store.mintedProofs[c.proof.objectId]? = some existing ∧
      existing ≠ c.transferId := by
  obtain ⟨existing, he⟩ := h
  rw [run_replayGuard] at he
  unfold guardOutcome at he
  cases hentry : b.store.mintedProofs[c.proof.objectId]? with
  | none =>
    rw [hentry] at he
    dsimp only at he
    cases hcommits : c.guardCommits <;> simp [hcommits] at he
  | some other =>
    rw [hentry] at he
    dsimp only at he
    by_cases hother : other ≠ c.transferId
    · exact ⟨other, rfl, hother⟩
    · rw [if_neg hother] at he
      cases htransfer : b.transfers[c.transferId]? with
      | none =>
        rw [htransfer] at he
        exact absurd he (by simp)
      | some t =>
        rw [htransfer] at he
        dsimp only at he
        by_cases hfinal : t.status.isFinal = true
        · rw [if_pos hfinal] at he
          simp only [Except.error.injEq, Exit.err.injEq, Error.message.injEq] at he
          exact absurd he (remintError_ne_replayError _ _ _ _ _)
        · rw [if_neg hfinal] at he
          exact absurd he (by simp)

theorem rejectedAsReplay_of_entry {existing : String}
    (hentry : b.store.mintedProofs[c.proof.objectId]? = some existing)
    (hother : existing ≠ c.transferId) : RejectedAsReplay c b := by
  refine ⟨existing, ?_⟩
  rw [run_replayGuard]
  unfold guardOutcome
  rw [hentry]
  dsimp only
  rw [if_pos hother]

/-- A call that succeeds is not rejected as a replay, as long as the guard is the same. -/
theorem not_rejectedAsReplay {b' : BridgeManager} (hsame : guardEntries b' = guardEntries b)
    (hok : ∃ t, (run (mintFromProof X c) b).2 = .ok t) : ¬ RejectedAsReplay c b' := by
  intro hreplay
  obtain ⟨existing, hentry, hother⟩ := entry_of_rejectedAsReplay hreplay
  have htable : b'.store.mintedProofs = b.store.mintedProofs := congrArg Prod.fst hsame
  rw [htable] at hentry
  have hrefuses : guardRefuses c b = true := by
    unfold guardRefuses
    rw [hentry]
    exact if_pos hother
  have hpasses := (mintFromProof_ok_iff.mp hok).1
  rw [hrefuses] at hpasses
  cases hpasses

end

/-- **When rejected mints leave no trace.**  Rejected calls leave the replay guard as it was exactly
if the guard refuses each of them or has its entry already; a mint that would have succeeded before
them is then not rejected as a replay. -/
theorem rejected_untraced_iff (X : Crates) (b : BridgeManager) (calls : List MintCall)
    (_hrejected : Rejected X b calls) :
    (Untraced X b calls ↔ RefusedOrEntered X b calls) ∧
      (RefusedOrEntered X b calls → ∀ c, (∃ t, (run (mintFromProof X c) b).2 = .ok t) →
        ¬ RejectedAsReplay c (runMints X b calls)) := by
  refine ⟨untraced_iff, fun hrefused c hok ↦ ?_⟩
  exact not_rejectedAsReplay (untraced_iff.mpr hrefused).guardEntries_eq hok

/-- A transfer of the object `o` that waits to be minted. -/
def demoWaiting : BridgeManager where
  store := empty demoCrates
  transfers := (∅ : Table String BridgeTransfer).insert "t1"
    { id := "t1", sourceChain := "JKC", sourceObjectId := "o", destChain := "B", destOwner := "p"
      amount := 5, status := .locked, createdAt := 0, completedAt := none }
  mintedObjects := ∅

/-- A mint with a valid proof of the object `o`. -/
def demoMint (transferId : String) : MintCall where
  transferId
  proof := demoProof .null [1, 2]
  consensus := demoManager []
  mintTime := 7
  completedAt := 7

theorem demoMint_succeeds : ∃ t, (run (mintFromProof demoCrates (demoMint "t1")) demoWaiting).2 =
    .ok t := by
  refine mintFromProof_ok_iff.mpr ⟨by decide +kernel, _, rfl, rfl, ?_, rfl, rfl, rfl, rfl⟩
  exact demoProof_valid .null [1, 2] (by decide) (by decide) (by simp [demoValidators])

theorem rejected_untraced_demo :
    ¬ RejectedAsReplay (demoMint "t1")
      (runMints demoCrates demoWaiting [{ demoMint "t0" with guardCommits := false }]) := by
  have hrefuses : guardRefuses { demoMint "t0" with guardCommits := false } demoWaiting = true := by
    decide +kernel
  have hrejected : Rejected demoCrates demoWaiting
      [{ demoMint "t0" with guardCommits := false }] := by
    obtain ⟨e, he⟩ := run_mintFromProof_refused (X := demoCrates) hrefuses
    exact ⟨⟨e, by rw [he]⟩, trivial⟩
  have huntraced := rejected_untraced_iff demoCrates demoWaiting _ hrejected
  exact huntraced.2 ⟨.inl hrefuses, trivial⟩ (demoMint "t1") demoMint_succeeds

/-- A mint of a transfer that does not exist takes the place of the genuine one. -/
theorem rejected_mint_blocks :
    Rejected demoCrates demoWaiting [demoMint "t0"] ∧
      ¬ Untraced demoCrates demoWaiting [demoMint "t0"] ∧
      (∃ t, (run (mintFromProof demoCrates (demoMint "t1")) demoWaiting).2 = .ok t) ∧
      RejectedAsReplay (demoMint "t1") (runMints demoCrates demoWaiting [demoMint "t0"]) := by
  have hpasses : guardRefuses (demoMint "t0") demoWaiting = false := by decide +kernel
  have hunknown : demoWaiting.transfers["t0"]? = none := by decide +kernel
  have hrun : run (mintFromProof demoCrates (demoMint "t0")) demoWaiting =
      (entered (demoMint "t0") demoWaiting,
        .error (.err (.message ("Transfer not found: " ++ "t0")))) := by
    rw [run_mintFromProof_passed hpasses]
    exact run_mintTransfer_unknown hunknown
  refine ⟨⟨⟨_, by rw [hrun]⟩, trivial⟩, ?_, demoMint_succeeds, ?_⟩
  · intro huntraced
    rcases guardEntries_kept_iff.mp huntraced.1 with hrefuses | hentry
    · rw [hpasses] at hrefuses
      cases hrefuses
    · exact absurd hentry.1 (by decide +kernel)
  · have hentry : (entered (demoMint "t0") demoWaiting).store.mintedProofs[
        (demoMint "t1").proof.objectId]? = some "t0" :=
      (Table.get_insert ..).trans (if_pos rfl)
    show RejectedAsReplay _ (run (mintFromProof demoCrates (demoMint "t0")) demoWaiting).1
    rw [hrun]
    exact rejectedAsReplay_of_entry hentry (by decide)

end BridgeManager

end UtxoVm
