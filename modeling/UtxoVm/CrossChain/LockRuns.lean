import UtxoVm.CrossChain.BridgeRun

/-!
# Locks over whole runs of the bridge

The id of a transfer joins the texts of its lock with the second in which it was made, so two locks
in one second may share it; and a lock is authorised by a signature of the same texts, without a
number that is used once.
-/

namespace UtxoVm

open RustStd StateStore Prog

inductive BridgeCall where
  | lock (c : LockCall)
  | mint (c : MintCall)
  | cancel (c : CancelCall)

namespace BridgeManager

variable (X : Crates)

/-! ## 1. Runs -/

def call (b : BridgeManager) : BridgeCall → BridgeManager
  | .lock c => (run (lockAssets X c) b).1
  | .mint c => (run (mintFromProof X c) b).1
  | .cancel c => (run (cancelTransfer X c) b).1

def runCalls (b : BridgeManager) (calls : List BridgeCall) : BridgeManager := calls.foldl (call X) b

def LockSucceeds (b : BridgeManager) (c : LockCall) : Prop :=
  ∃ t, (run (lockAssets X c) b).2 = .ok t

/-- The manager after a lock of `obj`. -/
def withLock (c : LockCall) (obj : SmartObjectRecord) (b : BridgeManager) : BridgeManager :=
  let transfer := lockTransfer c obj
  { b with
    store :=
      { putObject X (lockObject obj) b.store with
        bridgeTransfers := b.store.bridgeTransfers.insert transfer.id transfer }
    transfers := b.transfers.insert transfer.id transfer }

/-- What `lock_assets` does with the object that it has read. -/
def lockOutcome (c : LockCall) (b : BridgeManager) :
    Except Exit (Option SmartObjectRecord) → BridgeManager × Except Exit BridgeTransfer
  | .error e => (b, .error (contextError "Object not found" e))
  | .ok none => (b, .error (.err (.message ("Object not found: " ++ c.objectId))))
  | .ok (some obj) =>
      match checkLock X c obj with
      | .error e => (b, .error e)
      | .ok () =>
          if c.objectCommits then
            if c.transferCommits then (withLock X c obj b, .ok (lockTransfer c obj))
            else ({ b with store := putObject X (lockObject obj) b.store }, .error storageError)
          else (b, .error storageError)

theorem run_lockAssets (c : LockCall) (b : BridgeManager) :
    run (lockAssets X c) b = lockOutcome X c b (parseObject b.store.objects[c.objectId]?) := by
  unfold lockAssets lockOutcome
  rw [run_bind, run_withContext, run_onStore, run_getObject]
  cases parseObject b.store.objects[c.objectId]? with
  | error e => rfl
  | ok obj? =>
    cases obj? with
    | none => rfl
    | some obj =>
      dsimp only
      rw [andThen_ok]
      dsimp only
      rw [run_bind, run_ofExcept]
      cases checkLock X c obj with
      | error e => rfl
      | ok u =>
        rw [andThen_ok, run_bind, run_onStore, run_saveObject]
        cases c.objectCommits with
        | false => rfl
        | true =>
          unfold saveBridgeTransfer
          rw [if_pos rfl, if_pos rfl, andThen_ok, run_bind, run_onStore, run_commit]
          cases c.transferCommits <;> rfl

/-- What a lock does, whether it succeeds, fails, or leaves an object locked without a transfer. -/
inductive LockStep (X : Crates) (b : BridgeManager) (c : LockCall) : Prop
  | success {obj : SmartObjectRecord} : LockSucceeds X b c →
      parseObject b.store.objects[c.objectId]? = .ok (some obj) → checkLock X c obj = .ok () →
      b.call X (.lock c) = withLock X c obj b → LockStep X b c
  | failure : ¬ LockSucceeds X b c → b.call X (.lock c) = b → LockStep X b c
  | stranded {obj : SmartObjectRecord} : ¬ LockSucceeds X b c →
      parseObject b.store.objects[c.objectId]? = .ok (some obj) → checkLock X c obj = .ok () →
      b.call X (.lock c) = { b with store := putObject X (lockObject obj) b.store } →
      LockStep X b c

theorem lock_step (b : BridgeManager) (c : LockCall) : LockStep X b c := by
  have hrun := run_lockAssets X c b
  unfold lockOutcome at hrun
  have hfailure {e : Exit} (h : run (lockAssets X c) b = (b, .error e)) : LockStep X b c := by
    refine .failure ?_ (congrArg (·.1) h)
    rintro ⟨t, ht⟩
    rw [h] at ht
    cases ht
  cases hobj : parseObject b.store.objects[c.objectId]? with
  | error e =>
    rw [hobj] at hrun
    exact hfailure hrun
  | ok obj? =>
    rw [hobj] at hrun
    cases obj? with
    | none => exact hfailure hrun
    | some obj =>
      dsimp only at hrun
      cases hcheck : checkLock X c obj with
      | error e =>
        rw [hcheck] at hrun
        exact hfailure hrun
      | ok u =>
        rw [hcheck] at hrun
        dsimp only at hrun
        split at hrun
        · split at hrun
          · exact .success ⟨_, congrArg (·.2) hrun⟩ hobj hcheck (congrArg (·.1) hrun)
          · refine .stranded ?_ hobj hcheck (congrArg (·.1) hrun)
            rintro ⟨t, ht⟩
            rw [hrun] at ht
            cases ht
        · exact hfailure hrun

variable {X} {b : BridgeManager} {c : LockCall}

theorem lockOutcome_ok (X : Crates) {obj : SmartObjectRecord} (hcheck : checkLock X c obj = .ok ())
    (hobject : c.objectCommits = true) (htransfer : c.transferCommits = true) :
    lockOutcome X c b (.ok (some obj)) = (withLock X c obj b, .ok (lockTransfer c obj)) := by
  unfold lockOutcome
  dsimp only
  rw [hcheck]
  dsimp only
  rw [if_pos hobject, if_pos htransfer]

/-- The lock passes its checks in the state `b`, and its writes commit. -/
def Lockable (X : Crates) (b : BridgeManager) (c : LockCall) : Prop :=
  ∃ obj, parseObject b.store.objects[c.objectId]? = .ok (some obj) ∧ checkLock X c obj = .ok () ∧
    c.objectCommits = true ∧ c.transferCommits = true

theorem lockSucceeds_iff : LockSucceeds X b c ↔ Lockable X b c := by
  constructor
  · rintro ⟨t, ht⟩
    rw [run_lockAssets] at ht
    unfold lockOutcome at ht
    split at ht
    · cases ht
    · cases ht
    · rename_i obj hobj
      split at ht
      · cases ht
      · rename_i hcheck
        split at ht
        · rename_i hobject
          split at ht
          · rename_i htransfer
            exact ⟨obj, hobj, hcheck, hobject, htransfer⟩
          · cases ht
        · cases ht
  · rintro ⟨obj, hobj, hcheck, hobject, htransfer⟩
    refine ⟨lockTransfer c obj, ?_⟩
    rw [run_lockAssets, hobj, lockOutcome_ok X hcheck hobject htransfer]

theorem runCalls_append (calls calls' : List BridgeCall) :
    b.runCalls X (calls ++ calls') = (b.runCalls X calls).runCalls X calls' :=
  List.foldl_append ..

/-! ## 2. The tables of transfers -/

/-- The two places where transfers are kept. -/
def transferTables (b : BridgeManager) :
    Table String BridgeTransfer × Table String BridgeTransfer :=
  (b.transfers, b.store.bridgeTransfers)

/-- The table and the cache have the transfers with the given ids, each under its own. -/
structure Filed (ids : Set String) (b : BridgeManager) : Prop where
  key : ∀ (id : String) (t : BridgeTransfer), b.transfers[id]? = some t → t.id = id
  cached : ∀ id : String, (b.transfers[id]?).isSome ↔ id ∈ ids
  stored : ∀ id : String, (b.store.bridgeTransfers[id]?).isSome ↔ id ∈ ids

variable {ids : Set String}

theorem Filed.congr {b' : BridgeManager} (h : Filed ids b)
    (htables : transferTables b' = transferTables b) : Filed ids b' := by
  obtain ⟨htransfers, hstored⟩ := Prod.ext_iff.mp htables
  dsimp only [transferTables] at htransfers hstored
  constructor
  · rw [htransfers]
    exact h.key
  · rw [htransfers]
    exact h.cached
  · rw [hstored]
    exact h.stored

theorem Filed.of_keeps {α : Type} {p : BridgeProg α} (hp : Keeps transferTables p) :
    Ensures (Filed ids) p fun _ ↦ True :=
  fun b hb ↦ ⟨hb.congr (hp.run b), fun _ _ ↦ trivial⟩

theorem isSome_insert {t : BridgeTransfer} {table : Table String BridgeTransfer}
    (h : ∀ id : String, (table[id]?).isSome ↔ id ∈ ids) (id : String) :
    ((table.insert t.id t)[id]?).isSome ↔ id ∈ insert t.id ids := by
  rw [Table.get_insert, Set.mem_insert_iff]
  split
  · rename_i heq
    simp [heq]
  · rename_i hne
    rw [h id]
    exact ⟨.inr, fun hid ↦ hid.resolve_left hne⟩

theorem key_insert {t : BridgeTransfer} {table : Table String BridgeTransfer}
    (h : ∀ (id : String) (t : BridgeTransfer), table[id]? = some t → t.id = id) (id : String)
    (t' : BridgeTransfer) (hid : (table.insert t.id t)[id]? = some t') : t'.id = id := by
  rw [Table.get_insert] at hid
  split at hid
  · rename_i heq
    cases hid
    exact heq.symm
  · exact h id t' hid

/-- A known transfer is written again under its id, in the cache and perhaps in the table. -/
theorem ensures_updateTransfer_filed (commits : Bool) {t : BridgeTransfer} (ht : t.id ∈ ids) :
    Ensures (Filed ids) (updateTransfer commits t) fun _ ↦ True := by
  intro b hb
  refine ⟨?_, fun _ _ ↦ trivial⟩
  have hids : insert t.id ids = ids := Set.insert_eq_of_mem ht
  have hcached := isSome_insert (t := t) hb.cached
  have hstored := isSome_insert (t := t) hb.stored
  rw [hids] at hcached hstored
  rw [run_updateTransfer]
  cases commits with
  | false => exact ⟨key_insert hb.key, hcached, hb.stored⟩
  | true => exact ⟨key_insert hb.key, hcached, hstored⟩

theorem Filed.withLock {obj : SmartObjectRecord} (h : Filed ids b) :
    Filed (insert (lockTransferId c) ids) (withLock X c obj b) :=
  ⟨key_insert h.key, isSome_insert (t := lockTransfer c obj) h.cached,
    isSome_insert (t := lockTransfer c obj) h.stored⟩

/-! ## 3. Every call files by ids -/

theorem keeps_tables_onStore {α : Type} {p : StoreProg α} (hp : Keeps (·.bridgeTransfers) p) :
    Keeps transferTables (onStore p) :=
  Keeps.zoom hp fun _ _ hs ↦ Prod.ext rfl hs

theorem unlockObject_keeps_tables (commits : Bool) (t : BridgeTransfer) :
    Keeps transferTables (unlockObject X commits t) := by
  refine (keeps_withContext (keeps_tables_onStore (keeps_getObject _))).bind fun obj? ↦ ?_
  cases obj? with
  | none => trivial
  | some obj =>
    dsimp only
    split
    · exact keeps_tables_onStore (keeps_saveObject (fun _ ↦ rfl) fun _ _ ↦ rfl)
    · trivial

theorem replayGuard_tables (c : MintCall) (b : BridgeManager) :
    transferTables (run (replayGuard c) b).1 = transferTables b := by
  rw [run_replayGuard]
  unfold guardOutcome
  split
  · split <;> rfl
  · split
    · rfl
    · split
      · split <;> rfl
      · rfl

theorem ensures_rejectProof_filed (c : MintCall) {t : BridgeTransfer} (ht : t.id ∈ ids)
    (error : Option String) : Ensures (Filed ids) (rejectProof X c t error) fun _ ↦ True := by
  have hfailed : ({ t with status := .failed } : BridgeTransfer).id ∈ ids := ht
  refine (ensures_updateTransfer_filed c.failedCommits hfailed).bind fun _ _ ↦ ?_
  exact (Filed.of_keeps (unlockObject_keeps_tables _ _)).attempt.bind fun _ _ ↦ .fail _

theorem ensures_completeMint_filed (c : MintCall) {t : BridgeTransfer} (ht : t.id ∈ ids) :
    Ensures (Filed ids) (completeMint X c t) fun _ ↦ True := by
  have hverified : ({ t with status := .verified } : BridgeTransfer).id ∈ ids := ht
  refine (ensures_updateTransfer_filed c.verifiedCommits hverified).bind fun _ _ ↦ ?_
  have hsave : Keeps transferTables
      (onStore (saveObject X c.objectCommits (mintedObject c { t with status := .verified }))) :=
    keeps_tables_onStore (keeps_saveObject (fun _ ↦ rfl) fun _ _ ↦ rfl)
  refine (Filed.of_keeps hsave).bind fun _ _ ↦ ?_
  have hminted : ({ t with
      status := .minted
      completedAt := some c.completedAt } : BridgeTransfer).id ∈ ids := ht
  exact (ensures_updateTransfer_filed c.mintedCommits hminted).bind fun _ _ ↦ .pure trivial

/-- A transfer that an operation finds in the cache is one that was filed. -/
theorem ensures_readTransfer (id : String) :
    Ensures (Filed ids) (Prog.read fun b ↦ b.transfers[id]? : BridgeProg (Option BridgeTransfer))
      fun t? ↦ ∀ t, t? = some t → t.id ∈ ids := by
  refine .read fun b hb t ht ↦ ?_
  rw [hb.key id t ht, ← hb.cached, ht]
  rfl

theorem mintFromProof_filed (c : MintCall) :
    Ensures (Filed ids) (mintFromProof X c) fun _ ↦ True := by
  have hguard : Ensures (Filed ids) (replayGuard c) fun _ ↦ True :=
    fun b hb ↦ ⟨hb.congr (replayGuard_tables c b), fun _ _ ↦ trivial⟩
  refine hguard.bind fun _ _ ↦ (Ensures.modify fun b hb ↦ hb.congr rfl).bind fun _ _ ↦ ?_
  refine (ensures_readTransfer c.transferId).bind fun t? ht? ↦ ?_
  cases t? with
  | none => exact .fail _
  | some t =>
    have ht : t.id ∈ ids := ht? t rfl
    dsimp only
    split
    · exact .fail _
    · split
      · exact ensures_rejectProof_filed c ht _
      · exact (Filed.of_keeps (.ofExcept _)).bind fun _ _ ↦ ensures_completeMint_filed c ht

theorem cancelTransfer_filed (c : CancelCall) :
    Ensures (Filed ids) (cancelTransfer X c) fun _ ↦ True := by
  refine (ensures_readTransfer c.transferId).bind fun t? ht? ↦ ?_
  cases t? with
  | none => exact .fail _
  | some t =>
    have ht : t.id ∈ ids := ht? t rfl
    refine (Filed.of_keeps (.ofExcept _)).bind fun _ _ ↦ ?_
    refine (Filed.of_keeps (keeps_tables_onStore (keeps_getObject _))).bind fun obj? _ ↦ ?_
    cases obj? with
    | none => exact .fail _
    | some obj =>
      refine (Filed.of_keeps (.ofExcept _)).bind fun _ _ ↦ ?_
      refine (Filed.of_keeps (unlockObject_keeps_tables _ _)).bind fun _ _ ↦ ?_
      have hfailed :
          ({ t with status := .failed, completedAt := some c.now } : BridgeTransfer).id ∈ ids := ht
      exact (ensures_updateTransfer_filed _ hfailed).bind fun _ _ ↦ .pure trivial

/-- The ids under which a call files a transfer for the first time. -/
def stepIds (X : Crates) (b : BridgeManager) (call : BridgeCall) : Set String :=
  { id | ∃ c, call = .lock c ∧ LockSucceeds X b c ∧ id = lockTransferId c }

/-- The ids that the successful locks of a run have given. -/
def lockedIds (X : Crates) (b : BridgeManager) : List BridgeCall → Set String
  | [] => ∅
  | call :: calls => stepIds X b call ∪ lockedIds X (b.call X call) calls

theorem stepIds_success (h : LockSucceeds X b c) : stepIds X b (.lock c) = {lockTransferId c} := by
  ext id
  constructor
  · rintro ⟨c', hc, -, hid⟩
    cases hc
    exact hid
  · exact fun hid ↦ ⟨c, rfl, h, hid⟩

theorem stepIds_failure (h : ¬ LockSucceeds X b c) : stepIds X b (.lock c) = ∅ := by
  refine Set.eq_empty_of_forall_notMem fun id hid ↦ ?_
  obtain ⟨c', hc, hok, -⟩ := hid
  cases hc
  exact h hok

theorem Filed.call (h : Filed ids b) (call : BridgeCall) :
    Filed (ids ∪ stepIds X b call) (b.call X call) := by
  cases call with
  | lock c =>
    cases lock_step X b c with
    | success hok _ _ hcall =>
      rw [hcall, stepIds_success hok, Set.union_singleton]
      exact h.withLock
    | failure hfail hcall =>
      rwa [hcall, stepIds_failure hfail, Set.union_empty]
    | stranded hfail _ _ hcall =>
      rw [hcall, stepIds_failure hfail, Set.union_empty]
      exact h.congr rfl
  | mint c =>
    have hids : stepIds X b (.mint c) = ∅ := by simp [stepIds]
    rw [hids, Set.union_empty]
    exact (mintFromProof_filed c b h).1
  | cancel c =>
    have hids : stepIds X b (.cancel c) = ∅ := by simp [stepIds]
    rw [hids, Set.union_empty]
    exact (cancelTransfer_filed c b h).1

theorem Filed.runCalls (h : Filed ids b) (calls : List BridgeCall) :
    Filed (ids ∪ lockedIds X b calls) (b.runCalls X calls) := by
  induction calls generalizing b ids with
  | nil =>
    show Filed (ids ∪ ∅) b
    rwa [Set.union_empty]
  | cons call calls ih =>
    have hcalls := ih (h.call (X := X) call)
    rwa [Set.union_assoc] at hcalls

theorem mem_lockedIds {id : String} {calls : List BridgeCall} : id ∈ lockedIds X b calls ↔
    ∃ before c after, calls = before ++ .lock c :: after ∧
      LockSucceeds X (b.runCalls X before) c ∧ id = lockTransferId c := by
  induction calls generalizing b with
  | nil => simp [lockedIds]
  | cons call calls ih =>
    constructor
    · rintro (⟨c, rfl, h⟩ | hid)
      · exact ⟨[], c, calls, rfl, h⟩
      · obtain ⟨before, c, after, rfl, h⟩ := ih.mp hid
        exact ⟨call :: before, c, after, rfl, h⟩
    · rintro ⟨before, c, after, hcalls, h⟩
      cases before with
      | nil =>
        cases hcalls
        exact .inl ⟨c, rfl, h⟩
      | cons call' before =>
        cases hcalls
        exact .inr (ih.mpr ⟨before, c, after, rfl, h⟩)

/-! ## 4. Transfers are never overwritten -/

/-- The text before the clock in the id of a transfer. -/
def transferPath (c : LockCall) : String := c.sourceChain ++ "_" ++ c.destChain ++ "_" ++ c.objectId

theorem underscore_not_mem_toString (time : Int) : '_' ∉ (toString time).toList := by
  have hdigits (n : Nat) : '_' ∉ (toString n).toList := by
    rw [Nat.toString_eq_repr, Nat.repr, String.toList_ofList]
    exact fun hmem ↦
      absurd (Nat.isDigit_of_mem_toDigits (by decide) (by decide) hmem) (by decide)
  cases time with
  | ofNat n => exact hdigits n
  | negSucc n =>
    show '_' ∉ ("-" ++ toString (n + 1)).toList
    simp

theorem toString_int_injective : Function.Injective (toString : Int → String) := by
  have hsign (m n : Nat) : toString m ≠ "-" ++ toString (n + 1) := by
    intro h
    have hmem : '-' ∈ (toString m).toList := by
      rw [h, String.toList_append]
      simp
    rw [Nat.toString_eq_repr, Nat.repr, String.toList_ofList] at hmem
    exact absurd (Nat.isDigit_of_mem_toDigits (by decide) (by decide) hmem) (by decide)
  intro a b h
  cases a with
  | ofNat m =>
    cases b with
    | ofNat n => exact congrArg Int.ofNat (Nat.repr_inj.mp h)
    | negSucc n => exact (hsign m n h).elim
  | negSucc m =>
    cases b with
    | ofNat n => exact (hsign n m h.symm).elim
    | negSucc n =>
      have hnat : "-" ++ toString (m + 1) = "-" ++ toString (n + 1) := h
      have hrepr := (String.append_right_inj _).mp hnat
      exact congrArg Int.negSucc (Nat.succ.inj (Nat.repr_inj.mp hrepr))

/-- The id tells the second of a lock, and its texts as far as their separators do. -/
theorem lockTransferId_eq_iff {c c' : LockCall} : lockTransferId c = lockTransferId c' ↔
    transferPath c = transferPath c' ∧ c.idTime = c'.idTime := by
  constructor
  · intro h
    have hlist : (transferPath c).toList ++ '_' :: (toString c.idTime).toList =
        (transferPath c').toList ++ '_' :: (toString c'.idTime).toList := by
      simpa [lockTransferId, transferPath] using congrArg String.toList h
    obtain ⟨hpath, htime⟩ := append_cons_inj (underscore_not_mem_toString _)
      (underscore_not_mem_toString _) hlist
    exact ⟨String.toList_injective hpath, toString_int_injective (String.toList_injective htime)⟩
  · rintro ⟨hpath, htime⟩
    show transferPath c ++ "_" ++ toString c.idTime = transferPath c' ++ "_" ++ toString c'.idTime
    rw [hpath, htime]

/-- A bridge that has no transfer yet, over any objects. -/
def freshBridge (s : StateStore) : BridgeManager := new { s with bridgeTransfers := ∅ }

theorem freshBridge_filed (s : StateStore) : Filed ∅ (freshBridge s) := by
  have htransfers : (freshBridge s).transfers = ∅ := rfl
  have hstored : (freshBridge s).store.bridgeTransfers = ∅ := rfl
  constructor <;> simp [htransfers, hstored]

/-- Every successful lock of the run stores its transfer under an id that no transfer has, and
leaves the transfers before it as they were. -/
def NeverReplaces (X : Crates) (b : BridgeManager) (calls : List BridgeCall) : Prop :=
  ∀ before c after, calls = before ++ .lock c :: after →
    LockSucceeds X (b.runCalls X before) c →
    let b₁ := b.runCalls X before
    let b₂ := b₁.call X (.lock c)
    (b₁.transfers[lockTransferId c]? = none ∧ b₁.store.bridgeTransfers[lockTransferId c]? = none) ∧
      (∃ t : BridgeTransfer, t.id = lockTransferId c ∧
        b₂.transfers[lockTransferId c]? = some t ∧
        b₂.store.bridgeTransfers[lockTransferId c]? = some t) ∧
      ∀ (id : String) (t : BridgeTransfer),
        (b₁.transfers[id]? = some t → b₂.transfers[id]? = some t) ∧
          (b₁.store.bridgeTransfers[id]? = some t → b₂.store.bridgeTransfers[id]? = some t)

/-- No two locks of the run that pass their checks are of one second and one text. -/
def LocksApart (X : Crates) (b : BridgeManager) (calls : List BridgeCall) : Prop :=
  ∀ before c mid c' after, calls = before ++ .lock c :: (mid ++ .lock c' :: after) →
    Lockable X (b.runCalls X before) c →
    Lockable X (b.runCalls X (before ++ .lock c :: mid)) c' →
    ¬ (transferPath c = transferPath c' ∧ c.idTime = c'.idTime)

/-- A successful lock under an unused id writes there and nowhere else. -/
theorem lock_keeps (hok : LockSucceeds X b c) (hcached : b.transfers[lockTransferId c]? = none)
    (hstored : b.store.bridgeTransfers[lockTransferId c]? = none) :
    let b' := b.call X (.lock c)
    (b.transfers[lockTransferId c]? = none ∧ b.store.bridgeTransfers[lockTransferId c]? = none) ∧
      (∃ t : BridgeTransfer, t.id = lockTransferId c ∧
        b'.transfers[lockTransferId c]? = some t ∧
        b'.store.bridgeTransfers[lockTransferId c]? = some t) ∧
      ∀ (id : String) (t : BridgeTransfer),
        (b.transfers[id]? = some t → b'.transfers[id]? = some t) ∧
          (b.store.bridgeTransfers[id]? = some t → b'.store.bridgeTransfers[id]? = some t) := by
  have hne (table : Table String BridgeTransfer) (hnone : table[lockTransferId c]? = none)
      (t' : BridgeTransfer) (id : String) (t : BridgeTransfer) (ht : table[id]? = some t) :
      (table.insert (lockTransferId c) t')[id]? = some t := by
    rw [Table.get_insert, if_neg]
    · exact ht
    · rintro rfl
      rw [hnone] at ht
      cases ht
  cases lock_step X b c with
  | @success obj _ _ _ hcall =>
    rw [hcall]
    refine ⟨⟨hcached, hstored⟩, ⟨lockTransfer c obj, rfl, ?_, ?_⟩, fun id t ↦ ⟨?_, ?_⟩⟩
    · exact (Table.get_insert ..).trans (if_pos rfl)
    · exact (Table.get_insert ..).trans (if_pos rfl)
    · exact hne b.transfers hcached _ id t
    · exact hne b.store.bridgeTransfers hstored _ id t
  | failure hfail => exact absurd hok hfail
  | stranded hfail => exact absurd hok hfail

/-- **Transfers are never overwritten**, if and only if no two locks share a second and a text. -/
theorem transfers_kept_iff (X : Crates) (s : StateStore) (calls : List BridgeCall) :
    NeverReplaces X (freshBridge s) calls ↔ LocksApart X (freshBridge s) calls := by
  have hfiled (before : List BridgeCall) :
      Filed (lockedIds X (freshBridge s) before) ((freshBridge s).runCalls X before) := by
    have hrun := (freshBridge_filed s).runCalls (X := X) before
    rwa [Set.empty_union] at hrun
  constructor
  · intro hkept before c mid c' after hcalls hlock hlock' hsame
    have hsplit : calls = (before ++ .lock c :: mid) ++ .lock c' :: after := by simp [hcalls]
    obtain ⟨⟨hunused, -⟩, -⟩ := hkept _ c' after hsplit (lockSucceeds_iff.mpr hlock')
    have hid : lockTransferId c' ∈ lockedIds X (freshBridge s) (before ++ .lock c :: mid) :=
      mem_lockedIds.mpr ⟨before, c, mid, rfl, lockSucceeds_iff.mpr hlock,
        (lockTransferId_eq_iff.mpr hsame).symm⟩
    rw [← (hfiled _).cached, hunused] at hid
    cases hid
  · intro hapart before c after hcalls hok
    have hfresh : lockTransferId c ∉ lockedIds X (freshBridge s) before := by
      intro hid
      obtain ⟨before₀, c₀, mid, rfl, hok₀, hid₀⟩ := mem_lockedIds.mp hid
      exact hapart before₀ c₀ mid c after (by simp [hcalls]) (lockSucceeds_iff.mp hok₀)
        (lockSucceeds_iff.mp hok) (lockTransferId_eq_iff.mp hid₀.symm)
    have hcached : ((freshBridge s).runCalls X before).transfers[lockTransferId c]? = none := by
      rw [← Option.not_isSome_iff_eq_none, (hfiled before).cached]
      exact hfresh
    have hstored :
        ((freshBridge s).runCalls X before).store.bridgeTransfers[lockTransferId c]? = none := by
      rw [← Option.not_isSome_iff_eq_none, (hfiled before).stored]
      exact hfresh
    exact lock_keeps hok hcached hstored

/-! The owner locks an object, a mint with an empty proof fails and unlocks it, and the owner locks
it again in the same second. -/

def demoOwnerKey : Bytes := List.replicate 33 2

def demoOwned (objectId : String) : SmartObjectRecord where
  objectId
  codeHash := "wasm_default"
  sealRef := objectId ++ ":0"
  satoshis := 1000
  owner := hexEncode demoOwnerKey
  stateData := .null
  createdAtBlock := 1
  updatedAtBlock := 1

def demoOwnerStore : StateStore :=
  putObject demoCrates (demoOwned "b") (putObject demoCrates (demoOwned "o") (empty demoCrates))

/-- A lock in the second 7 that the owner has signed. -/
def demoLock (sourceChain objectId destChain destOwner : String) : LockCall :=
  let c : LockCall :=
    { sourceChain, objectId, destChain, destOwner, callerPubkey := hexEncode demoOwnerKey
      signatureHex := "", idTime := 7, createdAt := 7 }
  let digest := demoCrates.sha256 (asBytes (lockMessage c))
  { c with signatureHex := hexEncode (demoOwnerKey.drop 1 ++ digest.toList) }

def demoFailingMint : MintCall where
  transferId := "a_b_o_7"
  proof :=
    { sourceChain := "a", sourceHeight := 1, sourceRoot := "", objectId := "o", objectData := .null
      merkleProof :=
        { keyHex := "", valueHex := "", rootHex := "", proofPath := [], verified := false }
      attestations := [] }
  consensus := .new 1
  mintTime := 7
  completedAt := 7

def demoRelock : List BridgeCall :=
  [.lock (demoLock "a" "o" "b" "c:d"), .mint demoFailingMint]

theorem lockSucceeds_of_isOk (h : (run (lockAssets X c) b).2.isOk = true) : LockSucceeds X b c := by
  cases hrun : (run (lockAssets X c) b).2 with
  | error e =>
    rw [hrun] at h
    cases h
  | ok t => exact ⟨t, hrun⟩

theorem demoLock_succeeds :
    LockSucceeds demoCrates (freshBridge demoOwnerStore) (demoLock "a" "o" "b" "c:d") :=
  lockSucceeds_of_isOk (by decide +kernel)

theorem demoRelock_succeeds :
    LockSucceeds demoCrates ((freshBridge demoOwnerStore).runCalls demoCrates demoRelock)
      (demoLock "a" "o" "b" "c:d") :=
  lockSucceeds_of_isOk (by decide +kernel)

theorem transfer_overwritten : ¬ NeverReplaces demoCrates (freshBridge demoOwnerStore)
    (demoRelock ++ [.lock (demoLock "a" "o" "b" "c:d")]) := by
  intro hkept
  obtain ⟨⟨hunused, -⟩, -⟩ := hkept demoRelock _ [] rfl demoRelock_succeeds
  have hused : (((freshBridge demoOwnerStore).runCalls demoCrates demoRelock).transfers[
      "a_b_o_7"]?).isSome = true := by decide +kernel
  have hid : lockTransferId (demoLock "a" "o" "b" "c:d") = "a_b_o_7" := by decide
  rw [hid] at hunused
  rw [hunused] at hused
  cases hused

end BridgeManager

end UtxoVm
