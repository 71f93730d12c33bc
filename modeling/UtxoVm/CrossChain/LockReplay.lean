import UtxoVm.CrossChain.LockRuns

/-!
# What a signed lock authorises

The owner of an object signs the texts of a lock, joined by colons.  Nothing in them is used up by
the lock, so the signature serves again as soon as the object is unlocked, and it serves for every
lock whose texts are joined to the same message.
-/

namespace UtxoVm

open RustStd StateStore Prog

def BridgeCall.isLock : BridgeCall → Bool
  | .lock _ => true
  | _ => false

namespace BridgeManager

/-! ## 1. Signing operations -/

/-- The holder of a key has signed a message. -/
structure Signing where
  key : Bytes
  message : Bytes

/-- The operation signs the message of the lock under the key of its caller. -/
def Authorises (op : Signing) (c : LockCall) : Prop :=
  hexDecode c.callerPubkey = some op.key ∧ asBytes (lockMessage c) = op.message

/-- A signature in a lock of the run verifies only if the holder of the key has made it. -/
def Unforgeable (X : Crates) (ops : List Signing) (calls : List BridgeCall) : Prop :=
  ∀ c pubkey sig, .lock c ∈ calls → hexDecode c.callerPubkey = some pubkey →
    hexDecode c.signatureHex = some sig →
    X.verifyEcdsa (X.sha256 (asBytes (lockMessage c))) sig pubkey = true →
    ∃ op ∈ ops, Authorises op c

variable {X : Crates} {b : BridgeManager} {c c' : LockCall} {obj : SmartObjectRecord}

theorem checkSignature_ok {errors : SignatureErrors} {pubkeyHex signatureHex : String}
    {message : Bytes} (h : checkSignature X errors pubkeyHex signatureHex message = .ok ()) :
    ∃ pubkey sig, hexDecode pubkeyHex = some pubkey ∧ hexDecode signatureHex = some sig ∧
      X.verifyEcdsa (X.sha256 message) sig pubkey = true := by
  unfold checkSignature at h
  cases hpubkey : hexDecode pubkeyHex with
  | none =>
    rw [hpubkey] at h
    cases h
  | some pubkey =>
    cases hsig : hexDecode signatureHex with
    | none =>
      rw [hpubkey, hsig] at h
      dsimp only at h
      cases hkey : X.publicKeyFromSlice pubkey <;> rw [hkey] at h <;> cases h
    | some sig =>
      rw [hpubkey, hsig] at h
      refine ⟨pubkey, sig, rfl, rfl, ?_⟩
      by_contra hverify
      rw [Bool.not_eq_true] at hverify
      dsimp only at h
      rw [hverify] at h
      cases hkey : X.publicKeyFromSlice pubkey <;>
        cases hcompact : X.signatureFromCompact sig <;>
        rw [hkey, hcompact] at h <;> cases h

/-- A lock that passes its checks is of an unlocked object and carries a valid signature. -/
theorem checkLock_ok (h : checkLock X c obj = .ok ()) :
    stripPrefix obj.owner lockPrefix = none ∧
      checkSignature X lockErrors c.callerPubkey c.signatureHex (asBytes (lockMessage c)) =
        .ok () := by
  unfold checkLock at h
  split at h
  · cases h
  · rename_i hunlocked
    split at h
    · cases h
    · exact ⟨hunlocked, h⟩

theorem authorised_of_success {ops : List Signing} {calls : List BridgeCall}
    (hunforgeable : Unforgeable X ops calls) (hmem : .lock c ∈ calls)
    (hok : LockSucceeds X b c) : ∃ op ∈ ops, Authorises op c := by
  obtain ⟨obj, -, hcheck, -⟩ := lockSucceeds_iff.mp hok
  obtain ⟨pubkey, sig, hpubkey, hsig, hverify⟩ := checkSignature_ok (checkLock_ok hcheck).2
  exact hunforgeable c pubkey sig hmem hpubkey hsig hverify

/-- Without colons in them, the last three texts of a message can be told apart. -/
theorem lockMessage_inj (h : lockMessage c = lockMessage c')
    (hplain : ∀ text ∈ [c.objectId, c.destChain, c.destOwner, c'.objectId, c'.destChain,
      c'.destOwner], ':' ∉ text.toList) :
    c.sourceChain = c'.sourceChain ∧ c.objectId = c'.objectId ∧ c.destChain = c'.destChain ∧
      c.destOwner = c'.destOwner := by
  simp only [List.mem_cons, List.not_mem_nil, or_false, forall_eq_or_imp, forall_eq] at hplain
  obtain ⟨hobject, hdest, howner, hobject', hdest', howner'⟩ := hplain
  have hlist (c : LockCall) : (lockMessage c).toList =
      "lock:".toList ++ c.sourceChain.toList ++ ':' :: c.objectId.toList ++
        ':' :: c.destChain.toList ++ ':' :: c.destOwner.toList := by
    simp [lockMessage]
  have hall := congrArg String.toList h
  rw [hlist, hlist] at hall
  obtain ⟨hrest, hownerEq⟩ := append_cons_inj howner howner' hall
  obtain ⟨hrest, hdestEq⟩ := append_cons_inj hdest hdest' hrest
  obtain ⟨hrest, hobjectEq⟩ := append_cons_inj hobject hobject' hrest
  exact ⟨String.toList_injective (List.append_cancel_left hrest),
    String.toList_injective hobjectEq, String.toList_injective hdestEq,
    String.toList_injective hownerEq⟩

/-! ## 2. Objects under their own ids -/

/-- Every object is filed under its own id. -/
def OwnIds (b : BridgeManager) : Prop :=
  ∀ (id : String) (r : SmartObjectRecord), b.store.objects[id]? = some r → r.objectId = id

theorem OwnIds.congr {b' : BridgeManager} (h : OwnIds b)
    (hobjects : b'.store.objects = b.store.objects) : OwnIds b' := by
  unfold OwnIds
  rw [hobjects]
  exact h

theorem OwnIds.putObject (h : OwnIds b) (obj : SmartObjectRecord) :
    OwnIds { b with store := putObject X obj b.store } := by
  intro id r hr
  change (UtxoVm.StateStore.putObject X obj b.store).objects[id]? = some r at hr
  rw [putObject_objects] at hr
  split at hr
  · rename_i hid
    cases hr
    exact hid.symm
  · exact h id r hr

section

variable {I : BridgeManager → Prop}
  (hcongr : ∀ b b' : BridgeManager, b'.store.objects = b.store.objects → I b → I b')
  (hput : ∀ (obj : SmartObjectRecord) (b : BridgeManager), I b →
    I { b with store := putObject X obj b.store })
include hcongr hput

/-! What is said of the objects alone is kept if every object may be saved. -/

omit hput in
theorem ensures_of_objects {α : Type} {p : BridgeProg α} (hp : Keeps (·.store.objects) p) :
    Ensures I p fun _ ↦ True :=
  fun b hb ↦ ⟨hcongr b _ (hp.run b) hb, fun _ _ ↦ trivial⟩

omit hcongr in
theorem ensures_putObject (commits : Bool) (obj : SmartObjectRecord) :
    Ensures I (onStore (saveObject X commits obj)) fun _ ↦ True := by
  intro b hb
  rw [run_onStore, run_saveObject]
  refine ⟨?_, fun _ _ ↦ trivial⟩
  cases commits with
  | false => exact hb
  | true => exact hput obj b hb

theorem ensures_unlockObject_objects (commits : Bool) (t : BridgeTransfer) :
    Ensures I (unlockObject X commits t) fun _ ↦ True := by
  have hget : Keeps (·.store.objects) (onStore (getObject t.sourceObjectId)) :=
    Keeps.zoom (keeps_getObject (f := (·.objects)) _) fun _ _ hs ↦ hs
  refine (ensures_of_objects hcongr (keeps_withContext hget)).bind fun obj? _ ↦ ?_
  cases obj? with
  | none => exact .fail _
  | some obj =>
    dsimp only
    split
    · exact ensures_putObject hput commits _
    · exact .pure trivial

omit hput in
theorem ensures_updateTransfer_objects (commits : Bool) (t : BridgeTransfer) :
    Ensures I (updateTransfer commits t) fun _ ↦ True := by
  intro b hb
  rw [run_updateTransfer]
  refine ⟨hcongr b _ ?_ hb, fun _ _ ↦ trivial⟩
  cases commits <;> rfl

theorem ensures_mintFromProof_objects (c : MintCall) :
    Ensures I (mintFromProof X c) fun _ ↦ True := by
  have hguard : Ensures I (replayGuard c) fun _ ↦ True := by
    intro b hb
    rw [run_replayGuard]
    refine ⟨hcongr b _ ?_ hb, fun _ _ ↦ trivial⟩
    unfold guardOutcome
    split
    · split <;> rfl
    · split
      · rfl
      · split
        · split <;> rfl
        · rfl
  refine hguard.bind fun _ _ ↦ ?_
  refine Ensures.bind (Ensures.modify ?_) fun _ _ ↦ ?_
  · exact fun b hb ↦ hcongr b _ rfl hb
  refine (ensures_of_objects hcongr (Keeps.read _)).bind fun t? _ ↦ ?_
  cases t? with
  | none => exact .fail _
  | some t =>
    dsimp only
    split
    · exact .fail _
    · split
      · refine (ensures_updateTransfer_objects hcongr _ _).bind fun _ _ ↦ ?_
        exact (ensures_unlockObject_objects hcongr hput _ _).attempt.bind fun _ _ ↦ .fail _
      · refine (ensures_of_objects hcongr (.ofExcept _)).bind fun _ _ ↦ ?_
        refine (ensures_updateTransfer_objects hcongr _ _).bind fun _ _ ↦ ?_
        refine (ensures_putObject hput _ _).bind fun _ _ ↦ ?_
        exact (ensures_updateTransfer_objects hcongr _ _).bind fun _ _ ↦ .pure trivial

theorem ensures_cancelTransfer_objects (c : CancelCall) :
    Ensures I (cancelTransfer X c) fun _ ↦ True := by
  refine (ensures_of_objects hcongr (Keeps.read _)).bind fun t? _ ↦ ?_
  cases t? with
  | none => exact .fail _
  | some t =>
    refine (ensures_of_objects hcongr (.ofExcept _)).bind fun _ _ ↦ ?_
    have hget : Keeps (·.store.objects) (onStore (getObject t.sourceObjectId)) :=
      Keeps.zoom (keeps_getObject (f := (·.objects)) _) fun _ _ hs ↦ hs
    refine (ensures_of_objects hcongr hget).bind fun obj? _ ↦ ?_
    cases obj? with
    | none => exact .fail _
    | some obj =>
      refine (ensures_of_objects hcongr (.ofExcept _)).bind fun _ _ ↦ ?_
      refine (ensures_unlockObject_objects hcongr hput _ _).bind fun _ _ ↦ ?_
      exact (ensures_updateTransfer_objects hcongr _ _).bind fun _ _ ↦ .pure trivial

theorem objects_call {b : BridgeManager} (h : I b) (call : BridgeCall) : I (b.call X call) := by
  cases call with
  | lock c =>
    cases lock_step X b c with
    | @success obj _ _ _ hcall =>
      rw [hcall]
      exact hcongr { b with store := putObject X (lockObject obj) b.store } _ rfl (hput _ b h)
    | failure _ hcall => rwa [hcall]
    | stranded _ _ _ hcall =>
      rw [hcall]
      exact hput _ b h
  | mint c => exact (ensures_mintFromProof_objects hcongr hput c b h).1
  | cancel c => exact (ensures_cancelTransfer_objects hcongr hput c b h).1

end

theorem OwnIds.runCalls (h : OwnIds b) (calls : List BridgeCall) :
    OwnIds (b.runCalls X calls) := by
  induction calls generalizing b with
  | nil => exact h
  | cons call calls ih =>
    exact ih (objects_call (fun _ _ hobjects hb ↦ hb.congr hobjects)
      (fun obj _ hb ↦ hb.putObject obj) h call)

/-! ## 3. Who unlocks an object -/

/-- The object is locked for the bridge. -/
def ObjectLocked (b : BridgeManager) (id : String) : Prop :=
  ∃ obj, parseObject b.store.objects[id]? = .ok (some obj) ∧ startsWith obj.owner lockPrefix = true

/-- Somewhere in the calls a mint or a cancellation unlocks the object. -/
def Released (X : Crates) (b : BridgeManager) (calls : List BridgeCall) (id : String) : Prop :=
  ∃ before call after, calls = before ++ call :: after ∧ call.isLock = false ∧
    ObjectLocked (b.runCalls X before) id ∧ ¬ ObjectLocked (b.runCalls X (before ++ [call])) id

theorem not_locked_of_check (hobj : parseObject b.store.objects[c.objectId]? = .ok (some obj))
    (hcheck : checkLock X c obj = .ok ()) : ¬ ObjectLocked b c.objectId := by
  rintro ⟨obj', hobj', hlocked⟩
  rw [hobj] at hobj'
  cases hobj'
  unfold startsWith at hlocked
  rw [(checkLock_ok hcheck).1] at hlocked
  cases hlocked

/-- The write of a lock locks its object, and changes no other. -/
theorem objectLocked_put (hown : OwnIds b)
    (hobj : parseObject b.store.objects[c.objectId]? = .ok (some obj)) (id : String) :
    ObjectLocked { b with store := putObject X (lockObject obj) b.store } id ↔
      id = c.objectId ∨ ObjectLocked b id := by
  obtain ⟨hstored, hreadable⟩ := parseObject_ok hobj
  have hid : (lockObject obj).objectId = c.objectId := hown c.objectId obj hstored
  unfold ObjectLocked
  dsimp only
  rw [putObject_objects, hid]
  split
  · rename_i heq
    refine iff_of_true ⟨lockObject obj, ?_, ?_⟩ (.inl heq)
    · have hlocked : (lockObject obj).readable = true := hreadable
      exact if_pos hlocked
    · exact startsWith_iff.mpr ⟨obj.owner, rfl⟩
  · rename_i hne
    exact (or_iff_right hne).symm

theorem locked_of_success (hown : OwnIds b) (hok : LockSucceeds X b c) :
    ObjectLocked (b.call X (.lock c)) c.objectId := by
  cases lock_step X b c with
  | success _ hobj _ hcall =>
    rw [hcall]
    exact (objectLocked_put (X := X) hown hobj c.objectId).mpr (.inl rfl)
  | failure hfail => exact absurd hok hfail
  | stranded hfail => exact absurd hok hfail

/-- No lock unlocks an object. -/
theorem ObjectLocked.lock (hown : OwnIds b) {id : String} (h : ObjectLocked b id) (c : LockCall) :
    ObjectLocked (b.call X (.lock c)) id := by
  cases lock_step X b c with
  | success _ hobj _ hcall =>
    rw [hcall]
    exact (objectLocked_put (X := X) hown hobj id).mpr (.inr h)
  | failure _ hcall => rwa [hcall]
  | stranded _ hobj _ hcall =>
    rw [hcall]
    exact (objectLocked_put hown hobj id).mpr (.inr h)

theorem released_of_unlocked (hown : OwnIds b) {id : String} (h : ObjectLocked b id)
    {calls : List BridgeCall} (hend : ¬ ObjectLocked (b.runCalls X calls) id) :
    Released X b calls id := by
  induction calls generalizing b with
  | nil => exact absurd h hend
  | cons call calls ih =>
    by_cases hstep : ObjectLocked (b.call X call) id
    · obtain ⟨before, call', after, rfl, hreleases⟩ :=
        ih (OwnIds.runCalls hown [call]) hstep hend
      exact ⟨call :: before, call', after, rfl, hreleases⟩
    · refine ⟨[], call, calls, rfl, ?_, h, hstep⟩
      cases call with
      | lock c => exact absurd (h.lock hown c) hstep
      | mint c => rfl
      | cancel c => rfl

/-! ## 4. What one signing operation authorises -/

/-- Of any two successful locks of the run, no signing operation authorises both. -/
def AuthorisedOnce (X : Crates) (ops : List Signing) (b : BridgeManager)
    (calls : List BridgeCall) : Prop :=
  ∀ before c mid c' after, calls = before ++ .lock c :: (mid ++ .lock c' :: after) →
    LockSucceeds X (b.runCalls X before) c →
    LockSucceeds X (b.runCalls X (before ++ .lock c :: mid)) c' →
    ∀ op ∈ ops, Authorises op c → ¬ Authorises op c'

/-- **What a lock authorisation covers.**  Every successful lock is authorised.  Two of them that
one signing operation authorises carry one message, so that they are locks of the same texts unless
one of these has a colon; and if they lock one object, it was released between them. -/
theorem lock_authorisation (X : Crates) (ops : List Signing) (b : BridgeManager)
    (calls : List BridgeCall) (hown : OwnIds b) (hunforgeable : Unforgeable X ops calls) :
    (∀ before c after, calls = before ++ .lock c :: after →
      LockSucceeds X (b.runCalls X before) c → ∃ op ∈ ops, Authorises op c) ∧
    ∀ before c mid c' after, calls = before ++ .lock c :: (mid ++ .lock c' :: after) →
      LockSucceeds X (b.runCalls X before) c →
      LockSucceeds X (b.runCalls X (before ++ .lock c :: mid)) c' →
      ∀ op ∈ ops, Authorises op c → Authorises op c' →
        lockMessage c = lockMessage c' ∧
        ((∀ text ∈ [c.objectId, c.destChain, c.destOwner, c'.objectId, c'.destChain,
            c'.destOwner], ':' ∉ text.toList) →
          c.sourceChain = c'.sourceChain ∧ c.objectId = c'.objectId ∧ c.destChain = c'.destChain ∧
            c.destOwner = c'.destOwner) ∧
        (c.objectId = c'.objectId →
          Released X (b.runCalls X (before ++ [.lock c])) mid c.objectId) := by
  constructor
  · intro before c after hcalls hok
    exact authorised_of_success hunforgeable (by simp [hcalls]) hok
  · intro before c mid c' after hcalls hok hok' op hop hc hc'
    have hmessage : lockMessage c = lockMessage c' := asBytes_injective (hc.2.trans hc'.2.symm)
    refine ⟨hmessage, lockMessage_inj hmessage, fun hobject ↦ ?_⟩
    have hown' : OwnIds (b.runCalls X (before ++ [.lock c])) := hown.runCalls _
    have hlocked : ObjectLocked (b.runCalls X (before ++ [.lock c])) c.objectId := by
      rw [runCalls_append]
      exact locked_of_success (hown.runCalls before) hok
    have hrun : b.runCalls X (before ++ .lock c :: mid) =
        (b.runCalls X (before ++ [.lock c])).runCalls X mid := by
      rw [← runCalls_append, List.append_assoc]
      rfl
    obtain ⟨obj, hobj, hcheck, -⟩ := lockSucceeds_iff.mp hok'
    have hunlocked := not_locked_of_check hobj hcheck
    rw [hrun, ← hobject] at hunlocked
    exact released_of_unlocked hown' hlocked hunlocked

/-! The owner signs once.  The signature serves again after a mint has failed, and it serves for
another object whose id is part of the same message. -/

def demoSigning : Signing where
  key := demoOwnerKey
  message := asBytes "lock:a:o:b:c:d"

def demoResplit : List BridgeCall :=
  [.lock (demoLock "a" "o" "b" "c:d"), .lock (demoLock "a:o" "b" "c" "d")]

theorem demoLock_authorised {sourceChain objectId destChain destOwner : String}
    (hmessage : lockMessage (demoLock sourceChain objectId destChain destOwner) =
      "lock:a:o:b:c:d") :
    Authorises demoSigning (demoLock sourceChain objectId destChain destOwner) :=
  ⟨hexDecode_hexEncode _, congrArg asBytes hmessage⟩

theorem demoLock_authorised_first : Authorises demoSigning (demoLock "a" "o" "b" "c:d") :=
  demoLock_authorised (by decide)

theorem demoLock_authorised_second : Authorises demoSigning (demoLock "a:o" "b" "c" "d") :=
  demoLock_authorised (by decide)

theorem demoRelock_unforgeable : Unforgeable demoCrates [demoSigning]
    (demoRelock ++ [.lock (demoLock "a" "o" "b" "c:d")]) := by
  intro c _ _ hmem _ _ _
  refine ⟨demoSigning, List.mem_singleton_self _, ?_⟩
  have hc : c = demoLock "a" "o" "b" "c:d" := by simpa [demoRelock] using hmem
  rw [hc]
  exact demoLock_authorised_first

theorem demoResplit_unforgeable : Unforgeable demoCrates [demoSigning] demoResplit := by
  intro c _ _ hmem _ _ _
  refine ⟨demoSigning, List.mem_singleton_self _, ?_⟩
  have hc : c = demoLock "a" "o" "b" "c:d" ∨ c = demoLock "a:o" "b" "c" "d" := by
    simpa [demoResplit] using hmem
  rcases hc with rfl | rfl
  · exact demoLock_authorised_first
  · exact demoLock_authorised_second

theorem demoResplit_succeeds : LockSucceeds demoCrates
    ((freshBridge demoOwnerStore).runCalls demoCrates [.lock (demoLock "a" "o" "b" "c:d")])
    (demoLock "a:o" "b" "c" "d") :=
  lockSucceeds_of_isOk (by decide +kernel)

theorem demoOwnerStore_ownIds : OwnIds (freshBridge demoOwnerStore) := by
  have hempty : OwnIds (.new (empty demoCrates)) := by
    intro id r hr
    simp [new, empty] at hr
  exact ((hempty.putObject (X := demoCrates) (demoOwned "o")).putObject
    (X := demoCrates) (demoOwned "b")).congr rfl

theorem lock_authorisation_relock : Released demoCrates
    ((freshBridge demoOwnerStore).runCalls demoCrates [.lock (demoLock "a" "o" "b" "c:d")])
    [.mint demoFailingMint] "o" := by
  have hauthorised := (lock_authorisation demoCrates [demoSigning] (freshBridge demoOwnerStore)
    (demoRelock ++ [.lock (demoLock "a" "o" "b" "c:d")]) demoOwnerStore_ownIds
    demoRelock_unforgeable).2 [] _ [.mint demoFailingMint] _ [] rfl demoLock_succeeds
    demoRelock_succeeds demoSigning (List.mem_singleton_self _) demoLock_authorised_first
    demoLock_authorised_first
  exact hauthorised.2.2 rfl

/-- **One signature locks twice.** -/
theorem lock_authorisation_reused :
    (Unforgeable demoCrates [demoSigning]
        (demoRelock ++ [.lock (demoLock "a" "o" "b" "c:d")]) ∧
      ¬ AuthorisedOnce demoCrates [demoSigning] (freshBridge demoOwnerStore)
        (demoRelock ++ [.lock (demoLock "a" "o" "b" "c:d")])) ∧
    Unforgeable demoCrates [demoSigning] demoResplit ∧
      ¬ AuthorisedOnce demoCrates [demoSigning] (freshBridge demoOwnerStore) demoResplit := by
  have hop : demoSigning ∈ [demoSigning] := List.mem_singleton_self _
  refine ⟨⟨demoRelock_unforgeable, fun honce ↦ ?_⟩, demoResplit_unforgeable, fun honce ↦ ?_⟩
  · exact honce [] _ [.mint demoFailingMint] _ [] rfl demoLock_succeeds demoRelock_succeeds
      demoSigning hop demoLock_authorised_first demoLock_authorised_first
  · exact honce [] _ [] _ [] rfl demoLock_succeeds demoResplit_succeeds demoSigning hop
      demoLock_authorised_first demoLock_authorised_second

end BridgeManager

end UtxoVm
