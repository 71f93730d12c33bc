import UtxoVm.CrossChain.BridgeSteps
import UtxoVm.Reasoning.Keyed

/-!
# Mints across restarts

The minted object and the status `Minted` are two commits.  A process that stops between them, or
whose second commit fails, finds the transfer in the status `Verified` when it is started again, and
the replay guard lets a transfer through that has the entry itself.
-/

namespace UtxoVm

open RustStd StateStore Prog

/-- A call, whose later commits fail where the process stops in it, or a start of the process on the
store that is there. -/
inductive BridgeStep where
  | call (call : BridgeCall)
  | restart

namespace BridgeManager

variable (X : Crates)

/-! ## 1. Runs with restarts -/

def step (b : BridgeManager) : BridgeStep → BridgeManager
  | .call c => b.call X c
  | .restart => new b.store

/-- The mint saves the bridge object `id` for the source object. -/
def Saves (b : BridgeManager) (c : MintCall) (sourceObjectId id : String) : Prop :=
  ∃ t, guardRefuses c b = false ∧ b.transfers[c.transferId]? = some t ∧
    t.status.isFinal = false ∧
    (CrossChainVerifier.verifyProof X c.consensus c.proof).valid = true ∧
    checkBinding c t = .ok () ∧ c.verifiedCommits = true ∧ c.objectCommits = true ∧
    sourceObjectId = t.sourceObjectId ∧ id = mintedObjectId c.transferId c.mintTime

/-- Some mint of the run saves the bridge object. -/
def SavedIn (b : BridgeManager) : List BridgeStep → String → String → Prop
  | [], _, _ => False
  | s :: steps, sourceObjectId, id =>
      (∃ c, s = .call (.mint c) ∧ Saves X b c sourceObjectId id) ∨
        SavedIn (b.step X s) steps sourceObjectId id

/-- For each source object at most one bridge object is saved. -/
def OncePerSource (b : BridgeManager) (steps : List BridgeStep) : Prop :=
  ∀ sourceObjectId id id', SavedIn X b steps sourceObjectId id →
    SavedIn X b steps sourceObjectId id' → id = id'

/-- A mint that saves its object also stores the status `Minted`, and a lock that succeeds does not
take the id of a transfer that has been minted. -/
def StepMeets (b : BridgeManager) : BridgeStep → Prop
  | .call (.mint c) => ∀ sourceObjectId id, Saves X b c sourceObjectId id → c.mintedCommits = true
  | .call (.lock c) => LockSucceeds X b c → ∀ t,
      b.store.bridgeTransfers[lockTransferId c]? = some t → t.status ≠ .minted
  | _ => True

def RunMeets (b : BridgeManager) : List BridgeStep → Prop
  | [] => True
  | s :: steps => StepMeets X b s ∧ RunMeets (b.step X s) steps

/-- Every transfer is kept under its own id. -/
structure OwnKeys (b : BridgeManager) : Prop where
  cached : ∀ (id : String) (t : BridgeTransfer), b.transfers[id]? = some t → t.id = id
  stored : ∀ (id : String) (t : BridgeTransfer), b.store.bridgeTransfers[id]? = some t → t.id = id

/-- The transfer has been minted for the object: the guard has its entry, and its status is final in
the cache and in the table. -/
structure DoneBy (b : BridgeManager) (sourceObjectId id : String) : Prop where
  entry : b.store.mintedProofs[sourceObjectId]? = some id
  stored : ∃ t, b.store.bridgeTransfers[id]? = some t ∧ t.status = .minted
  cached : ∃ t, b.transfers[id]? = some t ∧ t.status.isFinal = true

variable {X} {b : BridgeManager}

/-! ## 2. Restarts -/

/-- The cache that is filled from a table. -/
theorem get_foldl_insert {l : List BridgeTransfer} (hnodup : (l.map BridgeTransfer.id).Nodup)
    (m : Table String BridgeTransfer) (id : String) :
    (l.foldl (fun m t ↦ m.insert t.id t) m)[id]? =
      (Keyed.lookup BridgeTransfer.id id l).or m[id]? := by
  induction l generalizing m with
  | nil => rfl
  | cons t l ih =>
    rw [List.map_cons, List.nodup_cons] at hnodup
    rw [List.foldl_cons, ih hnodup.2, Table.get_insert]
    unfold Keyed.lookup
    by_cases hid : t.id = id
    · -- no later transfer has the id
      have hnone : l.find? (fun a ↦ decide (a.id = id)) = none := by
        rw [List.find?_eq_none]
        intro a ha hkey
        apply hnodup.1
        rw [hid, ← of_decide_eq_true hkey]
        exact List.mem_map_of_mem ha
      rw [hnone, List.find?_cons_of_pos (by simpa using hid), if_pos hid.symm]
      rfl
    · rw [List.find?_cons_of_neg (by simpa using hid), if_neg (Ne.symm hid)]

theorem new_transfers {s : StateStore}
    (hkeys : ∀ (id : String) (t : BridgeTransfer), s.bridgeTransfers[id]? = some t → t.id = id)
    (id : String) : (new s).transfers[id]? = s.bridgeTransfers[id]? := by
  let l := s.bridgeTransfers.toList.map (·.2)
  have hmem {t : BridgeTransfer} (ht : t ∈ l) : s.bridgeTransfers[t.id]? = some t := by
    obtain ⟨entry, hentry, rfl⟩ := List.mem_map.mp ht
    have hstored := Std.ExtTreeMap.mem_toList_iff_getElem?_eq_some.mp hentry
    rwa [hkeys entry.1 entry.2 hstored]
  have hids : l.map BridgeTransfer.id = s.bridgeTransfers.toList.map (·.1) := by
    rw [List.map_map]
    apply List.map_congr_left
    intro entry hentry
    exact hkeys entry.1 entry.2 (Std.ExtTreeMap.mem_toList_iff_getElem?_eq_some.mp hentry)
  have hnodup : (l.map BridgeTransfer.id).Nodup := by
    rw [hids]
    apply List.pairwise_map.mpr
    refine Std.ExtTreeMap.distinct_keys_toList.imp fun hdistinct heq ↦ hdistinct ?_
    rw [heq]
    exact Std.ReflCmp.compare_self
  refine (get_foldl_insert hnodup ∅ id).trans ?_
  have hempty : (∅ : Table String BridgeTransfer)[id]? = none := by simp
  rw [hempty, Option.or_none]
  cases ht : s.bridgeTransfers[id]? with
  | none =>
    apply Keyed.lookup_eq_none.mpr
    rintro t hmemt rfl
    rw [hmem hmemt] at ht
    cases ht
  | some t =>
    have hl : t ∈ l :=
      List.mem_map.mpr ⟨(id, t), Std.ExtTreeMap.mem_toList_iff_getElem?_eq_some.mpr ht, rfl⟩
    rw [← hkeys id t ht]
    exact Keyed.lookup_of_mem hnodup hl

/-! ## 3. Keys -/

theorem OwnKeys.congr {b' : BridgeManager} (h : OwnKeys b)
    (htables : transferTables b' = transferTables b) : OwnKeys b' := by
  obtain ⟨htransfers, hstored⟩ := Prod.ext_iff.mp htables
  dsimp only [transferTables] at htransfers hstored
  constructor
  · rw [htransfers]
    exact h.cached
  · rw [hstored]
    exact h.stored

theorem OwnKeys.fileTransfer (h : OwnKeys b) (commits : Bool) (t : BridgeTransfer) :
    OwnKeys (fileTransfer commits t b) := by
  cases commits with
  | false => exact ⟨key_insert h.cached, h.stored⟩
  | true => exact ⟨key_insert h.cached, key_insert h.stored⟩

theorem release_eq (X : Crates) (commits : Bool) (objectId : String) (b : BridgeManager) :
    release X commits objectId b = b ∨ ∃ obj,
      release X commits objectId b = { b with store := putObject X obj b.store } := by
  unfold release
  cases parseObject b.store.objects[objectId]? with
  | error e => exact .inl rfl
  | ok obj? =>
    cases obj? with
    | none => exact .inl rfl
    | some obj =>
      dsimp only
      cases stripPrefix obj.owner lockPrefix with
      | none => exact .inl rfl
      | some owner =>
        cases commits with
        | false => exact .inl rfl
        | true => exact .inr ⟨_, rfl⟩

theorem OwnKeys.release (h : OwnKeys b) (commits : Bool) (objectId : String) :
    OwnKeys (release X commits objectId b) := by
  rcases release_eq X commits objectId b with heq | ⟨obj, heq⟩ <;> rw [heq]
  · exact h
  · exact h.congr rfl

theorem OwnKeys.rejected (h : OwnKeys b) (c : MintCall) (t : BridgeTransfer) :
    OwnKeys (rejected X c t b) := by
  unfold BridgeManager.rejected
  split
  · exact (h.fileTransfer _ _).release _ _
  · exact h.fileTransfer _ _

theorem OwnKeys.completed (h : OwnKeys b) (c : MintCall) (t : BridgeTransfer) :
    OwnKeys (completed X c t b) := by
  unfold BridgeManager.completed
  dsimp only
  split
  · have hverified := h.fileTransfer c.verifiedCommits (verifiedTransfer t)
    have hsaved : OwnKeys
        { BridgeManager.fileTransfer c.verifiedCommits (verifiedTransfer t) b with
          store := putObject X (mintedObject c (verifiedTransfer t))
            (BridgeManager.fileTransfer c.verifiedCommits (verifiedTransfer t) b).store } :=
      hverified.congr rfl
    exact hsaved.fileTransfer _ _
  · exact h.fileTransfer _ _

theorem OwnKeys.step (h : OwnKeys b) (s : BridgeStep) : OwnKeys (b.step X s) := by
  cases s with
  | restart =>
    refine ⟨fun id t ht ↦ ?_, h.stored⟩
    rw [show (b.step X .restart).transfers[id]? = _ from new_transfers h.stored id] at ht
    exact h.stored id t ht
  | call call =>
    cases call with
    | lock c =>
      show OwnKeys (b.call X (.lock c))
      cases lock_step X b c with
      | success _ _ _ hcall =>
        rw [hcall]
        exact ⟨key_insert h.cached, key_insert h.stored⟩
      | failure _ hcall => rwa [hcall]
      | stranded _ _ _ hcall =>
        rw [hcall]
        exact h.congr rfl
    | mint c =>
      show OwnKeys (b.call X (.mint c))
      have hentered : OwnKeys (entered c b) := h.congr rfl
      cases mint_step (X := X) b c with
      | refused _ hcall => rwa [hcall]
      | passed _ _ hcall => rwa [hcall]
      | disproved _ _ _ _ hcall =>
        rw [hcall]
        exact hentered.rejected _ _
      | accepted _ _ _ _ _ hcall =>
        rw [hcall]
        exact hentered.completed _ _
    | cancel c =>
      show OwnKeys (b.call X (.cancel c))
      cases cancel_step (X := X) b c with
      | failed hcall => rwa [hcall]
      | done _ _ hcall =>
        rw [hcall]
        exact (h.release _ _).fileTransfer _ _

theorem freshBridge_ownKeys (s : StateStore) : OwnKeys (freshBridge s) := by
  have htransfers : (freshBridge s).transfers = ∅ := rfl
  have hstored : (freshBridge s).store.bridgeTransfers = ∅ := rfl
  constructor <;> simp [htransfers, hstored]

/-! ## 4. A transfer that has been minted -/

variable {c : MintCall} {sourceObjectId id : String}

/-- The guard lets no proof of the object pass any more. -/
theorem DoneBy.other_object (h : DoneBy b sourceObjectId id) (hpasses : guardRefuses c b = false) :
    c.proof.objectId ≠ sourceObjectId := by
  rintro rfl
  obtain ⟨t, ht, hfinal⟩ := h.cached
  unfold guardRefuses at hpasses
  rw [h.entry] at hpasses
  dsimp only at hpasses
  by_cases hother : id ≠ c.transferId
  · rw [if_pos hother] at hpasses
    cases hpasses
  · rw [if_neg hother] at hpasses
    rw [ne_eq, not_not] at hother
    rw [← hother, ht] at hpasses
    dsimp only at hpasses
    rw [hfinal] at hpasses
    cases hpasses

/-- A transfer that is not final is another one. -/
theorem DoneBy.other_transfer (h : DoneBy b sourceObjectId id) {id' : String} {t : BridgeTransfer}
    (ht : b.transfers[id']? = some t) (hfinal : t.status.isFinal = false) : id' ≠ id := by
  rintro rfl
  obtain ⟨t', ht', hfinal'⟩ := h.cached
  rw [ht] at ht'
  cases ht'
  rw [hfinal] at hfinal'
  cases hfinal'

theorem DoneBy.fileTransfer (h : DoneBy b sourceObjectId id) (commits : Bool) {t : BridgeTransfer}
    (hne : t.id ≠ id) : DoneBy (fileTransfer commits t b) sourceObjectId id := by
  have hinsert (table : Table String BridgeTransfer) : (table.insert t.id t)[id]? = table[id]? := by
    rw [Table.get_insert, if_neg (Ne.symm hne)]
  obtain ⟨t₁, ht₁, hminted⟩ := h.stored
  obtain ⟨t₂, ht₂, hfinal⟩ := h.cached
  have hcached : (b.transfers.insert t.id t)[id]? = some t₂ := (hinsert _).trans ht₂
  cases commits with
  | false => exact ⟨h.entry, ⟨t₁, ht₁, hminted⟩, t₂, hcached, hfinal⟩
  | true => exact ⟨h.entry, ⟨t₁, (hinsert _).trans ht₁, hminted⟩, t₂, hcached, hfinal⟩

theorem DoneBy.put (h : DoneBy b sourceObjectId id) (obj : SmartObjectRecord) :
    DoneBy { b with store := putObject X obj b.store } sourceObjectId id :=
  ⟨h.entry, h.stored, h.cached⟩

theorem DoneBy.release (h : DoneBy b sourceObjectId id) (commits : Bool) (objectId : String) :
    DoneBy (release X commits objectId b) sourceObjectId id := by
  rcases release_eq X commits objectId b with heq | ⟨obj, heq⟩ <;> rw [heq]
  · exact h
  · exact h.put obj

theorem DoneBy.entered (h : DoneBy b sourceObjectId id) (hpasses : guardRefuses c b = false) :
    DoneBy (entered c b) sourceObjectId id := by
  refine ⟨?_, h.stored, h.cached⟩
  refine (Table.get_insert ..).trans ?_
  rw [if_neg (Ne.symm (h.other_object hpasses))]
  exact h.entry

theorem not_saves_of_done (h : DoneBy b sourceObjectId id) (id' : String) :
    ¬ Saves X b c sourceObjectId id' := by
  rintro ⟨t, hpasses, -, -, -, hbinding, -, -, rfl, -⟩
  apply h.other_object hpasses
  by_contra hother
  unfold checkBinding at hbinding
  rw [if_pos hother] at hbinding
  cases hbinding

/-- No step undoes what has been minted. -/
theorem DoneBy.step (h : DoneBy b sourceObjectId id) (hkeys : OwnKeys b) {s : BridgeStep}
    (hmeets : StepMeets X b s) : DoneBy (b.step X s) sourceObjectId id := by
  cases s with
  | restart =>
    obtain ⟨t, ht, hminted⟩ := h.stored
    refine ⟨h.entry, h.stored, t, (new_transfers hkeys.stored id).trans ht, ?_⟩
    rw [hminted]
    rfl
  | call call =>
    cases call with
    | lock c =>
      show DoneBy (b.call X (.lock c)) sourceObjectId id
      cases lock_step X b c with
      | @success obj hok _ _ hcall =>
        obtain ⟨t, ht, hminted⟩ := h.stored
        have hne : (lockTransfer c obj).id ≠ id := by
          rintro rfl
          exact hmeets hok t ht hminted
        rw [hcall]
        exact (h.put (lockObject obj)).fileTransfer true hne
      | failure _ hcall => rwa [hcall]
      | stranded _ _ _ hcall =>
        rw [hcall]
        exact h.put _
    | mint c =>
      show DoneBy (b.call X (.mint c)) sourceObjectId id
      cases mint_step (X := X) b c with
      | refused _ hcall => rwa [hcall]
      | passed hpasses _ hcall =>
        rw [hcall]
        exact h.entered hpasses
      | @disproved t hpasses ht hfinal _ hcall =>
        have hne : t.id ≠ id := hkeys.cached _ t ht ▸ h.other_transfer ht hfinal
        rw [hcall]
        unfold rejected
        split
        · exact ((h.entered hpasses).fileTransfer (t := failedTransfer t) true hne).release _ _
        · exact (h.entered hpasses).fileTransfer (t := failedTransfer t) false hne
      | @accepted t hpasses ht hfinal _ _ hcall =>
        have hne : t.id ≠ id := hkeys.cached _ t ht ▸ h.other_transfer ht hfinal
        have hverified :=
          (h.entered hpasses).fileTransfer (t := verifiedTransfer t) c.verifiedCommits hne
        rw [hcall]
        unfold completed
        dsimp only
        split
        · exact (hverified.put _).fileTransfer _ hne
        · exact hverified
    | cancel c =>
      show DoneBy (b.call X (.cancel c)) sourceObjectId id
      cases cancel_step (X := X) b c with
      | failed hcall => rwa [hcall]
      | @done t ht hstatus hcall =>
        have hfinal : t.status.isFinal = false := by
          rcases hstatus with hstatus | hstatus <;> rw [hstatus] <;> rfl
        have hne : t.id ≠ id := hkeys.cached _ t ht ▸ h.other_transfer ht hfinal
        rw [hcall]
        exact (h.release _ _).fileTransfer _ hne

/-- A mint whose proof is accepted goes on to its writes. -/
theorem call_of_accepted {t : BridgeTransfer} (hpasses : guardRefuses c b = false)
    (ht : b.transfers[c.transferId]? = some t) (hfinal : t.status.isFinal = false)
    (hvalid : (CrossChainVerifier.verifyProof X c.consensus c.proof).valid = true)
    (hbinding : checkBinding c t = .ok ()) :
    b.call X (.mint c) = completed X c t (entered c b) := by
  cases mint_step (X := X) b c with
  | refused hrefuses =>
    rw [hpasses] at hrefuses
    cases hrefuses
  | passed _ hnot => exact absurd hbinding (hnot t ht hfinal hvalid)
  | disproved _ _ _ hinvalid =>
    rw [hvalid] at hinvalid
    cases hinvalid
  | accepted _ ht' _ _ _ hcall =>
    rw [ht] at ht'
    cases ht'
    exact hcall

/-- The bridge object is in the store. -/
theorem objects_of_saves (hsaves : Saves X b c sourceObjectId id) :
    ∃ obj : SmartObjectRecord, obj.objectId = id ∧
      (b.call X (.mint c)).store.objects = b.store.objects.insert id obj := by
  obtain ⟨t, hpasses, ht, hfinal, hvalid, hbinding, hverified, hobject, -, rfl⟩ := hsaves
  rw [call_of_accepted hpasses ht hfinal hvalid hbinding]
  unfold completed
  dsimp only
  rw [hverified, hobject, Bool.and_self, if_pos rfl]
  refine ⟨mintedObject c (verifiedTransfer t), rfl, ?_⟩
  cases c.mintedCommits <;> rfl

/-- A mint that saves none writes no object but the one that it unlocks. -/
theorem objects_of_not_saves (hnot : ∀ sourceObjectId id, ¬ Saves X b c sourceObjectId id) :
    (b.call X (.mint c)).store.objects = b.store.objects ∨ ∃ t b',
      b.transfers[c.transferId]? = some t ∧ b'.store.objects = b.store.objects ∧
        (b.call X (.mint c)).store.objects =
          (release X c.unlockCommits t.sourceObjectId b').store.objects := by
  cases mint_step (X := X) b c with
  | refused _ hcall => exact .inl (by rw [hcall])
  | passed _ _ hcall => exact .inl (by rw [hcall]; rfl)
  | @disproved t _ ht _ _ hcall =>
    rw [hcall]
    unfold rejected
    split
    · exact .inr ⟨t, fileTransfer true (failedTransfer t) (entered c b), ht, rfl, rfl⟩
    · exact .inl rfl
  | @accepted t hpasses ht hfinal hvalid hbinding hcall =>
    left
    rw [hcall]
    unfold completed
    dsimp only
    split
    · rename_i hcommits
      rw [Bool.and_eq_true] at hcommits
      exact absurd ⟨t, hpasses, ht, hfinal, hvalid, hbinding, hcommits.1, hcommits.2, rfl, rfl⟩
        (hnot t.sourceObjectId (mintedObjectId c.transferId c.mintTime))
    · cases c.verifiedCommits <;> rfl

/-- A mint that saves the bridge object, and whose writes all commit, is done. -/
theorem done_of_saves (hkeys : OwnKeys b) (hmeets : c.mintedCommits = true)
    (hsaves : Saves X b c sourceObjectId id) :
    DoneBy (b.call X (.mint c)) sourceObjectId c.transferId := by
  obtain ⟨t, hpasses, ht, hfinal, hvalid, hbinding, hverified, hobject, rfl, -⟩ := hsaves
  have hid : t.id = c.transferId := hkeys.cached _ t ht
  have hsource : c.proof.objectId = t.sourceObjectId := by
    by_contra hother
    unfold checkBinding at hbinding
    rw [if_pos hother] at hbinding
    cases hbinding
  have hcall := call_of_accepted hpasses ht hfinal hvalid hbinding
  rw [hcall]
  unfold completed
  dsimp only
  rw [hverified, hobject, hmeets, ← hid, ← hsource]
  refine ⟨?_, ⟨mintedTransfer c t, ?_, rfl⟩, mintedTransfer c t, ?_, rfl⟩
  · exact (Table.get_insert ..).trans ((if_pos rfl).trans (congrArg some hid.symm))
  · exact (Table.get_insert ..).trans (if_pos rfl)
  · exact (Table.get_insert ..).trans (if_pos rfl)

/-! ## 5. Whole runs -/

theorem not_savedIn_of_done {steps : List BridgeStep} (h : DoneBy b sourceObjectId id)
    (hkeys : OwnKeys b) (hmeets : RunMeets X b steps) (id' : String) :
    ¬ SavedIn X b steps sourceObjectId id' := by
  induction steps generalizing b with
  | nil => exact fun hsaved ↦ hsaved
  | cons s steps ih =>
    rintro (⟨c, rfl, hsaves⟩ | hlater)
    · exact not_saves_of_done h id' hsaves
    · exact ih (h.step hkeys hmeets.1) (hkeys.step s) hmeets.2 hlater

theorem oncePerSource_of_meets {steps : List BridgeStep} (hkeys : OwnKeys b)
    (hmeets : RunMeets X b steps) : OncePerSource X b steps := by
  induction steps generalizing b with
  | nil => exact fun _ _ _ hsaved ↦ hsaved.elim
  | cons s steps ih =>
    obtain ⟨hstep, hrest⟩ := hmeets
    -- after a mint that saves, the object is done
    have honly {c : MintCall} {sourceObjectId id id' : String} (hs : s = .call (.mint c))
        (hsaves : Saves X b c sourceObjectId id) :
        ¬ SavedIn X (b.step X s) steps sourceObjectId id' := by
      subst hs
      have hdone := done_of_saves hkeys (hstep _ _ hsaves) hsaves
      exact not_savedIn_of_done hdone (hkeys.step (.call (.mint c))) hrest id'
    intro sourceObjectId id id' hsaved hsaved'
    rcases hsaved with ⟨c, hc, hsaves⟩ | hlater
    · rcases hsaved' with ⟨c', hc', hsaves'⟩ | hlater'
      · rw [hc] at hc'
        cases hc'
        obtain ⟨-, -, -, -, -, -, -, -, -, hid⟩ := hsaves
        obtain ⟨-, -, -, -, -, -, -, -, -, hid'⟩ := hsaves'
        exact hid.trans hid'.symm
      · exact absurd hlater' (honly hc hsaves)
    · rcases hsaved' with ⟨c', hc', hsaves'⟩ | hlater'
      · exact absurd hlater (honly hc' hsaves')
      · exact ih (hkeys.step s) hrest sourceObjectId id id' hlater hlater'

/-- **One bridge object for each source object**, over any restarts: as long as every mint that
saves its object also stores the status `Minted`, and no lock that succeeds takes the id of a minted
transfer. -/
theorem minted_once (X : Crates) (s : StateStore) (steps : List BridgeStep)
    (hmeets : RunMeets X (freshBridge s) steps) : OncePerSource X (freshBridge s) steps :=
  oncePerSource_of_meets (freshBridge_ownKeys s) hmeets

/-- A transfer of the object `o` to another chain. -/
def demoBridgeLock : LockCall := demoLock "JKC" "o" "B" "p"

def demoBridgeMint (mintTime : Int) (mintedCommits : Bool) : MintCall where
  transferId := "JKC_B_o_7"
  proof := demoProof .null [1, 2]
  consensus := demoManager []
  mintTime
  completedAt := mintTime
  mintedCommits

def demoOnce : List BridgeStep :=
  [.call (.lock demoBridgeLock), .call (.mint (demoBridgeMint 8 true)), .restart,
    .call (.mint (demoBridgeMint 9 true))]

theorem minted_once_demo : OncePerSource demoCrates (freshBridge demoOwnerStore) demoOnce := by
  apply minted_once
  have hnone : (freshBridge demoOwnerStore).store.bridgeTransfers[
      lockTransferId demoBridgeLock]? = none := by
    decide +kernel
  refine ⟨fun _ t ht ↦ ?_, fun _ _ _ ↦ rfl, trivial, fun _ _ _ ↦ rfl, trivial⟩
  rw [hnone] at ht
  cases ht

/-- The process stops after the minted object is saved, and the transfer is minted again. -/
def demoTwiceMinted : List BridgeStep :=
  [.call (.lock demoBridgeLock), .call (.mint (demoBridgeMint 8 false)), .restart,
    .call (.mint (demoBridgeMint 9 true))]

theorem minted_twice_after_restart :
    ¬ OncePerSource demoCrates (freshBridge demoOwnerStore) demoTwiceMinted := by
  intro honce
  have hvalid : (CrossChainVerifier.verifyProof demoCrates (demoManager [])
      (demoProof .null [1, 2])).valid = true :=
    demoProof_valid .null [1, 2] (by decide) (by decide) (by simp [demoValidators])
  let b₁ := (freshBridge demoOwnerStore).step demoCrates (.call (.lock demoBridgeLock))
  let b₂ := b₁.step demoCrates (.call (.mint (demoBridgeMint 8 false)))
  let b₃ := b₂.step demoCrates .restart
  let t := lockTransfer demoBridgeLock (demoOwned "o")
  -- the guard lets both mints through, and both find the transfer
  have hpasses : (guardRefuses (demoBridgeMint 8 false) b₁ = false ∧
        b₁.transfers["JKC_B_o_7"]? = some t) ∧
      guardRefuses (demoBridgeMint 9 true) b₃ = false ∧
        b₃.transfers["JKC_B_o_7"]? = some (verifiedTransfer t) := by
    decide +kernel
  obtain ⟨⟨hguard, ht⟩, hguard', ht'⟩ := hpasses
  have hfirst : Saves demoCrates b₁ (demoBridgeMint 8 false) "o" "bridge_JKC_B_o_7_8" :=
    ⟨t, hguard, ht, rfl, hvalid, rfl, rfl, rfl, rfl, by decide⟩
  have hsecond : Saves demoCrates b₃ (demoBridgeMint 9 true) "o" "bridge_JKC_B_o_7_9" :=
    ⟨verifiedTransfer t, hguard', ht', rfl, hvalid, rfl, rfl, rfl, rfl, by decide⟩
  have hsame := honce "o" _ _ (.inr (.inl ⟨_, rfl, hfirst⟩))
    (.inr (.inr (.inr (.inl ⟨_, rfl, hsecond⟩))))
  exact absurd hsame (by decide)

end BridgeManager

end UtxoVm
