import UtxoVm.CrossChain.GenuineProof
import UtxoVm.CrossChain.LockReplay
import UtxoVm.CrossChain.MintOnce

/-!
# The state that a mint copies

A mint is bound to the lock of its transfer by the id of the object and by the chain.  What it
copies is the record that the object had when the validators attested the height that the proof
names: the locked record only if that was while the lock stood, with nothing else written in
between.
-/

namespace UtxoVm

open RustStd StateStore Prog

/-- What happens to the objects of a node: a step of its bridge, an object that another part of the
node stores or deletes, and the attestation of a height, whose root is over the objects as they are
at that moment. -/
inductive ObjectEvent where
  | step (step : BridgeStep)
  | store (obj : SmartObjectRecord)
  | delete (objectId : String)
  | attest (chain : String) (height : Nat)

namespace BridgeManager

variable (X : Crates)

def event (b : BridgeManager) : ObjectEvent → BridgeManager
  | .step s => b.step X s
  | .store obj => { b with store := putObject X obj b.store }
  | .delete objectId =>
      { b with store := { b.store with objects := b.store.objects.erase objectId } }
  | .attest _ _ => b

def runEvents (b : BridgeManager) (events : List ObjectEvent) : BridgeManager :=
  events.foldl (fun b e ↦ b.event X e) b

/-- The lock has succeeded in the run after the events `locked`, with `found` as the record that it
marked, and no later lock has made a transfer of the same id. -/
def LockedFor (b : BridgeManager) (events locked : List ObjectEvent) (c : LockCall)
    (found : SmartObjectRecord) : Prop :=
  ∃ after, events = locked ++ .step (.call (.lock c)) :: after ∧
    LockSucceeds X (b.runEvents X locked) c ∧
    parseObject (b.runEvents X locked).store.objects[c.objectId]? = .ok (some found) ∧
    ∀ before' c' after', after = before' ++ .step (.call (.lock c')) :: after' →
      LockSucceeds X (b.runEvents X (locked ++ .step (.call (.lock c)) :: before')) c' →
      lockTransferId c' ≠ lockTransferId c

/-- The height of the proof was attested after the events `attested`, when the object had the record
that the proof is about. -/
def Opens (b : BridgeManager) (events attested : List ObjectEvent) (proof : CrossChainProof)
    (obj : SmartObjectRecord) : Prop :=
  (∃ after, events = attested ++ .attest proof.sourceChain proof.sourceHeight :: after) ∧
    (b.runEvents X attested).store.objects[proof.objectId]? = some obj ∧
    proof.objectData = obj.toJson

/-- The proofs of the run verify exactly if a root that was attested at their height, at any time
before, commits their data. -/
def VerifiesAttested (b : BridgeManager) (events : List ObjectEvent) : Prop :=
  ∀ before c after, events = before ++ .step (.call (.mint c)) :: after →
    ((CrossChainVerifier.verifyProof X c.consensus c.proof).valid = true ↔
      ∃ attested obj, Opens X b before attested c.proof obj)

/-- The event writes the object, and not as a lock or a release does. -/
def Rewrites (b : BridgeManager) (id : String) : ObjectEvent → Prop
  | .step (.call (.mint c)) => ∃ sourceObjectId, Saves X b c sourceObjectId id
  | .step _ | .attest _ _ => False
  | .store obj => obj.objectId = id
  | .delete objectId => objectId = id

/-- The longer run goes on from the shorter one without an event that writes the object again. -/
def Untouched (b : BridgeManager) (id : String) (shorter longer : List ObjectEvent) : Prop :=
  ∃ between, longer = shorter ++ between ∧
    ∀ before e after, between = before ++ e :: after →
      ¬ Rewrites X (b.runEvents X (shorter ++ before)) id e

/-- The transfer is in the cache or in the table. -/
def Known (b : BridgeManager) (id : String) (t : BridgeTransfer) : Prop :=
  b.transfers[id]? = some t ∨ b.store.bridgeTransfers[id]? = some t

/-- Every known transfer was known before, with the same source. -/
def KeepsSources (b b' : BridgeManager) : Prop :=
  ∀ id t', Known b' id t' → ∃ t, Known b id t ∧ t'.sourceObjectId = t.sourceObjectId ∧
    t'.sourceChain = t.sourceChain

variable {X} {b b' b'' : BridgeManager}

/-! ## 1. Where transfers come from -/

theorem KeepsSources.refl (b : BridgeManager) : KeepsSources b b :=
  fun _ t ht ↦ ⟨t, ht, rfl, rfl⟩

theorem KeepsSources.trans (h : KeepsSources b b') (h' : KeepsSources b' b'') :
    KeepsSources b b'' := by
  intro id t'' ht''
  obtain ⟨t', ht', hobject', hchain'⟩ := h' id t'' ht''
  obtain ⟨t, ht, hobject, hchain⟩ := h id t' ht'
  exact ⟨t, ht, hobject'.trans hobject, hchain'.trans hchain⟩

theorem keepsSources_of_tables (htables : transferTables b' = transferTables b) :
    KeepsSources b b' := by
  obtain ⟨htransfers, hstored⟩ := Prod.ext_iff.mp htables
  dsimp only [transferTables] at htransfers hstored
  intro id t ht
  refine ⟨t, ?_, rfl, rfl⟩
  unfold Known at ht ⊢
  rwa [htransfers, hstored] at ht

/-- A known transfer is written again with another status. -/
theorem keepsSources_fileTransfer {t : BridgeTransfer} (ht : Known b t.id t) (t' : BridgeTransfer)
    (hid : t'.id = t.id) (hobject : t'.sourceObjectId = t.sourceObjectId)
    (hchain : t'.sourceChain = t.sourceChain) (commits : Bool) :
    KeepsSources b (fileTransfer commits t' b) := by
  have hinsert {table : Table String BridgeTransfer} {id : String} {t'' : BridgeTransfer}
      (hnew : (table.insert t'.id t')[id]? = some t'') :
      (id = t.id ∧ t'' = t') ∨ table[id]? = some t'' := by
    rw [Table.get_insert] at hnew
    split at hnew
    · rename_i heq
      exact .inl ⟨heq.trans hid, (Option.some.inj hnew).symm⟩
    · exact .inr hnew
  have hsource {table : Table String BridgeTransfer} {id : String} {t'' : BridgeTransfer}
      (htable : ∀ a, table[id]? = some a → Known b id a)
      (hnew : (table.insert t'.id t')[id]? = some t'') :
      ∃ a, Known b id a ∧ t''.sourceObjectId = a.sourceObjectId ∧
        t''.sourceChain = a.sourceChain := by
    rcases hinsert hnew with ⟨rfl, rfl⟩ | hold
    · exact ⟨t, ht, hobject, hchain⟩
    · exact ⟨t'', htable t'' hold, rfl, rfl⟩
  intro id t'' hknown
  rcases hknown with hcached | hstored
  · exact hsource (fun a ha ↦ .inl ha) hcached
  · cases commits with
    | false => exact ⟨t'', .inr hstored, rfl, rfl⟩
    | true => exact hsource (fun a ha ↦ .inr ha) hstored

theorem keepsSources_release (commits : Bool) (objectId : String) (b : BridgeManager) :
    KeepsSources b (release X commits objectId b) := by
  rcases release_eq X commits objectId b with heq | ⟨obj, heq⟩ <;> rw [heq]
  · exact .refl b
  · exact keepsSources_of_tables rfl

/-- Only locks make transfers. -/
theorem keepsSources_step (hkeys : OwnKeys b) {s : BridgeStep}
    (hlock : ∀ c, s = .call (.lock c) → ¬ LockSucceeds X b c) : KeepsSources b (b.step X s) := by
  cases s with
  | restart =>
    -- the cache is filled from the table
    intro id t ht
    refine ⟨t, .inr ?_, rfl, rfl⟩
    rcases ht with hcached | hstored
    · exact (new_transfers hkeys.stored id).symm.trans hcached
    · exact hstored
  | call call =>
    cases call with
    | lock c =>
      show KeepsSources b (b.call X (.lock c))
      cases lock_step X b c with
      | success hok => exact absurd hok (hlock c rfl)
      | failure _ hcall =>
        rw [hcall]
        exact .refl b
      | stranded _ _ _ hcall =>
        rw [hcall]
        exact keepsSources_of_tables rfl
    | mint c =>
      show KeepsSources b (b.call X (.mint c))
      have hentered : KeepsSources b (entered c b) := keepsSources_of_tables rfl
      cases mint_step (X := X) b c with
      | refused _ hcall =>
        rw [hcall]
        exact .refl b
      | passed _ _ hcall =>
        rw [hcall]
        exact hentered
      | @disproved t _ ht _ _ hcall =>
        have hknown : Known (entered c b) t.id t := .inl (by rwa [hkeys.cached _ t ht])
        rw [hcall]
        unfold rejected
        split
        · have hfailed := keepsSources_fileTransfer hknown (failedTransfer t) rfl rfl rfl true
          exact hentered.trans (hfailed.trans (keepsSources_release _ _ _))
        · have hfailed := keepsSources_fileTransfer hknown (failedTransfer t) rfl rfl rfl false
          exact hentered.trans hfailed
      | @accepted t _ ht _ _ _ hcall =>
        have hknown : Known (entered c b) t.id t := .inl (by rwa [hkeys.cached _ t ht])
        have hverified :=
          keepsSources_fileTransfer hknown (verifiedTransfer t) rfl rfl rfl c.verifiedCommits
        rw [hcall]
        unfold completed
        dsimp only
        split
        · let b₁ := fileTransfer c.verifiedCommits (verifiedTransfer t) (entered c b)
          let b₂ : BridgeManager :=
            { b₁ with store := putObject X (mintedObject c (verifiedTransfer t)) b₁.store }
          have hsaved : KeepsSources b₁ b₂ := keepsSources_of_tables rfl
          have hknown' : Known b₂ (verifiedTransfer t).id (verifiedTransfer t) :=
            .inl ((Table.get_insert ..).trans (if_pos rfl))
          have hminted :=
            keepsSources_fileTransfer hknown' (mintedTransfer c t) rfl rfl rfl c.mintedCommits
          exact hentered.trans (hverified.trans (hsaved.trans hminted))
        · exact hentered.trans hverified
    | cancel c =>
      show KeepsSources b (b.call X (.cancel c))
      cases cancel_step (X := X) b c with
      | failed hcall =>
        rw [hcall]
        exact .refl b
      | @done t ht _ hcall =>
        have hreleased := keepsSources_release (X := X) c.unlockCommits t.sourceObjectId b
        have hknown : Known (release X c.unlockCommits t.sourceObjectId b) t.id t := by
          rw [hkeys.cached _ t ht]
          rcases release_eq X c.unlockCommits t.sourceObjectId b with heq | ⟨obj, heq⟩ <;> rw [heq]
          · exact .inl ht
          · exact .inl ht
        have hcancelled :=
          keepsSources_fileTransfer hknown (cancelledTransfer c t) rfl rfl rfl c.failedCommits
        rw [hcall]
        exact hreleased.trans hcancelled

theorem keepsSources_event (hkeys : OwnKeys b) {e : ObjectEvent}
    (hlock : ∀ c, e = .step (.call (.lock c)) → ¬ LockSucceeds X b c) :
    KeepsSources b (b.event X e) := by
  cases e with
  | step s => exact keepsSources_step hkeys fun c hc ↦ hlock c (congrArg ObjectEvent.step hc)
  | store obj => exact keepsSources_of_tables rfl
  | delete objectId => exact keepsSources_of_tables rfl
  | attest chain height => exact .refl b

theorem runEvents_concat (b : BridgeManager) (events : List ObjectEvent) (e : ObjectEvent) :
    b.runEvents X (events ++ [e]) = (b.runEvents X events).event X e :=
  List.foldl_append ..

theorem OwnKeys.event (h : OwnKeys b) (e : ObjectEvent) : OwnKeys (b.event X e) := by
  cases e with
  | step s => exact h.step s
  | store obj => exact ⟨h.cached, h.stored⟩
  | delete objectId => exact ⟨h.cached, h.stored⟩
  | attest chain height => exact h

theorem OwnKeys.runEvents (h : OwnKeys b) (events : List ObjectEvent) :
    OwnKeys (b.runEvents X events) :=
  List.foldlRecOn events _ h fun _ hb e _ ↦ hb.event e

/-! ## 2. The lock of a transfer -/

theorem LockedFor.concat {events locked : List ObjectEvent} {c : LockCall}
    {found : SmartObjectRecord} (h : LockedFor X b events locked c found) {e : ObjectEvent}
    (hother : ∀ c', e = .step (.call (.lock c')) → LockSucceeds X (b.runEvents X events) c' →
      lockTransferId c' ≠ lockTransferId c) : LockedFor X b (events ++ [e]) locked c found := by
  obtain ⟨after, rfl, hok, hfound, hlater⟩ := h
  refine ⟨after ++ [e], by simp, hok, hfound, ?_⟩
  intro before' c' after' hafter hok'
  -- the later lock is the new event, or was there before
  rcases List.eq_nil_or_concat' after' with rfl | ⟨after', last, rfl⟩
  · obtain ⟨rfl, hlast⟩ := List.append_inj' hafter rfl
    exact hother c' (List.cons.inj hlast).1 hok'
  · rw [← List.cons_append, ← List.append_assoc] at hafter
    exact hlater before' c' after' (List.append_inj' hafter rfl).1 hok'

/-- Every known transfer was made by a lock of the run. -/
theorem known_locked (s : StateStore) (events : List ObjectEvent) :
    ∀ id t, Known ((freshBridge s).runEvents X events) id t →
      ∃ locked c found, LockedFor X (freshBridge s) events locked c found ∧
        lockTransferId c = id ∧ t.sourceObjectId = c.objectId ∧ t.sourceChain = c.sourceChain := by
  induction events using List.reverseRecOn with
  | nil =>
    rintro id t (hcached | hstored)
    · have hempty : (freshBridge s).transfers = ∅ := rfl
      simp [runEvents, hempty] at hcached
    · have hempty : (freshBridge s).store.bridgeTransfers = ∅ := rfl
      simp [runEvents, hempty] at hstored
  | append_singleton events e ih =>
    intro id t ht
    rw [runEvents_concat] at ht
    have hkeys : OwnKeys ((freshBridge s).runEvents X events) :=
      (freshBridge_ownKeys s).runEvents events
    by_cases hlock : ∃ c, e = .step (.call (.lock c)) ∧
      LockSucceeds X ((freshBridge s).runEvents X events) c
    · obtain ⟨c, rfl, hok⟩ := hlock
      change Known (((freshBridge s).runEvents X events).call X (.lock c)) id t at ht
      cases lock_step X ((freshBridge s).runEvents X events) c with
      | @success obj _ hfound _ hcall =>
        rw [hcall] at ht
        by_cases hid : id = lockTransferId c
        · -- the lock replaces whatever had its id before
          have hnew : t = lockTransfer c obj := by
            rcases ht with hcached | hstored
            · exact (Option.some.inj (((Table.get_insert ..).trans (if_pos hid)).symm.trans
                hcached)).symm
            · exact (Option.some.inj (((Table.get_insert ..).trans (if_pos hid)).symm.trans
                hstored)).symm
          refine ⟨events, c, obj, ⟨[], rfl, hok, hfound, ?_⟩, hid.symm, ?_, ?_⟩
          · intro before' c' after' hafter
            exact absurd hafter (by simp)
          · rw [hnew]
            rfl
          · rw [hnew]
            rfl
        · have hold : Known ((freshBridge s).runEvents X events) id t := by
            rcases ht with hcached | hstored
            · exact .inl (((Table.get_insert ..).trans (if_neg hid)).symm.trans hcached)
            · exact .inr (((Table.get_insert ..).trans (if_neg hid)).symm.trans hstored)
          obtain ⟨locked, c₀, found, hlocked, rfl, hsource⟩ := ih id t hold
          refine ⟨locked, c₀, found, hlocked.concat fun c' hc' _ ↦ ?_, rfl, hsource⟩
          cases hc'
          exact Ne.symm hid
      | failure hfail => exact absurd hok hfail
      | stranded hfail => exact absurd hok hfail
    · -- any other event keeps the transfers and where they come from
      have hnone (c : LockCall) (hc : e = .step (.call (.lock c))) :
          ¬ LockSucceeds X ((freshBridge s).runEvents X events) c := fun hok ↦ hlock ⟨c, hc, hok⟩
      obtain ⟨t₀, hknown, hobject, hchain⟩ := keepsSources_event hkeys hnone id t ht
      obtain ⟨locked, c₀, found, hlocked, hid, hobject₀, hchain₀⟩ := ih id t₀ hknown
      refine ⟨locked, c₀, found, hlocked.concat fun c' hc' hok' ↦ absurd hok' (hnone c' hc'), hid,
        ?_, ?_⟩
      · exact hobject.trans hobject₀
      · exact hchain.trans hchain₀

/-! ## 3. Locks and releases write the owner only -/

/-- The record of an object, whoever owns it. -/
def ownerless (b : BridgeManager) (id : String) : Option SmartObjectRecord :=
  b.store.objects[id]?.map fun obj ↦ { obj with owner := "" }

theorem ownerless_congr {id : String} (hobjects : b'.store.objects = b.store.objects) :
    ownerless b' id = ownerless b id := by
  unfold ownerless
  rw [hobjects]

/-- An object that is there is written back with another owner. -/
theorem ownerless_putObject (hids : OwnIds b) {key : String} {obj : SmartObjectRecord}
    (hobj : parseObject b.store.objects[key]? = .ok (some obj)) (owner id : String) :
    ownerless { b with store := putObject X { obj with owner } b.store } id = ownerless b id := by
  have hstored := (parseObject_ok hobj).1
  have hown : b.store.objects[obj.objectId]? = some obj := by
    rw [hids key obj hstored]
    exact hstored
  unfold ownerless
  rw [putObject_objects]
  dsimp only
  by_cases hid : id = obj.objectId
  · rw [if_pos hid, hid, hown]
    rfl
  · rw [if_neg hid]

theorem ownerless_release (hids : OwnIds b) (commits : Bool) (objectId id : String) :
    ownerless (release X commits objectId b) id = ownerless b id := by
  unfold release
  cases hobj : parseObject b.store.objects[objectId]? with
  | error e => rfl
  | ok obj? =>
    cases obj? with
    | none => rfl
    | some obj =>
      dsimp only
      cases stripPrefix obj.owner lockPrefix with
      | none => rfl
      | some owner =>
        cases commits with
        | false => rfl
        | true => exact ownerless_putObject hids hobj owner id

theorem fileTransfer_objects (commits : Bool) (t : BridgeTransfer) (b : BridgeManager) :
    (fileTransfer commits t b).store.objects = b.store.objects := by
  cases commits <;> rfl

theorem ownerless_fileTransfer (commits : Bool) (t : BridgeTransfer) (id : String) :
    ownerless (fileTransfer commits t b) id = ownerless b id :=
  ownerless_congr (fileTransfer_objects commits t b)

theorem ownerless_call (hids : OwnIds b) {call : BridgeCall} {id : String}
    (hwrites : ¬ Rewrites X b id (.step (.call call))) :
    ownerless (b.call X call) id = ownerless b id := by
  cases call with
  | lock c =>
    cases lock_step X b c with
    | @success obj _ hobj _ hcall =>
      rw [hcall]
      have hlocked := ownerless_putObject (X := X) hids hobj (lockPrefix ++ obj.owner) id
      exact (ownerless_congr rfl).trans hlocked
    | failure _ hcall => rw [hcall]
    | @stranded obj _ hobj _ hcall =>
      rw [hcall]
      exact ownerless_putObject hids hobj (lockPrefix ++ obj.owner) id
  | mint c =>
    have hentered : ownerless (entered c b) id = ownerless b id := ownerless_congr rfl
    cases mint_step (X := X) b c with
    | refused _ hcall => rw [hcall]
    | passed _ _ hcall => rw [hcall, hentered]
    | @disproved t _ _ _ _ hcall =>
      rw [hcall]
      unfold rejected
      split
      · have hids' : OwnIds (fileTransfer true (failedTransfer t) (entered c b)) :=
          hids.congr (fileTransfer_objects true (failedTransfer t) (entered c b))
        rw [ownerless_release hids', ownerless_fileTransfer, hentered]
      · rw [ownerless_fileTransfer, hentered]
    | @accepted t hguard ht hopen hvalid hbinding hcall =>
      rw [hcall]
      unfold completed
      dsimp only
      split
      · rename_i hcommits
        obtain ⟨hverified, hobject⟩ := (Bool.and_eq_true ..).mp hcommits
        -- the new object is another one
        have hother : id ≠ (mintedObject c (verifiedTransfer t)).objectId := fun hid ↦
          hwrites ⟨t.sourceObjectId, t, hguard, ht, hopen, hvalid, hbinding, hverified, hobject,
            rfl, hid⟩
        rw [ownerless_fileTransfer]
        unfold ownerless
        rw [putObject_objects, fileTransfer_objects, if_neg hother]
        rfl
      · rw [ownerless_fileTransfer, hentered]
  | cancel c =>
    cases cancel_step (X := X) b c with
    | failed hcall => rw [hcall]
    | @done t _ _ hcall =>
      rw [hcall]
      exact (ownerless_fileTransfer ..).trans (ownerless_release hids ..)

theorem ownerless_event (hids : OwnIds b) {e : ObjectEvent} {id : String}
    (hwrites : ¬ Rewrites X b id e) : ownerless (b.event X e) id = ownerless b id := by
  cases e with
  | step s =>
    cases s with
    | call call => exact ownerless_call hids hwrites
    | restart => exact ownerless_congr rfl
  | store obj =>
    unfold ownerless event
    dsimp only
    rw [putObject_objects, if_neg (Ne.symm hwrites)]
  | delete objectId =>
    unfold ownerless event
    dsimp only
    rw [Table.get_erase, if_neg (Ne.symm hwrites)]
  | attest chain height => rfl

theorem OwnIds.event (h : OwnIds b) (e : ObjectEvent) : OwnIds (b.event X e) := by
  cases e with
  | step s =>
    cases s with
    | call call =>
      exact objects_call (fun _ _ hobjects hb ↦ hb.congr hobjects) (fun obj _ hb ↦ hb.putObject obj)
        h call
    | restart => exact h.congr rfl
  | store obj => exact h.putObject obj
  | delete objectId =>
    intro id r hr
    change (b.store.objects.erase objectId)[id]? = some r at hr
    rw [Table.get_erase] at hr
    split at hr
    · cases hr
    · exact h id r hr
  | attest chain height => exact h

theorem OwnIds.runEvents (h : OwnIds b) (events : List ObjectEvent) :
    OwnIds (b.runEvents X events) :=
  List.foldlRecOn events _ h fun _ hb e _ ↦ hb.event e

theorem Untouched.ownerless {id : String} {shorter longer : List ObjectEvent}
    (h : Untouched X b id shorter longer) (hids : OwnIds b) :
    ownerless (b.runEvents X longer) id = ownerless (b.runEvents X shorter) id := by
  obtain ⟨between, rfl, hquiet⟩ := h
  induction between using List.reverseRecOn with
  | nil => rw [List.append_nil]
  | append_singleton between e ih =>
    have hlast := hquiet between e [] rfl
    rw [← List.append_assoc, runEvents_concat, ownerless_event (hids.runEvents _) hlast]
    refine ih fun before e' after hbetween ↦ hquiet before e' (after ++ [e]) ?_
    rw [hbetween]
    simp

/-! ## 4. Mints -/

theorem checkBinding_ok {c : MintCall} {t : BridgeTransfer} (h : checkBinding c t = .ok ()) :
    c.proof.objectId = t.sourceObjectId ∧ c.proof.sourceChain = t.sourceChain := by
  unfold checkBinding at h
  by_cases hobject : c.proof.objectId ≠ t.sourceObjectId
  · rw [if_pos hobject] at h
    cases h
  · rw [if_neg hobject] at h
    by_cases hchain : c.proof.sourceChain ≠ t.sourceChain
    · rw [if_pos hchain] at h
      cases h
    · exact ⟨not_not.mp hobject, not_not.mp hchain⟩

/-- The owner is a member of the JSON of a record. -/
theorem owner_eq_of_toJson {obj obj' : SmartObjectRecord} (h : obj.toJson = obj'.toJson) :
    obj.owner = obj'.owner := by
  have hget := congrArg (·.get? "owner") h
  exact Json.string.inj (Option.some.inj hget)

theorem checkLock_owner {c : LockCall} {obj : SmartObjectRecord}
    (h : checkLock X c obj = .ok ()) : c.callerPubkey = obj.owner := by
  unfold checkLock at h
  split at h
  · cases h
  · split at h
    · cases h
    · rename_i howner
      exact not_not.mp howner

/-- **What a mint copies.**  A successful mint belongs to a lock of its object in the run, and it
copies the record that the object had when the height of the proof was attested.  If nothing has
written the object again between that moment and the lock, in whichever order they come, this is the
record that the lock wrote exactly if at that moment the object bore the marker of the caller. -/
theorem minted_state_iff (X : Crates) (s : StateStore) (hids : OwnIds (freshBridge s))
    (events : List ObjectEvent) (hattested : VerifiesAttested X (freshBridge s) events)
    (before : List ObjectEvent) (c : MintCall) (after : List ObjectEvent)
    (hevents : events = before ++ .step (.call (.mint c)) :: after)
    (hok : ∃ t, (run (mintFromProof X c) ((freshBridge s).runEvents X before)).2 = .ok t) :
    ∃ locked lock found, LockedFor X (freshBridge s) before locked lock found ∧
      lockTransferId lock = c.transferId ∧ lock.objectId = c.proof.objectId ∧
      lock.sourceChain = c.proof.sourceChain ∧
      (∃ attested obj, Opens X (freshBridge s) before attested c.proof obj) ∧
      ∀ attested obj, Opens X (freshBridge s) before attested c.proof obj →
        Untouched X (freshBridge s) lock.objectId attested locked ∨
          Untouched X (freshBridge s) lock.objectId locked attested →
        (c.proof.objectData = (lockObject found).toJson ↔
          obj.owner = lockPrefix ++ lock.callerPubkey) := by
  obtain ⟨-, t, ht, -, hvalid, hbinding, -⟩ := mintFromProof_ok_iff.mp hok
  obtain ⟨hobject, hchain⟩ := checkBinding_ok hbinding
  obtain ⟨locked, lock, found, hlocked, hid, hobject', hchain'⟩ :=
    known_locked s before c.transferId t (.inl ht)
  have hsame : lock.objectId = c.proof.objectId := (hobject.trans hobject').symm
  refine ⟨locked, lock, found, hlocked, hid, hsame, (hchain.trans hchain').symm,
    (hattested before c after hevents).mp hvalid, ?_⟩
  rintro attested obj ⟨-, hobj, hdata⟩ huntouched
  obtain ⟨-, -, hlock, hfound, -⟩ := hlocked
  -- the two moments differ in the owner at most
  have hbare : ownerless ((freshBridge s).runEvents X attested) lock.objectId =
      ownerless ((freshBridge s).runEvents X locked) lock.objectId := by
    rcases huntouched with h | h
    · exact (h.ownerless hids).symm
    · exact h.ownerless hids
  unfold ownerless at hbare
  rw [hsame, hobj, ← hsame, (parseObject_ok hfound).1] at hbare
  have hbare : ({ obj with owner := "" } : SmartObjectRecord) = { found with owner := "" } :=
    Option.some.inj hbare
  -- a lock succeeds for the owner only
  have hcaller : lock.callerPubkey = found.owner := by
    obtain ⟨found', hfound', hcheck, -⟩ := lockSucceeds_iff.mp hlock
    cases hfound.symm.trans hfound'
    exact checkLock_owner hcheck
  constructor
  · intro hcopied
    rw [owner_eq_of_toJson (hdata.symm.trans hcopied), hcaller]
    rfl
  · intro hmarked
    have hrecord : obj = lockObject found := by
      calc obj = { ({ obj with owner := "" } : SmartObjectRecord) with owner := obj.owner } := rfl
        _ = { ({ found with owner := "" } : SmartObjectRecord) with owner := obj.owner } := by
            rw [hbare]
        _ = lockObject found := by
            rw [hmarked, hcaller]
            rfl
    rw [hdata, hrecord]

/-! One lock of the object `o`, and a mint with a proof for the height 5. -/

def demoStateLock : ObjectEvent := .step (.call (.lock demoBridgeLock))

def demoStateMint (data : Json) : MintCall :=
  { demoBridgeMint 8 true with proof := demoProof data [1, 2] }

/-- The mint is the only one of the run, and its proof is of an attested record. -/
theorem demoStateMint_verifies {before : List ObjectEvent} {data : Json}
    (hnone : ∀ c, .step (.call (.mint c)) ∉ before)
    (hopens : ∃ attested obj, Opens demoCrates (freshBridge demoOwnerStore) before attested
      (demoProof data [1, 2]) obj) :
    VerifiesAttested demoCrates (freshBridge demoOwnerStore)
      (before ++ [.step (.call (.mint (demoStateMint data)))]) := by
  intro before' c after hevents
  rcases List.eq_nil_or_concat' after with rfl | ⟨after, last, rfl⟩
  · obtain ⟨rfl, hlast⟩ := List.append_inj' hevents rfl
    cases (List.cons.inj hlast).1
    have hvalid : (CrossChainVerifier.verifyProof demoCrates (demoManager [])
        (demoProof data [1, 2])).valid = true :=
      demoProof_valid data [1, 2] (by decide) (by decide) (by simp [demoValidators])
    exact iff_of_true hvalid hopens
  · rw [← List.cons_append, ← List.append_assoc] at hevents
    have hbefore := (List.append_inj' hevents rfl).1
    exact absurd (by simp [hbefore]) (hnone c)

theorem demoOwnerStore_object :
    (freshBridge demoOwnerStore).store.objects["o"]? = some (demoOwned "o") := by
  change demoOwnerStore.objects["o"]? = _
  unfold demoOwnerStore
  rw [putObject_objects, if_neg (by decide), putObject_objects]
  exact if_pos rfl

theorem withLock_objects (c : LockCall) (obj : SmartObjectRecord) (b : BridgeManager) :
    (withLock X c obj b).store.objects[obj.objectId]? = some (lockObject obj) :=
  (putObject_objects X (lockObject obj) b.store obj.objectId).trans (if_pos rfl)

theorem withLock_transfers (c : LockCall) (obj : SmartObjectRecord) (b : BridgeManager) :
    (withLock X c obj b).transfers[lockTransferId c]? = some (lockTransfer c obj) :=
  (Table.get_insert ..).trans (if_pos rfl)

theorem withLock_mintedProofs (c : LockCall) (obj : SmartObjectRecord) (b : BridgeManager) :
    (withLock X c obj b).store.mintedProofs = b.store.mintedProofs := rfl

theorem demoStateLock_locks : (freshBridge demoOwnerStore).event demoCrates demoStateLock =
    withLock demoCrates demoBridgeLock (demoOwned "o") (freshBridge demoOwnerStore) := by
  have hok : LockSucceeds demoCrates (freshBridge demoOwnerStore) demoBridgeLock :=
    lockSucceeds_of_isOk (by decide +kernel)
  have hevent : (freshBridge demoOwnerStore).event demoCrates demoStateLock =
      (freshBridge demoOwnerStore).call demoCrates (.lock demoBridgeLock) := rfl
  have hid : demoBridgeLock.objectId = "o" := rfl
  cases lock_step demoCrates (freshBridge demoOwnerStore) demoBridgeLock with
  | @success obj _ hobj _ hcall =>
    have hstored := (parseObject_ok hobj).1
    rw [hid, demoOwnerStore_object] at hstored
    rw [hevent, hcall, ← Option.some.inj hstored]
  | failure hfail => exact absurd hok hfail
  | stranded hfail => exact absurd hok hfail

theorem demoStateLock_marks :
    ((freshBridge demoOwnerStore).event demoCrates demoStateLock).store.objects["o"]? =
      some (lockObject (demoOwned "o")) := by
  rw [demoStateLock_locks]
  exact withLock_objects ..

theorem demoStateMint_succeeds (data : Json) :
    ∃ t, (run (mintFromProof demoCrates (demoStateMint data))
      ((freshBridge demoOwnerStore).event demoCrates demoStateLock)).2 = .ok t := by
  rw [demoStateLock_locks]
  refine mintFromProof_ok_iff.mpr ⟨?_, lockTransfer demoBridgeLock (demoOwned "o"), ?_, rfl, ?_,
    rfl, rfl, rfl, rfl⟩
  · -- nothing was minted before
    have hentry : (freshBridge demoOwnerStore).store.mintedProofs["o"]? = none := by
      decide +kernel
    unfold guardRefuses
    rw [withLock_mintedProofs, show (demoStateMint data).proof.objectId = "o" from rfl, hentry]
    rfl
  · have hid : (demoStateMint data).transferId = lockTransferId demoBridgeLock := by
      show "JKC_B_o_7" = _
      decide +kernel
    rw [hid]
    exact withLock_transfers ..
  · exact demoProof_valid data [1, 2] (by decide) (by decide) (by simp [demoValidators])

/-- The only lock of a run, and the record that it finds. -/
theorem demoLockedFor {height : Nat} {rest locked : List ObjectEvent} {c : LockCall}
    {found : SmartObjectRecord} (hrest : ∀ c, .step (.call (.lock c)) ∉ rest)
    (h : LockedFor demoCrates (freshBridge demoOwnerStore)
      (.attest "JKC" height :: demoStateLock :: rest) locked c found) :
    locked = [.attest "JKC" height] ∧ c = demoBridgeLock ∧ found = demoOwned "o" := by
  obtain ⟨after, hevents, -, hfound, -⟩ := h
  cases locked with
  | nil => cases (List.cons.inj hevents).1
  | cons e locked =>
    obtain ⟨rfl, htail⟩ := List.cons.inj hevents
    cases locked with
    | nil =>
      have hc : c = demoBridgeLock := by
        injection (List.cons.inj htail).1 with hstep
        injection hstep with hcall
        injection hcall with hlock
        exact hlock.symm
      have hstored := (parseObject_ok hfound).1
      subst hc
      rw [show demoBridgeLock.objectId = "o" from rfl] at hstored
      exact ⟨rfl, rfl, Option.some.inj (hstored.symm.trans demoOwnerStore_object)⟩
    | cons e locked =>
      have hmem : .step (.call (.lock c)) ∈ rest := by
        rw [(List.cons.inj htail).2]
        simp
      exact absurd hmem (hrest c)

theorem demoStateLock_run (height : Nat) (b : BridgeManager) :
    b.runEvents demoCrates [.attest "JKC" height, demoStateLock] =
      b.event demoCrates demoStateLock := rfl

def demoLockedJson : Json := (lockObject (demoOwned "o")).toJson

/-- Attested once before the lock and once while it stands: the mint copies the locked record. -/
theorem minted_state_locked : ∃ locked lock found,
    LockedFor demoCrates (freshBridge demoOwnerStore)
        [.attest "JKC" 4, demoStateLock, .attest "JKC" 5] locked lock found ∧
      (demoStateMint demoLockedJson).proof.objectData = (lockObject found).toJson := by
  have hopens : Opens demoCrates (freshBridge demoOwnerStore)
      [.attest "JKC" 4, demoStateLock, .attest "JKC" 5] [.attest "JKC" 4, demoStateLock]
      (demoProof demoLockedJson [1, 2]) (lockObject (demoOwned "o")) := by
    refine ⟨⟨[], rfl⟩, ?_, rfl⟩
    rw [demoStateLock_run]
    exact demoStateLock_marks
  obtain ⟨locked, lock, found, hlocked, -, -, -, -, hcopies⟩ := minted_state_iff demoCrates
    demoOwnerStore demoOwnerStore_ownIds _ (demoStateMint_verifies (by simp [demoStateLock])
      ⟨_, _, hopens⟩) [.attest "JKC" 4, demoStateLock, .attest "JKC" 5] _ [] rfl
    (demoStateMint_succeeds demoLockedJson)
  obtain ⟨hbefore, hlock, -⟩ := demoLockedFor (by simp) hlocked
  refine ⟨locked, lock, found, hlocked, (hcopies _ _ hopens (.inr ?_)).mpr ?_⟩
  · refine ⟨[demoStateLock], by rw [hbefore]; rfl, ?_⟩
    intro before e after hbetween
    obtain ⟨rfl, rfl, -⟩ : before = [] ∧ e = demoStateLock ∧ after = [] := by
      cases before with
      | nil =>
        obtain ⟨he, hafter⟩ := List.cons.inj hbetween
        exact ⟨rfl, he.symm, hafter.symm⟩
      | cons e' before => exact absurd (congrArg List.length hbetween) (by simp)
    exact not_false
  · rw [hlock]
    rfl

/-- Attested before the lock only: the mint copies the record from before it. -/
theorem minted_state_stale :
    VerifiesAttested demoCrates (freshBridge demoOwnerStore)
        [.attest "JKC" 5, demoStateLock, .step (.call (.mint (demoStateMint
          (demoOwned "o").toJson)))] ∧
      (∃ t, (run (mintFromProof demoCrates (demoStateMint (demoOwned "o").toJson))
        ((freshBridge demoOwnerStore).runEvents demoCrates [.attest "JKC" 5, demoStateLock])).2 =
          .ok t) ∧
      ∀ locked lock found,
        LockedFor demoCrates (freshBridge demoOwnerStore) [.attest "JKC" 5, demoStateLock] locked
          lock found →
        (demoStateMint (demoOwned "o").toJson).proof.objectData ≠ (lockObject found).toJson := by
  refine ⟨?_, demoStateMint_succeeds _, fun locked lock found hlocked hsame ↦ ?_⟩
  · have hnone (c : MintCall) :
        .step (.call (.mint c)) ∉ [ObjectEvent.attest "JKC" 5, demoStateLock] := by
      simp [demoStateLock]
    exact demoStateMint_verifies hnone
      ⟨[], demoOwned "o", ⟨[demoStateLock], rfl⟩, demoOwnerStore_object, rfl⟩
  · rw [(demoLockedFor (by simp) hlocked).2.2] at hsame
    exact absurd (owner_eq_of_toJson hsame) (by decide)

end BridgeManager

end UtxoVm
