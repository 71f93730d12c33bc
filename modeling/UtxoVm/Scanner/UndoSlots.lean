import UtxoVm.Scanner.Update
import UtxoVm.Storage.Rollback

/-!
# The slots of the undo log

An undo record is stored under a number made of the height, the output index and the first digits of
the txid.  Two changes at one height share a slot when the xors of their indices and digits agree,
whichever transactions and chains they belong to; otherwise every record stays until it is rolled
back.
-/

namespace UtxoVm

open RustStd StateStore Prog BlockProcessor

/-! ## 1. Undo ids -/

/-- The number in the first eight digits of a txid. -/
def txidWord (txid : String) : Nat := (fromStrRadix16 ((strGetTo txid 8).getD "0")).getD 0

/-- The upper word of an undo id. -/
def upperWord (blockHeight voutIdx : Nat) : Nat := (blockHeight ||| voutIdx >>> 32) % 2 ^ 32

/-- The lower word of an undo id. -/
def lowerWord (voutIdx : Nat) (txid : String) : Nat := (voutIdx ^^^ txidWord txid) % 2 ^ 32

/-- With 32 bits for the height and for the output index, the upper word is the height. -/
theorem upperWord_eq {blockHeight voutIdx : Nat} (hheight : blockHeight < 2 ^ 32)
    (hvout : voutIdx < 2 ^ 32) : upperWord blockHeight voutIdx = blockHeight := by
  unfold upperWord
  rw [Nat.shiftRight_eq_div_pow, Nat.div_eq_of_lt hvout, Nat.or_zero, Nat.mod_eq_of_lt hheight]

theorem txidWord_lt (txid : String) : txidWord txid < 2 ^ 32 := by
  unfold txidWord
  cases hword : fromStrRadix16 ((strGetTo txid 8).getD "0") with
  | none => exact Nat.two_pow_pos 32
  | some n =>
    have hlength : ((strGetTo txid 8).getD "0").toList.length ≤ 8 := by
      unfold strGetTo
      cases htaken : takeBytes txid.toList 8 with
      | none => decide
      | some taken =>
        rw [Option.map_some, Option.getD_some, String.toList_ofList]
        exact length_takeBytes htaken
    calc n < 16 ^ ((strGetTo txid 8).getD "0").toList.length := fromStrRadix16_lt hword
      _ ≤ 16 ^ 8 := Nat.pow_le_pow_right (by decide) hlength
      _ = 2 ^ 32 := by decide

/-- **The two words of an undo id.** -/
theorem undoId_eq (blockHeight voutIdx : Nat) (txid : String) :
    undoId blockHeight voutIdx txid =
      2 ^ 32 * upperWord blockHeight voutIdx + lowerWord voutIdx txid := by
  have hsplit : (2 : Nat) ^ 64 = 2 ^ 32 * 2 ^ 32 := rfl
  have hupper : undoId blockHeight voutIdx txid / 2 ^ 32 = upperWord blockHeight voutIdx := by
    show ((blockHeight <<< 32 ||| voutIdx) ^^^ txidWord txid) % 2 ^ 64 / 2 ^ 32 = _
    rw [hsplit, Nat.mod_mul_right_div_self, Nat.xor_div_two_pow, Nat.or_div_two_pow,
      Nat.div_eq_of_lt (txidWord_lt txid), Nat.xor_zero, Nat.shiftLeft_eq,
      Nat.mul_div_cancel _ (Nat.two_pow_pos 32), ← Nat.shiftRight_eq_div_pow]
    rfl
  have hlower : undoId blockHeight voutIdx txid % 2 ^ 32 = lowerWord voutIdx txid := by
    show ((blockHeight <<< 32 ||| voutIdx) ^^^ txidWord txid) % 2 ^ 64 % 2 ^ 32 = _
    rw [hsplit, Nat.mod_mul_left_mod, Nat.xor_mod_two_pow, Nat.or_mod_two_pow, Nat.shiftLeft_eq,
      Nat.mul_mod_left, Nat.zero_or, ← Nat.xor_mod_two_pow]
    rfl
  rw [← hupper, ← hlower, Nat.div_add_mod]

theorem undoId_eq_iff {blockHeight blockHeight' voutIdx voutIdx' : Nat} {txid txid' : String} :
    undoId blockHeight voutIdx txid = undoId blockHeight' voutIdx' txid' ↔
      upperWord blockHeight voutIdx = upperWord blockHeight' voutIdx' ∧
        lowerWord voutIdx txid = lowerWord voutIdx' txid' := by
  rw [undoId_eq, undoId_eq]
  have hlt : lowerWord voutIdx txid < 2 ^ 32 := Nat.mod_lt _ (Nat.two_pow_pos 32)
  have hlt' : lowerWord voutIdx' txid' < 2 ^ 32 := Nat.mod_lt _ (Nat.two_pow_pos 32)
  omega

/-! ## 2. Changes -/

/-- A change of the store, with the undo record that was written before it. -/
structure Change where
  txid : String
  voutIdx : Nat
  undo : UndoLogRecord

/-- The transaction of a change: chain, height and txid. -/
def Change.key (c : Change) : String × Nat × String := (c.undo.chain, c.undo.blockHeight, c.txid)

/-- Both changes use one slot of the undo log. -/
def Change.SameSlot (c c' : Change) : Prop :=
  upperWord c.undo.blockHeight c.voutIdx = upperWord c'.undo.blockHeight c'.voutIdx ∧
    lowerWord c.voutIdx c.txid = lowerWord c'.voutIdx c'.txid

/-- A transaction of some chain is processed, or a chain is rolled back. -/
inductive ChainEvent where
  | processTx (P : BlockProcessor) (blockHeight : Nat) (r : TxRun)
  | rollback (commits : Bool) (chain : String) (targetHeight : Nat)

namespace ChainEvent

variable (X : Crates)

def apply (s : StateStore) : ChainEvent → StateStore
  | .processTx P blockHeight r => runTx X P blockHeight s r
  | .rollback commits chain targetHeight =>
      (run (rollbackToBlock X commits chain targetHeight) s).1

/-- The change that an action is about to make. -/
def changeOf (P : BlockProcessor) (blockHeight : Nat) (tx : ElectrsTx) : Action → Option Change
  | .create voutIdx _ _ =>
      match createdObjectId tx.txid with
      | .ok objId => some ⟨tx.txid, voutIdx, P.createUndo tx blockHeight voutIdx objId⟩
      | .error _ => none
  | .call voutIdx _ _ obj => some ⟨tx.txid, voutIdx, P.updateUndo tx blockHeight voutIdx obj⟩

/-- The same, if the undo record commits. -/
def writtenBy (P : BlockProcessor) (blockHeight : Nat) (r : TxRun) :
    Except Exit (Option Action) → Option Change
  | .ok (some action) => if r.writes.undo then changeOf P blockHeight r.tx action else none
  | _ => none

/-- The change whose undo record the event writes. -/
def change (s : StateStore) : ChainEvent → Option Change
  | .processTx P blockHeight r => writtenBy P blockHeight r (selectAction X P s r.tx)
  | .rollback _ _ _ => none

/-- The undo log with the record of a change. -/
def withChange (s : StateStore) : Option Change → Table Nat UndoLogRecord
  | some c => s.undoLogs.insert c.undo.id c.undo
  | none => s.undoLogs

/-- The event rolls the change back. -/
def RollsBack (c : Change) (e : ChainEvent) : Prop :=
  ∃ targetHeight, e = .rollback true c.undo.chain targetHeight ∧ targetHeight < c.undo.blockHeight

def runAll (s : StateStore) (events : List ChainEvent) : StateStore := events.foldl (apply X) s

/-- The changes whose undo records a run writes, in order. -/
def changes (s : StateStore) : List ChainEvent → List Change
  | [] => []
  | e :: events => (e.change X s).toList ++ changes (e.apply X s) events

end ChainEvent

open ChainEvent

section

variable {X : Crates} {s : StateStore} {e : ChainEvent} {events : List ChainEvent} {c c' : Change}

theorem changeOf_undoId {P : BlockProcessor} {blockHeight : Nat} {tx : ElectrsTx} {action : Action}
    (h : changeOf P blockHeight tx action = some c) :
    c.undo.id = undoId c.undo.blockHeight c.voutIdx c.txid := by
  cases action with
  | create voutIdx out envelope =>
    unfold changeOf at h
    cases hid : createdObjectId tx.txid with
    | ok objId =>
      rw [hid] at h
      cases h
      rfl
    | error e =>
      rw [hid] at h
      cases h
  | call voutIdx out envelope obj =>
    cases h
    rfl

/-- The slot that a change uses is the one of its id. -/
theorem change_undoId (h : e.change X s = some c) :
    c.undo.id = undoId c.undo.blockHeight c.voutIdx c.txid := by
  cases e with
  | rollback commits chain targetHeight => cases h
  | processTx P blockHeight r =>
    change writtenBy P blockHeight r (selectAction X P s r.tx) = some c at h
    unfold writtenBy at h
    split at h
    · split at h
      · exact changeOf_undoId h
      · cases h
    · cases h

/-- **What a transaction does to the undo log.** -/
theorem undoLogs_runTx (P : BlockProcessor) (blockHeight : Nat) (r : TxRun) (s : StateStore) :
    (runTx X P blockHeight s r).undoLogs =
      withChange s ((ChainEvent.processTx P blockHeight r).change X s) := by
  unfold runTx
  rw [run_processTx]
  show _ = withChange s (writtenBy P blockHeight r (selectAction X P s r.tx))
  cases selectAction X P s r.tx with
  | error e => rfl
  | ok action? =>
    cases action? with
    | none => rfl
    | some action =>
      unfold writtenBy performAction
      cases action with
      | create voutIdx out envelope =>
        have hblob := (afterBlob_sameCore X r.writes envelope s).undoLogs
        dsimp only
        rw [run_processCreate]
        unfold changeOf
        dsimp only
        cases createdObjectId r.tx.txid with
        | error e =>
          dsimp only
          rw [ite_self]
          exact hblob
        | ok objId =>
          dsimp only
          cases r.writes.undo with
          | false => exact hblob
          | true =>
            rw [if_pos rfl, if_pos rfl]
            have hput : (putUndo (P.createUndo r.tx blockHeight voutIdx objId)
                (afterBlob X r.writes envelope s)).undoLogs =
                s.undoLogs.insert (P.createUndo r.tx blockHeight voutIdx objId).id
                  (P.createUndo r.tx blockHeight voutIdx objId) := by
              rw [← hblob]
              rfl
            cases r.writes.object with
            | false => exact hput
            | true => exact hput
      | call voutIdx out envelope obj =>
        dsimp only
        rw [run_processCall]
        cases r.writes.undo with
        | false => rfl
        | true =>
          rw [if_pos rfl, if_pos rfl]
          dsimp only
          cases callOutcome X P s obj (methodOf (metadataOf envelope))
              (argsOf (metadataOf envelope)) (sender r.tx) out.value with
          | error e => rfl
          | ok result? =>
            cases result? with
            | none => rfl
            | some result =>
              cases r.writes.object with
              | false => rfl
              | true => cases r.writes.transition <;> rfl

theorem undoLogs_change (h : e.change X s = some c) :
    (e.apply X s).undoLogs[c.undo.id]? = some c.undo := by
  cases e with
  | rollback commits chain targetHeight => cases h
  | processTx P blockHeight r =>
    show (runTx X P blockHeight s r).undoLogs[c.undo.id]? = _
    rw [undoLogs_runTx, h]
    exact (Table.get_insert ..).trans (if_pos rfl)

/-- A record stays through an event that neither writes into its slot nor rolls its change back. -/
theorem undoLogs_apply (hlog : s.undoLogs[c.undo.id]? = some c'.undo)
    (hkey : c'.key = c.key)
    (hwrite : ∀ w, e.change X s = some w → w.undo.id ≠ c.undo.id)
    (hroll : ¬ e.RollsBack c) : (e.apply X s).undoLogs[c.undo.id]? = some c'.undo := by
  cases e with
  | processTx P blockHeight r =>
    show (runTx X P blockHeight s r).undoLogs[c.undo.id]? = _
    rw [undoLogs_runTx]
    cases hw : (ChainEvent.processTx P blockHeight r).change X s with
    | none => exact hlog
    | some w =>
      show (s.undoLogs.insert _ _)[c.undo.id]? = _
      rw [Table.get_insert, if_neg (hwrite w hw).symm]
      exact hlog
  | rollback commits chain targetHeight =>
    show (run (rollbackToBlock X commits chain targetHeight) s).1.undoLogs[c.undo.id]? = _
    rcases rollback_state X commits chain targetHeight s with ⟨hsame, -⟩ | ⟨⟨rfl, -⟩, smt, hstate⟩
    · rw [hsame]
      exact hlog
    · rw [hstate]
      show (undoAll chain targetHeight _ s).undoLogs[c.undo.id]? = _
      rw [undoAll_undoLogs, hlog, Option.filter_some, if_pos]
      have hchain : c'.undo.chain = c.undo.chain := congrArg (·.1) hkey
      have hheight : c'.undo.blockHeight = c.undo.blockHeight := congrArg (·.2.1) hkey
      rw [Bool.not_eq_true', Bool.eq_false_iff]
      intro habove
      simp only [isAbove, decide_eq_true_eq] at habove
      refine hroll ⟨targetHeight, ?_, hheight ▸ habove.2⟩
      rw [← hchain, habove.1]

/-! ## 3. Runs -/

/-- The undo log has a record of the change of `c`'s transaction under `c`'s id, written by one of
the changes in `written`. -/
def Held (written : List Change) (s : StateStore) (c : Change) : Prop :=
  ∃ c' ∈ written, c'.key = c.key ∧ s.undoLogs[c.undo.id]? = some c'.undo

theorem changes_append (s : StateStore) (events events' : List ChainEvent) :
    changes X s (events ++ events') = changes X s events ++ changes X (runAll X s events) events' := by
  induction events generalizing s with
  | nil => rfl
  | cons e events ih =>
    show (e.change X s).toList ++ changes X (e.apply X s) (events ++ events') = _
    rw [ih, ← List.append_assoc]
    rfl

theorem held_runAll {written : List Change}
    (hids : ∀ w ∈ written, w.undo.id = c.undo.id → w.key = c.key)
    (hsub : changes X s events ⊆ written) (hheld : Held written s c)
    (hroll : ∀ e ∈ events, ¬ e.RollsBack c) : Held written (runAll X s events) c := by
  induction events generalizing s with
  | nil => exact hheld
  | cons e events ih =>
    have hrest : changes X (e.apply X s) events ⊆ written :=
      fun w hw ↦ hsub (List.mem_append_right _ hw)
    apply ih hrest ?_ fun e' he' ↦ hroll e' (List.mem_cons_of_mem _ he')
    by_cases hwrite : ∃ w, e.change X s = some w ∧ w.undo.id = c.undo.id
    · -- the record of the same change is written again
      obtain ⟨w, hw, hid⟩ := hwrite
      have hmem : w ∈ written := hsub (by simp [changes, hw])
      refine ⟨w, hmem, hids w hmem hid, ?_⟩
      rw [← hid]
      exact undoLogs_change hw
    · obtain ⟨c', hc', hkey, hlog⟩ := hheld
      refine ⟨c', hc', hkey, undoLogs_apply hlog hkey (fun w hw hid ↦ hwrite ⟨w, hw, hid⟩) ?_⟩
      exact hroll e List.mem_cons_self

end

/-- Undo records that are written for different changes have different ids. -/
def DistinctIds (X : Crates) (s : StateStore) (events : List ChainEvent) : Prop :=
  ∀ c ∈ changes X s events, ∀ c' ∈ changes X s events, c.key ≠ c'.key → c.undo.id ≠ c'.undo.id

/-- Every change has its undo record until it is rolled back. -/
def RecordsKept (X : Crates) (s : StateStore) (events : List ChainEvent) : Prop :=
  ∀ before e later after c, events = before ++ e :: (later ++ after) →
    e.change X (runAll X s before) = some c → (∀ e' ∈ later, ¬ e'.RollsBack c) →
    Held (changes X s (before ++ e :: later)) (runAll X s (before ++ e :: later)) c

section

variable {X : Crates} {s : StateStore} {events : List ChainEvent}

theorem DistinctIds.kept (h : DistinctIds X s events) : RecordsKept X s events := by
  rintro before e later after c rfl hc hroll
  have hsub : changes X s (before ++ e :: later) ⊆
      changes X s (before ++ e :: (later ++ after)) := by
    intro w hw
    rw [← List.cons_append, ← List.append_assoc, changes_append]
    exact List.mem_append_left _ hw
  have hmem : c ∈ changes X s (before ++ e :: later) := by
    rw [changes_append]
    exact List.mem_append_right _ (by simp [changes, hc])
  have hids : ∀ w ∈ changes X s (before ++ e :: later), w.undo.id = c.undo.id → w.key = c.key :=
    fun w hw hid ↦ not_not.mp fun hkey ↦ h w (hsub hw) c (hsub hmem) hkey hid
  have hafter : changes X (e.apply X (runAll X s before)) later ⊆
      changes X s (before ++ e :: later) := by
    intro w hw
    rw [changes_append]
    exact List.mem_append_right _ (List.mem_append_right _ hw)
  have hrun : runAll X s (before ++ e :: later) =
      runAll X (e.apply X (runAll X s before)) later := List.foldl_append ..
  rw [hrun]
  exact held_runAll hids hafter ⟨c, hmem, rfl, undoLogs_change hc⟩ hroll

theorem mem_changes_undoId {c : Change} (h : c ∈ changes X s events) :
    c.undo.id = undoId c.undo.blockHeight c.voutIdx c.txid := by
  induction events generalizing s with
  | nil => cases h
  | cons e events ih =>
    rcases List.mem_append.mp h with hc | hc
    · exact change_undoId (Option.mem_toList.mp hc)
    · exact ih hc

end

/-- **Undo records do not overwrite one another** exactly when no two changes of a run use one
slot: the same height, and the same xor of output index and txid digits. -/
theorem undo_records_kept_iff (X : Crates) (s : StateStore) (events : List ChainEvent) :
    (DistinctIds X s events ∧ RecordsKept X s events) ↔
      ∀ c ∈ changes X s events, ∀ c' ∈ changes X s events, c.key ≠ c'.key → ¬ c.SameSlot c' := by
  have hslot {c c' : Change} (hc : c ∈ changes X s events) (hc' : c' ∈ changes X s events) :
      c.undo.id = c'.undo.id ↔ c.SameSlot c' := by
    rw [mem_changes_undoId hc, mem_changes_undoId hc']
    exact undoId_eq_iff
  have hiff : DistinctIds X s events ↔
      ∀ c ∈ changes X s events, ∀ c' ∈ changes X s events, c.key ≠ c'.key → ¬ c.SameSlot c' := by
    refine forall₂_congr fun c hc ↦ forall₂_congr fun c' hc' ↦ imp_congr_right fun _ ↦ ?_
    exact not_congr (hslot hc hc')
  rw [← hiff]
  exact and_iff_left_of_imp DistinctIds.kept

/-- A create whose txid begins with the same eight digits as that of `demoCreateTx`. -/
def demoSameWordTx : ElectrsTx :=
  { demoCreateTx with txid := "00000001ff000000000000000000000000000000000000000000000000000000" }

def demoSameSlot : List ChainEvent :=
  [.processTx demoProcessor 1 ⟨{}, 0, demoCreateTx⟩,
    .processTx demoProcessor 1 ⟨{}, 0, demoSameWordTx⟩]

def demoFirstChange : Change :=
  ⟨demoCreateTx.txid, 0, demoProcessor.createUndo demoCreateTx 1 0 demoObjectId⟩

def demoSecondChange : Change :=
  ⟨demoSameWordTx.txid, 0, demoProcessor.createUndo demoSameWordTx 1 0 "obj_00000001ff000000"⟩

theorem demo_first_change (s : StateStore) :
    (ChainEvent.processTx demoProcessor 1 ⟨{}, 0, demoCreateTx⟩).change demoCrates s =
      some demoFirstChange := by
  set_option maxRecDepth 4000 in
  rfl

theorem demo_second_change (s : StateStore) :
    (ChainEvent.processTx demoProcessor 1 ⟨{}, 0, demoSameWordTx⟩).change demoCrates s =
      some demoSecondChange := by
  set_option maxRecDepth 4000 in
  rfl

/-- **Two creates in one block**, with different txids and one undo id: the record of the first is
lost. -/
theorem undo_record_overwritten :
    ¬ DistinctIds demoCrates (empty demoCrates) demoSameSlot ∧
      ¬ RecordsKept demoCrates (empty demoCrates) demoSameSlot := by
  have hchanges : changes demoCrates (empty demoCrates) demoSameSlot =
      [demoFirstChange, demoSecondChange] := by
    simp only [demoSameSlot, changes, demo_first_change, demo_second_change]
    rfl
  have hkey : demoSecondChange.key ≠ demoFirstChange.key := by decide
  have hid : demoSecondChange.undo.id = demoFirstChange.undo.id := by decide
  refine ⟨fun h ↦ ?_, fun h ↦ ?_⟩
  · unfold DistinctIds at h
    rw [hchanges] at h
    exact h demoSecondChange (by simp) demoFirstChange (by simp) hkey hid
  · obtain ⟨c', hc', hsame, hlog⟩ := h [] _ [.processTx demoProcessor 1 ⟨{}, 0, demoSameWordTx⟩] []
      demoFirstChange rfl (demo_first_change _) (by simp [RollsBack])
    -- the log holds the record of the second create
    have hlast := undoLogs_change (demo_second_change
      ((ChainEvent.processTx demoProcessor 1 ⟨{}, 0, demoCreateTx⟩).apply demoCrates
        (empty demoCrates)))
    rw [hid] at hlast
    have hundo : demoSecondChange.undo = c'.undo := Option.some.inj (hlast.symm.trans hlog)
    rw [List.nil_append] at hc'
    change c' ∈ changes demoCrates (empty demoCrates) demoSameSlot at hc'
    rw [hchanges] at hc'
    simp only [List.mem_cons, List.not_mem_nil, or_false] at hc'
    rcases hc' with rfl | rfl
    · exact absurd (congrArg (·.objectId) hundo) (by decide)
    · exact hkey hsame

end UtxoVm
