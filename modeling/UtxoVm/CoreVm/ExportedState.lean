import UtxoVm.CoreVm.Execute

/-!
# The state that a call reports

`execute` reads the new state through `get_state`.  When the guest traps there, or reports no
length, the state from before the call takes its place.
-/

namespace UtxoVm

open RustStd Prog

namespace Vm

variable (m : Module)

/-! ## 1. The calls of the read -/

@[simp] theorem run_guestCall {α : Type} (context : String) (code : GuestCode α) (s : VmStore) :
    run (guestCall context code) s =
      ((code.run s).1, (code.run s).2.mapError (context ++ ·)) := by
  unfold guestCall
  rw [run_act]
  cases (code.run s).2 <;> rfl

@[simp] theorem run_guestCallOrZero (code : GuestCode Int32) (s : VmStore) :
    run (guestCallOrZero code) s = ((code.run s).1, .ok (orZero (code.run s).2)) := by
  unfold guestCallOrZero
  rw [run_bind, run_attempt, run_guestCall, andThen_ok, run_pure]
  cases (code.run s).2 <;> rfl

@[simp] theorem run_deallocateGuest (ptr size : Int32) (s : VmStore) :
    (run (deallocateGuest m ptr size) s).2 = .ok () := by
  unfold deallocateGuest
  cases m.deallocate with
  | none => rfl
  | some deallocate =>
    dsimp only
    rw [run_bind, run_attempt, andThen_ok, run_pure]

/-- `get_state_size`; a module without it reports `0`. -/
def sizeCall (s : VmStore) : VmStore × Except String Int32 :=
  match m.getStateSize with
  | some getStateSize => getStateSize.run s
  | none => (s, .ok 0)

/-- The size of the buffer that the state is read into. -/
def bufSize (s : VmStore) : Int32 :=
  let actual := orZero (sizeCall m s).2
  if 0 < actual then min actual maxStateBuf else getStateBufSize

/-- The allocation of the buffer. -/
def bufCall (s : VmStore) : VmStore × Except String Int32 :=
  match m.allocate with
  | some allocate => (allocate (bufSize m s)).run (sizeCall m s).1
  | none => ((sizeCall m s).1, .error missingAllocate)

/-- `get_state` on the buffer. -/
def stateCall (getState : Int32 → GuestCode Int32) (ptr : Int32) (s : VmStore) :
    VmStore × Except String Int32 :=
  (getState ptr).run (bufCall m s).1

theorem run_stateBufSize (s : VmStore) :
    run (stateBufSize m) s = ((sizeCall m s).1, .ok (bufSize m s)) := by
  unfold stateBufSize bufSize sizeCall
  cases m.getStateSize with
  | none => rfl
  | some getStateSize =>
    dsimp only
    rw [run_bind, run_guestCallOrZero, andThen_ok, run_pure]

theorem bufSize_pos (s : VmStore) : 0 < bufSize m s := by
  unfold bufSize
  dsimp only
  split
  · rename_i hpos
    show 0 < if _ ≤ maxStateBuf then _ else maxStateBuf
    split
    · exact hpos
    · decide
  · decide

variable {m} {getState : Int32 → GuestCode Int32}

@[simp] theorem run_readMemory (context : String) (ptr : Int32) (len : Nat) (s : VmStore) :
    run (readMemory context ptr len) s =
      (s, match s.memoryRead (VmStore.usize ptr) len with
        | some bytes => .ok bytes
        | none => .error (context ++ outOfBounds)) := by
  unfold readMemory
  rw [run_bind, run_read, andThen_ok]
  cases s.memoryRead (VmStore.usize ptr) len <;> rfl

/-- The branches on the reported length. -/
theorem readReported_ok_iff (texts : ReadTexts) (prior data : Bytes) {buf : Int32} (hbuf : 0 < buf)
    (ptr len : Int32) (s : VmStore) :
    (run (readReported texts prior buf ptr len) s).2 = .ok data ↔
      (0 < len ∧ len ≤ buf ∧
          s.memoryRead (VmStore.usize ptr) len.toInt.toNat = some data) ∨
        (len ≤ 0 ∧ data = prior) := by
  unfold readReported
  rw [Int32.lt_iff_toInt_lt] at hbuf
  split
  · rename_i hlen
    have hnot : ¬ len ≤ 0 := by
      rw [Int32.le_iff_toInt_le, not_le]
      exact Int32.lt_iff_toInt_lt.mp hlen.1
    rw [run_readMemory]
    cases s.memoryRead (VmStore.usize ptr) len.toInt.toNat <;> simp [hlen, hnot]
  · rename_i hlen
    rw [Int32.lt_iff_toInt_lt, Int32.le_iff_toInt_le] at hlen
    split
    · rename_i hover
      rw [Int32.lt_iff_toInt_lt] at hover
      have hnot : ¬ len ≤ 0 := by
        rw [Int32.le_iff_toInt_le]
        omega
      have hnot' : ¬ len ≤ buf := by
        rw [Int32.le_iff_toInt_le]
        omega
      simp [hnot, hnot']
    · rename_i hover
      rw [Int32.lt_iff_toInt_lt] at hover
      have hle : len ≤ 0 := by
        rw [Int32.le_iff_toInt_le]
        omega
      have hnot : ¬ 0 < len := by
        rw [Int32.lt_iff_toInt_lt]
        omega
      simp [hle, hnot, eq_comm]

/-- The state that the read yields. -/
theorem readState_ok_iff (hget : m.getState = some getState) (texts : ReadTexts)
    (prior data : Bytes) (s : VmStore) :
    (run (readState m texts prior) s).2 = .ok data ↔
      ∃ ptr, (bufCall m s).2 = .ok ptr ∧
        let len := orZero (stateCall m getState ptr s).2
        (0 < len ∧ len ≤ bufSize m s ∧
          (stateCall m getState ptr s).1.memoryRead (VmStore.usize ptr) len.toInt.toNat =
            some data) ∨
        (len ≤ 0 ∧ data = prior) := by
  have hpos := bufSize_pos m s
  unfold readState
  rw [hget]
  dsimp only
  rw [run_bind, run_stateBufSize, andThen_ok, run_bind]
  unfold stateCall bufCall allocateGuest
  cases m.allocate with
  | none =>
    dsimp only
    rw [run_fail, andThen_error]
    constructor
    · intro h
      cases h
    · rintro ⟨ptr, h, _⟩
      cases h
  | some allocate =>
    dsimp only
    rw [run_guestCall]
    cases halloc : ((allocate (bufSize m s)).run (sizeCall m s).1).2 with
    | error message =>
      constructor
      · intro h
        cases h
      · rintro ⟨ptr, h, _⟩
        cases h
    | ok ptr =>
      show (andThen _ _).2 = _ ↔ _
      rw [show Except.mapError (texts.allocate ++ ·) (Except.ok ptr : Except String Int32) =
        .ok ptr from rfl, andThen_ok, run_bind, run_guestCallOrZero, andThen_ok]
      generalize hcall : (getState ptr).run ((allocate (bufSize m s)).run (sizeCall m s).1).1 = r
      have hread := readReported_ok_iff texts prior data hpos ptr (orZero r.2) r.1
      simp only [Except.ok.injEq, exists_eq_left', hcall]
      rw [← hread, run_bind]
      cases run (readReported texts prior (bufSize m s) ptr (orZero r.2)) r.1 with
      | mk s' result =>
        cases result with
        | error message => rfl
        | ok bytes =>
          rw [andThen_ok, run_bind]
          have hdealloc := run_deallocateGuest m ptr (bufSize m s) s'
          cases hrun : run (deallocateGuest m ptr (bufSize m s)) s' with
          | mk s'' unit =>
            rw [hrun] at hdealloc
            cases hdealloc
            rfl

/-! ## 2. What the read reports -/

/-- The guest has exported `data` from `s` on: `get_state_size` and `get_state` have returned, and
`data` is what `get_state` reported at `ptr`. -/
structure Exported (m : Module) (getState : Int32 → GuestCode Int32) (s : VmStore)
    (ptr len : Int32) (data : Bytes) : Prop where
  size : ∃ actual, (sizeCall m s).2 = .ok actual
  buffer : (bufCall m s).2 = .ok ptr
  completed : (stateCall m getState ptr s).2 = .ok len
  length : (data.length : Int) = len.toInt
  bytes : ∀ i < data.length,
    (stateCall m getState ptr s).1.memory[VmStore.usize ptr + i]? = data[i]?

/-- The read from `s` on falls back on a default: the state from before the call (`trapped`,
`negative`, `empty`) or the fixed buffer size (`sizeTrapped`). -/
inductive Defaulted (m : Module) (getState : Int32 → GuestCode Int32) (s : VmStore)
    (prior : Bytes) : Prop
  | trapped {ptr : Int32} {message : String} : (bufCall m s).2 = .ok ptr →
      (stateCall m getState ptr s).2 = .error message → Defaulted m getState s prior
  | negative {ptr len : Int32} : (bufCall m s).2 = .ok ptr →
      (stateCall m getState ptr s).2 = .ok len → len < 0 → Defaulted m getState s prior
  | empty {ptr : Int32} : (bufCall m s).2 = .ok ptr →
      (stateCall m getState ptr s).2 = .ok 0 → prior ≠ [] → Defaulted m getState s prior
  | sizeTrapped {ptr len : Int32} {message : String} : (sizeCall m s).2 = .error message →
      (bufCall m s).2 = .ok ptr → (stateCall m getState ptr s).2 = .ok len →
      len = 0 ∨ (0 < len ∧ len ≤ bufSize m s ∧ ∃ data,
        (stateCall m getState ptr s).1.memoryRead (VmStore.usize ptr) len.toInt.toNat =
          some data) →
      Defaulted m getState s prior

theorem memoryRead_eq_some {s : VmStore} {offset len : Nat} {data : Bytes}
    (h : s.memoryRead offset len = some data) :
    data.length = len ∧ ∀ i < data.length, s.memory[offset + i]? = data[i]? := by
  unfold VmStore.memoryRead at h
  split at h
  · rename_i hle
    cases h
    have hlen : ((s.memory.drop offset).take len).length = len := by
      rw [List.length_take, List.length_drop]
      omega
    refine ⟨hlen, fun i hi ↦ ?_⟩
    rw [List.getElem?_take_of_lt (by omega), List.getElem?_drop]
  · cases h

/-- The read reports the exported state exactly when it does not fall back on a default. -/
theorem readState_exported_iff (hget : m.getState = some getState) (texts : ReadTexts)
    (prior : Bytes) (s : VmStore) :
    (∀ data, (run (readState m texts prior) s).2 = .ok data →
      ∃ ptr len, Exported m getState s ptr len data) ↔ ¬ Defaulted m getState s prior := by
  have hread := readState_ok_iff hget texts prior (s := s)
  constructor
  · intro h hdefault
    cases hdefault with
    | trapped hbuf htrap =>
      obtain ⟨ptr, len, hex⟩ := h prior ((hread prior).mpr
        ⟨_, hbuf, .inr (by rw [htrap]; exact ⟨Int32.le_refl 0, rfl⟩)⟩)
      rw [hex.buffer] at hbuf
      cases hbuf
      rw [hex.completed] at htrap
      cases htrap
    | negative hbuf hlen hneg =>
      rename_i ptr len
      have hle : len ≤ 0 := by
        rw [Int32.lt_iff_toInt_lt] at hneg
        rw [Int32.le_iff_toInt_le]
        omega
      obtain ⟨ptr', len', hex⟩ :=
        h prior ((hread prior).mpr ⟨_, hbuf, .inr (by rw [hlen]; exact ⟨hle, rfl⟩)⟩)
      rw [hex.buffer] at hbuf
      cases hbuf
      rw [hex.completed] at hlen
      cases hlen
      have hlength := hex.length
      rw [Int32.lt_iff_toInt_lt, Int32.toInt_zero] at hneg
      omega
    | empty hbuf hlen hprior =>
      obtain ⟨ptr', len', hex⟩ := h prior ((hread prior).mpr
        ⟨_, hbuf, .inr (by rw [hlen]; exact ⟨by decide, rfl⟩)⟩)
      rw [hex.buffer] at hbuf
      cases hbuf
      rw [hex.completed] at hlen
      cases hlen
      have hlength := hex.length
      rw [Int32.toInt_zero] at hlength
      exact hprior (List.length_eq_zero_iff.mp (by omega))
    | sizeTrapped hsize hbuf hlen hreadable =>
      rename_i ptr len message
      have hdata : ∃ data, (run (readState m texts prior) s).2 = .ok data := by
        rcases hreadable with hzero | ⟨hpos, hle, data, hbytes⟩
        · exact ⟨prior, (hread prior).mpr
            ⟨_, hbuf, .inr (by rw [hlen, hzero]; exact ⟨by decide, rfl⟩)⟩⟩
        · exact ⟨data, (hread data).mpr ⟨_, hbuf, .inl (by rw [hlen]; exact ⟨hpos, hle, hbytes⟩)⟩⟩
      obtain ⟨data, hdata⟩ := hdata
      obtain ⟨ptr', len', hex⟩ := h data hdata
      obtain ⟨actual, hactual⟩ := hex.size
      rw [hsize] at hactual
      cases hactual
  · intro hno data hdata
    obtain ⟨ptr, hbuf, hcases⟩ := (hread data).mp hdata
    cases hcall : (stateCall m getState ptr s).2 with
    | error message => exact absurd (.trapped hbuf hcall) hno
    | ok len =>
      rw [hcall] at hcases
      simp only [orZero] at hcases
      have hsize : ∃ actual, (sizeCall m s).2 = .ok actual := by
        cases hs : (sizeCall m s).2 with
        | ok actual => exact ⟨actual, rfl⟩
        | error message =>
          rcases hcases with ⟨hpos, hle, hbytes⟩ | ⟨hle, _⟩
          · exact absurd (.sizeTrapped hs hbuf hcall (.inr ⟨hpos, hle, data, hbytes⟩)) hno
          · by_cases hzero : len = 0
            · exact absurd (.sizeTrapped hs hbuf hcall (.inl hzero)) hno
            · exact absurd (.negative hbuf hcall (by grind)) hno
      rcases hcases with ⟨hpos, hle, hbytes⟩ | ⟨hle, hprior⟩
      · obtain ⟨hlength, hget⟩ := memoryRead_eq_some hbytes
        rw [Int32.lt_iff_toInt_lt, Int32.toInt_zero] at hpos
        exact ⟨ptr, len, hsize, hbuf, hcall, by omega, hget⟩
      · by_cases hzero : len = 0
        · rw [hzero] at hcall
          have hnil : prior = [] := by
            by_contra hne
            exact hno (.empty hbuf hcall hne)
          rw [hprior, hnil]
          exact ⟨ptr, 0, hsize, hbuf, hcall, rfl, fun i hi ↦ absurd hi (by simp)⟩
        · exact absurd (.negative hbuf hcall (by grind)) hno

/-! ## 3. `execute` -/

variable (X : Crates) (engine : Engine) (config : VmConfig) (wasmBytes : Bytes)
  (state : SmartObjectState) (caller method : String) (args : Bytes)

/-- The code that is run is the code that the object names. -/
def CodeMatches : Prop := state.codeHash = "" ∨ calculateCodeHash X wasmBytes = state.codeHash

/-- The guest has called the method: it stands in `s` with the return code of `call`. -/
def Called (m : Module) (s : VmStore) (returnCode : Int32) : Prop :=
  run (callSession m method state.stateData args)
    (newStore m config (HostContext.fromState state caller)) = (s, .ok returnCode)

/-- Whatever `execute` reports was exported by the guest after the call. -/
def ReportsExported (m : Module) (getState : Int32 → GuestCode Int32) : Prop :=
  ∀ out, execute X engine config wasmBytes state caller method args = .ok out →
    ∃ s returnCode ptr len, Called config state caller method args m s returnCode ∧
      Exported m getState s ptr len out.updatedStateData

variable {X engine config wasmBytes state caller method args}

theorem execute_ok_iff (hmodule : engine.compile wasmBytes = .ok m) (out : VmOutcome) :
    execute X engine config wasmBytes state caller method args = .ok out ↔
      CodeMatches X wasmBytes state ∧ ∃ s returnCode,
        Called config state caller method args m s returnCode ∧
        ∃ data, (run (readState m executeTexts state.stateData) s).2 = .ok data ∧
          out = outcome config returnCode data
            (run (readState m executeTexts state.stateData) s).1 := by
  unfold execute CodeMatches Called
  by_cases hcode : (!state.codeHash.isEmpty && calculateCodeHash X wasmBytes != state.codeHash) =
      true
  · rw [if_pos hcode]
    have hno : ¬ (state.codeHash = "" ∨ calculateCodeHash X wasmBytes = state.codeHash) := by
      simpa [not_or] using hcode
    exact iff_of_false (fun h ↦ by cases h) fun h ↦ hno h.1
  · rw [if_neg hcode, hmodule]
    have hyes : state.codeHash = "" ∨ calculateCodeHash X wasmBytes = state.codeHash := by
      simpa [or_iff_not_imp_left] using hcode
    dsimp only
    unfold executeSession
    rw [run_bind]
    rcases run (callSession m method state.stateData args)
      (newStore m config (HostContext.fromState state caller)) with ⟨s, result⟩
    cases result with
    | error message =>
      refine iff_of_false (fun h ↦ by cases h) ?_
      rintro ⟨_, s', returnCode, h, _⟩
      cases h
    | ok returnCode =>
      rw [andThen_ok, run_bind]
      rcases hread : run (readState m executeTexts state.stateData) s with ⟨s', result⟩
      cases result with
      | error message =>
        refine iff_of_false (fun h ↦ by cases h) ?_
        rintro ⟨_, s'', returnCode', h, data, hdata, _⟩
        cases h
        rw [hread] at hdata
        cases hdata
      | ok data =>
        rw [andThen_ok, run_read]
        constructor
        · intro h
          cases h
          exact ⟨hyes, s, returnCode, rfl, data, by rw [hread], by rw [hread]⟩
        · rintro ⟨_, s'', returnCode', h, data', hdata, hout⟩
          cases h
          rw [hread] at hdata hout
          cases hdata
          rw [hout]

/-! ## 4. A guest that exports its state, and one that traps -/

/-- A guest whose `call` emits an event and returns `returnCode`, with the given `get_state`. -/
def demoModule (returnCode : Int32) (getState : Int32 → GuestCode Int32) : Module where
  linkError := none
  memory := List.replicate 64 0
  exportsMemory := true
  globals := []
  start := .ret ()
  allocate := some fun _ ↦ .ret 0
  deallocate := none
  init := none
  restoreState := none
  call := some fun _ _ _ ↦ .host (.emitEvent 0 0 1) fun _ ↦ .ret returnCode
  getState := some getState
  getStateSize := none

/-- `get_state` that writes the digit seven. -/
def demoGetState (ptr : Int32) : GuestCode Int32 :=
  .step 10 (fun memory globals ↦ (memory.set (VmStore.usize ptr) 55, globals)) fun _ _ ↦ .ret 1

/-- `get_state` that traps. -/
def demoTrap (_ : Int32) : GuestCode Int32 :=
  .trap "wasm trap: wasm `unreachable` instruction executed"

def demoEngine (m : Module) : Engine where
  compile _ := .ok m

def demoState : SmartObjectState where
  objectId := "obj_1"
  codeHash := ""
  sealRef := ⟨"00", 0⟩
  satoshis := 1000
  ownerPubkey := "alice"
  stateData := asBytes "5"

/-! ## 5. Reported state is exported state -/

/-- **Reported state is exported state**, unless the read falls back on a default. -/
theorem reportsExported_iff (hmodule : engine.compile wasmBytes = .ok m)
    (hget : m.getState = some getState) :
    ReportsExported X engine config wasmBytes state caller method args m getState ↔
      ¬ (CodeMatches X wasmBytes state ∧ ∃ s returnCode,
        Called config state caller method args m s returnCode ∧
          Defaulted m getState s state.stateData) := by
  constructor
  · rintro hreports ⟨hcode, s, returnCode, hcalled, hdefault⟩
    refine (readState_exported_iff hget executeTexts state.stateData s).mp ?_ hdefault
    intro data hdata
    obtain ⟨s', returnCode', ptr, len, hcalled', hexported⟩ := hreports _
      ((execute_ok_iff hmodule _).mpr ⟨hcode, s, returnCode, hcalled, data, hdata, rfl⟩)
    have hsame := hcalled.symm.trans hcalled'
    cases hsame
    exact ⟨ptr, len, hexported⟩
  · intro hno out hout
    obtain ⟨hcode, s, returnCode, hcalled, data, hdata, rfl⟩ := (execute_ok_iff hmodule _).mp hout
    have hexported := (readState_exported_iff hget executeTexts state.stateData s).mpr
      (fun hdefault ↦ hno ⟨hcode, s, returnCode, hcalled, hdefault⟩) data hdata
    obtain ⟨ptr, len, hexported⟩ := hexported
    exact ⟨s, returnCode, ptr, len, hcalled, hexported⟩

theorem reportsExported_iff_seven :
    ReportsExported demoCrates (demoEngine (demoModule 0 demoGetState)) {} [] demoState "bob"
        "poke" [] (demoModule 0 demoGetState) demoGetState ↔
      ¬ (CodeMatches demoCrates [] demoState ∧ ∃ s returnCode,
        Called {} demoState "bob" "poke" [] (demoModule 0 demoGetState) s returnCode ∧
          Defaulted (demoModule 0 demoGetState) demoGetState s demoState.stateData) :=
  reportsExported_iff rfl rfl

/-- `get_state` traps after the call has emitted an event: the call succeeds with the old state. -/
theorem execute_reports_old_state :
    (execute demoCrates (demoEngine (demoModule 0 demoTrap)) {} [] demoState "bob" "poke"
        []).toOption.map (fun out ↦ (out.updatedStateData, out.events.length)) =
        some (asBytes "5", 1) ∧
      ¬ ReportsExported demoCrates (demoEngine (demoModule 0 demoTrap)) {} [] demoState "bob"
        "poke" [] (demoModule 0 demoTrap) demoTrap := by
  have hrun : (execute demoCrates (demoEngine (demoModule 0 demoTrap)) {} [] demoState "bob" "poke"
      []).toOption.map (fun out ↦ (out.updatedStateData, out.events.length)) =
        some (asBytes "5", 1) := by decide
  refine ⟨hrun, fun hreports ↦ ?_⟩
  unfold ReportsExported at hreports
  cases hout : execute demoCrates (demoEngine (demoModule 0 demoTrap)) {} [] demoState "bob" "poke"
      [] with
  | error message =>
    rw [hout] at hrun
    cases hrun
  | ok out =>
    obtain ⟨s, returnCode, ptr, len, _, hexported⟩ := hreports out hout
    have hcompleted := hexported.completed
    cases hcompleted

end Vm

end UtxoVm
