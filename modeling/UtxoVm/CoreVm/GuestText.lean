import UtxoVm.CoreVm.Guest
import UtxoVm.Reasoning.Utf8

/-!
# Texts that a contract passes to the host (`contracts/assembly/env.ts`)

The contract hands over the address of a bare UTF-8 buffer; the host reads up to a zero byte or to
the longest text it takes.  What arrives depends on the byte behind the buffer.
-/

namespace UtxoVm

open RustStd Utf8

/-- `String.UTF8.encode` in the guest: it puts the bytes of a string, and no terminator, into a new
buffer; `none` when it aborts.  Buffers that are still referred to stay as they are. -/
structure Utf8Encode where
  cost : Nat
  encode : String → Bytes → List UInt64 → Option (UInt32 × Bytes × List UInt64)
  /-- The guest still refers to a buffer with these bytes at the address. -/
  Live : Bytes → List UInt64 → UInt32 → Bytes → Prop
  holds {memory globals addr bytes} : Live memory globals addr bytes →
    bytes <+: memory.drop addr.toNat
  encode_live {text memory globals addr memory' globals'} :
    encode text memory globals = some (addr, memory', globals') →
      Live memory' globals' addr (asBytes text)
  encode_keeps {text memory globals addr memory' globals' addr₀ bytes} :
    encode text memory globals = some (addr, memory', globals') →
      Live memory globals addr₀ bytes → Live memory' globals' addr₀ bytes
  /-- A WebAssembly memory has at most 65536 pages. -/
  encode_size {text memory globals addr memory' globals'} :
    encode text memory globals = some (addr, memory', globals') → memory'.length ≤ 2 ^ 32

namespace HostContext

variable (U : Utf8Encode)

/-! ## 1. The contract's side -/

/-- `let buf = String.UTF8.encode(text)`, and what is done with `changetype<usize>(buf)`. -/
def withBuffer {α : Type} (text : String) (next : Int32 → GuestCode α) : GuestCode α :=
  .step U.cost
    (fun memory globals ↦
      match U.encode text memory globals with
      | some (_, memory', globals') => (memory', globals')
      | none => (memory, globals))
    fun memory globals ↦
      match U.encode text memory globals with
      | some (addr, _, _) => next addr.toInt32
      | none => .trap "abort"

def emitEvent (topic data : String) : GuestCode Unit :=
  withBuffer U topic fun topicPtr ↦
    withBuffer U data fun dataPtr ↦
      .host (.emitEvent topicPtr dataPtr (Int32.ofNat (asBytes data).length)) fun _ ↦ .ret ()

def stealthSettle (stealthAddress : String) (satoshis : UInt64) : GuestCode Bool :=
  withBuffer U stealthAddress fun addrPtr ↦
    .host (.stealthSettle addrPtr satoshis) fun res ↦ .ret (res == 1)

def mwebPegOut (stealthAddress : String) (satoshis : UInt64) : GuestCode Bool :=
  withBuffer U stealthAddress fun addrPtr ↦
    .host (.mwebPegOut addrPtr satoshis) fun res ↦ .ret (res == 1)

/-! ## 2. What the host reads -/

/-- The host stops behind the text: the text has the greatest length, or a zero byte or the end of
the memory follows its buffer.  Addresses are signed for the host, so it finds nothing in the upper
half of the memory. -/
def Terminated (memory : Bytes) (addr : UInt32) (text : String) (maxLen : Nat) : Prop :=
  if addr.toNat < 2 ^ 31 then
    let stop := addr.toNat + (asBytes text).length
    (asBytes text).length = maxLen ∨ memory.length ≤ stop ∨ memory[stop]? = some 0
  else text = ""

section Reading

variable {s : VmStore} {addr : UInt32}

theorem toInt_toInt32 (addr : UInt32) : addr.toInt32.toInt =
    if 2 * addr.toNat < 2 ^ 32 then (addr.toNat : Int) else addr.toNat - 2 ^ 32 :=
  BitVec.toInt_eq_toNat_cond addr.toBitVec

theorem usize_toInt32 (haddr : addr.toNat < 2 ^ 31) : VmStore.usize addr.toInt32 = addr.toNat := by
  unfold VmStore.usize
  rw [toInt_toInt32, if_pos (by omega)]
  omega

theorem le_usize_toInt32 (haddr : ¬ addr.toNat < 2 ^ 31) :
    2 ^ 32 ≤ VmStore.usize addr.toInt32 := by
  have hlt : addr.toNat < 2 ^ 32 := addr.toNat_lt
  unfold VmStore.usize
  rw [toInt_toInt32, if_neg (by omega)]
  omega

/-- Behind a text without zero bytes the host reads on. -/
theorem readGuestString_eq {text : Bytes} {ptr maxLen : Nat} (htext : text <+: s.memory.drop ptr)
    (hnul : 0 ∉ text) (hle : text.length ≤ maxLen) :
    s.readGuestString ptr maxLen = text ++
      ((s.memory.drop (ptr + text.length)).take (maxLen - text.length)).takeWhile (· ≠ 0) := by
  obtain ⟨rest, hrest⟩ := htext
  have hnonzero : ∀ b ∈ text, decide (b ≠ 0) = true := fun b hb ↦
    decide_eq_true fun h ↦ hnul (h ▸ hb)
  unfold VmStore.readGuestString
  rw [← List.drop_drop, ← hrest, List.drop_left, List.take_append, List.take_of_length_le hle,
    List.takeWhile_append_of_pos hnonzero]

theorem takeWhile_take_eq_nil_iff (bs : Bytes) (n : Nat) :
    (bs.take n).takeWhile (· ≠ 0) = [] ↔ n = 0 ∨ bs = [] ∨ bs.head? = some 0 := by
  cases n with
  | zero => exact iff_of_true rfl (.inl rfl)
  | succ n =>
    cases bs with
    | nil => exact iff_of_true rfl (.inr (.inl rfl))
    | cons b bs =>
      rw [List.take_succ_cons, List.takeWhile_cons]
      by_cases hb : b = 0 <;> simp [hb]

/-- **The text arrives** when the host stops behind it, and only then. -/
theorem fromUtf8Lossy_readGuestString_iff {text : String} {maxLen : Nat}
    (htext : asBytes text <+: s.memory.drop addr.toNat) (hnul : 0 ∉ asBytes text)
    (hle : (asBytes text).length ≤ maxLen) (hsize : s.memory.length ≤ 2 ^ 32) :
    fromUtf8Lossy (s.readGuestString (VmStore.usize addr.toInt32) maxLen) = text ↔
      Terminated s.memory addr text maxLen := by
  unfold Terminated
  split
  · rename_i haddr
    rw [usize_toInt32 haddr, readGuestString_eq htext hnul hle, fromUtf8Lossy_append_eq_iff,
      takeWhile_take_eq_nil_iff, List.drop_eq_nil_iff, List.head?_drop]
    dsimp only
    rw [show maxLen - (asBytes text).length = 0 ↔ (asBytes text).length = maxLen by omega]
  · rename_i haddr
    have hbeyond := le_usize_toInt32 haddr
    have hempty : s.readGuestString (VmStore.usize addr.toInt32) maxLen = [] := by
      unfold VmStore.readGuestString
      rw [List.drop_eq_nil_iff.mpr (by omega), List.take_nil, List.takeWhile_nil]
    rw [hempty]
    exact eq_comm

end Reading

/-! ## 3. What the host records -/

section Records

variable {U} {s : VmStore} {text : String} {addr : UInt32} {memory : Bytes} {globals : List UInt64}

/-- With a buffer for its text the guest goes on; without fuel it does not. -/
theorem run_withBuffer {α : Type} {next : Int32 → GuestCode α}
    (hencode : U.encode text s.memory s.globals = some (addr, memory, globals)) :
    (withBuffer U text next).run s =
      if s.fuel < U.cost then ({ s with fuel := 0 }, .error GuestCode.outOfFuel)
      else (next addr.toInt32).run { s with memory, globals, fuel := s.fuel - U.cost } := by
  unfold withBuffer
  rw [GuestCode.run]
  dsimp only
  rw [hencode]

theorem ne_append_singleton {α : Type} (xs : List α) (x : α) : xs ≠ xs ++ [x] := by
  intro h
  have hlength := congrArg List.length h
  simp at hlength

theorem charge_exportsMemory (s : VmStore) (cost : Nat) :
    (s.charge cost).exportsMemory = s.exportsMemory := rfl

theorem charge_readGuestString (s : VmStore) (cost ptr maxLen : Nat) :
    (s.charge cost).readGuestString ptr maxLen = s.readGuestString ptr maxLen := by
  unfold VmStore.readGuestString VmStore.charge
  rfl

theorem run_hostStealthSettle (ptr : Int32) (satoshis : UInt64) (s : VmStore) :
    ((GuestCode.host (.stealthSettle ptr satoshis) fun res ↦ .ret (res == 1)).run
        s).1.host.stealthSettlements =
      s.host.stealthSettlements ++
        if s.exportsMemory then [⟨s.readGuestString (VmStore.usize ptr) 128, satoshis⟩] else [] := by
  unfold GuestCode.run HostCall.perform
  dsimp only
  rw [charge_exportsMemory, charge_readGuestString]
  cases s.exportsMemory with
  | true => rfl
  | false => exact (List.append_nil _).symm

theorem run_hostMwebPegOut (ptr : Int32) (satoshis : UInt64) (s : VmStore) :
    ((GuestCode.host (.mwebPegOut ptr satoshis) fun res ↦ .ret (res == 1)).run
        s).1.host.mwebPegOuts =
      s.host.mwebPegOuts ++
        if s.exportsMemory then [⟨s.readGuestString (VmStore.usize ptr) 128, satoshis⟩] else [] := by
  unfold GuestCode.run HostCall.perform
  dsimp only
  rw [charge_exportsMemory, charge_readGuestString]
  cases s.exportsMemory with
  | true => rfl
  | false => exact (List.append_nil _).symm

/-- An event whose data can be read is recorded with its topic. -/
theorem run_hostEmitEvent {topicPtr dataPtr len : Int32} {s : VmStore} {event : EventLog}
    (hrecorded : ((GuestCode.host (.emitEvent topicPtr dataPtr len) fun _ ↦ .ret ()).run
      s).1.host.events = s.host.events ++ [event]) :
    event.topic = s.readGuestString (VmStore.usize topicPtr) 64 := by
  unfold GuestCode.run HostCall.perform at hrecorded
  dsimp only at hrecorded
  rw [charge_exportsMemory, charge_readGuestString] at hrecorded
  cases hmemory : s.exportsMemory with
  | false =>
    rw [hmemory] at hrecorded
    exact absurd hrecorded (ne_append_singleton _ _)
  | true =>
    rw [hmemory, if_pos rfl] at hrecorded
    cases hdata : (s.charge hostEmitEventCost).memoryRead (VmStore.usize dataPtr)
        len.toInt.toNat with
    | none =>
      rw [hdata] at hrecorded
      exact absurd hrecorded (ne_append_singleton _ _)
    | some data =>
      rw [hdata] at hrecorded
      have hsame := List.append_cancel_left hrecorded
      exact congrArg EventLog.topic (List.singleton_inj.mp hsame).symm

variable (hnul : 0 ∉ asBytes text)
  (hencode : U.encode text s.memory s.globals = some (addr, memory, globals))
include hnul hencode

/-- **A settlement** carries the contract's address when the host stops behind it. -/
theorem settlement_intact_iff (hle : (asBytes text).length ≤ 128) {satoshis : UInt64}
    {settlement : StealthSettlement}
    (hrecorded : ((stealthSettle U text satoshis).run s).1.host.stealthSettlements =
      s.host.stealthSettlements ++ [settlement]) :
    fromUtf8Lossy settlement.stealthAddress = text ↔ Terminated memory addr text 128 := by
  have htext := U.holds (U.encode_live hencode)
  have hsize := U.encode_size hencode
  unfold stealthSettle at hrecorded
  rw [run_withBuffer hencode] at hrecorded
  split at hrecorded
  · exact absurd hrecorded (ne_append_singleton _ _)
  · rw [run_hostStealthSettle, List.append_cancel_left_eq] at hrecorded
    split at hrecorded
    · obtain rfl := List.singleton_inj.mp hrecorded
      exact fromUtf8Lossy_readGuestString_iff htext hnul hle hsize
    · cases hrecorded

theorem pegOut_intact_iff (hle : (asBytes text).length ≤ 128) {satoshis : UInt64}
    {pegOut : StealthSettlement}
    (hrecorded : ((mwebPegOut U text satoshis).run s).1.host.mwebPegOuts =
      s.host.mwebPegOuts ++ [pegOut]) :
    fromUtf8Lossy pegOut.stealthAddress = text ↔ Terminated memory addr text 128 := by
  have htext := U.holds (U.encode_live hencode)
  have hsize := U.encode_size hencode
  unfold mwebPegOut at hrecorded
  rw [run_withBuffer hencode] at hrecorded
  split at hrecorded
  · exact absurd hrecorded (ne_append_singleton _ _)
  · rw [run_hostMwebPegOut, List.append_cancel_left_eq] at hrecorded
    split at hrecorded
    · obtain rfl := List.singleton_inj.mp hrecorded
      exact fromUtf8Lossy_readGuestString_iff htext hnul hle hsize
    · cases hrecorded

/-- The buffer of a topic is still there when the host reads it, behind the buffer of the data. -/
theorem topic_intact_iff (hle : (asBytes text).length ≤ 64) {data : String} {addr' : UInt32}
    {memory' : Bytes} {globals' : List UInt64} {event : EventLog}
    (hencode' : U.encode data memory globals = some (addr', memory', globals'))
    (hrecorded : ((emitEvent U text data).run s).1.host.events = s.host.events ++ [event]) :
    fromUtf8Lossy event.topic = text ↔ Terminated memory' addr text 64 := by
  have htext := U.holds (U.encode_keeps hencode' (U.encode_live hencode))
  have hsize := U.encode_size hencode'
  unfold emitEvent at hrecorded
  rw [run_withBuffer hencode] at hrecorded
  split at hrecorded
  · exact absurd hrecorded (ne_append_singleton _ _)
  · rw [run_withBuffer hencode'] at hrecorded
    split at hrecorded
    · exact absurd hrecorded (ne_append_singleton _ _)
    · rw [run_hostEmitEvent hrecorded]
      exact fromUtf8Lossy_readGuestString_iff htext hnul hle hsize

end Records

/-- **The host records a contract's texts intact** when it stops behind them, and only then. -/
theorem texts_intact_iff (U : Utf8Encode) (s : VmStore) (text : String) (addr : UInt32)
    (memory : Bytes) (globals : List UInt64) (hnul : 0 ∉ asBytes text)
    (hencode : U.encode text s.memory s.globals = some (addr, memory, globals)) :
    ((asBytes text).length ≤ 128 → ∀ satoshis settlement,
      ((stealthSettle U text satoshis).run s).1.host.stealthSettlements =
        s.host.stealthSettlements ++ [settlement] →
      (fromUtf8Lossy settlement.stealthAddress = text ↔ Terminated memory addr text 128)) ∧
    ((asBytes text).length ≤ 128 → ∀ satoshis pegOut,
      ((mwebPegOut U text satoshis).run s).1.host.mwebPegOuts =
        s.host.mwebPegOuts ++ [pegOut] →
      (fromUtf8Lossy pegOut.stealthAddress = text ↔ Terminated memory addr text 128)) ∧
    ((asBytes text).length ≤ 64 → ∀ data addr' memory' globals' event,
      U.encode data memory globals = some (addr', memory', globals') →
      ((emitEvent U text data).run s).1.host.events = s.host.events ++ [event] →
      (fromUtf8Lossy event.topic = text ↔ Terminated memory' addr text 64)) :=
  ⟨fun hle _ _ hrecorded ↦ settlement_intact_iff hnul hencode hle hrecorded,
    fun hle _ _ hrecorded ↦ pegOut_intact_iff hnul hencode hle hrecorded,
    fun hle _ _ _ _ _ hencode' hrecorded ↦
      topic_intact_iff hnul hencode hle hencode' hrecorded⟩

/-! ## 4. A bump allocator -/

/-- The guest's one global is the address of the free memory, which keeps what it held before. -/
def bumpEncode (text : String) (memory : Bytes) (globals : List UInt64) :
    Option (UInt32 × Bytes × List UInt64) :=
  match globals with
  | [top] =>
      let stop := top.toNat + (asBytes text).length
      if stop ≤ memory.length ∧ memory.length < 2 ^ 32 then
        some (.ofNat top.toNat, memory.take top.toNat ++ asBytes text ++ memory.drop stop,
          [.ofNat stop])
      else none
  | _ => none

section Bump

variable {text : String} {memory memory' bytes : Bytes} {globals globals' : List UInt64}
  {addr addr₀ : UInt32}

theorem bumpEncode_eq_some
    (h : bumpEncode text memory globals = some (addr, memory', globals')) :
    ∃ top stop, globals = [top] ∧ globals' = [stop] ∧ addr.toNat = top.toNat ∧
      stop.toNat = top.toNat + (asBytes text).length ∧ stop.toNat ≤ memory.length ∧
      memory.length < 2 ^ 32 ∧
      memory' = memory.take top.toNat ++ asBytes text ++ memory.drop stop.toNat := by
  unfold bumpEncode at h
  split at h
  · rename_i top
    dsimp only at h
    split at h
    · rename_i hfits
      cases h
      have haddr : (UInt32.ofNat top.toNat).toNat = top.toNat := by
        rw [UInt32.toNat_ofNat']
        omega
      have hstop : (UInt64.ofNat (top.toNat + (asBytes text).length)).toNat =
          top.toNat + (asBytes text).length := by
        rw [UInt64.toNat_ofNat']
        omega
      refine ⟨top, _, rfl, rfl, haddr, hstop, ?_, hfits.2, ?_⟩
      · rw [hstop]
        exact hfits.1
      · rw [hstop]
    · cases h
  · cases h

/-- Bytes below an address where two memories agree. -/
theorem prefix_drop_of_take_eq {top : Nat} (hsame : memory'.take top = memory.take top)
    (htop : addr₀.toNat + bytes.length ≤ top) (h : bytes <+: memory.drop addr₀.toNat) :
    bytes <+: memory'.drop addr₀.toNat := by
  have hsame' := congrArg (List.take (addr₀.toNat + bytes.length)) hsame
  rw [List.take_take, List.take_take, Nat.min_eq_left htop] at hsame'
  rw [List.prefix_iff_eq_take, List.take_drop] at h ⊢
  rw [hsame']
  exact h

end Bump

def demoEncode : Utf8Encode where
  cost := 1
  encode := bumpEncode
  Live memory globals addr bytes := bytes <+: memory.drop addr.toNat ∧
    ∃ top, globals = [top] ∧ addr.toNat + bytes.length ≤ top.toNat
  holds h := h.1
  encode_live {text memory globals addr memory' globals'} h := by
    obtain ⟨top, stop, -, hglobals, haddr, hstop, hle, -, rfl⟩ := bumpEncode_eq_some h
    refine ⟨?_, stop, hglobals, by omega⟩
    have hlength : (memory.take top.toNat).length = top.toNat := by
      rw [List.length_take]
      omega
    rw [haddr, List.append_assoc, List.drop_left' hlength]
    exact List.prefix_append _ _
  encode_keeps {text memory globals addr memory' globals' addr₀ bytes} h hlive := by
    obtain ⟨top, stop, rfl, hglobals, haddr, hstop, hle, -, rfl⟩ := bumpEncode_eq_some h
    obtain ⟨hbytes, top', htop, hbelow⟩ := hlive
    cases htop
    have hlength : (memory.take top.toNat).length = top.toNat := by
      rw [List.length_take]
      omega
    refine ⟨prefix_drop_of_take_eq ?_ hbelow hbytes, stop, hglobals, by omega⟩
    rw [List.append_assoc, List.take_left' hlength]
  encode_size {text memory globals addr memory' globals'} h := by
    obtain ⟨top, stop, -, -, haddr, hstop, hle, hsize, rfl⟩ := bumpEncode_eq_some h
    rw [List.length_append, List.length_append, List.length_take, List.length_drop]
    omega

/-- A guest whose free memory still holds the end of a longer text. -/
def demoGuest : VmStore where
  memory := asBytes "ltc1qxyz"
  exportsMemory := true
  globals := [0]
  fuel := 1000
  host := .new "caller" ⟨"txid", 0⟩ 1000

/-- A payout to `ltc1` is recorded for another address. -/
theorem settlement_reads_on :
    ((stealthSettle demoEncode "ltc1" 7).run demoGuest).1.host.stealthSettlements.map
      (fun settlement ↦ fromUtf8Lossy settlement.stealthAddress) = ["ltc1qxyz"] ∧
    "ltc1qxyz" ≠ "ltc1" := by
  decide

theorem texts_intact_iff_demo :
    fromUtf8Lossy (asBytes "ltc1qxyz") = "ltc1" ↔
      Terminated (asBytes "ltc1qxyz") 0 "ltc1" 128 :=
  (texts_intact_iff demoEncode demoGuest "ltc1" 0 (asBytes "ltc1qxyz") [4] (by decide)
    (by decide)).1 (by decide) 7 ⟨asBytes "ltc1qxyz", 7⟩ (by decide)

end HostContext

end UtxoVm
