import UtxoVm.Reasoning.RustStd

/-!
# ScriptNum — script numbers and relative timelocks

A number on the stack of a Bitcoin script is little-endian with a sign bit, so it is not the
unsigned bytes of an integer once the highest bit of these is set.  A small machine runs the scripts
that wait for `OP_CHECKSEQUENCEVERIFY` and then check a signature (BIP-112, BIP-342).
-/

namespace ScriptNum

open RustStd

/-! ## 1. Numbers -/

/-- The low `w` bytes of `n`, least significant first (`to_le_bytes`). -/
def leBytes : Nat → Nat → Bytes
  | 0, _ => []
  | w + 1, n => UInt8.ofNat n :: leBytes w (n / 256)

def leValue : Bytes → Nat
  | [] => 0
  | b :: bs => b.toNat + 256 * leValue bs

/-- `CScriptNum`: the highest bit of the last byte is the sign. -/
def value (bytes : Bytes) : Int :=
  match bytes.getLast? with
  | none => 0
  | some top =>
      if top.toNat < 0x80 then leValue bytes
      else -((leValue bytes - 0x80 * 256 ^ (bytes.length - 1) : Nat) : Int)

/-- The last byte is there for its value, or for the sign of the byte below it. -/
def minimal (bytes : Bytes) : Bool :=
  match bytes.reverse with
  | [] => true
  | [top] => top.toNat % 0x80 != 0
  | top :: below :: _ => top.toNat % 0x80 != 0 || decide (0x80 ≤ below.toNat)

@[simp] theorem leBytes_length (w n : Nat) : (leBytes w n).length = w := by
  induction w generalizing n with
  | zero => rfl
  | succ w ih => rw [leBytes, List.length_cons, ih]

theorem leValue_leBytes {w n : Nat} (hn : n < 256 ^ w) : leValue (leBytes w n) = n := by
  induction w generalizing n with
  | zero =>
    have hzero : n = 0 := by simpa using hn
    rw [hzero]
    rfl
  | succ w ih =>
    have hdiv : n / 256 < 256 ^ w := Nat.div_lt_of_lt_mul (by rwa [pow_succ'] at hn)
    rw [leBytes, leValue, ih hdiv, UInt8.toNat_ofNat']
    omega

theorem getLast?_leBytes (w n : Nat) :
    (leBytes (w + 1) n).getLast? = some (UInt8.ofNat (n / 256 ^ w)) := by
  induction w generalizing n with
  | zero => simp [leBytes]
  | succ w ih =>
    rw [leBytes, List.getLast?_cons, ih]
    simp [pow_succ', Nat.div_div_eq_div_mul]

theorem leValue_lt (bytes : Bytes) : leValue bytes < 256 ^ bytes.length := by
  induction bytes with
  | nil => simp [leValue]
  | cons b bytes ih =>
    have hb := b.toNat_lt
    rw [leValue, List.length_cons, pow_succ']
    omega

theorem leValue_append (a b : Bytes) :
    leValue (a ++ b) = leValue a + 256 ^ a.length * leValue b := by
  induction a with
  | nil => simp [leValue]
  | cons x a ih =>
    rw [List.cons_append, leValue, leValue, ih, List.length_cons, pow_succ']
    ring

/-- A number of at most four bytes fits in 31 bits and a sign. -/
theorem value_lt {bytes : Bytes} (hlength : bytes.length ≤ 4) : value bytes < 2 ^ 31 := by
  unfold value
  cases hlast : bytes.getLast? with
  | none => norm_num
  | some top =>
    dsimp only
    split
    · rename_i htop
      obtain ⟨init, rfl⟩ := List.getLast?_eq_some_iff.mp hlast
      have hinit := leValue_lt init
      have hshort : init.length ≤ 3 := by simpa [Nat.lt_succ_iff] using hlength
      have hpow : 256 ^ init.length ≤ 256 ^ 3 := Nat.pow_le_pow_right (by norm_num) hshort
      have hlt : leValue (init ++ [top]) < 2 ^ 31 := calc
        leValue (init ++ [top]) = leValue init + 256 ^ init.length * top.toNat := by
          rw [leValue_append, leValue, leValue, Nat.mul_zero, Nat.add_zero]
        _ < 256 ^ init.length * (top.toNat + 1) := by
          rw [Nat.mul_succ]
          omega
        _ ≤ 256 ^ 3 * 0x80 := Nat.mul_le_mul hpow htop
        _ = 2 ^ 31 := by norm_num
      exact_mod_cast hlt
    · have hpos : (0 : Int) < 2 ^ 31 := by norm_num
      omega

theorem minimal_of_top {bytes : Bytes} {top : UInt8} (hlast : bytes.getLast? = some top)
    (htop : top.toNat % 0x80 ≠ 0) : minimal bytes = true := by
  obtain ⟨init, rfl⟩ := List.getLast?_eq_some_iff.mp hlast
  unfold minimal
  rw [List.reverse_append, List.reverse_singleton, List.singleton_append]
  cases init.reverse with
  | nil => simpa using htop
  | cons below rest => simp [htop]

/-- Unsigned bytes without a superfluous one are read back, minimally encoded, exactly if their
highest bit is clear. -/
theorem value_leBytes_iff {w n : Nat} (hlow : 256 ^ w ≤ n) (hhigh : n < 256 ^ (w + 1)) :
    (value (leBytes (w + 1) n) = n ∧ minimal (leBytes (w + 1) n) = true) ↔ n < 0x80 * 256 ^ w := by
  have hpow : 0 < 256 ^ w := Nat.pow_pos (by norm_num)
  have htop : (UInt8.ofNat (n / 256 ^ w)).toNat = n / 256 ^ w := by
    have hlt : n / 256 ^ w < 256 := Nat.div_lt_of_lt_mul (by rwa [← pow_succ])
    rw [UInt8.toNat_ofNat', Nat.mod_eq_of_lt hlt]
  have hclear : n / 256 ^ w < 0x80 ↔ n < 0x80 * 256 ^ w := Nat.div_lt_iff_lt_mul hpow
  have hvalue : value (leBytes (w + 1) n) =
      if n / 256 ^ w < 0x80 then (n : Int) else -((n - 0x80 * 256 ^ w : Nat) : Int) := by
    unfold value
    rw [getLast?_leBytes, leValue_leBytes hhigh, leBytes_length, Nat.add_sub_cancel]
    dsimp only
    rw [htop]
  rw [hvalue, ← hclear]
  constructor
  · intro ⟨hread, _⟩
    by_contra hset
    rw [if_neg hset] at hread
    omega
  · intro hlt
    refine ⟨if_pos hlt, minimal_of_top (getLast?_leBytes w n) ?_⟩
    have hone : 1 ≤ n / 256 ^ w := (Nat.one_le_div_iff hpow).mpr hlow
    rw [htop, Nat.mod_eq_of_lt hlt]
    omega

/-! ## 2. Scripts with a timelock -/

inductive Op where
  | push (data : Bytes)
  | checkSequenceVerify
  | drop
  | checkSig
  deriving DecidableEq, Repr

def opOfByte (b : UInt8) : Option Op :=
  if b = 0xb2 then some .checkSequenceVerify
  else if b = 0x75 then some .drop
  else if b = 0xac then some .checkSig
  else none

/-- Decode a script; `some (left, got)` is a data push with `left + 1` bytes to come. -/
def scan : Bytes → Option (Nat × Bytes) → Option (List Op)
  | [], none => some []
  | [], some _ => none
  | b :: bs, none =>
      if b = 0 then (scan bs none).map (.push [] :: ·)
      else if b.toNat ≤ 75 then scan bs (some (b.toNat - 1, []))
      else if 0x51 ≤ b.toNat ∧ b.toNat ≤ 0x60 then
        (scan bs none).map (.push [UInt8.ofNat (b.toNat - 0x50)] :: ·)
      else (opOfByte b).bind fun op ↦ (scan bs none).map (op :: ·)
  | b :: bs, some (0, got) => (scan bs none).map (.push (got ++ [b]) :: ·)
  | b :: bs, some (n + 1, got) => scan bs (some (n, got ++ [b]))

def decode (script : Bytes) : Option (List Op) := scan script none

structure Host where
  /-- Numbers have to be minimally encoded. -/
  requireMinimal : Bool
  /-- The input has waited as long as the number says. -/
  checkSequence : Nat → Bool
  /-- Public key and signature. -/
  checkSig : Bytes → Bytes → Bool

inductive Failure where
  | badScript
  | stack
  | number
  | negativeLockTime
  | unsatisfiedLockTime
  | signature
  deriving DecidableEq, Repr

/-- Bit 31 of a lock time disables it. -/
def Host.waited (host : Host) (lockTime : Nat) : Bool :=
  lockTime.testBit 31 || host.checkSequence lockTime

/-- One opcode; the stack has its top first. -/
def step (host : Host) : Op → List Bytes → Except Failure (List Bytes)
  | .push data, stack => .ok (data :: stack)
  | .checkSequenceVerify, top :: stack =>
      if 5 < top.length ∨ host.requireMinimal = true ∧ minimal top = false then .error .number
      else if value top < 0 then .error .negativeLockTime
      else if host.waited (value top).toNat then .ok (top :: stack)
      else .error .unsatisfiedLockTime
  | .drop, _ :: stack => .ok stack
  | .checkSig, key :: sig :: stack =>
      if sig = [] then .ok ([] :: stack)
      else if host.checkSig key sig then .ok ([1] :: stack)
      else .error .signature
  | _, _ => .error .stack

def exec (host : Host) : List Op → List Bytes → Except Failure (List Bytes)
  | [], stack => .ok stack
  | op :: ops, stack => (step host op stack).bind (exec host ops)

def run (host : Host) (script : Bytes) (stack : List Bytes) : Except Failure (List Bytes) :=
  match decode script with
  | none => .error .badScript
  | some ops => exec host ops stack

/-- What a timelocked leaf is for: after the delay, a signature under the key is checked. -/
def spendAfter (host : Host) (delay : Nat) (key sig : Bytes) : Except Failure (List Bytes) :=
  if host.waited delay then step host .checkSig [key, sig] else .error .unsatisfiedLockTime

theorem scan_data (data rest got : Bytes) (n : Nat) (hn : data.length = n + 1) :
    scan (data ++ rest) (some (n, got)) = (scan rest none).map (.push (got ++ data) :: ·) := by
  induction data generalizing n got with
  | nil => simp at hn
  | cons b data ih =>
    cases n with
    | zero =>
      obtain rfl : data = [] := List.eq_nil_of_length_eq_zero (by simpa using hn)
      rfl
    | succ n =>
      rw [List.cons_append, scan, ih _ n (by simpa using hn)]
      simp

/-- A push of 1 to 75 bytes. -/
theorem scan_push (len : UInt8) (data rest : Bytes) (hlen : data.length = len.toNat)
    (hpos : 0 < len.toNat) (hmax : len.toNat ≤ 75) :
    scan (len :: (data ++ rest)) none = (scan rest none).map (.push data :: ·) := by
  have hne : len ≠ 0 := by
    rintro rfl
    simp at hpos
  rw [scan, if_neg hne, if_pos hmax, scan_data data rest [] _ (by omega)]
  simp

/-- `OP_1` to `OP_16`. -/
theorem scan_small {n : Nat} (hpos : 0 < n) (hmax : n ≤ 16) (rest : Bytes) :
    scan (UInt8.ofNat (0x50 + n) :: rest) none =
      (scan rest none).map (.push [UInt8.ofNat n] :: ·) := by
  have htoNat : (UInt8.ofNat (0x50 + n)).toNat = 0x50 + n := by
    rw [UInt8.toNat_ofNat', Nat.mod_eq_of_lt (by omega)]
  have hne : UInt8.ofNat (0x50 + n) ≠ 0 := by
    intro h
    have hzero := congrArg UInt8.toNat h
    rw [htoNat] at hzero
    simp at hzero
  rw [scan, if_neg hne, htoNat, if_neg (by omega), if_pos (by omega), Nat.add_sub_cancel_left]

/-- The opcodes of a leaf that waits for `lockTime`. -/
def timelockOps (lockTime key : Bytes) : List Op :=
  [.push lockTime, .checkSequenceVerify, .drop, .push key, .checkSig]

theorem exec_timelock (host : Host) (lockTime key sig : Bytes) :
    exec host (timelockOps lockTime key) [sig] =
      if 5 < lockTime.length ∨ host.requireMinimal = true ∧ minimal lockTime = false then
        .error .number
      else if value lockTime < 0 then .error .negativeLockTime
      else spendAfter host (value lockTime).toNat key sig := by
  have hcheck : exec host [.drop, .push key, .checkSig] [lockTime, sig] =
      step host .checkSig [key, sig] := by
    show (step host .checkSig [key, sig]).bind (exec host []) = _
    cases step host .checkSig [key, sig] <;> rfl
  show (step host .checkSequenceVerify [lockTime, sig]).bind
    (exec host [.drop, .push key, .checkSig]) = _
  rw [step]
  split
  · rfl
  split
  · rfl
  unfold spendAfter
  split
  · exact hcheck
  · rfl

/-- A leaf waits for a delay exactly if its lock time is the delay, minimally encoded. -/
theorem timelock_iff {lockTime : Bytes} (hlength : lockTime.length ≤ 4) (key : Bytes)
    (delay : Nat) :
    (∀ host sig, exec host (timelockOps lockTime key) [sig] = spendAfter host delay key sig) ↔
      value lockTime = delay ∧ minimal lockTime = true := by
  have hshort : ¬ 5 < lockTime.length := by omega
  constructor
  · intro h
    -- a host under which nothing but the delay has passed
    let strict : Host :=
      { requireMinimal := true, checkSequence := fun n ↦ n == delay, checkSig := fun _ _ ↦ true }
    have hstrict := h strict []
    have hspend : spendAfter strict delay key [] = .ok [[]] := by
      unfold spendAfter
      rw [if_pos (by simp [strict, Host.waited])]
      rfl
    rw [exec_timelock, hspend] at hstrict
    split at hstrict
    · cases hstrict
    rename_i hnumber
    have hminimal : minimal lockTime = true := by
      rw [not_or, not_and, Bool.not_eq_false] at hnumber
      exact hnumber.2 rfl
    split at hstrict
    · cases hstrict
    rename_i hnonneg
    refine ⟨?_, hminimal⟩
    unfold spendAfter at hstrict
    split at hstrict
    · rename_i hpassed
      have hlow : (value lockTime).toNat.testBit 31 = false := by
        have hlt := value_lt hlength
        exact Nat.testBit_eq_false_of_lt (by omega)
      have heq : (value lockTime).toNat = delay := by
        simpa [strict, Host.waited, hlow] using hpassed
      omega
    · cases hstrict
  · intro ⟨hvalue, hminimal⟩ host sig
    rw [exec_timelock, if_neg (by simp [hshort, hminimal]), if_neg (by omega), hvalue,
      Int.toNat_natCast]

end ScriptNum
