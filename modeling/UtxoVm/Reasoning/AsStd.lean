import UtxoVm.Reasoning.RustStd

/-!
# AsStd — the AssemblyScript string functions that the contract models rest on

Strings are lists of UTF-16 code units.  `String.UTF8` writes surrogate pairs as one character and
lone surrogates on their own (its default mode), so that every string can be read back.
-/

namespace AsStd

open RustStd

abbrev Text := List UInt16

/-- A literal of ASCII characters. -/
def lit (s : String) : Text := s.toList.map fun c ↦ UInt16.ofNat c.toNat

/-! ## 1. UTF-8 -/

/-- A unit on its own: one to three bytes. -/
def encodeUnit (c : UInt16) : Bytes :=
  let n := c.toNat
  if n < 0x80 then [.ofNat n]
  else if n < 0x800 then [.ofNat (n / 64 + 0xC0), .ofNat (n % 64 + 0x80)]
  else [.ofNat (n / 4096 + 0xE0), .ofNat (n / 64 % 64 + 0x80), .ofNat (n % 64 + 0x80)]

def isLead (c : UInt16) : Prop := 0xD800 ≤ c.toNat ∧ c.toNat < 0xDC00

def isTrail (c : UInt16) : Prop := 0xDC00 ≤ c.toNat ∧ c.toNat < 0xE000

instance (c : UInt16) : Decidable (isLead c) := inferInstanceAs (Decidable (_ ∧ _))

instance (c : UInt16) : Decidable (isTrail c) := inferInstanceAs (Decidable (_ ∧ _))

/-- A surrogate pair: four bytes. -/
def encodePair (c d : UInt16) : Bytes :=
  let n := 0x10000 + (c.toNat - 0xD800) * 1024 + (d.toNat - 0xDC00)
  [.ofNat (n / 0x40000 + 0xF0), .ofNat (n / 4096 % 64 + 0x80), .ofNat (n / 64 % 64 + 0x80),
    .ofNat (n % 64 + 0x80)]

/-- `String.UTF8.encode(s)`. -/
def encode : Text → Bytes
  | [] => []
  | [c] => encodeUnit c
  | c :: d :: rest =>
      if isLead c ∧ isTrail d then encodePair c d ++ encode rest
      else encodeUnit c ++ encode (d :: rest)

/-- The units of a code point read from four bytes. -/
def decodePoint (n : Nat) : Text :=
  if n < 0x10000 then [.ofNat n]
  else [.ofNat ((n - 0x10000) / 1024 + 0xD800), .ofNat ((n - 0x10000) % 1024 + 0xDC00)]

/-- `String.UTF8.decodeUnsafe(ptr, len, true)`: a zero byte or a cut character ends the string. -/
def decode : Bytes → Text
  | [] => []
  | b₀ :: rest =>
      let u₀ := b₀.toNat
      if u₀ < 0x80 then
        if u₀ = 0 then [] else .ofNat u₀ :: decode rest
      else
        match rest with
        | [] => []
        | b₁ :: rest =>
            let u₁ := b₁.toNat % 64
            if u₀ / 32 = 6 then .ofNat (u₀ % 32 * 64 + u₁) :: decode rest
            else
              match rest with
              | [] => []
              | b₂ :: rest =>
                  let u₂ := b₂.toNat % 64
                  if u₀ / 16 = 14 then .ofNat (u₀ % 16 * 4096 + u₁ * 64 + u₂) :: decode rest
                  else
                    match rest with
                    | [] => []
                    | b₃ :: rest =>
                        decodePoint (u₀ % 8 * 0x40000 + u₁ * 4096 + u₂ * 64 + b₃.toNat % 64) ++
                          decode rest
termination_by structural bytes => bytes

/-- The string up to its first zero unit. -/
def untilNul (s : Text) : Text := s.takeWhile (· ≠ 0)

theorem toNat_ne_zero {c : UInt16} (hc : c ≠ 0) : c.toNat ≠ 0 := by
  intro h
  exact hc (UInt16.toNat_inj.mp h)

theorem ofNat_toNat_eq {c : UInt16} {n : Nat} (h : n = c.toNat) : UInt16.ofNat n = c := by
  rw [h, UInt16.ofNat_toNat]

/-- Reading back a unit that was written on its own. -/
theorem decode_encodeUnit {c : UInt16} (hc : c ≠ 0) (rest : Bytes) :
    decode (encodeUnit c ++ rest) = c :: decode rest := by
  have hpos := toNat_ne_zero hc
  have hlt : c.toNat < 0x10000 := c.toNat_lt
  unfold encodeUnit
  dsimp only
  split
  · rename_i h1
    rw [List.singleton_append, decode.eq_def]
    simp only [UInt8.toNat_ofNat']
    rw [if_pos (by omega), if_neg (by omega), ofNat_toNat_eq (c := c) (by omega)]
  split
  · rename_i h1 h2
    rw [List.cons_append, List.singleton_append, decode.eq_def]
    simp only [UInt8.toNat_ofNat']
    rw [if_neg (by omega), if_pos (by omega), ofNat_toNat_eq (c := c) (by omega)]
  · rename_i h1 h2
    rw [List.cons_append, List.cons_append, List.singleton_append, decode.eq_def]
    simp only [UInt8.toNat_ofNat']
    rw [if_neg (by omega), if_neg (by omega), if_pos (by omega), ofNat_toNat_eq (c := c) (by omega)]

theorem decode_encodePair {c d : UInt16} (hc : isLead c) (hd : isTrail d) (rest : Bytes) :
    decode (encodePair c d ++ rest) = c :: d :: decode rest := by
  obtain ⟨hc1, hc2⟩ := hc
  obtain ⟨hd1, hd2⟩ := hd
  unfold encodePair
  dsimp only
  simp only [List.cons_append, List.nil_append]
  rw [decode.eq_def]
  simp only [UInt8.toNat_ofNat']
  rw [if_neg (by omega), if_neg (by omega), if_neg (by omega)]
  unfold decodePoint
  rw [if_neg (by omega), ofNat_toNat_eq (c := c) (by omega), ofNat_toNat_eq (c := d) (by omega)]
  rfl

theorem decode_encodeUnit_zero (rest : Bytes) : decode (encodeUnit 0 ++ rest) = [] := by
  rw [show encodeUnit 0 = [0] from rfl, List.singleton_append, decode.eq_def]
  rfl

/-- **What is written is read back**, up to the first zero unit. -/
theorem decode_encode (s : Text) : decode (encode s) = untilNul s := by
  unfold untilNul
  induction s using encode.induct with
  | case1 => rfl
  | case2 c =>
    unfold encode
    rw [← List.append_nil (encodeUnit c), List.takeWhile_cons]
    by_cases hc : c = 0
    · rw [hc, decode_encodeUnit_zero]
      rfl
    · rw [decode_encodeUnit hc, if_pos (by simpa using hc)]
      rfl
  | case3 c d rest hpair ih =>
    have hc : c ≠ 0 := fun h ↦ absurd hpair.1.1 (by rw [h]; decide)
    have hd : d ≠ 0 := fun h ↦ absurd hpair.2.1 (by rw [h]; decide)
    unfold encode
    rw [if_pos hpair, decode_encodePair hpair.1 hpair.2, ih, List.takeWhile_cons,
      if_pos (by simpa using hc), List.takeWhile_cons, if_pos (by simpa using hd)]
  | case4 c d rest hpair ih =>
    unfold encode
    rw [if_neg hpair, List.takeWhile_cons]
    by_cases hc : c = 0
    · rw [hc, decode_encodeUnit_zero]
      rfl
    · rw [decode_encodeUnit hc, ih, if_pos (by simpa using hc)]

theorem untilNul_eq_self {s : Text} (hs : 0 ∉ s) : untilNul s = s := by
  unfold untilNul
  rw [List.takeWhile_eq_self_iff]
  intro c hc
  simpa using fun h : c = 0 ↦ hs (h ▸ hc)

/-- A string that has a zero unit is cut right before it. -/
theorem exists_untilNul {s : Text} (hs : 0 ∈ s) : ∃ rest, s = untilNul s ++ 0 :: rest := by
  induction s with
  | nil => exact absurd hs List.not_mem_nil
  | cons c s ih =>
    unfold untilNul at ih ⊢
    by_cases hc : c = 0
    · rw [hc]
      exact ⟨s, rfl⟩
    · have hmem : 0 ∈ s := (List.mem_cons.mp hs).resolve_left fun h ↦ hc h.symm
      obtain ⟨rest, hrest⟩ := ih hmem
      refine ⟨rest, ?_⟩
      rw [List.takeWhile_cons, if_pos (by simpa using hc), List.cons_append, ← hrest]

/-! ## 2. Numbers -/

/-- White space, as `parseInt` skips it. -/
def isSpace (c : UInt16) : Bool :=
  let n := c.toNat
  n == 0x20 || n == 0xA0 || (0x09 ≤ n && n ≤ 0x0D) || (0x2000 ≤ n && n ≤ 0x200A) || n == 0x1680 ||
    n == 0x2028 || n == 0x2029 || n == 0x202F || n == 0x205F || n == 0x3000 || n == 0xFEFF

def digitOf (radix : Nat) (c : UInt16) : Option Nat :=
  let n := c.toNat
  let digit :=
    if 0x30 ≤ n ∧ n ≤ 0x39 then some (n - 0x30)
    else if 0x41 ≤ n ∧ n ≤ 0x5A then some (n - 0x41 + 10)
    else if 0x61 ≤ n ∧ n ≤ 0x7A then some (n - 0x61 + 10)
    else none
  digit.filter (· < radix)

/-- The digits up to the first character that is none. -/
def digitsValue (radix : Nat) : Text → Nat → Nat
  | [], acc => acc
  | c :: rest, acc =>
      match digitOf radix c with
      | some digit => digitsValue radix rest (acc * radix + digit)
      | none => acc

/-- The radix, given (0: none) or told by a prefix of the literal, and what follows the prefix. -/
def radixOf (radix : Nat) (s : Text) : Nat × Text :=
  match s with
  | zero :: mark :: digit :: rest =>
      let digits := digit :: rest
      if zero = 0x30 ∧ (radix = 0 ∨ radix = 16) then
        match radix, mark.toNat ||| 0x20 with
        | 0, 0x62 => (2, digits)
        | 0, 0x6F => (8, digits)
        | _, 0x78 => (16, digits)
        | 0, _ => (10, s)
        | _, _ => (radix, s)
      else (if radix = 0 then 10 else radix, s)
  | _ => (if radix = 0 then 10 else radix, s)

/-- `parseInt(s, radix)` before it is wrapped to the integer type. -/
def parseInt (s : Text) (radix : Nat) : Int :=
  let unsigned (s : Text) : Int :=
    let (radix, digits) := radixOf radix s
    digitsValue radix digits 0
  match s.dropWhile isSpace with
  | [] => 0
  | c :: rest =>
      if c = 0x2D then -unsigned rest
      else if c = 0x2B then unsigned rest
      else unsigned (c :: rest)

/-- `I64.parseInt(s)`. -/
def parseI64 (s : Text) : Int64 := .ofInt (parseInt s 0)

/-- `String.fromCharCode(I32.parseInt(s, 16))`: the low 16 bits. -/
def charOfHex (s : Text) : UInt16 := .ofInt (parseInt s 16)

/-- `n.toString()` of an unsigned integer. -/
def decimal (n : Nat) : Text := (Nat.toDigits 10 n).map fun c ↦ UInt16.ofNat c.toNat

theorem decimal_ne_nil (n : Nat) : decimal n ≠ [] := by
  intro h
  exact Nat.toDigits_ne_nil (List.map_eq_nil_iff.mp h)

theorem decimal_digits (n : Nat) : ∀ c ∈ decimal n, 0x30 ≤ c.toNat ∧ c.toNat ≤ 0x39 := by
  intro c hc
  obtain ⟨digit, hdigit, rfl⟩ := List.mem_map.mp hc
  have h := Nat.isDigit_of_mem_toDigits (by decide) (by decide) hdigit
  rw [Char.isDigit_iff_toNat] at h
  rw [UInt16.toNat_ofNat']
  have : '0'.toNat = 0x30 := rfl
  have : '9'.toNat = 0x39 := rfl
  omega

/-! ## 3. Reading decimal numbers -/

/-- The number that decimal digits denote. -/
def digitsNat (s : Text) : Nat := s.foldl (fun n c ↦ n * 10 + (c.toNat - 0x30)) 0

theorem not_isSpace_digit {c : UInt16} (hc : 0x30 ≤ c.toNat ∧ c.toNat ≤ 0x39) :
    isSpace c = false := by
  obtain ⟨hlow, hhigh⟩ := hc
  unfold isSpace
  generalize c.toNat = n at hlow hhigh
  interval_cases n <;> rfl

section

variable {s : Text} (hs : ∀ c ∈ s, 0x30 ≤ c.toNat ∧ c.toNat ≤ 0x39)
include hs

theorem digitsValue_digits (acc : Nat) :
    digitsValue 10 s acc = s.foldl (fun n c ↦ n * 10 + (c.toNat - 0x30)) acc := by
  induction s generalizing acc with
  | nil => rfl
  | cons c s ih =>
    obtain ⟨hc, hrest⟩ := List.forall_mem_cons.mp hs
    have hdigit : digitOf 10 c = some (c.toNat - 0x30) := by
      unfold digitOf
      dsimp only
      rw [if_pos hc, Option.filter_some, if_pos (decide_eq_true (by omega))]
    unfold digitsValue
    rw [hdigit]
    exact ih hrest _

/-- Digits show no radix. -/
theorem radixOf_digits : radixOf 0 s = (10, s) := by
  unfold radixOf
  split
  · rename_i zero mark digit rest
    have hmark : 0x30 ≤ mark.toNat ∧ mark.toNat ≤ 0x39 := hs mark (by simp)
    dsimp only
    split
    · obtain ⟨hlow, hhigh⟩ := hmark
      generalize mark.toNat = m at hlow hhigh
      interval_cases m <;> rfl
    · rfl
  · rfl

theorem parseInt_minus : parseInt (0x2D :: s) 0 = -(digitsNat s : Int) := by
  have hspace : (0x2D :: s).dropWhile isSpace = 0x2D :: s := rfl
  unfold parseInt
  dsimp only
  rw [hspace]
  dsimp only
  rw [if_pos rfl, radixOf_digits hs]
  dsimp only
  rw [digitsValue_digits hs]
  rfl

theorem parseInt_digits : parseInt s 0 = (digitsNat s : Int) := by
  cases s with
  | nil => rfl
  | cons c s =>
    have hc : 0x30 ≤ c.toNat ∧ c.toNat ≤ 0x39 := hs c List.mem_cons_self
    have hspace : (c :: s).dropWhile isSpace = c :: s := by
      rw [List.dropWhile_cons, if_neg]
      rw [not_isSpace_digit hc]
      exact Bool.false_ne_true
    have hne (d : UInt16) (hd : d.toNat < 0x30) : c ≠ d := by
      rintro rfl
      omega
    unfold parseInt
    dsimp only
    rw [hspace]
    dsimp only
    rw [if_neg (hne _ (by decide)), if_neg (hne _ (by decide)), radixOf_digits hs]
    dsimp only
    rw [digitsValue_digits hs]
    rfl

end

theorem digitsNat_decimal (n : Nat) : digitsNat (decimal n) = n := by
  have hfold (cs : List Char) (hcs : ∀ c ∈ cs, c.isDigit = true) (acc : Nat) :
      (cs.map fun c ↦ UInt16.ofNat c.toNat).foldl (fun n c ↦ n * 10 + (c.toNat - 0x30)) acc =
        Nat.ofDigitChars 10 cs acc := by
    induction cs generalizing acc with
    | nil => exact Nat.ofDigitChars_nil.symm
    | cons c cs ih =>
      obtain ⟨hc, hrest⟩ := List.forall_mem_cons.mp hcs
      have hunit : (UInt16.ofNat c.toNat).toNat = c.toNat := by
        rw [Char.isDigit_iff_toNat] at hc
        rw [UInt16.toNat_ofNat']
        have hnine : '9'.toNat = 0x39 := rfl
        omega
      rw [List.map_cons, List.foldl_cons, ih hrest, Nat.ofDigitChars_cons, hunit, Nat.mul_comm]
      rfl
  unfold digitsNat decimal
  rw [hfold _ (fun c hc ↦ Nat.isDigit_of_mem_toDigits (by decide) (by decide) hc),
    Nat.ofDigitChars_ten_toDigits]

/-- **A `u64` that was written is read back**, though the reader is signed. -/
theorem parseI64_decimal (n : UInt64) : (parseI64 (decimal n.toNat)).toUInt64 = n := by
  unfold parseI64
  rw [parseInt_digits (decimal_digits n.toNat), digitsNat_decimal, Int64.ofInt_eq_ofNat,
    Int64.toUInt64_ofNat', UInt64.ofNat_toNat]

end AsStd
