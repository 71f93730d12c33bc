import Mathlib

/-!
# RustStd — the Rust string and byte functions that the models rest on

`str` slicing on character boundaries, `str::strip_prefix`, `u64::from_str_radix`, `to_be_bytes`
and the `hex` crate, as executable Lean functions.  Strings are Lean `String`s (UTF-8, as in Rust)
and byte slices are lists of `UInt8`.
-/

namespace RustStd

abbrev Bytes := List UInt8

/-- `str::as_bytes`. -/
def asBytes (s : String) : Bytes := s.toByteArray.data.toList

theorem asBytes_injective : Function.Injective asBytes := by
  intro s t h
  apply String.toByteArray_inj.mp
  apply ByteArray.ext
  exact Array.toList_inj.mp h

@[simp] theorem asBytes_inj {s t : String} : asBytes s = asBytes t ↔ s = t :=
  asBytes_injective.eq_iff

/-! ## 1. Slicing and prefixes -/

/-- The first `n` bytes of a character list, when byte `n` is a character boundary. -/
def takeBytes : List Char → Nat → Option (List Char)
  | _, 0 => some []
  | [], _ + 1 => none
  | c :: cs, n + 1 =>
      if c.utf8Size ≤ n + 1 then (takeBytes cs (n + 1 - c.utf8Size)).map (c :: ·) else none

theorem length_takeBytes {cs taken : List Char} {n : Nat} (h : takeBytes cs n = some taken) :
    taken.length ≤ n := by
  induction cs generalizing n taken with
  | nil =>
    cases n with
    | zero => simp_all [takeBytes]
    | succ n => cases h
  | cons c cs ih =>
    cases n with
    | zero => simp_all [takeBytes]
    | succ n =>
      rw [takeBytes] at h
      split at h
      · obtain ⟨rest, hrest, rfl⟩ := Option.map_eq_some_iff.mp h
        have hle := ih hrest
        have hpos := c.utf8Size_pos
        rw [List.length_cons]
        omega
      · cases h

/-- `s.get(..n)`: `none` where the index form `&s[..n]` panics. -/
def strGetTo (s : String) (n : Nat) : Option String := (takeBytes s.toList n).map String.ofList

/-- `s.strip_prefix(p)`. -/
def stripPrefix (s p : String) : Option String :=
  if p.toList <+: s.toList then some (String.ofList (s.toList.drop p.toList.length)) else none

theorem stripPrefix_eq_some {s p r : String} : stripPrefix s p = some r ↔ s = p ++ r := by
  unfold stripPrefix
  constructor
  · intro h
    split at h
    · rename_i hp
      obtain ⟨t, ht⟩ := hp
      have hr : String.ofList t = r := by
        rw [← ht] at h
        simpa using h
      apply String.toList_inj.mp
      rw [← ht, ← hr]
      simp
    · cases h
  · rintro rfl
    rw [if_pos (by simp)]
    simp

@[simp] theorem stripPrefix_append (p r : String) : stripPrefix (p ++ r) p = some r :=
  stripPrefix_eq_some.mpr rfl

/-- `s.starts_with(p)`. -/
def startsWith (s p : String) : Bool := (stripPrefix s p).isSome

theorem startsWith_iff {s p : String} : startsWith s p = true ↔ ∃ r, s = p ++ r := by
  simp [startsWith, Option.isSome_iff_exists, stripPrefix_eq_some]

theorem startsWith_iff_toList {s p : String} :
    startsWith s p = true ↔ ∃ r, s.toList = p.toList ++ r := by
  rw [startsWith_iff]
  constructor
  · rintro ⟨r, rfl⟩
    exact ⟨r.toList, by simp⟩
  · rintro ⟨r, hr⟩
    refine ⟨String.ofList r, String.toList_injective ?_⟩
    simpa using hr

/-- The last separator splits a list at one place only. -/
theorem append_cons_inj {α : Type} {a : α} {l l' d d' : List α} (hd : a ∉ d) (hd' : a ∉ d')
    (h : l ++ a :: d = l' ++ a :: d') : l = l' ∧ d = d' := by
  rcases List.append_eq_append_iff.mp h with ⟨m, hl, hm⟩ | ⟨m, hl, hm⟩
  · cases m with
    | nil => exact ⟨by simpa using hl.symm, (List.cons.inj hm).2⟩
    | cons x m =>
      rw [(List.cons.inj hm).2] at hd
      exact absurd (by simp) hd
  · cases m with
    | nil => exact ⟨by simpa using hl, (List.cons.inj hm).2.symm⟩
    | cons x m =>
      rw [(List.cons.inj hm).2] at hd'
      exact absurd (by simp) hd'

/-- The separator behind a name is found in the name itself, or right behind it. -/
theorem append_cons_prefix {α : Type} {a : α} {l l' d r : List α} (hd : a ∉ d)
    (h : l ++ a :: d = l' ++ a :: r) : l = l' ∨ ∃ m, l = l' ++ a :: m := by
  rcases List.append_eq_append_iff.mp h with ⟨m, hl, hm⟩ | ⟨m, hl, hm⟩
  · cases m with
    | nil => exact .inl (by simpa using hl.symm)
    | cons x m =>
      rw [(List.cons.inj hm).2] at hd
      exact absurd (by simp) hd
  · cases m with
    | nil => exact .inl (by simpa using hl)
    | cons x m =>
      rw [(List.cons.inj hm).1]
      exact .inr ⟨m, hl⟩

/-- `char::is_whitespace`: the Unicode property `White_Space`. -/
def isWhitespace (c : Char) : Bool :=
  let n := c.toNat
  (9 ≤ n && n ≤ 13) || n == 0x20 || n == 0x85 || n == 0xA0 || n == 0x1680 ||
    (0x2000 ≤ n && n ≤ 0x200A) || n == 0x2028 || n == 0x2029 || n == 0x202F || n == 0x205F ||
    n == 0x3000

/-- `s.trim()`. -/
def trim (s : String) : String :=
  String.ofList ((s.toList.dropWhile isWhitespace).reverse.dropWhile isWhitespace).reverse

def splitChars (sep : Char) : List Char → List (List Char)
  | [] => [[]]
  | c :: cs =>
      match splitChars sep cs with
      | [] => [[]]
      | part :: parts => if c = sep then [] :: part :: parts else (c :: part) :: parts

/-- `s.split(sep)`. -/
def splitOn (s : String) (sep : Char) : List String := (splitChars sep s.toList).map String.ofList

theorem splitChars_of_not_mem {sep : Char} {cs : List Char} (h : sep ∉ cs) :
    splitChars sep cs = [cs] := by
  induction cs with
  | nil => rfl
  | cons c cs ih =>
    rw [List.mem_cons, not_or] at h
    unfold splitChars
    rw [ih h.2]
    dsimp only
    rw [if_neg (Ne.symm h.1)]

/-- The text before the first separator is a part of its own. -/
theorem splitChars_append {sep : Char} {cs rest : List Char} (h : sep ∉ cs) :
    splitChars sep (cs ++ sep :: rest) = cs :: splitChars sep rest := by
  have hne : splitChars sep rest ≠ [] := by
    cases rest with
    | nil => exact List.cons_ne_nil _ _
    | cons c rest =>
      unfold splitChars
      split
      · exact List.cons_ne_nil _ _
      · split <;> exact List.cons_ne_nil _ _
  obtain ⟨part, parts, hparts⟩ := List.exists_cons_of_ne_nil hne
  induction cs with
  | nil =>
    show splitChars sep (sep :: rest) = _
    conv_lhs => unfold splitChars
    rw [hparts]
    dsimp only
    rw [if_pos rfl]
  | cons c cs ih =>
    rw [List.mem_cons, not_or] at h
    show splitChars sep (c :: (cs ++ sep :: rest)) = _
    conv_lhs => unfold splitChars
    rw [ih h.2]
    dsimp only
    rw [if_neg (Ne.symm h.1)]

/-! ## 2. Numbers -/

def decDigits : List Char → Nat → Option Nat
  | [], acc => some acc
  | c :: cs, acc =>
      if '0' ≤ c ∧ c ≤ '9' then decDigits cs (10 * acc + (c.toNat - '0'.toNat)) else none

/-- `s.parse::<u32>()`. -/
def parseU32 (s : String) : Option Nat :=
  let value :=
    match s.toList with
    | [] => none
    | ['+'] => none
    | '+' :: ds => decDigits ds 0
    | ds => decDigits ds 0
  value.filter (· < 2 ^ 32)

/-- `format!("{:020}", n)`. -/
def padded20 (n : Nat) : String :=
  let digits := Nat.toDigits 10 n
  String.ofList (List.replicate (20 - digits.length) '0' ++ digits)

theorem colon_not_mem_toDigits (n : Nat) : ':' ∉ Nat.toDigits 10 n := fun hc ↦
  absurd (Nat.isDigit_of_mem_toDigits (by decide) (by decide) hc) (by decide)

theorem colon_not_mem_padded20 (n : Nat) : ':' ∉ (padded20 n).toList := by
  intro hc
  unfold padded20 at hc
  rw [String.toList_ofList, List.mem_append] at hc
  rcases hc with hc | hc
  · exact absurd (List.eq_of_mem_replicate hc) (by decide)
  · exact colon_not_mem_toDigits n hc

def hexVal (c : Char) : Option Nat :=
  if '0' ≤ c ∧ c ≤ '9' then some (c.toNat - '0'.toNat)
  else if 'a' ≤ c ∧ c ≤ 'f' then some (c.toNat - 'a'.toNat + 10)
  else if 'A' ≤ c ∧ c ≤ 'F' then some (c.toNat - 'A'.toNat + 10)
  else none

def hexDigits : List Char → Nat → Option Nat
  | [], acc => some acc
  | c :: cs, acc => do
      let d ← hexVal c
      hexDigits cs (16 * acc + d)

theorem hexVal_lt {c : Char} {n : Nat} (h : hexVal c = some n) : n < 16 := by
  simp only [hexVal, Char.le_def, UInt32.le_iff_toNat_le] at h
  split at h
  · rename_i hdigit
    have hhigh : c.toNat ≤ 57 := hdigit.2
    cases h
    exact (show c.toNat - 48 < 16 by omega)
  split at h
  · rename_i hlower
    have hhigh : c.toNat ≤ 102 := hlower.2
    cases h
    exact (show c.toNat - 97 + 10 < 16 by omega)
  split at h
  · rename_i hupper
    have hhigh : c.toNat ≤ 70 := hupper.2
    cases h
    exact (show c.toNat - 65 + 10 < 16 by omega)
  · cases h

/-- The digits add at most their number of places to what was read before. -/
theorem hexDigits_lt {ds : List Char} {acc n : Nat} (h : hexDigits ds acc = some n) :
    n < 16 ^ ds.length * (acc + 1) := by
  induction ds generalizing acc with
  | nil =>
    cases h
    simp
  | cons c cs ih =>
    rw [hexDigits, Option.bind_eq_bind, Option.bind_eq_some_iff] at h
    obtain ⟨d, hd, hcs⟩ := h
    have hlt := hexVal_lt hd
    calc n < 16 ^ cs.length * (16 * acc + d + 1) := ih hcs
      _ ≤ 16 ^ cs.length * (16 * (acc + 1)) := Nat.mul_le_mul_left _ (by omega)
      _ = 16 ^ (c :: cs).length * (acc + 1) := by rw [List.length_cons, pow_succ, Nat.mul_assoc]

/-- `u64::from_str_radix(s, 16)` on at most sixteen digits (no overflow): one leading `+` is
allowed, an empty digit string is an error. -/
def fromStrRadix16 (s : String) : Option Nat :=
  match s.toList with
  | [] => none
  | ['+'] => none
  | '+' :: ds => hexDigits ds 0
  | ds => hexDigits ds 0

theorem fromStrRadix16_lt {s : String} {n : Nat} (h : fromStrRadix16 s = some n) :
    n < 16 ^ s.toList.length := by
  have hgrow (k : Nat) : 16 ^ k * (0 + 1) ≤ 16 ^ (k + 1) := by
    rw [pow_succ]
    omega
  unfold fromStrRadix16 at h
  split at h
  · cases h
  · cases h
  · rename_i ds _ hs
    rw [hs, List.length_cons]
    exact (hexDigits_lt h).trans_le (hgrow ds.length)
  · exact (hexDigits_lt h).trans_eq (Nat.mul_one _)

/-- The low `w` bytes of `n`, most significant first (`to_be_bytes` of a `w`-byte integer). -/
def beBytes : Nat → Nat → Bytes
  | 0, _ => []
  | w + 1, n => UInt8.ofNat (n / 256 ^ w) :: beBytes w n

@[simp] theorem beBytes_length (w n : Nat) : (beBytes w n).length = w := by
  induction w with
  | zero => rfl
  | succ w ih => simp [beBytes, ih]

/-- Fixed-width big-endian bytes determine the number modulo the width. -/
theorem beBytes_inj {w m n : Nat} (h : beBytes w m = beBytes w n) :
    m % 256 ^ w = n % 256 ^ w := by
  induction w with
  | zero => simp [Nat.mod_one]
  | succ w ih =>
    simp only [beBytes, List.cons.injEq] at h
    have hlow := ih h.2
    have hhigh : m / 256 ^ w % 256 = n / 256 ^ w % 256 := by
      have hbyte := congrArg UInt8.toNat h.1
      simpa using hbyte
    rw [Nat.pow_succ, Nat.mod_mul, Nat.mod_mul, hlow, hhigh]

/-! ## 3. The `hex` crate -/

def hexDecodeChars : List Char → Option Bytes
  | [] => some []
  | [_] => none
  | a :: b :: rest => do
      let x ← hexVal a
      let y ← hexVal b
      let bs ← hexDecodeChars rest
      pure (UInt8.ofNat (16 * x + y) :: bs)

/-- `hex::decode`. -/
def hexDecode (s : String) : Option Bytes := hexDecodeChars s.toList

def hexDigit (n : Nat) : Char :=
  if n < 10 then Char.ofNat ('0'.toNat + n) else Char.ofNat ('a'.toNat + (n - 10))

def hexEncodeChars (bs : Bytes) : List Char :=
  bs.flatMap fun b ↦ [hexDigit (b.toNat / 16), hexDigit (b.toNat % 16)]

/-- `hex::encode`. -/
def hexEncode (bs : Bytes) : String := String.ofList (hexEncodeChars bs)

private theorem hexVal_hexDigit (n : Nat) (h : n < 16) : hexVal (hexDigit n) = some n := by
  interval_cases n <;> decide

theorem hexDecode_hexEncode (bs : Bytes) : hexDecode (hexEncode bs) = some bs := by
  have hchars : hexDecodeChars (hexEncodeChars bs) = some bs := by
    induction bs with
    | nil => rfl
    | cons b bs ih =>
      have hb : b.toNat < 256 := b.toNat_lt
      have hval : 16 * (b.toNat / 16) + b.toNat % 16 = b.toNat := Nat.div_add_mod _ _
      simp only [hexEncodeChars, List.flatMap_cons, List.cons_append, List.nil_append,
        hexDecodeChars, hexVal_hexDigit _ (by omega : b.toNat / 16 < 16),
        hexVal_hexDigit _ (by omega : b.toNat % 16 < 16), Option.bind_eq_bind, Option.bind_some,
        hval, UInt8.ofNat_toNat]
      rw [← hexEncodeChars, ih]
      rfl
  simpa [hexDecode, hexEncode] using hchars

theorem hexEncode_injective : Function.Injective hexEncode := by
  intro a b h
  have hd := congrArg hexDecode h
  rw [hexDecode_hexEncode, hexDecode_hexEncode] at hd
  exact Option.some.inj hd

/-! ## 4. Sorting -/

private theorem not_both_orders {α : Type*} {a b : α} (hne : a ≠ b) {l : List α} (hl : l.Nodup)
    (hab : [a, b].Sublist l) (hba : [b, a].Sublist l) : False := by
  induction l with
  | nil => cases hab
  | cons c l ih =>
    rw [List.nodup_cons] at hl
    cases hab with
    | cons _ hab =>
      cases hba with
      | cons _ hba => exact ih hl.2 hab hba
      | cons_cons _ hba => exact hl.1 (hab.subset (by simp))
    | cons_cons _ hab =>
      cases hba with
      | cons _ hba => exact hl.1 (hba.subset (by simp))
      | cons_cons _ hba => exact hne rfl

/-- `sort_by` is stable: elements that compare equal stay in the order in which they stood. -/
theorem pairwise_mergeSort_stable {α : Type*} (le : α → α → Bool) {before : α → α → Prop}
    (htrans : ∀ a b c : α, le a b = true → le b c = true → le a c = true)
    (htotal : ∀ a b : α, (le a b || le b a) = true) (hirrefl : ∀ a, ¬ before a a) {l : List α}
    (hl : l.Pairwise before) :
    (l.mergeSort le).Pairwise fun a b ↦ le a b = true ∧ (le b a = true → before a b) := by
  have hnodup : (l.mergeSort le).Nodup := by
    rw [(List.mergeSort_perm l le).nodup_iff]
    refine hl.imp ?_
    rintro a _ hab rfl
    exact hirrefl a hab
  have hsorted := List.pairwise_mergeSort htrans htotal l
  rw [List.pairwise_iff_forall_sublist] at hl hsorted ⊢
  intro a b hab
  refine ⟨hsorted hab, fun hle ↦ ?_⟩
  by_contra hbefore
  -- ties in the wrong order: stability puts the pair the other way round as well
  have hmem : a ∈ l ∧ b ∈ l := by
    have hsub := hab.subset
    simp only [List.cons_subset, List.mem_mergeSort] at hsub
    exact ⟨hsub.1, hsub.2.1⟩
  have hne : a ≠ b := by
    rintro rfl
    have htwice := hnodup.sublist hab
    simp at htwice
  have hba : [b, a].Sublist l := by
    rcases List.mem_iff_append.mp hmem.1 with ⟨u, v, rfl⟩
    rcases List.mem_append.mp hmem.2 with hu | hv
    · exact (List.singleton_sublist.mpr hu).append (List.singleton_sublist.mpr List.mem_cons_self)
    · rcases List.mem_cons.mp hv with rfl | hv
      · exact absurd rfl hne
      · have hsub : [a, b].Sublist (u ++ a :: v) :=
          ((List.singleton_sublist.mpr hv).cons_cons a).trans (List.sublist_append_right _ _)
        exact absurd (hl hsub) hbefore
  have hstable : [b, a].Sublist (l.mergeSort le) :=
    List.pair_sublist_mergeSort htrans htotal hle hba
  exact not_both_orders hne hnodup hab hstable

/-- The result of `?` and what follows: both steps returned. -/
theorem bind_eq_ok {ε α β : Type} {step : Except ε α} {next : α → Except ε β} {b : β}
    (h : step >>= next = .ok b) : ∃ a, step = .ok a ∧ next a = .ok b := by
  cases step with
  | error e => cases h
  | ok a => exact ⟨a, rfl, h⟩

end RustStd
