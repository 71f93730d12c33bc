import UtxoVm.Reasoning.RustStd

/-!
# Utf8 — decoding with replacement characters

`String::from_utf8_lossy` and `TextDecoder`: bytes that are no UTF-8 become `U+FFFD`, one for each
maximal prefix of a character.  What was encoded is decoded, whatever follows it, and an ASCII byte
is one character wherever it stands.
-/

namespace Utf8

open RustStd

/-- `U+FFFD`. -/
def replacement : Char := Char.ofNat 0xFFFD

/-- The ranges of the bytes that have to follow the first byte of a longer character. -/
def following (b : Nat) : List (Nat × Nat) :=
  if 0xC2 ≤ b ∧ b ≤ 0xDF then [(0x80, 0xBF)]
  else if 0xE0 ≤ b ∧ b ≤ 0xEF then
    [(if b = 0xE0 then 0xA0 else 0x80, if b = 0xED then 0x9F else 0xBF), (0x80, 0xBF)]
  else if 0xF0 ≤ b ∧ b ≤ 0xF4 then
    [(if b = 0xF0 then 0x90 else 0x80, if b = 0xF4 then 0x8F else 0xBF), (0x80, 0xBF), (0x80, 0xBF)]
  else []

/-- How many bytes are in their range. -/
def accepted : List (Nat × Nat) → Bytes → Nat
  | (low, high) :: ranges, b :: bs =>
      if low ≤ b.toNat ∧ b.toNat ≤ high then accepted ranges bs + 1 else 0
  | _, _ => 0

def codePoint (b : Nat) (bs : Bytes) : Nat :=
  bs.foldl (fun n c ↦ n * 64 + c.toNat % 64) (b % 2 ^ (6 - bs.length))

/-- The character that starts with `b`, and the number of bytes of `rest` that belong to it. -/
def next (b : UInt8) (rest : Bytes) : Char × Nat :=
  if b.toNat < 0x80 then (Char.ofNat b.toNat, 0)
  else
    let ranges := following b.toNat
    let n := accepted ranges rest
    if ranges ≠ [] ∧ n = ranges.length then (Char.ofNat (codePoint b.toNat (rest.take n)), n)
    else (replacement, n)

/-- The characters after the first `skip` bytes. -/
def charsFrom : Nat → Bytes → List Char
  | _, [] => []
  | skip + 1, _ :: rest => charsFrom skip rest
  | 0, b :: rest => (next b rest).1 :: charsFrom (next b rest).2 rest

/-- `String::from_utf8_lossy(bytes)`. -/
def fromUtf8Lossy (bytes : Bytes) : String := String.ofList (charsFrom 0 bytes)

/-! ## 1. Encoded characters -/

theorem charsFrom_drop (skip : Nat) (bytes : Bytes) :
    charsFrom skip bytes = charsFrom 0 (bytes.drop skip) := by
  induction bytes generalizing skip with
  | nil => simp [charsFrom]
  | cons b rest ih =>
    cases skip with
    | zero => rfl
    | succ skip => exact ih skip

theorem next_ascii {b : UInt8} (hb : b.toNat < 0x80) (rest : Bytes) :
    next b rest = (Char.ofNat b.toNat, 0) := by
  unfold next
  rw [if_pos hb]

theorem accepted_cons {low high : Nat} {b : UInt8} (h : low ≤ b.toNat ∧ b.toNat ≤ high)
    (ranges : List (Nat × Nat)) (bs : Bytes) :
    accepted ((low, high) :: ranges) (b :: bs) = accepted ranges bs + 1 := by
  rw [accepted, if_pos h]

/-- A first byte that is followed by all its bytes. -/
theorem next_complete {b : UInt8} (bs : Bytes) {rest : Bytes} {ranges : List (Nat × Nat)}
    (hb : ¬ b.toNat < 0x80) (hranges : following b.toNat = ranges) (hne : bs ≠ [])
    (haccepted : accepted ranges (bs ++ rest) = bs.length) (hlength : ranges.length = bs.length) :
    next b (bs ++ rest) = (Char.ofNat (codePoint b.toNat bs), bs.length) := by
  have hne' : ranges ≠ [] := by
    rw [← List.length_pos_iff, hlength]
    exact List.length_pos_iff.mpr hne
  unfold next
  dsimp only
  rw [if_neg hb, hranges, haccepted, if_pos ⟨hne', hlength.symm⟩, List.take_left]

theorem next_two {b b₁ : UInt8} (hb : 0xC2 ≤ b.toNat ∧ b.toNat ≤ 0xDF)
    (h₁ : 0x80 ≤ b₁.toNat ∧ b₁.toNat ≤ 0xBF) (rest : Bytes) :
    next b (b₁ :: rest) = (Char.ofNat (b.toNat % 32 * 64 + b₁.toNat % 64), 1) := by
  have hranges : following b.toNat = [(0x80, 0xBF)] := by
    unfold following
    rw [if_pos hb]
  refine next_complete [b₁] (by omega) hranges (List.cons_ne_nil _ _) ?_ rfl
  rw [List.singleton_append, accepted_cons h₁]
  simp [accepted]

theorem next_three {b b₁ b₂ : UInt8} (hb : 0xE0 ≤ b.toNat ∧ b.toNat ≤ 0xEF)
    (h₁ : 0x80 ≤ b₁.toNat ∧ b₁.toNat ≤ 0xBF) (hlow : b.toNat = 0xE0 → 0xA0 ≤ b₁.toNat)
    (hhigh : b.toNat = 0xED → b₁.toNat ≤ 0x9F) (h₂ : 0x80 ≤ b₂.toNat ∧ b₂.toNat ≤ 0xBF)
    (rest : Bytes) :
    next b (b₁ :: b₂ :: rest) =
      (Char.ofNat ((b.toNat % 16 * 64 + b₁.toNat % 64) * 64 + b₂.toNat % 64), 2) := by
  have hranges : following b.toNat =
      [(if b.toNat = 0xE0 then 0xA0 else 0x80, if b.toNat = 0xED then 0x9F else 0xBF),
        (0x80, 0xBF)] := by
    unfold following
    rw [if_neg (by omega), if_pos hb]
  refine next_complete [b₁, b₂] (by omega) hranges (List.cons_ne_nil _ _) ?_ rfl
  rw [List.cons_append, List.singleton_append, accepted_cons, accepted_cons h₂]
  · simp [accepted]
  · split <;> split <;> omega

theorem next_four {b b₁ b₂ b₃ : UInt8} (hb : 0xF0 ≤ b.toNat ∧ b.toNat ≤ 0xF4)
    (h₁ : 0x80 ≤ b₁.toNat ∧ b₁.toNat ≤ 0xBF) (hlow : b.toNat = 0xF0 → 0x90 ≤ b₁.toNat)
    (hhigh : b.toNat = 0xF4 → b₁.toNat ≤ 0x8F) (h₂ : 0x80 ≤ b₂.toNat ∧ b₂.toNat ≤ 0xBF)
    (h₃ : 0x80 ≤ b₃.toNat ∧ b₃.toNat ≤ 0xBF) (rest : Bytes) :
    next b (b₁ :: b₂ :: b₃ :: rest) =
      (Char.ofNat (((b.toNat % 8 * 64 + b₁.toNat % 64) * 64 + b₂.toNat % 64) * 64 +
        b₃.toNat % 64), 3) := by
  have hranges : following b.toNat =
      [(if b.toNat = 0xF0 then 0x90 else 0x80, if b.toNat = 0xF4 then 0x8F else 0xBF),
        (0x80, 0xBF), (0x80, 0xBF)] := by
    unfold following
    rw [if_neg (by omega), if_neg (by omega), if_pos hb]
  refine next_complete [b₁, b₂, b₃] (by omega) hranges (List.cons_ne_nil _ _) ?_ rfl
  rw [List.cons_append, List.cons_append, List.singleton_append, accepted_cons, accepted_cons h₂,
    accepted_cons h₃]
  · simp [accepted]
  · split <;> split <;> omega

theorem char_valid (c : Char) :
    c.val.toNat < 0xD800 ∨ 0xDFFF < c.val.toNat ∧ c.val.toNat < 0x110000 := c.valid

theorem char_ofNat_eq {c : Char} {n : Nat} (h : n = c.val.toNat) : Char.ofNat n = c := by
  rw [h]
  exact Char.ofNat_toNat c

/-- **An encoded character is read back**, with all its bytes. -/
theorem next_encoded (c : Char) (rest : Bytes) :
    ∃ b bs, String.utf8EncodeChar c = b :: bs ∧ next b (bs ++ rest) = (c, bs.length) := by
  have hvalid := char_valid c
  unfold String.utf8EncodeChar
  dsimp only
  -- one case for each number of bytes
  split
  · refine ⟨_, _, rfl, ?_⟩
    rw [next_ascii, char_ofNat_eq]
    · rfl
    all_goals
      simp only [UInt8.toNat_ofNat']
      omega
  split
  · refine ⟨_, _, rfl, ?_⟩
    rw [List.singleton_append, next_two, char_ofNat_eq]
    · rfl
    all_goals
      simp only [UInt8.toNat_ofNat']
      omega
  split
  · refine ⟨_, _, rfl, ?_⟩
    rw [List.cons_append, List.singleton_append, next_three, char_ofNat_eq]
    · rfl
    all_goals
      simp only [UInt8.toNat_ofNat']
      omega
  · refine ⟨_, _, rfl, ?_⟩
    rw [List.cons_append, List.cons_append, List.singleton_append, next_four, char_ofNat_eq]
    · rfl
    all_goals
      simp only [UInt8.toNat_ofNat']
      omega

theorem charsFrom_encoded (c : Char) (rest : Bytes) :
    charsFrom 0 (String.utf8EncodeChar c ++ rest) = c :: charsFrom 0 rest := by
  obtain ⟨b, bs, hencode, hnext⟩ := next_encoded c rest
  rw [hencode, List.cons_append, charsFrom, hnext, charsFrom_drop, List.drop_left]

theorem asBytes_ofList (cs : List Char) :
    asBytes (String.ofList cs) = cs.flatMap String.utf8EncodeChar := by
  unfold asBytes
  rw [String.toByteArray_ofList, List.utf8Encode, List.data_toByteArray]

/-- **What was encoded is decoded**, whatever follows it. -/
theorem charsFrom_asBytes (s : String) (rest : Bytes) :
    charsFrom 0 (asBytes s ++ rest) = s.toList ++ charsFrom 0 rest := by
  rw [← String.ofList_toList (s := s), asBytes_ofList, String.toList_ofList]
  induction s.toList with
  | nil => rfl
  | cons c cs ih =>
    rw [List.flatMap_cons, List.append_assoc, charsFrom_encoded, ih, List.cons_append]

theorem fromUtf8Lossy_append (s : String) (rest : Bytes) :
    fromUtf8Lossy (asBytes s ++ rest) = s ++ fromUtf8Lossy rest := by
  unfold fromUtf8Lossy
  rw [charsFrom_asBytes, String.ofList_append, String.ofList_toList]

@[simp] theorem fromUtf8Lossy_asBytes (s : String) : fromUtf8Lossy (asBytes s) = s := by
  have happend := fromUtf8Lossy_append s []
  rw [List.append_nil] at happend
  rw [happend]
  exact String.append_empty

/-- Every byte shows. -/
theorem fromUtf8Lossy_eq_empty {bytes : Bytes} : fromUtf8Lossy bytes = "" ↔ bytes = [] := by
  cases bytes with
  | nil => exact iff_of_true rfl rfl
  | cons b rest =>
    refine iff_of_false (fun h ↦ ?_) (List.cons_ne_nil b rest)
    have hchars := congrArg String.toList h
    unfold fromUtf8Lossy at hchars
    rw [String.toList_ofList, charsFrom] at hchars
    exact absurd hchars (List.cons_ne_nil _ _)

/-- Bytes that start with an encoded string are decoded to it when nothing follows. -/
theorem fromUtf8Lossy_append_eq_iff {s : String} {rest : Bytes} :
    fromUtf8Lossy (asBytes s ++ rest) = s ↔ rest = [] := by
  rw [fromUtf8Lossy_append, ← fromUtf8Lossy_eq_empty]
  constructor
  · intro h
    have hchars := congrArg String.toList h
    rw [String.toList_append, List.append_right_eq_self] at hchars
    exact String.toList_eq_nil_iff.mp hchars
  · intro h
    rw [h]
    exact String.append_empty

/-! ## 2. ASCII bytes -/

theorem accepted_le_length (ranges : List (Nat × Nat)) (bs : Bytes) :
    accepted ranges bs ≤ bs.length := by
  induction ranges generalizing bs with
  | nil => simp [accepted]
  | cons range ranges ih =>
    cases bs with
    | nil => simp [accepted]
    | cons b bs =>
      unfold accepted
      split
      · exact Nat.succ_le_succ (ih bs)
      · exact Nat.zero_le _

/-- The bytes that follow a first byte are not ASCII. -/
theorem le_of_mem_following {b : Nat} {range : Nat × Nat} (h : range ∈ following b) :
    0x80 ≤ range.1 := by
  unfold following at h
  split at h
  · simp only [List.mem_singleton] at h
    rw [h]
  split at h
  · simp only [List.mem_cons, List.not_mem_nil, or_false] at h
    rcases h with h | h <;> rw [h]
    dsimp only
    split <;> omega
  split at h
  · simp only [List.mem_cons, List.not_mem_nil, or_false] at h
    rcases h with h | h | h <;> rw [h]
    dsimp only
    split <;> omega
  · exact absurd h List.not_mem_nil

/-- An ASCII byte ends a character, like the end of the input. -/
theorem accepted_append_ascii {ranges : List (Nat × Nat)}
    (hranges : ∀ range ∈ ranges, 0x80 ≤ range.1) (bs : Bytes) {a : UInt8} (ha : a.toNat < 0x80)
    (rest : Bytes) :
    accepted ranges (bs ++ a :: rest) = accepted ranges bs := by
  induction ranges generalizing bs with
  | nil => simp [accepted]
  | cons range ranges ih =>
    have hlow := hranges range (List.mem_cons_self ..)
    have hrest := ih fun r hr ↦ hranges r (List.mem_cons_of_mem _ hr)
    cases bs with
    | nil =>
      rw [List.nil_append, accepted, if_neg (by omega)]
      simp [accepted]
    | cons b bs =>
      rw [List.cons_append, accepted, accepted, hrest bs]

theorem next_append_ascii (b : UInt8) (bs : Bytes) {a : UInt8} (ha : a.toNat < 0x80)
    (rest : Bytes) : next b (bs ++ a :: rest) = next b bs := by
  have haccepted := accepted_append_ascii (fun _ ↦ le_of_mem_following (b := b.toNat)) bs ha rest
  unfold next
  dsimp only
  rw [haccepted, List.take_append_of_le_length (accepted_le_length _ _)]

theorem next_le_length (b : UInt8) (bs : Bytes) : (next b bs).2 ≤ bs.length := by
  have haccepted := accepted_le_length (following b.toNat) bs
  unfold next
  dsimp only
  split
  · exact Nat.zero_le _
  split <;> exact haccepted

theorem charsFrom_ascii {a : UInt8} (ha : a.toNat < 0x80) (rest : Bytes) :
    charsFrom 0 (a :: rest) = Char.ofNat a.toNat :: charsFrom 0 rest := by
  rw [charsFrom, next_ascii ha]

/-- **An ASCII byte is a character of its own**: the text is split where the bytes are. -/
theorem charsFrom_append_ascii {skip : Nat} {bs : Bytes} (hskip : skip ≤ bs.length) {a : UInt8}
    (ha : a.toNat < 0x80) (rest : Bytes) :
    charsFrom skip (bs ++ a :: rest) =
      charsFrom skip bs ++ Char.ofNat a.toNat :: charsFrom 0 rest := by
  induction bs generalizing skip with
  | nil =>
    cases Nat.le_zero.mp hskip
    exact charsFrom_ascii ha rest
  | cons b bs ih =>
    cases skip with
    | succ skip => exact ih (Nat.le_of_succ_le_succ hskip)
    | zero =>
      rw [List.cons_append, charsFrom, charsFrom, next_append_ascii b bs ha,
        ih (next_le_length b bs), List.cons_append]

theorem accepted_eq_succ {range : Nat × Nat} {ranges : List (Nat × Nat)} {bs : Bytes} {n : Nat}
    (h : accepted (range :: ranges) bs = n + 1) :
    ∃ b rest, bs = b :: rest ∧ range.1 ≤ b.toNat ∧ b.toNat ≤ range.2 ∧
      accepted ranges rest = n := by
  cases bs with
  | nil =>
    unfold accepted at h
    cases h
  | cons b rest =>
    unfold accepted at h
    split at h
    · rename_i hrange
      exact ⟨b, rest, rfl, hrange.1, hrange.2, Nat.succ.inj h⟩
    · cases h

theorem le_toNat_ofNat {n : Nat} (hlow : 0x80 ≤ n) (hvalid : n.isValidChar) :
    0x80 ≤ (Char.ofNat n).toNat := by
  rw [Char.toNat_ofNat, if_pos hvalid]
  exact hlow

/-- Other bytes are part of characters that are not ASCII. -/
theorem le_next {b : UInt8} (hb : ¬ b.toNat < 0x80) (rest : Bytes) :
    0x80 ≤ (next b rest).1.toNat := by
  by_cases hcomplete : following b.toNat ≠ [] ∧
      accepted (following b.toNat) rest = (following b.toNat).length
  · obtain ⟨hne, hlength⟩ := hcomplete
    unfold following at hne hlength
    split at hne
    · rename_i htwo
      rw [if_pos htwo] at hlength
      obtain ⟨b₁, rest, rfl, hlow, hhigh, -⟩ := accepted_eq_succ hlength
      rw [next_two htwo ⟨hlow, hhigh⟩]
      exact le_toNat_ofNat (by omega) (Or.inl (by omega))
    rename_i htwo
    rw [if_neg htwo] at hlength
    split at hne
    · rename_i hthree
      rw [if_pos hthree] at hlength
      obtain ⟨b₁, rest, rfl, hlow, hhigh, hlength⟩ := accepted_eq_succ hlength
      obtain ⟨b₂, rest, rfl, hlow₂, hhigh₂, -⟩ := accepted_eq_succ hlength
      dsimp only at hlow hhigh
      have hrange : 0x80 ≤ b₁.toNat ∧ b₁.toNat ≤ 0xBF := by
        constructor
        · split at hlow <;> omega
        · split at hhigh <;> omega
      have hfirst (h : b.toNat = 0xE0) : 0xA0 ≤ b₁.toNat := by rwa [if_pos h] at hlow
      have hlast (h : b.toNat = 0xED) : b₁.toNat ≤ 0x9F := by rwa [if_pos h] at hhigh
      rw [next_three hthree hrange hfirst hlast ⟨hlow₂, hhigh₂⟩]
      apply le_toNat_ofNat
      · omega
      · unfold Nat.isValidChar
        omega
    rename_i hthree
    rw [if_neg hthree] at hlength
    split at hne
    · rename_i hfour
      rw [if_pos hfour] at hlength
      obtain ⟨b₁, rest, rfl, hlow, hhigh, hlength⟩ := accepted_eq_succ hlength
      obtain ⟨b₂, rest, rfl, hlow₂, hhigh₂, hlength⟩ := accepted_eq_succ hlength
      obtain ⟨b₃, rest, rfl, hlow₃, hhigh₃, -⟩ := accepted_eq_succ hlength
      dsimp only at hlow hhigh
      have hrange : 0x80 ≤ b₁.toNat ∧ b₁.toNat ≤ 0xBF := by
        constructor
        · split at hlow <;> omega
        · split at hhigh <;> omega
      have hfirst (h : b.toNat = 0xF0) : 0x90 ≤ b₁.toNat := by rwa [if_pos h] at hlow
      have hlast (h : b.toNat = 0xF4) : b₁.toNat ≤ 0x8F := by rwa [if_pos h] at hhigh
      rw [next_four hfour hrange hfirst hlast ⟨hlow₂, hhigh₂⟩ ⟨hlow₃, hhigh₃⟩]
      apply le_toNat_ofNat
      · omega
      · unfold Nat.isValidChar
        omega
    · exact absurd rfl hne
  · unfold next
    dsimp only
    rw [if_neg hb, if_neg hcomplete]
    show 0x80 ≤ replacement.toNat
    decide

/-- **Where the text has an ASCII character the input has its byte.** -/
theorem charsFrom_eq_append_ascii {skip : Nat} {bs : Bytes} {before after : List Char} {c : Char}
    (hc : c.toNat < 0x80) (h : charsFrom skip bs = before ++ c :: after) :
    ∃ xs ys, bs = xs ++ UInt8.ofNat c.toNat :: ys ∧ charsFrom skip xs = before ∧
      charsFrom 0 ys = after := by
  induction bs generalizing skip before with
  | nil =>
    rw [charsFrom] at h
    exact absurd h.symm (List.append_ne_nil_of_right_ne_nil _ (List.cons_ne_nil _ _))
  | cons b bs ih =>
    cases skip with
    | succ skip =>
      obtain ⟨xs, ys, rfl, hbefore, hafter⟩ := ih h
      exact ⟨b :: xs, ys, rfl, hbefore, hafter⟩
    | zero =>
      rw [charsFrom] at h
      cases before with
      | nil =>
        rw [List.nil_append, List.cons.injEq] at h
        have hb : b.toNat < 0x80 := by
          by_contra hb
          have hle := le_next hb bs
          rw [h.1] at hle
          omega
        rw [next_ascii hb] at h
        obtain ⟨rfl, hafter⟩ := h
        refine ⟨[], bs, ?_, rfl, hafter⟩
        rw [Char.toNat_ofNat, if_pos (Or.inl (by omega)), UInt8.ofNat_toNat]
        rfl
      | cons d before =>
        rw [List.cons_append, List.cons.injEq] at h
        obtain ⟨hd, hrest⟩ := h
        obtain ⟨xs, ys, rfl, hbefore, hafter⟩ := ih hrest
        refine ⟨b :: xs, ys, rfl, ?_, hafter⟩
        have ha : (UInt8.ofNat c.toNat).toNat < 0x80 := by
          rw [UInt8.toNat_ofNat']
          omega
        rw [next_append_ascii b xs ha] at hd hbefore
        rw [charsFrom, hd, hbefore]

/-! ## 3. Text in UTF-16 -/

def utf16Units (c : Char) : List UInt16 :=
  if c.toNat < 0x10000 then [.ofNat c.toNat]
  else
    [.ofNat ((c.toNat - 0x10000) / 0x400 + 0xD800), .ofNat ((c.toNat - 0x10000) % 0x400 + 0xDC00)]

def toUtf16 (cs : List Char) : List UInt16 := cs.flatMap utf16Units

/-- The byte order mark at the start is no part of the text. -/
def stripBom : Bytes → Bytes
  | 0xEF :: 0xBB :: 0xBF :: bytes => bytes
  | bytes => bytes

/-- `new TextDecoder().decode(bytes)`. -/
def textDecode (bytes : Bytes) : List UInt16 := toUtf16 (charsFrom 0 (stripBom bytes))

/-- `text.indexOf(pattern)`; `none` is `-1`. -/
def indexOf {α : Type} [DecidableEq α] (pattern : List α) : List α → Option Nat
  | [] => if pattern = [] then some 0 else none
  | c :: text =>
      if pattern <+: c :: text then some 0 else (indexOf pattern text).map (· + 1)

/-- `text.includes(pattern)`. -/
def includes {α : Type} [DecidableEq α] (pattern text : List α) : Bool :=
  (indexOf pattern text).isSome

section

variable {α β γ : Type}

theorem includes_iff [DecidableEq α] {pattern text : List α} :
    includes pattern text = true ↔ pattern <:+: text := by
  unfold includes
  induction text with
  | nil =>
    unfold indexOf
    rw [List.infix_nil]
    split
    · rename_i h
      exact iff_of_true rfl h
    · rename_i h
      exact iff_of_false Bool.false_ne_true h
  | cons c text ih =>
    unfold indexOf
    rw [List.infix_cons_iff]
    split
    · rename_i h
      exact iff_of_true rfl (.inl h)
    · rename_i h
      rw [Option.isSome_map, ih, or_iff_right h]

theorem indexOf_append_self [DecidableEq α] (pattern rest : List α) :
    indexOf pattern (pattern ++ rest) = some 0 := by
  cases h : pattern ++ rest with
  | nil =>
    unfold indexOf
    rw [if_pos (List.append_eq_nil_iff.mp h).1]
  | cons c text =>
    unfold indexOf
    rw [if_pos (h ▸ List.prefix_append pattern rest)]

/-- Elements that differ from the first of the pattern are passed over. -/
theorem indexOf_skip [DecidableEq α] {p : α} {pattern before : List α} (hbefore : p ∉ before)
    (text : List α) :
    indexOf (p :: pattern) (before ++ text) =
      (indexOf (p :: pattern) text).map (· + before.length) := by
  induction before with
  | nil =>
    rw [List.nil_append]
    cases indexOf (p :: pattern) text <;> rfl
  | cons c before ih =>
    rw [List.mem_cons, not_or] at hbefore
    rw [List.cons_append, indexOf, if_neg, ih hbefore.2, Option.map_map]
    · cases indexOf (p :: pattern) text <;> rfl
    · rw [List.cons_prefix_cons]
      exact fun h ↦ hbefore.1 h.1

/-! ## 4. Decoders that are transparent for some elements -/

/-- Every `b` with `P b` in the output stands for one `g b` in the input, and splits it. -/
structure Transparent (f : List α → List β) (g : β → α) (P : β → Prop) : Prop where
  nil {xs : List α} : f xs = [] ↔ xs = []
  join {b : β} (hb : P b) (xs ys : List α) : f (xs ++ g b :: ys) = f xs ++ b :: f ys
  split {b : β} (hb : P b) {xs : List α} {before after : List β}
    (h : f xs = before ++ b :: after) :
    ∃ ys zs, xs = ys ++ g b :: zs ∧ f ys = before ∧ f zs = after

section

variable {f : List α → List β} {g : β → α} {P : β → Prop}

theorem Transparent.map_append (hf : Transparent f g P) {bs : List β} (hbs : ∀ b ∈ bs, P b)
    (ys : List α) : f (bs.map g ++ ys) = bs ++ f ys := by
  induction bs with
  | nil => rfl
  | cons b bs ih =>
    have hjoin := hf.join (hbs b (List.mem_cons_self ..)) [] (bs.map g ++ ys)
    rw [hf.nil.mpr rfl, ih fun c hc ↦ hbs c (List.mem_cons_of_mem _ hc)] at hjoin
    exact hjoin

theorem Transparent.eq_append (hf : Transparent f g P) {bs after : List β} (hbs : ∀ b ∈ bs, P b)
    {xs : List α} (h : f xs = bs ++ after) : ∃ zs, xs = bs.map g ++ zs := by
  induction bs generalizing xs with
  | nil => exact ⟨xs, rfl⟩
  | cons b bs ih =>
    have hsplit : f xs = [] ++ b :: (bs ++ after) := h
    obtain ⟨ys, zs, rfl, hbefore, hafter⟩ := hf.split (hbs b (List.mem_cons_self ..)) hsplit
    cases hf.nil.mp hbefore
    obtain ⟨ws, rfl⟩ := ih (fun c hc ↦ hbs c (List.mem_cons_of_mem _ hc)) hafter
    exact ⟨ws, rfl⟩

/-- **Patterns of such elements** occur in the output where they occur in the input. -/
theorem Transparent.infix_iff (hf : Transparent f g P) {bs : List β} (hbs : ∀ b ∈ bs, P b)
    {xs : List α} : bs <:+: f xs ↔ bs.map g <:+: xs := by
  cases bs with
  | nil => exact iff_of_true (List.nil_infix) (List.nil_infix)
  | cons b bs =>
    have hb := hbs b (List.mem_cons_self ..)
    have hrest : ∀ c ∈ bs, P c := fun c hc ↦ hbs c (List.mem_cons_of_mem _ hc)
    constructor
    · rintro ⟨before, after, h⟩
      rw [List.append_assoc] at h
      obtain ⟨ys, zs, rfl, -, hafter⟩ := hf.split hb h.symm
      obtain ⟨ws, rfl⟩ := hf.eq_append hrest hafter
      exact ⟨ys, ws, by rw [List.append_assoc]; rfl⟩
    · rintro ⟨ys, ws, rfl⟩
      refine ⟨f ys, f ws, ?_⟩
      rw [List.append_assoc, List.append_assoc]
      exact ((hf.join hb ys (bs.map g ++ ws)).trans (by rw [hf.map_append hrest]; rfl)).symm

theorem Transparent.comp (hf : Transparent f g P) {f' : List β → List γ} {g' : γ → β}
    {Q : γ → Prop} (hf' : Transparent f' g' Q) (hP : ∀ c, Q c → P (g' c)) :
    Transparent (f' ∘ f) (g ∘ g') Q where
  nil := hf'.nil.trans hf.nil
  join hc xs ys := by
    show f' (f (xs ++ g (g' _) :: ys)) = _
    rw [hf.join (hP _ hc), hf'.join hc]
    rfl
  split {c} hc {xs before after} h := by
    obtain ⟨ys, zs, hsplit, hbefore, hafter⟩ := hf'.split hc h
    obtain ⟨ys', zs', rfl, hys, hzs⟩ := hf.split (hP _ hc) hsplit
    exact ⟨ys', zs', rfl, (congrArg f' hys).trans hbefore, (congrArg f' hzs).trans hafter⟩

end

/-- UTF-8 is transparent for ASCII bytes. -/
theorem charsFrom_transparent :
    Transparent (charsFrom 0) (fun c ↦ UInt8.ofNat c.toNat) fun c ↦ c.toNat < 0x80 where
  nil {xs} := by
    cases xs with
    | nil => exact iff_of_true rfl rfl
    | cons b xs =>
      rw [charsFrom]
      exact iff_of_false (List.cons_ne_nil _ _) (List.cons_ne_nil _ _)
  join {c} hc xs ys := by
    have htoNat : (UInt8.ofNat c.toNat).toNat = c.toNat := by
      rw [UInt8.toNat_ofNat']
      omega
    rw [charsFrom_append_ascii (Nat.zero_le _) (by omega), htoNat, Char.ofNat_toNat]
  split {c} hc {xs before after} h := charsFrom_eq_append_ascii hc h

theorem toNat_ofNat_ascii {n : Nat} (hn : n < 0x80) : (Char.ofNat n).toNat = n := by
  rw [Char.toNat_ofNat, if_pos (Or.inl (by omega))]

theorem utf16Units_ascii {u : UInt16} (hu : u.toNat < 0x80) :
    utf16Units (Char.ofNat u.toNat) = [u] := by
  unfold utf16Units
  rw [toNat_ofNat_ascii hu, if_pos (by omega), UInt16.ofNat_toNat]

/-- A character is one unit, which is its code point, or two surrogates. -/
theorem utf16Units_cases (c : Char) :
    (∃ u, utf16Units c = [u] ∧ u.toNat = c.toNat) ∨
      ∃ u v, utf16Units c = [u, v] ∧ 0x80 ≤ u.toNat ∧ 0x80 ≤ v.toNat := by
  have hvalid := char_valid c
  change c.toNat < 0xD800 ∨ 0xDFFF < c.toNat ∧ c.toNat < 0x110000 at hvalid
  unfold utf16Units
  split
  · refine .inl ⟨_, rfl, ?_⟩
    rw [UInt16.toNat_ofNat']
    omega
  · refine .inr ⟨_, _, rfl, ?_, ?_⟩
    · rw [UInt16.toNat_ofNat']
      omega
    · rw [UInt16.toNat_ofNat']
      omega

theorem toUtf16_split {u : UInt16} (hu : u.toNat < 0x80) {xs : List Char}
    {before after : List UInt16} (h : toUtf16 xs = before ++ u :: after) :
    ∃ ys zs, xs = ys ++ Char.ofNat u.toNat :: zs ∧ toUtf16 ys = before ∧ toUtf16 zs = after := by
  induction xs generalizing before with
  | nil => exact absurd h.symm (List.append_ne_nil_of_right_ne_nil _ (List.cons_ne_nil _ _))
  | cons c cs ih =>
    have hcons : toUtf16 (c :: cs) = utf16Units c ++ toUtf16 cs := rfl
    rw [hcons] at h
    rcases utf16Units_cases c with ⟨v, hv, htoNat⟩ | ⟨v, w, hvw, hv, hw⟩
    · rw [hv, List.singleton_append] at h
      cases before with
      | nil =>
        rw [List.nil_append, List.cons.injEq] at h
        refine ⟨[], cs, ?_, rfl, h.2⟩
        rw [← h.1, htoNat, Char.ofNat_toNat]
        rfl
      | cons d before =>
        rw [List.cons_append, List.cons.injEq] at h
        obtain ⟨ys, zs, rfl, hys, hzs⟩ := ih h.2
        refine ⟨c :: ys, zs, rfl, ?_, hzs⟩
        show utf16Units c ++ toUtf16 ys = _
        rw [hv, hys, h.1]
        rfl
    · -- the surrogates are not ASCII, so both lie before the split
      rw [hvw, List.cons_append, List.singleton_append] at h
      cases before with
      | nil =>
        rw [List.nil_append, List.cons.injEq] at h
        rw [h.1] at hv
        omega
      | cons d before =>
        rw [List.cons_append, List.cons.injEq] at h
        obtain ⟨hd, h⟩ := h
        cases before with
        | nil =>
          rw [List.nil_append, List.cons.injEq] at h
          rw [h.1] at hw
          omega
        | cons e before =>
          rw [List.cons_append, List.cons.injEq] at h
          obtain ⟨ys, zs, rfl, hys, hzs⟩ := ih h.2
          refine ⟨c :: ys, zs, rfl, ?_, hzs⟩
          show utf16Units c ++ toUtf16 ys = _
          rw [hvw, hys, hd, h.1]
          rfl

/-- UTF-16 is transparent for ASCII characters. -/
theorem toUtf16_transparent :
    Transparent toUtf16 (fun u ↦ Char.ofNat u.toNat) fun u ↦ u.toNat < 0x80 where
  nil {xs} := by
    cases xs with
    | nil => exact iff_of_true rfl rfl
    | cons c cs =>
      refine iff_of_false (fun h ↦ ?_) (List.cons_ne_nil _ _)
      have hunits : utf16Units c = [] := (List.append_eq_nil_iff.mp h).1
      unfold utf16Units at hunits
      split at hunits <;> cases hunits
  join {u} hu xs ys := by
    unfold toUtf16
    rw [List.flatMap_append, List.flatMap_cons, utf16Units_ascii hu]
    rfl
  split {u} hu {xs before after} h := toUtf16_split hu h

/-- The byte of an ASCII unit. -/
def asciiByte (u : UInt16) : UInt8 := UInt8.ofNat (Char.ofNat u.toNat).toNat

/-- **Decoded text** has an ASCII unit where the input has its byte. -/
theorem textDecode_transparent :
    Transparent (toUtf16 ∘ charsFrom 0) asciiByte fun u ↦ u.toNat < 0x80 :=
  charsFrom_transparent.comp toUtf16_transparent fun u hu ↦ by rwa [toNat_ofNat_ascii hu]

end

end Utf8
