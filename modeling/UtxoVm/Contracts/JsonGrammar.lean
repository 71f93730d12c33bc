import UtxoVm.Contracts.JsonRoundTrip

/-!
# Contracts/JsonGrammar — the language of the parser

The grammar of JSON texts with integers, as relations between a text and what is left of it.  The
parser takes three liberties: leading zeros, integers that do not fit (they wrap around), and `\u`
before four units that are not all hex digits.  A derivation is marked when it takes one.
-/

namespace UtxoVm.Contracts

open RustStd AsStd JsonParser

namespace JsonGrammar

/-! ## 1. The grammar -/

/-- White space. -/
inductive Ws : Text → Text → Prop
  | nil (r : Text) : Ws r r
  | cons {c : UInt16} {s r : Text} : c = 0x20 ∨ c = 0x09 ∨ c = 0x0A ∨ c = 0x0D → Ws s r →
      Ws (c :: s) r

/-- The characters that follow a backslash, and what they stand for. -/
def escapes : List (UInt16 × UInt16) :=
  [(0x22, 0x22), (0x5C, 0x5C), (0x2F, 0x2F), (0x62, 0x08), (0x66, 0x0C), (0x6E, 0x0A),
    (0x72, 0x0D), (0x74, 0x09)]

def hexDigit (c : UInt16) : Option Nat :=
  if 0x30 ≤ c.toNat ∧ c.toNat ≤ 0x39 then some (c.toNat - 0x30)
  else if 0x41 ≤ c.toNat ∧ c.toNat ≤ 0x46 then some (c.toNat - 0x41 + 10)
  else if 0x61 ≤ c.toNat ∧ c.toNat ≤ 0x66 then some (c.toNat - 0x61 + 10)
  else none

/-- The unit that four hex digits denote. -/
def hexUnit (h₁ h₂ h₃ h₄ : UInt16) : Option UInt16 := do
  let d₁ ← hexDigit h₁
  let d₂ ← hexDigit h₂
  let d₃ ← hexDigit h₃
  let d₄ ← hexDigit h₄
  some (.ofNat (((d₁ * 16 + d₂) * 16 + d₃) * 16 + d₄))

/-- The characters of a string, with the closing quote. -/
inductive Chars : Bool → Text → Text → Text → Prop
  | close (r : Text) : Chars false (0x22 :: r) [] r
  | unescaped {lax : Bool} {c : UInt16} {s u r : Text} : c ≠ 0x22 → c ≠ 0x5C → 0x20 ≤ c.toNat →
      Chars lax s u r → Chars lax (c :: s) (c :: u) r
  | escape {lax : Bool} {esc c : UInt16} {s u r : Text} : (esc, c) ∈ escapes → Chars lax s u r →
      Chars lax (0x5C :: esc :: s) (c :: u) r
  | unicode {lax : Bool} {h₁ h₂ h₃ h₄ c : UInt16} {s u r : Text} :
      hexUnit h₁ h₂ h₃ h₄ = some c → Chars lax s u r →
      Chars lax (0x5C :: 0x75 :: h₁ :: h₂ :: h₃ :: h₄ :: s) (c :: u) r
  | laxUnicode {lax : Bool} {h₁ h₂ h₃ h₄ : UInt16} {s u r : Text} :
      hexUnit h₁ h₂ h₃ h₄ = none → Chars lax s u r →
      Chars true (0x5C :: 0x75 :: h₁ :: h₂ :: h₃ :: h₄ :: s) (charOfHex [h₁, h₂, h₃, h₄] :: u) r

/-- The digits of a number, behind a minus sign or nothing. -/
structure Numeral (sign digits : Text) : Prop where
  sign : sign = [] ∨ sign = [0x2D]
  nonempty : digits ≠ []
  digits : ∀ c ∈ digits, isDigit c = true

def valueOf (sign digits : Text) : Int :=
  if sign = [] then (digitsNat digits : Int) else -(digitsNat digits : Int)

/-- No leading zero, and within 64 bits. -/
def Regular (sign digits : Text) : Prop :=
  (digits = [0x30] ∨ digits.head? ≠ some 0x30) ∧
    -2 ^ 63 ≤ valueOf sign digits ∧ valueOf sign digits < 2 ^ 63

instance (sign digits : Text) : Decidable (Regular sign digits) :=
  inferInstanceAs (Decidable (_ ∧ _))

/-- The map of an object: members are set one after the other. -/
def bindings (ms : List (Text × JsonValue)) : List (Text × JsonValue) :=
  ms.foldl (fun map m ↦ setEntry m.1 m.2 map) []

/-- What a piece of text is: a value, the elements of an array with the closing bracket, or the
members of an object with the closing brace. -/
inductive Item where
  | value (v : JsonValue)
  | elements (vs : List JsonValue)
  | members (ms : List (Text × JsonValue))

/-- The item is in front of what is left of the text; the mark says that a liberty was taken. -/
inductive Derives : Bool → Text → Item → Text → Prop
  | nullLiteral (r : Text) : Derives false (lit "null" ++ r) (.value .null) r
  | trueLiteral (r : Text) : Derives false (lit "true" ++ r) (.value (.bool true)) r
  | falseLiteral (r : Text) : Derives false (lit "false" ++ r) (.value (.bool false)) r
  | number {sign digits : Text} {n : Int64} (r : Text) : Numeral sign digits →
      Regular sign digits → n.toInt = valueOf sign digits →
      Derives false (sign ++ (digits ++ r)) (.value (.number n)) r
  | laxNumber {sign digits : Text} (r : Text) : Numeral sign digits → ¬ Regular sign digits →
      Derives true (sign ++ (digits ++ r))
        (.value (.number (.ofInt (valueOf sign digits)))) r
  | string {lax : Bool} {s u r : Text} : Chars lax s u r →
      Derives lax (0x22 :: s) (.value (.string u)) r
  | emptyArray {s r : Text} : Ws s (0x5D :: r) → Derives false (0x5B :: s) (.value (.array [])) r
  | array {lax : Bool} {s r : Text} {vs : List JsonValue} : Derives lax s (.elements vs) r →
      Derives lax (0x5B :: s) (.value (.array vs)) r
  | emptyObject {s r : Text} : Ws s (0x7D :: r) →
      Derives false (0x7B :: s) (.value (.object [])) r
  | object {lax : Bool} {s r : Text} {ms : List (Text × JsonValue)} :
      Derives lax s (.members ms) r →
      Derives lax (0x7B :: s) (.value (.object (bindings ms))) r
  | lastElement {lax : Bool} {s s₁ s₂ r : Text} {v : JsonValue} : Ws s s₁ →
      Derives lax s₁ (.value v) s₂ → Ws s₂ (0x5D :: r) → Derives lax s (.elements [v]) r
  | element {lax lax' : Bool} {s s₁ s₂ s₃ r : Text} {v : JsonValue} {vs : List JsonValue} :
      Ws s s₁ → Derives lax s₁ (.value v) s₂ → Ws s₂ (0x2C :: s₃) →
      Derives lax' s₃ (.elements vs) r → Derives (lax || lax') s (.elements (v :: vs)) r
  | lastMember {lax lax' : Bool} {s s₁ s₂ s₃ s₄ s₅ r key : Text} {v : JsonValue} :
      Ws s (0x22 :: s₁) → Chars lax s₁ key s₂ → Ws s₂ (0x3A :: s₃) → Ws s₃ s₄ →
      Derives lax' s₄ (.value v) s₅ → Ws s₅ (0x7D :: r) →
      Derives (lax || lax') s (.members [(key, v)]) r
  | member {lax lax' lax'' : Bool} {s s₁ s₂ s₃ s₄ s₅ s₆ r key : Text} {v : JsonValue}
      {ms : List (Text × JsonValue)} :
      Ws s (0x22 :: s₁) → Chars lax s₁ key s₂ → Ws s₂ (0x3A :: s₃) → Ws s₃ s₄ →
      Derives lax' s₄ (.value v) s₅ → Ws s₅ (0x2C :: s₆) → Derives lax'' s₆ (.members ms) r →
      Derives (lax || lax' || lax'') s (.members ((key, v) :: ms)) r

/-- A whole text, with or without liberties. -/
def JsonText (lax : Bool) (s : Text) (v : JsonValue) : Prop :=
  ∃ s₁ s₂, Ws s s₁ ∧ Derives lax s₁ (.value v) s₂ ∧ Ws s₂ []

/-! ## 2. White space -/

section

variable {s r : Text} {c : UInt16}

theorem Ws.trans {t : Text} (h : Ws s r) (h' : Ws r t) : Ws s t := by
  induction h with
  | nil => exact h'
  | cons hc _ ih => exact .cons hc (ih h')

theorem isWhitespaceChar_iff : isWhitespaceChar c = true ↔
    c = 0x20 ∨ c = 0x09 ∨ c = 0x0A ∨ c = 0x0D := by
  unfold isWhitespaceChar
  simp only [Bool.or_eq_true, beq_iff_eq, or_assoc]

theorem ws_skipWhitespace (s : Text) : Ws s (skipWhitespace s) := by
  unfold skipWhitespace
  induction s with
  | nil => exact .nil []
  | cons c s ih =>
    rw [List.dropWhile_cons]
    split
    · rename_i hc
      exact .cons (isWhitespaceChar_iff.mp hc) ih
    · exact .nil _

theorem Ws.skipWhitespace_eq (h : Ws s r) : skipWhitespace s = skipWhitespace r := by
  induction h with
  | nil => rfl
  | cons hc _ ih =>
    rw [← ih]
    unfold skipWhitespace
    rw [List.dropWhile_cons, if_pos (isWhitespaceChar_iff.mpr hc)]

/-- What comes after white space. -/
theorem Ws.skipWhitespace_cons (h : Ws s (c :: r)) (hc : isWhitespaceChar c = false) :
    skipWhitespace s = c :: r :=
  h.skipWhitespace_eq.trans (JsonParser.skipWhitespace_cons hc r)

theorem ws_of_skipWhitespace (h : skipWhitespace s = r) : Ws s r := h ▸ ws_skipWhitespace s

theorem Ws.noDigitHead (h : Ws s r) (hr : NoDigitHead r) : NoDigitHead s := by
  cases h with
  | nil => exact hr
  | cons hc _ =>
    refine noDigitHead_cons ?_ _
    rcases hc with rfl | rfl | rfl | rfl <;> rfl

theorem Ws.length_le (h : Ws s r) : r.length ≤ s.length := by
  induction h with
  | nil => exact le_refl _
  | cons _ _ ih => exact Nat.le_succ_of_le ih

end

/-! ## 3. Strings -/

theorem unescape_iff {esc c : UInt16} : unescape esc = some c ↔ (esc, c) ∈ escapes := by
  unfold unescape escapes
  simp only [List.mem_cons, List.not_mem_nil, or_false, Prod.mk.injEq]
  split_ifs <;> simp_all [eq_comm]

theorem hexDigit_eq (c : UInt16) : hexDigit c = digitOf 16 c := by
  unfold hexDigit digitOf
  dsimp only
  generalize c.toNat = n
  split_ifs <;> simp [Option.filter] <;> omega

theorem hexDigit_range {c : UInt16} {d : Nat} (h : hexDigit c = some d) :
    (0x30 ≤ c.toNat ∧ c.toNat ≤ 0x39) ∨ (0x41 ≤ c.toNat ∧ c.toNat ≤ 0x46) ∨
      (0x61 ≤ c.toNat ∧ c.toNat ≤ 0x66) := by
  unfold hexDigit at h
  split at h
  · rename_i hc
    exact .inl hc
  split at h
  · rename_i hc
    exact .inr (.inl hc)
  split at h
  · rename_i hc
    exact .inr (.inr hc)
  · cases h

theorem isSpace_hexDigit {c : UInt16} {d : Nat} (h : hexDigit c = some d) : isSpace c = false := by
  have hc := hexDigit_range h
  unfold isSpace
  generalize c.toNat = n at hc
  rcases hc with ⟨hlow, hhigh⟩ | ⟨hlow, hhigh⟩ | ⟨hlow, hhigh⟩ <;> interval_cases n <;> rfl

/-- A hex digit marks no radix. -/
theorem radixOf_hexDigit {mark : UInt16} {d : Nat} (h : hexDigit mark = some d)
    (zero digit : UInt16) (rest : Text) : radixOf 16 (zero :: mark :: digit :: rest) =
      (16, zero :: mark :: digit :: rest) := by
  have hmark := hexDigit_range h
  unfold radixOf
  dsimp only
  split
  · generalize mark.toNat = n at hmark
    rcases hmark with ⟨hlow, hhigh⟩ | ⟨hlow, hhigh⟩ | ⟨hlow, hhigh⟩ <;> interval_cases n <;> rfl
  · rfl

theorem ofInt_natCast (n : Nat) : UInt16.ofInt n = .ofNat n := by
  have hmod : ((n : Int) % 2 ^ 16).toNat = n % 2 ^ 16 := by omega
  unfold UInt16.ofInt
  rw [hmod]
  exact UInt16.ofNat_mod_size

/-- Four hex digits are read as the unit that they denote. -/
theorem charOfHex_eq {h₁ h₂ h₃ h₄ c : UInt16} (h : hexUnit h₁ h₂ h₃ h₄ = some c) :
    charOfHex [h₁, h₂, h₃, h₄] = c := by
  unfold hexUnit at h
  simp only [Option.bind_eq_bind, Option.bind_eq_some_iff] at h
  obtain ⟨d₁, hd₁, d₂, hd₂, d₃, hd₃, d₄, hd₄, hc⟩ := h
  have hspace : [h₁, h₂, h₃, h₄].dropWhile isSpace = [h₁, h₂, h₃, h₄] := by
    rw [List.dropWhile_cons, isSpace_hexDigit hd₁]
    rfl
  have hne (d : UInt16) (hd : d.toNat < 0x30) : h₁ ≠ d := by
    have := hexDigit_range hd₁
    rintro rfl
    omega
  have hradix := radixOf_hexDigit hd₂ h₁ h₃ [h₄]
  rw [hexDigit_eq] at hd₁ hd₂ hd₃ hd₄
  unfold charOfHex parseInt
  dsimp only
  rw [hspace]
  dsimp only
  rw [if_neg (hne _ (by decide)), if_neg (hne _ (by decide)), hradix]
  simp only [digitsValue, hd₁, hd₂, hd₃, hd₄]
  rw [← Option.some.inj hc, ofInt_natCast, Nat.zero_mul, Nat.zero_add]

variable {len : Nat}

/-- The characters of a string are read as what they denote. -/
theorem Chars.parseString_eq {lax : Bool} {s u r : Text} (h : Chars lax s u r) (len : Nat) :
    parseString len s = .ok (u, r) := by
  induction h with
  | close r => exact parseString_quote r
  | unescaped hquote hslash hcontrol _ ih =>
    rw [parseString_plain hquote hslash (by omega), ih]
    rfl
  | escape hesc _ ih =>
    rw [parseString_escape (unescape_iff.mpr hesc), ih]
    rfl
  | unicode hunit _ ih =>
    rw [parseString_hex, charOfHex_eq hunit, ih]
    rfl
  | laxUnicode _ _ ih =>
    rw [parseString_hex, ih]
    rfl

theorem chars_of_parseString {s u r : Text} (h : parseString len s = .ok (u, r)) :
    ∃ lax, Chars lax s u r := by
  apply parseString_rec (motive := fun s u r ↦ ∃ lax, Chars lax s u r) _ _ _ _ h
  · intro s
    exact ⟨false, .close s⟩
  · rintro esc c s u r hesc ⟨lax, ih⟩
    exact ⟨lax, .escape (unescape_iff.mp hesc) ih⟩
  · rintro h₁ h₂ h₃ h₄ s u r ⟨lax, ih⟩
    cases hunit : hexUnit h₁ h₂ h₃ h₄ with
    | none => exact ⟨true, .laxUnicode hunit ih⟩
    | some c =>
      rw [charOfHex_eq hunit]
      exact ⟨lax, .unicode hunit ih⟩
  · rintro c s u r hquote hslash hcontrol ⟨lax, ih⟩
    exact ⟨lax, .unescaped hquote hslash (by omega) ih⟩

/-- A string takes liberties or it does not. -/
theorem Chars.lax_eq {lax lax' : Bool} {s u u' r r' : Text} (h : Chars lax s u r)
    (h' : Chars lax' s u' r') : lax = lax' := by
  have hno (c : UInt16) : (0x75, c) ∉ escapes := by
    intro hc
    have hfst : (0x75 : UInt16) ∈ escapes.map Prod.fst := List.mem_map_of_mem hc
    revert hfst
    decide
  induction h generalizing lax' u' r' with
  | close r =>
    cases h' with
    | close => rfl
    | unescaped hquote => exact absurd rfl hquote
  | unescaped hquote hslash _ _ ih =>
    cases h' with
    | close => exact absurd rfl hquote
    | unescaped _ _ _ h' => exact ih h'
    | escape => exact absurd rfl hslash
    | unicode => exact absurd rfl hslash
    | laxUnicode => exact absurd rfl hslash
  | escape hesc _ ih =>
    cases h' with
    | unescaped _ hslash => exact absurd rfl hslash
    | escape _ h' => exact ih h'
    | unicode => exact absurd hesc (hno _)
    | laxUnicode => exact absurd hesc (hno _)
  | unicode hunit _ ih =>
    cases h' with
    | unescaped _ hslash => exact absurd rfl hslash
    | escape hesc => exact absurd hesc (hno _)
    | unicode _ h' => exact ih h'
    | laxUnicode hunit' =>
      rw [hunit] at hunit'
      cases hunit'
  | laxUnicode hunit _ _ =>
    cases h' with
    | unescaped _ hslash => exact absurd rfl hslash
    | escape hesc => exact absurd hesc (hno _)
    | unicode hunit' =>
      rw [hunit] at hunit'
      cases hunit'
    | laxUnicode => rfl

/-! ## 4. Numbers -/

section

variable {sign digits r : Text}

theorem Numeral.parseI64_eq (h : Numeral sign digits) :
    parseI64 (sign ++ digits) = .ofInt (valueOf sign digits) := by
  have hdigits : ∀ c ∈ digits, 0x30 ≤ c.toNat ∧ c.toNat ≤ 0x39 := by
    intro c hc
    have hdigit := h.digits c hc
    unfold isDigit at hdigit
    rw [Bool.and_eq_true, decide_eq_true_eq, decide_eq_true_eq] at hdigit
    exact hdigit
  unfold parseI64 valueOf
  rcases h.sign with rfl | rfl
  · rw [List.nil_append, parseInt_digits hdigits, if_pos rfl]
  · rw [List.singleton_append, parseInt_minus hdigits, if_neg (List.cons_ne_nil _ _)]

/-- An integer that fits is the number that it denotes. -/
theorem Regular.toInt_iff (h : Regular sign digits) {n : Int64} :
    n.toInt = valueOf sign digits ↔ n = .ofInt (valueOf sign digits) := by
  obtain ⟨_, hlow, hhigh⟩ := h
  constructor
  · intro hn
    rw [← hn, Int64.ofInt_toInt]
  · rintro rfl
    exact Int64.toInt_ofInt_of_le hlow hhigh

theorem Numeral.parseNumber_eq (h : Numeral sign digits) (hr : NoDigitHead r) (len : Nat) :
    parseNumber len (sign ++ (digits ++ r)) =
      .ok (.number (.ofInt (valueOf sign digits)), r) := by
  rw [parseNumber_append h.sign h.nonempty h.digits hr, h.parseI64_eq]

/-- The minus sign is the first character, or there is none. -/
theorem Numeral.sign_eq (h : Numeral sign digits) (r : Text) :
    sign = if (sign ++ (digits ++ r)).head? = some 0x2D then [0x2D] else [] := by
  rcases h.sign with rfl | rfl
  · apply Eq.symm
    apply if_neg
    intro hhead
    cases digits with
    | nil => exact h.nonempty rfl
    | cons d digits =>
      have hdigit := h.digits d List.mem_cons_self
      rw [Option.some.inj hhead] at hdigit
      cases hdigit
  · rfl

/-- A number is read as one piece. -/
theorem Numeral.unique {sign' digits' r' : Text} (h : Numeral sign digits)
    (h' : Numeral sign' digits') (hr : NoDigitHead r) (hr' : NoDigitHead r')
    (heq : sign ++ (digits ++ r) = sign' ++ (digits' ++ r')) :
    sign = sign' ∧ digits = digits' := by
  have hsign : sign = sign' := by
    rw [h.sign_eq r, h'.sign_eq r', heq]
  rw [hsign] at heq
  have htake := congrArg (List.takeWhile isDigit) (List.append_cancel_left heq)
  rw [(takeWhile_isDigit h.digits hr).1, (takeWhile_isDigit h'.digits hr').1] at htake
  exact ⟨hsign, htake⟩

theorem isWhitespaceChar_digit {c : UInt16} (h : isDigit c = true) :
    isWhitespaceChar c = false := by
  rw [Bool.eq_false_iff, ne_eq, isWhitespaceChar_iff]
  rintro (rfl | rfl | rfl | rfl) <;> cases h

/-- The first character of a number. -/
theorem Numeral.head (h : Numeral sign digits) (r : Text) :
    ∃ c s, sign ++ (digits ++ r) = c :: s ∧ (c = 0x2D ∨ isDigit c = true) := by
  rcases h.sign with rfl | rfl
  · cases digits with
    | nil => exact absurd rfl h.nonempty
    | cons d digits => exact ⟨d, _, rfl, .inr (h.digits d List.mem_cons_self)⟩
  · exact ⟨0x2D, _, rfl, .inl rfl⟩

end

/-! ## 5. What is read is derived -/

section

variable {lax : Bool} {s t r : Text}

theorem Derives.ws_elements {vs : List JsonValue} (hws : Ws t s)
    (h : Derives lax s (.elements vs) r) : Derives lax t (.elements vs) r := by
  cases h with
  | lastElement hs hv hr => exact .lastElement (hws.trans hs) hv hr
  | element hs hv hr h => exact .element (hws.trans hs) hv hr h

theorem Derives.ws_members {ms : List (Text × JsonValue)} (hws : Ws t s)
    (h : Derives lax s (.members ms) r) : Derives lax t (.members ms) r := by
  cases h with
  | lastMember hs hkey hcolon hval hv hr => exact .lastMember (hws.trans hs) hkey hcolon hval hv hr
  | member hs hkey hcolon hval hv hr h => exact .member (hws.trans hs) hkey hcolon hval hv hr h

theorem derives_scalar {c : UInt16} {v : JsonValue} (h : Scalar len c s v r) :
    ∃ lax, Derives lax (c :: s) (.value v) r := by
  rcases h with ⟨rfl, text, hstring, rfl⟩ | ⟨_, hbool⟩ | ⟨_, hnull⟩ | ⟨_, hnumber⟩
  · obtain ⟨lax, hchars⟩ := chars_of_parseString hstring
    exact ⟨lax, .string hchars⟩
  · rcases parseBool_eq_ok.mp hbool with ⟨hs, rfl⟩ | ⟨hs, rfl⟩
    · exact ⟨false, hs ▸ .trueLiteral r⟩
    · exact ⟨false, hs ▸ .falseLiteral r⟩
  · obtain ⟨hs, rfl⟩ := parseNull_eq_ok.mp hnull
    exact ⟨false, hs ▸ .nullLiteral r⟩
  · obtain ⟨sign, digits, hs, hsign, hne, hdigits, _, rfl⟩ := parseNumber_eq_ok hnumber
    have hnumeral : Numeral sign digits := ⟨hsign, hne, hdigits⟩
    rw [hs, hnumeral.parseI64_eq]
    by_cases hregular : Regular sign digits
    · exact ⟨false, .number r hnumeral hregular (hregular.toInt_iff.mpr rfl)⟩
    · exact ⟨true, .laxNumber r hnumeral hregular⟩

/-- The text that a successful run takes has a derivation. -/
theorem derives_of_parse (len fuel : Nat) :
    (∀ s v rest, parseValue len fuel s = .ok (v, rest) →
      ∃ lax s₁, Ws s s₁ ∧ Derives lax s₁ (.value v) rest) ∧
      (∀ map s v rest, parseMembers len fuel map s = .ok (v, rest) →
        ∃ lax ms, Derives lax s (.members ms) rest ∧
          v = .object (ms.foldl (fun map m ↦ setEntry m.1 m.2 map) map)) ∧
      ∀ arr s v rest, parseElements len fuel arr s = .ok (v, rest) →
        ∃ lax vs, Derives lax s (.elements vs) rest ∧ v = .array (arr ++ vs) := by
  apply parse_rec
    (V := fun _ s v rest ↦ ∃ lax s₁, Ws s s₁ ∧ Derives lax s₁ (.value v) rest)
    (M := fun _ map s v rest ↦ ∃ lax ms, Derives lax s (.members ms) rest ∧
      v = .object (ms.foldl (fun map m ↦ setEntry m.1 m.2 map) map))
    (E := fun _ arr s v rest ↦ ∃ lax vs, Derives lax s (.elements vs) rest ∧ v = .array (arr ++ vs))
  case scalar =>
    intro n s c s' v rest hskip hscalar
    obtain ⟨lax, h⟩ := derives_scalar hscalar
    exact ⟨lax, _, ws_of_skipWhitespace hskip, h⟩
  case emptyObject =>
    intro n s s' rest hskip hbrace
    exact ⟨false, _, ws_of_skipWhitespace hskip, .emptyObject (ws_of_skipWhitespace hbrace)⟩
  case object =>
    rintro n s s' v rest hskip _ ⟨lax, ms, h, rfl⟩
    exact ⟨lax, _, ws_of_skipWhitespace hskip, .object (h.ws_members (ws_skipWhitespace s'))⟩
  case emptyArray =>
    intro n s s' rest hskip hbracket
    exact ⟨false, _, ws_of_skipWhitespace hskip, .emptyArray (ws_of_skipWhitespace hbracket)⟩
  case array =>
    rintro n s s' v rest hskip _ ⟨lax, vs, h, rfl⟩
    exact ⟨lax, _, ws_of_skipWhitespace hskip, .array (h.ws_elements (ws_skipWhitespace s'))⟩
  case lastMember =>
    rintro n map s s₁ key s₂ s₃ val s₄ rest hquote hkey hcolon ⟨lax', s₃', hval, hv⟩ hbrace
    obtain ⟨lax, hchars⟩ := chars_of_parseString hkey
    exact ⟨_, [(key, val)], .lastMember (ws_of_skipWhitespace hquote) hchars
      (ws_of_skipWhitespace hcolon) hval hv (ws_of_skipWhitespace hbrace), rfl⟩
  case member =>
    rintro n map s s₁ key s₂ s₃ val s₄ s₅ v rest hquote hkey hcolon ⟨lax', s₃', hval, hv⟩ hcomma
      ⟨lax'', ms, h, rfl⟩
    obtain ⟨lax, hchars⟩ := chars_of_parseString hkey
    exact ⟨_, (key, val) :: ms, .member (ws_of_skipWhitespace hquote) hchars
      (ws_of_skipWhitespace hcolon) hval hv (ws_of_skipWhitespace hcomma) h, rfl⟩
  case lastElement =>
    rintro n arr s val s₁ rest ⟨lax, s', hs, hv⟩ hbracket
    exact ⟨_, [val], .lastElement hs hv (ws_of_skipWhitespace hbracket), rfl⟩
  case element =>
    rintro n arr s val s₁ s₂ v rest ⟨lax, s', hs, hv⟩ hcomma ⟨lax', vs, h, rfl⟩
    exact ⟨_, val :: vs, .element hs hv (ws_of_skipWhitespace hcomma) h, by simp⟩

/-! ## 6. What is derived is read -/

/-- No value begins with white space or with a closing bracket or brace. -/
theorem Derives.value_head {v : JsonValue} (h : Derives lax s (.value v) r) :
    ∃ c s', s = c :: s' ∧ isWhitespaceChar c = false ∧ c ≠ 0x5D := by
  have hnumber {sign digits : Text} (hnumeral : Numeral sign digits) : ∃ c s',
      sign ++ (digits ++ r) = c :: s' ∧ isWhitespaceChar c = false ∧ c ≠ 0x5D := by
    obtain ⟨c, s', hs, hc⟩ := hnumeral.head r
    refine ⟨c, s', hs, ?_⟩
    rcases hc with rfl | hdigit
    · decide
    · have hbracket : c ≠ 0x5D := by
        rintro rfl
        cases hdigit
      exact ⟨isWhitespaceChar_digit hdigit, hbracket⟩
  cases h with
  | nullLiteral => exact ⟨0x6E, _, rfl, by decide⟩
  | trueLiteral => exact ⟨0x74, _, rfl, by decide⟩
  | falseLiteral => exact ⟨0x66, _, rfl, by decide⟩
  | number _ hnumeral => exact hnumber hnumeral
  | laxNumber _ hnumeral => exact hnumber hnumeral
  | string => exact ⟨0x22, _, rfl, by decide⟩
  | emptyArray => exact ⟨0x5B, _, rfl, by decide⟩
  | array => exact ⟨0x5B, _, rfl, by decide⟩
  | emptyObject => exact ⟨0x7B, _, rfl, by decide⟩
  | object => exact ⟨0x7B, _, rfl, by decide⟩

theorem Derives.skipWhitespace_eq {v : JsonValue} (h : Derives lax s (.value v) r) :
    skipWhitespace s = s := by
  obtain ⟨c, s', rfl, hc, _⟩ := h.value_head
  exact JsonParser.skipWhitespace_cons hc s'

theorem parseValue_ws {fuel : Nat} (h : Ws s t) :
    parseValue len fuel s = parseValue len fuel t := by
  cases fuel with
  | zero => rfl
  | succ fuel =>
    unfold parseValue
    rw [h.skipWhitespace_eq]

theorem Derives.ne_nil {v : JsonValue} (h : Derives lax s (.value v) r) (hws : Ws t s) :
    t ≠ [] := by
  obtain ⟨c, s', rfl, _⟩ := h.value_head
  cases hws <;> exact List.cons_ne_nil _ _

/-- The elements begin with a value. -/
theorem Derives.elements_head {vs : List JsonValue} (h : Derives lax s (.elements vs) r) :
    skipWhitespace s ≠ [] ∧ (skipWhitespace s).head? ≠ some 0x5D := by
  have hvalue {s₁ s₂ : Text} {lax : Bool} {v : JsonValue} (hs : Ws s s₁)
      (hv : Derives lax s₁ (.value v) s₂) :
      skipWhitespace s ≠ [] ∧ (skipWhitespace s).head? ≠ some 0x5D := by
    obtain ⟨c, s', rfl, hc, hne⟩ := hv.value_head
    rw [hs.skipWhitespace_cons hc]
    exact ⟨List.cons_ne_nil _ _, fun heq ↦ hne (Option.some.inj heq)⟩
  cases h with
  | lastElement hs hv => exact hvalue hs hv
  | element hs hv => exact hvalue hs hv

/-- The members begin with a key. -/
theorem Derives.members_head {ms : List (Text × JsonValue)}
    (h : Derives lax s (.members ms) r) : ∃ s', skipWhitespace s = 0x22 :: s' := by
  cases h with
  | lastMember hs => exact ⟨_, hs.skipWhitespace_cons rfl⟩
  | member hs => exact ⟨_, hs.skipWhitespace_cons rfl⟩

theorem parseElements_skipWhitespace {fuel : Nat} {arr : List JsonValue}
    (h : skipWhitespace s ≠ []) :
    parseElements len fuel arr (skipWhitespace s) = parseElements len fuel arr s := by
  have hne : s ≠ [] := by
    rintro rfl
    exact h rfl
  cases fuel with
  | zero => rfl
  | succ fuel =>
    unfold parseElements
    rw [if_neg h, if_neg hne, parseValue_ws (ws_skipWhitespace s)]

theorem parseMembers_skipWhitespace {fuel : Nat} {map : List (Text × JsonValue)}
    (h : skipWhitespace s ≠ []) :
    parseMembers len fuel map (skipWhitespace s) = parseMembers len fuel map s := by
  have hne : s ≠ [] := by
    rintro rfl
    exact h rfl
  cases fuel with
  | zero => rfl
  | succ fuel =>
    unfold parseMembers
    rw [if_neg h, if_neg hne, ← (ws_skipWhitespace s).skipWhitespace_eq]

/-- The parser reads the item, with as much fuel as the text is long. -/
def Reads (len : Nat) (s r : Text) : Item → Prop
  | .value v => NoDigitHead r → ∀ fuel, 3 * s.length < fuel →
      parseValue len fuel s = .ok (v, r)
  | .elements vs => ∀ arr fuel, 3 * s.length + 1 < fuel →
      parseElements len fuel arr s = .ok (.array (arr ++ vs), r)
  | .members ms => ∀ map fuel, 3 * s.length < fuel → parseMembers len fuel map s =
      .ok (.object (ms.foldl (fun map m ↦ setEntry m.1 m.2 map) map), r)

theorem reads_scalar {c : UInt16} {v : JsonValue} (hc : isWhitespaceChar c = false)
    (h : Scalar len c s v r) : Reads len (c :: s) r (.value v) := by
  intro _ fuel hfuel
  obtain ⟨n, rfl⟩ := Nat.exists_eq_add_of_lt (Nat.zero_lt_of_lt hfuel)
  rw [Nat.zero_add]
  exact parseValue_scalar (JsonParser.skipWhitespace_cons hc s) h

theorem reads_number {sign digits : Text} (hnumeral : Numeral sign digits) :
    Reads len (sign ++ (digits ++ r)) r (.value (.number (.ofInt (valueOf sign digits)))) := by
  intro hr
  have hnumber := hnumeral.parseNumber_eq hr len
  obtain ⟨c, s, hs, hc⟩ := hnumeral.head r
  rw [hs] at hnumber ⊢
  have hspace : isWhitespaceChar c = false := by
    rcases hc with rfl | hdigit
    · rfl
    · exact isWhitespaceChar_digit hdigit
  exact reads_scalar hspace (.inr (.inr (.inr ⟨hc, hnumber⟩))) hr

/-- A derivation is followed by the parser. -/
theorem Derives.reads {item : Item} (h : Derives lax s item r) (len : Nat) :
    Reads len s r item := by
  have hfuel {n m : Nat} (hnm : 3 * (m + 1) < n) : ∃ k, n = k + 1 + 1 ∧ 3 * m + 1 < k := by
    exact ⟨n - 2, by omega, by omega⟩
  have hsucc {n m k : Nat} (hnm : 3 * m + k < n) : ∃ n', n = n' + 1 ∧ 3 * m + k ≤ n' := by
    exact ⟨n - 1, by omega, by omega⟩
  induction h with
  | nullLiteral r =>
    exact reads_scalar rfl (.inr (.inr (.inl ⟨rfl, parseNull_eq_ok.mpr ⟨rfl, rfl⟩⟩)))
  | trueLiteral r =>
    exact reads_scalar rfl (.inr (.inl ⟨.inl rfl, parseBool_eq_ok.mpr (.inl ⟨rfl, rfl⟩)⟩))
  | falseLiteral r =>
    exact reads_scalar rfl (.inr (.inl ⟨.inr rfl, parseBool_eq_ok.mpr (.inr ⟨rfl, rfl⟩)⟩))
  | number r hnumeral hregular hn =>
    rw [hregular.toInt_iff.mp hn]
    exact reads_number hnumeral
  | laxNumber r hnumeral => exact reads_number hnumeral
  | string hchars => exact reads_scalar rfl (.inl ⟨rfl, _, hchars.parseString_eq len, rfl⟩)
  | emptyArray hs =>
    intro _ fuel hlen
    obtain ⟨n, rfl, _⟩ := hfuel hlen
    rw [parseValue_array (JsonParser.skipWhitespace_cons rfl _)]
    exact parseArray_empty (hs.skipWhitespace_cons rfl)
  | array h ih =>
    intro _ fuel hlen
    obtain ⟨n, rfl, hn⟩ := hfuel hlen
    obtain ⟨hne, hhead⟩ := h.elements_head
    rw [parseValue_array (JsonParser.skipWhitespace_cons rfl _), parseArray_elements hhead,
      parseElements_skipWhitespace hne]
    exact ih [] n hn
  | emptyObject hs =>
    intro _ fuel hlen
    obtain ⟨n, rfl, _⟩ := hfuel hlen
    rw [parseValue_object (JsonParser.skipWhitespace_cons rfl _)]
    exact parseObject_empty (hs.skipWhitespace_cons rfl)
  | object h ih =>
    intro _ fuel hlen
    obtain ⟨n, rfl, hn⟩ := hfuel hlen
    obtain ⟨s', hs'⟩ := h.members_head
    have hne : skipWhitespace _ ≠ [] := hs' ▸ List.cons_ne_nil _ _
    rw [parseValue_object (JsonParser.skipWhitespace_cons rfl _), parseObject_members _,
      parseMembers_skipWhitespace hne]
    · exact ih [] n (by omega)
    · rw [hs']
      exact fun hbrace ↦ absurd (Option.some.inj hbrace) (by decide)
  | lastElement hs hv hr ih =>
    intro arr fuel hlen
    obtain ⟨n, rfl, hn⟩ := hsucc hlen
    have hstart := hs.length_le
    have hvalue := ih (hr.noDigitHead (noDigitHead_cons rfl _)) n (by omega)
    rw [← parseValue_ws hs] at hvalue
    exact (parseElements_element (hv.ne_nil hs) hvalue).1 (hr.skipWhitespace_cons rfl)
  | element hs hv hr _ ih ihe =>
    intro arr fuel hlen
    obtain ⟨n, rfl, hn⟩ := hsucc hlen
    have hstart := hs.length_le
    have hvalue := ih (hr.noDigitHead (noDigitHead_cons rfl _)) n (by omega)
    have hshort := (parse_length len n).1 _ _ _ hvalue
    have hcomma := hr.length_le
    rw [List.length_cons] at hcomma
    rw [← parseValue_ws hs] at hvalue
    rw [(parseElements_element (hv.ne_nil hs) hvalue).2 (hr.skipWhitespace_cons rfl),
      ihe _ n (by omega), List.append_assoc, List.singleton_append]
  | lastMember hs hchars hcolon hval hv hr ih =>
    intro map fuel hlen
    obtain ⟨n, rfl, hn⟩ := hsucc (k := 0) hlen
    have hkey := hchars.parseString_eq len
    have hshort := parseString_length hkey
    have hstart := hs.length_le
    have hmiddle := hcolon.length_le
    have hspace := hval.length_le
    rw [List.length_cons] at hstart hmiddle
    have hvalue := ih (hr.noDigitHead (noDigitHead_cons rfl _)) n (by omega)
    rw [← parseValue_ws hval] at hvalue
    exact (parseMembers_member (hs.skipWhitespace_cons rfl) hkey
      (hcolon.skipWhitespace_cons rfl) hvalue).1 (hr.skipWhitespace_cons rfl)
  | member hs hchars hcolon hval hv hr _ ih ihm =>
    intro map fuel hlen
    obtain ⟨n, rfl, hn⟩ := hsucc (k := 0) hlen
    have hkey := hchars.parseString_eq len
    have hshort := parseString_length hkey
    have hstart := hs.length_le
    have hmiddle := hcolon.length_le
    have hspace := hval.length_le
    rw [List.length_cons] at hstart hmiddle
    have hvalue := ih (hr.noDigitHead (noDigitHead_cons rfl _)) n (by omega)
    have hshort' := (parse_length len n).1 _ _ _ hvalue
    have hcomma := hr.length_le
    rw [List.length_cons] at hcomma
    rw [← parseValue_ws hval] at hvalue
    rw [(parseMembers_member (hs.skipWhitespace_cons rfl) hkey (hcolon.skipWhitespace_cons rfl)
      hvalue).2 (hr.skipWhitespace_cons rfl)]
    exact ihm _ n (by omega)

/-- **The parser accepts the texts of the grammar**, with and without liberties. -/
theorem parse_iff {v : JsonValue} : parse s = .ok v ↔ ∃ lax, JsonText lax s v := by
  rw [parse_eq_ok]
  constructor
  · rintro ⟨rest, hrest, hvalue⟩
    obtain ⟨lax, s₁, hs, h⟩ := (derives_of_parse _ _).1 _ _ _ hvalue
    exact ⟨lax, s₁, rest, (ws_skipWhitespace s).trans hs, h, ws_of_skipWhitespace hrest⟩
  · rintro ⟨lax, s₁, s₂, hs, h, hr⟩
    have hlen := hs.length_le
    have hvalue := h.reads s.length (hr.noDigitHead nofun) (3 * s.length + 1) (by omega)
    rw [← parseValue_ws hs, parseValue_ws (ws_skipWhitespace s)] at hvalue
    exact ⟨s₂, hr.skipWhitespace_eq, hvalue⟩

/-! ## 7. A text takes liberties or it does not -/

/-- Every other derivation of the text takes the same liberties. -/
def SameLax (lax : Bool) (s r : Text) : Item → Prop
  | .value _ => NoDigitHead r → ∀ lax' v r', Derives lax' s (.value v) r' → NoDigitHead r' →
      lax = lax'
  | .elements _ => ∀ lax' vs r', Derives lax' s (.elements vs) r' → lax = lax'
  | .members _ => ∀ lax' ms r', Derives lax' s (.members ms) r' → lax = lax'

/-- The derivations of a value, by its first character. -/
theorem Derives.value_inv {c : UInt16} {v : JsonValue} (h : Derives lax (c :: s) (.value v) r) :
    ((c = 0x6E ∨ c = 0x74 ∨ c = 0x66) ∧ lax = false) ∨
      ((c = 0x2D ∨ isDigit c = true) ∧ ∃ sign digits, Numeral sign digits ∧
        c :: s = sign ++ (digits ++ r) ∧ (lax = true ↔ ¬ Regular sign digits)) ∨
      (c = 0x22 ∧ ∃ u, Chars lax s u r) ∨
      (c = 0x5B ∧ ((lax = false ∧ Ws s (0x5D :: r)) ∨ ∃ vs, Derives lax s (.elements vs) r)) ∨
      (c = 0x7B ∧ ((lax = false ∧ Ws s (0x7D :: r)) ∨ ∃ ms, Derives lax s (.members ms) r)) := by
  have hnumber {sign digits : Text} (hnumeral : Numeral sign digits)
      (hs : c :: s = sign ++ (digits ++ r)) : c = 0x2D ∨ isDigit c = true := by
    obtain ⟨c', s', hs', hc'⟩ := hnumeral.head r
    rw [(List.cons.inj (hs.trans hs')).1]
    exact hc'
  generalize hs : c :: s = t at h
  cases h with
  | nullLiteral => exact .inl ⟨.inl (List.cons.inj hs).1, rfl⟩
  | trueLiteral => exact .inl ⟨.inr (.inl (List.cons.inj hs).1), rfl⟩
  | falseLiteral => exact .inl ⟨.inr (.inr (List.cons.inj hs).1), rfl⟩
  | number _ hnumeral hregular =>
    exact .inr (.inl ⟨hnumber hnumeral hs, _, _, hnumeral, hs ▸ rfl, by simp [hregular]⟩)
  | laxNumber _ hnumeral hregular =>
    exact .inr (.inl ⟨hnumber hnumeral hs, _, _, hnumeral, hs ▸ rfl, by simp [hregular]⟩)
  | string hchars =>
    cases hs
    exact .inr (.inr (.inl ⟨rfl, _, hchars⟩))
  | emptyArray hbracket =>
    cases hs
    exact .inr (.inr (.inr (.inl ⟨rfl, .inl ⟨rfl, hbracket⟩⟩)))
  | array h =>
    cases hs
    exact .inr (.inr (.inr (.inl ⟨rfl, .inr ⟨_, h⟩⟩)))
  | emptyObject hbrace =>
    cases hs
    exact .inr (.inr (.inr (.inr ⟨rfl, .inl ⟨rfl, hbrace⟩⟩)))
  | object h =>
    cases hs
    exact .inr (.inr (.inr (.inr ⟨rfl, .inr ⟨_, h⟩⟩)))

theorem Derives.literal_inv {c : UInt16} {v : JsonValue} (h : Derives lax (c :: s) (.value v) r)
    (hc : c = 0x6E ∨ c = 0x74 ∨ c = 0x66) : lax = false := by
  rcases hc with rfl | rfl | rfl <;> simpa [isDigit] using h.value_inv

theorem Derives.string_inv {v : JsonValue} (h : Derives lax (0x22 :: s) (.value v) r) :
    ∃ u, Chars lax s u r := by
  simpa [isDigit] using h.value_inv

theorem Derives.array_inv {v : JsonValue} (h : Derives lax (0x5B :: s) (.value v) r) :
    (lax = false ∧ Ws s (0x5D :: r)) ∨ ∃ vs, Derives lax s (.elements vs) r := by
  simpa [isDigit] using h.value_inv

theorem Derives.object_inv {v : JsonValue} (h : Derives lax (0x7B :: s) (.value v) r) :
    (lax = false ∧ Ws s (0x7D :: r)) ∨ ∃ ms, Derives lax s (.members ms) r := by
  simpa [isDigit] using h.value_inv

theorem Derives.number_inv {sign digits r' : Text} {v : JsonValue} (hnumeral : Numeral sign digits)
    (h : Derives lax (sign ++ (digits ++ r)) (.value v) r') (hr : NoDigitHead r)
    (hr' : NoDigitHead r') : lax = true ↔ ¬ Regular sign digits := by
  obtain ⟨c, s, hs, hc⟩ := hnumeral.head r
  rw [hs] at h
  have hnumber : ∃ sign' digits', Numeral sign' digits' ∧ c :: s = sign' ++ (digits' ++ r') ∧
      (lax = true ↔ ¬ Regular sign' digits') := by
    have hne (d : UInt16) (hd : d ≠ 0x2D ∧ isDigit d = false) : c ≠ d := by
      rintro rfl
      rcases hc with hc | hc
      · exact hd.1 hc
      · rw [hd.2] at hc
        cases hc
    have hinv := h.value_inv
    simp only [hne 0x6E (by decide), hne 0x74 (by decide), hne 0x66 (by decide),
      hne 0x22 (by decide), hne 0x5B (by decide), hne 0x7B (by decide), false_and, false_or,
      or_false] at hinv
    exact hinv.2
  obtain ⟨sign', digits', hnumeral', hs', hlax⟩ := hnumber
  obtain ⟨rfl, rfl⟩ := hnumeral.unique hnumeral' hr hr' (hs.trans hs')
  exact hlax

/-- Two derivations of a value take the same text. -/
theorem Derives.value_rest {lax' : Bool} {v v' : JsonValue} {r' : Text}
    (h : Derives lax s (.value v) r) (h' : Derives lax' s (.value v') r') (hr : NoDigitHead r)
    (hr' : NoDigitHead r') : r = r' := by
  have hread := h.reads 0 hr (3 * s.length + 1) (by omega)
  rw [h'.reads 0 hr' (3 * s.length + 1) (by omega)] at hread
  cases hread
  rfl

/-- Where a value begins is settled by the white space. -/
theorem Derives.value_start {lax' : Bool} {v v' : JsonValue} {s₁ s₁' r' : Text} (hs : Ws s s₁)
    (hs' : Ws s s₁') (h : Derives lax s₁ (.value v) r) (h' : Derives lax' s₁' (.value v') r') :
    s₁ = s₁' := by
  rw [← h.skipWhitespace_eq, ← h'.skipWhitespace_eq, ← hs.skipWhitespace_eq,
    ← hs'.skipWhitespace_eq]

theorem Ws.cons_inj {c c' : UInt16} {r' : Text} (h : Ws s (c :: r)) (h' : Ws s (c' :: r'))
    (hc : isWhitespaceChar c = false) (hc' : isWhitespaceChar c' = false) : c = c' ∧ r = r' := by
  have heq := (h.skipWhitespace_cons hc).symm.trans (h'.skipWhitespace_cons hc')
  exact List.cons.inj heq

/-- A key is read in one way, and so the value behind it begins in one place. -/
theorem Derives.member_start {lax₁ lax₁' lax₂ lax₂' : Bool} {v v' : JsonValue}
    {s₁ s₁' s₂ s₂' s₃ s₃' s₄ s₄' key key' r' : Text} (hs : Ws s (0x22 :: s₁))
    (hs' : Ws s (0x22 :: s₁')) (hkey : Chars lax₁ s₁ key s₂) (hkey' : Chars lax₁' s₁' key' s₂')
    (hcolon : Ws s₂ (0x3A :: s₃)) (hcolon' : Ws s₂' (0x3A :: s₃')) (hspace : Ws s₃ s₄)
    (hspace' : Ws s₃' s₄') (hv : Derives lax₂ s₄ (.value v) r)
    (hv' : Derives lax₂' s₄' (.value v') r') : lax₁ = lax₁' ∧ s₄ = s₄' := by
  obtain ⟨_, rfl⟩ := hs.cons_inj hs' rfl rfl
  have hread := hkey.parseString_eq 0
  rw [hkey'.parseString_eq] at hread
  cases hread
  obtain ⟨_, rfl⟩ := hcolon.cons_inj hcolon' rfl rfl
  exact ⟨hkey.lax_eq hkey', hv.value_start hspace hspace' hv'⟩

/-- The derivations of a text take the same liberties. -/
theorem Derives.sameLax {item : Item} (h : Derives lax s item r) : SameLax lax s r item := by
  induction h with
  | nullLiteral r =>
    intro _ lax' v r' h' _
    exact (Derives.literal_inv (s := lit "ull" ++ r) h' (.inl rfl)).symm
  | trueLiteral r =>
    intro _ lax' v r' h' _
    exact (Derives.literal_inv (s := lit "rue" ++ r) h' (.inr (.inl rfl))).symm
  | falseLiteral r =>
    intro _ lax' v r' h' _
    exact (Derives.literal_inv (s := lit "alse" ++ r) h' (.inr (.inr rfl))).symm
  | number r hnumeral hregular =>
    intro hr lax' v r' h' hr'
    have hlax := Derives.number_inv hnumeral h' hr hr'
    simpa [hregular] using hlax.symm
  | laxNumber r hnumeral hregular =>
    intro hr lax' v r' h' hr'
    have hlax := Derives.number_inv hnumeral h' hr hr'
    simpa [hregular] using hlax.symm
  | string hchars =>
    intro _ lax' v r' h' _
    obtain ⟨u, hchars'⟩ := h'.string_inv
    exact hchars.lax_eq hchars'
  | emptyArray hs =>
    intro _ lax' v r' h' _
    rcases h'.array_inv with ⟨rfl, _⟩ | ⟨vs, h'⟩
    · rfl
    · have hhead := h'.elements_head.2
      rw [hs.skipWhitespace_cons rfl] at hhead
      exact absurd rfl hhead
  | array h ih =>
    intro _ lax' v r' h' _
    rcases h'.array_inv with ⟨_, hs⟩ | ⟨vs, h'⟩
    · have hhead := h.elements_head.2
      rw [hs.skipWhitespace_cons rfl] at hhead
      exact absurd rfl hhead
    · exact ih _ _ _ h'
  | emptyObject hs =>
    intro _ lax' v r' h' _
    rcases h'.object_inv with ⟨rfl, _⟩ | ⟨ms, h'⟩
    · rfl
    · obtain ⟨s', hs'⟩ := h'.members_head
      rw [hs.skipWhitespace_cons rfl] at hs'
      cases hs'
  | object h ih =>
    intro _ lax' v r' h' _
    rcases h'.object_inv with ⟨_, hs⟩ | ⟨ms, h'⟩
    · obtain ⟨s', hs'⟩ := h.members_head
      rw [hs.skipWhitespace_cons rfl] at hs'
      cases hs'
    · exact ih _ _ _ h'
  | lastElement hs hv hr ih =>
    intro lax' vs r' h'
    have hrest := hr.noDigitHead (noDigitHead_cons rfl _)
    cases h' with
    | lastElement hs' hv' hr' =>
      have hrest' := hr'.noDigitHead (noDigitHead_cons rfl _)
      cases hv.value_start hs hs' hv'
      exact ih hrest _ _ _ hv' hrest'
    | element hs' hv' hr' h' =>
      have hrest' := hr'.noDigitHead (noDigitHead_cons rfl _)
      cases hv.value_start hs hs' hv'
      cases hv.value_rest hv' hrest hrest'
      cases (hr.cons_inj hr' rfl rfl).1
  | element hs hv hr h ih ihe =>
    intro lax' vs r' h'
    have hrest := hr.noDigitHead (noDigitHead_cons rfl _)
    cases h' with
    | lastElement hs' hv' hr' =>
      have hrest' := hr'.noDigitHead (noDigitHead_cons rfl _)
      cases hv.value_start hs hs' hv'
      cases hv.value_rest hv' hrest hrest'
      cases (hr.cons_inj hr' rfl rfl).1
    | element hs' hv' hr' h' =>
      have hrest' := hr'.noDigitHead (noDigitHead_cons rfl _)
      cases hv.value_start hs hs' hv'
      cases hv.value_rest hv' hrest hrest'
      cases (hr.cons_inj hr' rfl rfl).2
      rw [ih hrest _ _ _ hv' hrest', ihe _ _ _ h']
  | lastMember hs hkey hcolon hspace hv hr ih =>
    intro lax' ms r' h'
    have hrest := hr.noDigitHead (noDigitHead_cons rfl _)
    cases h' with
    | lastMember hs' hkey' hcolon' hspace' hv' hr' =>
      have hrest' := hr'.noDigitHead (noDigitHead_cons rfl _)
      obtain ⟨rfl, rfl⟩ := hv.member_start hs hs' hkey hkey' hcolon hcolon' hspace hspace' hv'
      rw [ih hrest _ _ _ hv' hrest']
    | member hs' hkey' hcolon' hspace' hv' hr' h' =>
      have hrest' := hr'.noDigitHead (noDigitHead_cons rfl _)
      obtain ⟨_, rfl⟩ := hv.member_start hs hs' hkey hkey' hcolon hcolon' hspace hspace' hv'
      cases hv.value_rest hv' hrest hrest'
      cases (hr.cons_inj hr' rfl rfl).1
  | member hs hkey hcolon hspace hv hr h ih ihm =>
    intro lax' ms r' h'
    have hrest := hr.noDigitHead (noDigitHead_cons rfl _)
    cases h' with
    | lastMember hs' hkey' hcolon' hspace' hv' hr' =>
      have hrest' := hr'.noDigitHead (noDigitHead_cons rfl _)
      obtain ⟨_, rfl⟩ := hv.member_start hs hs' hkey hkey' hcolon hcolon' hspace hspace' hv'
      cases hv.value_rest hv' hrest hrest'
      cases (hr.cons_inj hr' rfl rfl).1
    | member hs' hkey' hcolon' hspace' hv' hr' h' =>
      have hrest' := hr'.noDigitHead (noDigitHead_cons rfl _)
      obtain ⟨rfl, rfl⟩ := hv.member_start hs hs' hkey hkey' hcolon hcolon' hspace hspace' hv'
      cases hv.value_rest hv' hrest hrest'
      cases (hr.cons_inj hr' rfl rfl).2
      rw [ih hrest _ _ _ hv' hrest', ihm _ _ _ h']

theorem JsonText.lax_eq {lax' : Bool} {v v' : JsonValue} (h : JsonText lax s v)
    (h' : JsonText lax' s v') : lax = lax' := by
  obtain ⟨s₁, s₂, hs, hv, hr⟩ := h
  obtain ⟨s₁', s₂', hs', hv', hr'⟩ := h'
  cases hv.value_start hs hs' hv'
  exact hv.sameLax (hr.noDigitHead nofun) _ _ _ hv' (hr'.noDigitHead nofun)

/-- What a key is bound to is the last member with that key. -/
theorem get_bindings (ms : List (Text × JsonValue)) (key : Text) :
    (JsonValue.object (bindings ms)).get key =
      (ms.reverse.find? fun m ↦ m.1 = key).map (·.2) := by
  induction ms using List.reverseRecOn with
  | nil => rfl
  | append_singleton ms m ih =>
    unfold bindings at ih ⊢
    rw [List.foldl_append, List.foldl_cons, List.foldl_nil, get_setEntry, ih,
      List.reverse_append, List.reverse_singleton, List.singleton_append]
    by_cases hkey : m.1 = key
    · rw [if_pos hkey, List.find?_cons_of_pos (by simpa using hkey)]
      rfl
    · rw [if_neg hkey, List.find?_cons_of_neg (by simpa using hkey)]

/-- **The parser accepts exactly its grammar, and returns the value that a text denotes**, just when
the text takes no liberty.  The last binding of a key wins. -/
theorem parse_exact_iff (s : Text) :
    ((parse s ≠ .error .outOfFuel ∧ ∀ v, parse s = .ok v ↔ JsonText false s v) ↔
        ¬ ∃ v, JsonText true s v) ∧
      ∀ ms key, (JsonValue.object (bindings ms)).get key =
        (ms.reverse.find? fun m ↦ m.1 = key).map (·.2) := by
  refine ⟨?_, get_bindings⟩
  constructor
  · rintro ⟨_, hexact⟩ ⟨v, hlax⟩
    have hstrict := (hexact v).mp (parse_iff.mpr ⟨true, hlax⟩)
    cases hlax.lax_eq hstrict
  · intro hstrict
    refine ⟨parse_ne_outOfFuel s, fun v ↦ ?_⟩
    rw [parse_iff]
    constructor
    · rintro ⟨lax, h⟩
      cases lax with
      | false => exact h
      | true => exact absurd ⟨v, h⟩ hstrict
    · intro h
      exact ⟨false, h⟩

theorem accepted_of_lax {v : JsonValue} (h : JsonText true s v) :
    parse s = .ok v ∧ ¬ ∃ v, JsonText false s v := by
  refine ⟨parse_iff.mpr ⟨true, h⟩, ?_⟩
  rintro ⟨v', hstrict⟩
  cases h.lax_eq hstrict

end

/-- A leading zero, an integer of more than 64 bits and a letter that is no hex digit: the parser
accepts them. -/
theorem liberties_accepted :
    (parse (lit "01") = .ok (.number 1) ∧ ¬ ∃ v, JsonText false (lit "01") v) ∧
      (parse (lit "9223372036854775808") = .ok (.number (-9223372036854775808)) ∧
        ¬ ∃ v, JsonText false (lit "9223372036854775808") v) ∧
      parse (lit "\"\\u12G4\"") = .ok (.string [0x12]) ∧
        ¬ ∃ v, JsonText false (lit "\"\\u12G4\"") v := by
  have hsmall : Int64.ofInt (valueOf [] (lit "01")) = 1 := by decide
  have hlarge : Int64.ofInt (valueOf [] (lit "9223372036854775808")) = -9223372036854775808 := by
    decide
  have hzero : Numeral [] (lit "01") := ⟨.inl rfl, by decide, List.all_eq_true.mp rfl⟩
  have hwide : Numeral [] (lit "9223372036854775808") :=
    ⟨.inl rfl, by decide, List.all_eq_true.mp rfl⟩
  have hunit : charOfHex (lit "12G4") = 0x12 := by decide
  refine ⟨accepted_of_lax ⟨_, [], .nil _, ?_, .nil []⟩,
    accepted_of_lax ⟨_, [], .nil _, ?_, .nil []⟩, accepted_of_lax ⟨_, [], .nil _, ?_, .nil []⟩⟩
  · rw [← hsmall]
    exact .laxNumber [] hzero (by decide)
  · rw [← hlarge]
    exact .laxNumber [] hwide (by decide)
  · rw [← hunit]
    exact .string (.laxUnicode rfl (.close []))

end JsonGrammar

end UtxoVm.Contracts
