import UtxoVm.Contracts.JsonReading

/-!
# Contracts/JsonRoundTrip — what is written is read back

A text that is read to its end goes on being read in the same way when a zero unit follows.  The
objects that the contracts write are read back exactly when the strings in them have no control
characters besides line feed, carriage return and tab: these `escapeJsonString` leaves as they are.
-/

namespace UtxoVm.Contracts

open RustStd AsStd

namespace JsonParser

variable {len fuel : Nat} {s rest : Text} {v : JsonValue}

/-! ## 1. Running the parser -/

theorem skipWhitespace_cons {c : UInt16} (hc : isWhitespaceChar c = false) (s : Text) :
    skipWhitespace (c :: s) = c :: s := by
  unfold skipWhitespace
  rw [List.dropWhile_cons, hc]
  rfl

theorem parseValue_object (hskip : skipWhitespace s = 0x7B :: rest) :
    parseValue len (fuel + 1) s = parseObject len fuel rest := by
  rw [parseValue.eq_def]
  simp only [hskip]
  rfl

theorem parseValue_array (hskip : skipWhitespace s = 0x5B :: rest) :
    parseValue len (fuel + 1) s = parseArray len fuel rest := by
  rw [parseValue.eq_def]
  simp only [hskip]
  rfl

theorem parseValue_scalar {c : UInt16} {s' : Text} (hskip : skipWhitespace s = c :: s')
    (h : Scalar len c s' v rest) : parseValue len (fuel + 1) s = .ok (v, rest) := by
  rw [parseValue.eq_def]
  simp only [hskip]
  rcases h with ⟨rfl, text, hstring, rfl⟩ | ⟨rfl | rfl, hbool⟩ | ⟨rfl, hnull⟩ | ⟨hc, hnumber⟩
  · rw [if_neg (by decide), if_neg (by decide), if_pos rfl, hstring]
  · exact hbool
  · exact hbool
  · exact hnull
  · have hrange : c.toNat = 0x2D ∨ 0x30 ≤ c.toNat ∧ c.toNat ≤ 0x39 := by
      rcases hc with rfl | hdigit
      · exact .inl rfl
      · unfold isDigit at hdigit
        rw [Bool.and_eq_true, decide_eq_true_eq, decide_eq_true_eq] at hdigit
        exact .inr hdigit
    have hne (d : UInt16) (hd : d.toNat ≠ 0x2D ∧ (d.toNat < 0x30 ∨ 0x39 < d.toNat)) : c ≠ d := by
      rintro rfl
      omega
    rw [if_neg (hne _ (by decide)), if_neg (hne _ (by decide)), if_neg (hne _ (by decide)),
      if_neg fun h ↦ h.elim (hne _ (by decide)) (hne _ (by decide)), if_neg (hne _ (by decide)),
      if_pos hc]
    exact hnumber

theorem parseObject_empty (hskip : skipWhitespace s = 0x7D :: rest) :
    parseObject len (fuel + 1) s = .ok (.object [], rest) := by
  rw [parseObject.eq_def]
  simp only [hskip]
  rfl

theorem parseObject_members (hhead : (skipWhitespace s).head? ≠ some 0x7D) :
    parseObject len (fuel + 1) s = parseMembers len fuel [] (skipWhitespace s) := by
  unfold parseObject
  generalize skipWhitespace s = s' at hhead ⊢
  cases s' with
  | nil => rfl
  | cons c s' => exact if_neg fun hc ↦ hhead (congrArg some hc)

theorem parseArray_empty (hskip : skipWhitespace s = 0x5D :: rest) :
    parseArray len (fuel + 1) s = .ok (.array [], rest) := by
  rw [parseArray.eq_def]
  simp only [hskip]
  rfl

theorem parseArray_elements (hhead : (skipWhitespace s).head? ≠ some 0x5D) :
    parseArray len (fuel + 1) s = parseElements len fuel [] (skipWhitespace s) := by
  unfold parseArray
  generalize skipWhitespace s = s' at hhead ⊢
  cases s' with
  | nil => rfl
  | cons c s' => exact if_neg fun hc ↦ hhead (congrArg some hc)

section

variable {map : List (Text × JsonValue)} {arr : List JsonValue} {key s₁ s₂ s₃ s₄ : Text}
  {val : JsonValue}

/-- One member is read; what comes after it decides how it goes on. -/
theorem parseMembers_member (hquote : skipWhitespace s = 0x22 :: s₁)
    (hkey : parseString len s₁ = .ok (key, s₂)) (hcolon : skipWhitespace s₂ = 0x3A :: s₃)
    (hval : parseValue len fuel s₃ = .ok (val, s₄)) :
    (skipWhitespace s₄ = 0x7D :: rest →
      parseMembers len (fuel + 1) map s = .ok (.object (setEntry key val map), rest)) ∧
      (skipWhitespace s₄ = 0x2C :: rest → parseMembers len (fuel + 1) map s =
        parseMembers len fuel (setEntry key val map) rest) := by
  have hne : s ≠ [] := by
    rintro rfl
    cases hquote
  rw [parseMembers.eq_def]
  simp only [if_neg hne, hquote, hkey, hcolon, hval, ne_eq, not_true_eq_false, if_false]
  constructor
  · intro hbrace
    rw [hbrace]
    rfl
  · intro hcomma
    rw [hcomma]
    rfl

theorem parseElements_element (hne : s ≠ []) (hval : parseValue len fuel s = .ok (val, s₁)) :
    (skipWhitespace s₁ = 0x5D :: rest →
      parseElements len (fuel + 1) arr s = .ok (.array (arr ++ [val]), rest)) ∧
      (skipWhitespace s₁ = 0x2C :: rest → parseElements len (fuel + 1) arr s =
        parseElements len fuel (arr ++ [val]) rest) := by
  rw [parseElements.eq_def]
  simp only [if_neg hne, hval]
  constructor
  · intro hbracket
    rw [hbracket]
    rfl
  · intro hcomma
    rw [hcomma]
    rfl

end

/-! ## 2. A zero unit behind the text -/

theorem skipWhitespace_append (s b : Text) :
    skipWhitespace (s ++ 0 :: b) = skipWhitespace s ++ 0 :: b := by
  induction s with
  | nil => rfl
  | cons c s ih =>
    unfold skipWhitespace at ih ⊢
    rw [List.cons_append, List.dropWhile_cons, List.dropWhile_cons, ih]
    split <;> rfl

theorem skipWhitespace_append_cons {c : UInt16} (h : skipWhitespace s = c :: rest) (b : Text) :
    skipWhitespace (s ++ 0 :: b) = c :: (rest ++ 0 :: b) := by
  rw [skipWhitespace_append, h, List.cons_append]

theorem parseString_append {key : Text} (len' : Nat) (h : parseString len s = .ok (key, rest))
    (b : Text) : parseString len' (s ++ 0 :: b) = .ok (key, rest ++ 0 :: b) := by
  refine parseString_rec (motive := fun s key rest ↦
    parseString len' (s ++ 0 :: b) = .ok (key, rest ++ 0 :: b)) ?_ ?_ ?_ ?_ h
  · intro s
    exact parseString_quote _
  · intro esc c s key rest hesc ih
    rw [List.cons_append, List.cons_append, parseString_escape hesc, ih]
    rfl
  · intro h₁ h₂ h₃ h₄ s key rest ih
    show parseString len' (0x5C :: 0x75 :: h₁ :: h₂ :: h₃ :: h₄ :: (s ++ 0 :: b)) = _
    rw [parseString_hex, ih]
    rfl
  · intro c s key rest hquote hslash hcontrol ih
    rw [List.cons_append, parseString_plain hquote hslash hcontrol, ih]
    rfl

theorem Scalar.append {c : UInt16} (len' : Nat) (h : Scalar len c s v rest) (b : Text) :
    Scalar len' c (s ++ 0 :: b) v (rest ++ 0 :: b) := by
  rcases h with ⟨hc, text, hstring, hv⟩ | ⟨hc, hbool⟩ | ⟨hc, hnull⟩ | ⟨hc, hnumber⟩
  · exact .inl ⟨hc, text, parseString_append len' hstring b, hv⟩
  · refine .inr (.inl ⟨hc, parseBool_eq_ok.mpr ?_⟩)
    rw [← List.cons_append, ← List.append_assoc, ← List.append_assoc]
    exact (parseBool_eq_ok.mp hbool).imp (fun h ↦ ⟨by rw [h.1], h.2⟩) fun h ↦ ⟨by rw [h.1], h.2⟩
  · refine .inr (.inr (.inl ⟨hc, parseNull_eq_ok.mpr ?_⟩))
    have h := parseNull_eq_ok.mp hnull
    rw [← List.cons_append, ← List.append_assoc, h.1]
    exact ⟨rfl, h.2⟩
  · obtain ⟨sign, digits, hs, hsign, hne, hdigits, hrest, rfl⟩ := parseNumber_eq_ok hnumber
    refine .inr (.inr (.inr ⟨hc, ?_⟩))
    have hrest' : NoDigitHead (rest ++ 0 :: b) := by
      cases rest with
      | nil => exact noDigitHead_cons rfl b
      | cons d rest => exact noDigitHead_cons (hrest d rest rfl) _
    rw [← List.cons_append, hs, List.append_assoc, List.append_assoc]
    exact parseNumber_append hsign hne hdigits hrest'

/-- A successful run is the same with more fuel and with more text behind a zero unit. -/
theorem parse_append (len len' fuel : Nat) (k : Nat) (b : Text) :
    (∀ s v rest, parseValue len fuel s = .ok (v, rest) →
      parseValue len' (fuel + k) (s ++ 0 :: b) = .ok (v, rest ++ 0 :: b)) ∧
      (∀ map s v rest, parseMembers len fuel map s = .ok (v, rest) →
        parseMembers len' (fuel + k) map (s ++ 0 :: b) = .ok (v, rest ++ 0 :: b)) ∧
      ∀ arr s v rest, parseElements len fuel arr s = .ok (v, rest) →
        parseElements len' (fuel + k) arr (s ++ 0 :: b) = .ok (v, rest ++ 0 :: b) := by
  have hhead {s : Text} {c : UInt16} (hc : c ≠ 0) (h : (skipWhitespace s).head? ≠ some c) :
      (skipWhitespace (s ++ 0 :: b)).head? ≠ some c := by
    rw [skipWhitespace_append]
    generalize skipWhitespace s = s' at h
    cases s' with
    | nil => exact fun h ↦ hc (Option.some.inj h).symm
    | cons c' s' => exact h
  refine parse_rec
    (V := fun n s v rest ↦ parseValue len' (n + k) (s ++ 0 :: b) = .ok (v, rest ++ 0 :: b))
    (M := fun n map s v rest ↦
      parseMembers len' (n + k) map (s ++ 0 :: b) = .ok (v, rest ++ 0 :: b))
    (E := fun n arr s v rest ↦
      parseElements len' (n + k) arr (s ++ 0 :: b) = .ok (v, rest ++ 0 :: b))
    ?_ ?_ ?_ ?_ ?_ ?_ ?_ ?_ ?_ fuel
  · intro n s c s' v rest hskip hscalar
    rw [Nat.add_right_comm]
    exact parseValue_scalar (skipWhitespace_append_cons hskip b) (hscalar.append len' b)
  · intro n s s' rest hskip hbrace
    rw [show n + 2 + k = n + k + 1 + 1 by omega,
      parseValue_object (skipWhitespace_append_cons hskip b)]
    exact parseObject_empty (skipWhitespace_append_cons hbrace b)
  · intro n s s' v rest hskip hbrace ih
    rw [show n + 2 + k = n + k + 1 + 1 by omega,
      parseValue_object (skipWhitespace_append_cons hskip b),
      parseObject_members (hhead (by decide) hbrace), skipWhitespace_append]
    exact ih
  · intro n s s' rest hskip hbracket
    rw [show n + 2 + k = n + k + 1 + 1 by omega,
      parseValue_array (skipWhitespace_append_cons hskip b)]
    exact parseArray_empty (skipWhitespace_append_cons hbracket b)
  · intro n s s' v rest hskip hbracket ih
    rw [show n + 2 + k = n + k + 1 + 1 by omega,
      parseValue_array (skipWhitespace_append_cons hskip b),
      parseArray_elements (hhead (by decide) hbracket), skipWhitespace_append]
    exact ih
  · intro n map s s₁ key s₂ s₃ val s₄ rest hquote hkey hcolon ih hbrace
    rw [Nat.add_right_comm]
    exact (parseMembers_member (skipWhitespace_append_cons hquote b)
      (parseString_append len' hkey b) (skipWhitespace_append_cons hcolon b) ih).1
      (skipWhitespace_append_cons hbrace b)
  · intro n map s s₁ key s₂ s₃ val s₄ s₅ v rest hquote hkey hcolon ih hcomma ihm
    rw [Nat.add_right_comm, (parseMembers_member (skipWhitespace_append_cons hquote b)
      (parseString_append len' hkey b) (skipWhitespace_append_cons hcolon b) ih).2
      (skipWhitespace_append_cons hcomma b)]
    exact ihm
  · intro n arr s val s₁ rest ih hbracket
    rw [Nat.add_right_comm]
    exact (parseElements_element (by simp) ih).1 (skipWhitespace_append_cons hbracket b)
  · intro n arr s val s₁ s₂ v rest ih hcomma ihe
    rw [Nat.add_right_comm,
      (parseElements_element (by simp) ih).2 (skipWhitespace_append_cons hcomma b)]
    exact ihe

/-- A text with a zero unit behind a text that can be read cannot be read. -/
theorem parse_append_error {s : Text} (h : parse s = .ok v) (b : Text) (w : JsonValue) :
    parse (s ++ 0 :: b) ≠ .ok w := by
  obtain ⟨rest, hrest, hval⟩ := parse_eq_ok.mp h
  have hlen : 3 * s.length + 1 + 3 * (b.length + 1) = 3 * (s ++ 0 :: b).length + 1 := by
    rw [List.length_append, List.length_cons]
    omega
  have happend := (parse_append s.length (s ++ 0 :: b).length _ (3 * (b.length + 1)) b).1 _ _ _ hval
  rw [hlen, ← skipWhitespace_append] at happend
  intro hw
  obtain ⟨rest', hrest', hval'⟩ := parse_eq_ok.mp hw
  rw [happend] at hval'
  cases hval'
  rw [skipWhitespace_append, hrest] at hrest'
  cases hrest'

/-! ## 3. Strings -/

/-- The string has no control character that `escapeJsonString` leaves as it is. -/
def Legible (s : Text) : Prop := ∀ c ∈ s, c.toNat < 0x20 → c = 0x0A ∨ c = 0x0D ∨ c = 0x09

instance (s : Text) : Decidable (Legible s) := List.decidableBAll _ s

theorem legible_cons {c : UInt16} : Legible (c :: s) ↔
    (c.toNat < 0x20 → c = 0x0A ∨ c = 0x0D ∨ c = 0x09) ∧ Legible s := by
  unfold Legible
  exact List.forall_mem_cons

/-- The text as it is, or as a reader sees it that stops at a zero unit. -/
def cutIf (cut : Bool) (s : Text) : Text := if cut then untilNul s else s

theorem cutIf_cons {cut : Bool} {c : UInt16} (hc : c ≠ 0) (s : Text) :
    cutIf cut (c :: s) = c :: cutIf cut s := by
  cases cut with
  | false => rfl
  | true => exact List.takeWhile_cons_of_pos (p := fun c ↦ decide (c ≠ 0)) (by simpa using hc)

theorem cutIf_append {cut : Bool} {a : Text} (ha : 0 ∉ a) (s : Text) :
    cutIf cut (a ++ s) = a ++ cutIf cut s := by
  induction a with
  | nil => rfl
  | cons c a ih =>
    rw [List.mem_cons, not_or] at ha
    rw [List.cons_append, cutIf_cons (Ne.symm ha.1), ih ha.2, List.cons_append]

theorem cutIf_eq_self {cut : Bool} (hs : 0 ∉ s) : cutIf cut s = s := by
  unfold cutIf
  split
  · exact untilNul_eq_self hs
  · rfl

theorem escapeJsonString_cons (c : UInt16) (s : Text) :
    escapeJsonString (c :: s) = escapeChar c ++ escapeJsonString s := by
  unfold escapeJsonString
  exact List.flatMap_cons

/-- A character that is written is read as itself. -/
theorem parseString_escapeChar {c : UInt16}
    (hc : c.toNat < 0x20 → c = 0x0A ∨ c = 0x0D ∨ c = 0x09) (s : Text) :
    parseString len (escapeChar c ++ s) = consUnit c (parseString len s) := by
  unfold escapeChar
  split
  · rename_i h
    rw [h]
    exact parseString_escape rfl s
  split
  · rename_i h
    rw [h]
    exact parseString_escape rfl s
  split
  · rename_i h
    rw [h]
    exact parseString_escape rfl s
  split
  · rename_i h
    rw [h]
    exact parseString_escape rfl s
  split
  · rename_i h
    rw [h]
    exact parseString_escape rfl s
  · rename_i hquote hslash hlf hcr htab
    refine parseString_plain hquote hslash (fun hcontrol ↦ ?_) s
    rcases hc hcontrol with h | h | h
    · exact hlf h
    · exact hcr h
    · exact htab h

/-- A legible string is read back. -/
theorem parseString_written {text : Text} (h : Legible text) (rest : Text) :
    parseString len (escapeJsonString text ++ 0x22 :: rest) = .ok (text, rest) := by
  induction text with
  | nil => exact parseString_quote rest
  | cons c text ih =>
    obtain ⟨hc, htext⟩ := legible_cons.mp h
    rw [escapeJsonString_cons, List.append_assoc, parseString_escapeChar hc, ih htext]
    rfl

theorem escapeChar_nonzero {c : UInt16} (hc : c ≠ 0) : 0 ∉ escapeChar c := by
  unfold escapeChar
  split
  · decide
  split
  · decide
  split
  · decide
  split
  · decide
  split
  · decide
  · rw [List.mem_singleton]
    exact Ne.symm hc

theorem legible_nonzero {text : Text} (h : Legible text) : 0 ∉ escapeJsonString text := by
  induction text with
  | nil => exact List.not_mem_nil
  | cons c text ih =>
    obtain ⟨hc, htext⟩ := legible_cons.mp h
    have hne : c ≠ 0 := by
      rintro rfl
      revert hc
      decide
    rw [escapeJsonString_cons, List.mem_append, not_or]
    exact ⟨escapeChar_nonzero hne, ih htext⟩

/-- An illegible string is not read, whatever follows. -/
theorem parseString_illegible {text : Text} (h : ¬ Legible text) (cut : Bool) (s : Text)
    (r : Text × Text) : parseString len (cutIf cut (escapeJsonString text ++ s)) ≠ .ok r := by
  induction text generalizing r with
  | nil => exact absurd (fun c hc ↦ absurd hc List.not_mem_nil) h
  | cons c text ih =>
    rw [escapeJsonString_cons, List.append_assoc]
    by_cases hc : c.toNat < 0x20 → c = 0x0A ∨ c = 0x0D ∨ c = 0x09
    · have htext : ¬ Legible text := fun htext ↦ h (legible_cons.mpr ⟨hc, htext⟩)
      have hne : c ≠ 0 := by
        rintro rfl
        revert hc
        decide
      rw [cutIf_append (escapeChar_nonzero hne), parseString_escapeChar hc]
      intro hread
      obtain ⟨text', hread', _⟩ := consUnit_eq_ok.mp hread
      exact ih htext _ hread'
    · rw [Classical.not_imp, not_or, not_or] at hc
      obtain ⟨hcontrol, hlf, hcr, htab⟩ := hc
      have hne (d : UInt16) (hd : 0x20 ≤ d.toNat) : c ≠ d := by
        rintro rfl
        omega
      have hescape : escapeChar c = [c] := by
        unfold escapeChar
        rw [if_neg (hne _ (by decide)), if_neg (hne _ (by decide)), if_neg hlf, if_neg hcr,
          if_neg htab]
      rw [hescape, List.singleton_append]
      by_cases hzero : cut = true ∧ c = 0
      · rw [hzero.1, hzero.2]
        exact fail_ne_ok
      · have hcons : cutIf cut (c :: (escapeJsonString text ++ s)) =
            c :: cutIf cut (escapeJsonString text ++ s) := by
          cases cut with
          | false => rfl
          | true => exact cutIf_cons (fun hc ↦ hzero ⟨rfl, hc⟩) _
        rw [hcons, parseString_control (hne _ (by decide)) (hne _ (by decide)) hcontrol]
        exact fail_ne_ok

/-! ## 4. Objects -/

/-- The values that the contracts write. -/
inductive Token where
  | string (s : Text)
  | number (n : Nat)
  | bool (b : Bool)

namespace Token

def text : Token → Text
  | string s => 0x22 :: (escapeJsonString s ++ [0x22])
  | number n => decimal n
  | bool b => if b then lit "true" else lit "false"

def value : Token → JsonValue
  | string s => .string s
  | number n => .number (parseI64 (decimal n))
  | bool b => .bool b

def Legible : Token → Prop
  | string s => JsonParser.Legible s
  | _ => True

instance : (tok : Token) → Decidable tok.Legible
  | string s => inferInstanceAs (Decidable (JsonParser.Legible s))
  | number _ => inferInstanceAs (Decidable True)
  | bool _ => inferInstanceAs (Decidable True)

end Token

theorem decimal_isDigit (n : Nat) : ∀ c ∈ decimal n, isDigit c = true := by
  intro c hc
  unfold isDigit
  rw [Bool.and_eq_true, decide_eq_true_eq, decide_eq_true_eq]
  exact decimal_digits n c hc

/-- A legible value is read back, up to what follows it. -/
theorem parseValue_token {tok : Token} (h : tok.Legible) (hrest : NoDigitHead rest) :
    parseValue len (fuel + 1) (tok.text ++ rest) = .ok (tok.value, rest) := by
  cases tok with
  | string text =>
    refine parseValue_scalar (c := 0x22) (skipWhitespace_cons rfl _) (.inl ⟨rfl, text, ?_, rfl⟩)
    show parseString len (escapeJsonString text ++ [0x22] ++ rest) = _
    rw [List.append_assoc]
    exact parseString_written h rest
  | number n =>
    obtain ⟨c, digits, hdigits⟩ := List.exists_cons_of_ne_nil (decimal_ne_nil n)
    have hall := decimal_isDigit n
    have hc : isDigit c = true := hall c (by rw [hdigits]; exact List.mem_cons_self)
    have hspace : isWhitespaceChar c = false := by
      unfold isDigit at hc
      unfold isWhitespaceChar
      rw [Bool.and_eq_true, decide_eq_true_eq, decide_eq_true_eq] at hc
      have hne (d : UInt16) (hd : d.toNat < 0x30) : (c == d) = false :=
        beq_eq_false_iff_ne.mpr fun h ↦ by rw [h] at hc; omega
      rw [hne _ (by decide), hne _ (by decide), hne _ (by decide), hne _ (by decide)]
      rfl
    have hread : parseNumber len ([] ++ (decimal n ++ rest)) = _ :=
      parseNumber_append (.inl rfl) (decimal_ne_nil n) hall hrest
    show parseValue len (fuel + 1) (decimal n ++ rest) = .ok (.number (parseI64 (decimal n)), rest)
    rw [List.nil_append, List.nil_append] at hread
    rw [hdigits, List.cons_append] at hread ⊢
    exact parseValue_scalar (skipWhitespace_cons hspace _) (.inr (.inr (.inr ⟨.inr hc, hread⟩)))
  | bool b =>
    cases b with
    | false =>
      exact parseValue_scalar (c := 0x66) (skipWhitespace_cons rfl _)
        (.inr (.inl ⟨.inr rfl, parseBool_eq_ok.mpr (.inr ⟨rfl, rfl⟩)⟩))
    | true =>
      exact parseValue_scalar (c := 0x74) (skipWhitespace_cons rfl _)
        (.inr (.inl ⟨.inl rfl, parseBool_eq_ok.mpr (.inl ⟨rfl, rfl⟩)⟩))

theorem parseValue_illegible {tok : Token} (h : ¬ tok.Legible) (cut : Bool) (s : Text)
    (r : JsonValue × Text) : parseValue len fuel (cutIf cut (tok.text ++ s)) ≠ .ok r := by
  cases tok with
  | string text =>
    intro hread
    cases fuel with
    | zero => cases hread
    | succ fuel =>
      have htext : (Token.string text).text ++ s =
          0x22 :: (escapeJsonString text ++ 0x22 :: s) := by
        unfold Token.text
        rw [List.cons_append, List.append_assoc]
        rfl
      rw [htext, cutIf_cons (by decide)] at hread
      obtain ⟨c, s', hskip, hcases⟩ := parseValue_eq_ok hread
      rw [skipWhitespace_cons rfl] at hskip
      cases hskip
      rcases hcases with ⟨hc, _⟩ | ⟨hc, _⟩ | hscalar
      · exact absurd hc (by decide)
      · exact absurd hc (by decide)
      rcases hscalar with ⟨_, text', hstring, _⟩ | ⟨hc, _⟩ | ⟨hc, _⟩ | ⟨hc, _⟩
      · exact parseString_illegible h cut _ _ hstring
      · exact absurd hc (by decide)
      · exact absurd hc (by decide)
      · exact absurd hc (by decide)
  | number n => exact absurd trivial h
  | bool b => exact absurd trivial h

theorem token_nonzero {tok : Token} (h : tok.Legible) : 0 ∉ tok.text := by
  cases tok with
  | string text =>
    unfold Token.text
    rw [List.mem_cons, List.mem_append, not_or, not_or]
    exact ⟨by decide, legible_nonzero h, by decide⟩
  | number n =>
    intro hmem
    have := decimal_digits n 0 hmem
    revert this
    decide
  | bool b => cases b <;> decide

abbrev Member := Text × Token

def memberText (m : Member) : Text := 0x22 :: (m.1 ++ 0x22 :: 0x3A :: m.2.text)

/-- The members of an object, between its braces. -/
def membersText : List Member → Text
  | [] => []
  | [m] => memberText m
  | m :: m' :: ms => memberText m ++ 0x2C :: membersText (m' :: ms)

def objectText (ms : List Member) : Text := 0x7B :: (membersText ms ++ [0x7D])

/-- The object that is read. -/
def objectOf (map : List (Text × JsonValue)) (ms : List Member) : JsonValue :=
  .object (ms.foldl (fun map m ↦ setEntry m.1 m.2.value map) map)

/-- A key that is written without escapes. -/
def PlainKey (key : Text) : Prop := ∀ c ∈ key, c ≠ 0x22 ∧ c ≠ 0x5C ∧ 0x20 ≤ c.toNat

instance (key : Text) : Decidable (PlainKey key) := List.decidableBAll _ key

variable {key : Text} {tok : Token} {map : List (Text × JsonValue)} {ms : List Member} {cut : Bool}

theorem plainKey_nonzero (h : PlainKey key) : 0 ∉ key := by
  intro hmem
  have := (h 0 hmem).2.2
  revert this
  decide

theorem parseString_plainKey (h : PlainKey key) (rest : Text) :
    parseString len (key ++ 0x22 :: rest) = .ok (key, rest) := by
  induction key with
  | nil => exact parseString_quote rest
  | cons c key ih =>
    obtain ⟨⟨hquote, hslash, hcontrol⟩, hkey⟩ := List.forall_mem_cons.mp h
    rw [List.cons_append, parseString_plain hquote hslash (by omega), ih hkey]
    rfl

/-- The key, the colon and the value of a member are read. -/
theorem member_run (hkey : PlainKey key) (hval : parseValue len fuel s = .ok (v, rest))
    (rest' : Text) :
    (skipWhitespace rest = 0x7D :: rest' →
      parseMembers len (fuel + 1) map (0x22 :: (key ++ 0x22 :: 0x3A :: s)) =
        .ok (.object (setEntry key v map), rest')) ∧
      (skipWhitespace rest = 0x2C :: rest' →
        parseMembers len (fuel + 1) map (0x22 :: (key ++ 0x22 :: 0x3A :: s)) =
          parseMembers len fuel (setEntry key v map) rest') :=
  parseMembers_member (skipWhitespace_cons rfl _) (parseString_plainKey hkey _)
    (skipWhitespace_cons rfl _) hval

theorem memberText_append (m : Member) (s : Text) :
    memberText m ++ s = 0x22 :: (m.1 ++ 0x22 :: 0x3A :: (m.2.text ++ s)) := by
  unfold memberText
  simp only [List.cons_append, List.append_assoc]

theorem memberText_nonzero {m : Member} (hkey : PlainKey m.1) (h : m.2.Legible) :
    0 ∉ memberText m := by
  unfold memberText
  simp only [List.mem_cons, List.mem_append, not_or]
  exact ⟨by decide, plainKey_nonzero hkey, by decide, by decide, token_nonzero h⟩

/-- Legible members are read one after the other. -/
theorem parseMembers_written (hne : ms ≠ []) (hkeys : ∀ m ∈ ms, PlainKey m.1)
    (hlegible : ∀ m ∈ ms, m.2.Legible) (hfuel : ms.length < fuel) (rest : Text) :
    parseMembers len fuel map (membersText ms ++ 0x7D :: rest) = .ok (objectOf map ms, rest) := by
  induction ms generalizing fuel map with
  | nil => exact absurd rfl hne
  | cons m ms ih =>
    obtain ⟨hkey, hkeys⟩ := List.forall_mem_cons.mp hkeys
    obtain ⟨htok, htoks⟩ := List.forall_mem_cons.mp hlegible
    rw [List.length_cons] at hfuel
    obtain ⟨fuel, rfl⟩ : ∃ n, fuel = n + 1 + 1 := ⟨fuel - 2, by omega⟩
    cases ms with
    | nil =>
      have hval : parseValue len (fuel + 1) (m.2.text ++ 0x7D :: rest) = _ :=
        parseValue_token htok (noDigitHead_cons rfl rest)
      unfold membersText
      rw [memberText_append]
      exact (member_run hkey hval rest).1 (skipWhitespace_cons rfl _)
    | cons m' ms =>
      have hval : parseValue len (fuel + 1)
          (m.2.text ++ 0x2C :: (membersText (m' :: ms) ++ 0x7D :: rest)) = _ :=
        parseValue_token htok (noDigitHead_cons rfl _)
      unfold membersText
      rw [List.append_assoc, memberText_append, List.cons_append,
        (member_run hkey hval _).2 (skipWhitespace_cons rfl _)]
      exact ih (List.cons_ne_nil _ _) hkeys htoks (by omega)

/-- Members with an illegible string are not read, whatever follows. -/
theorem parseMembers_illegible (hkeys : ∀ m ∈ ms, PlainKey m.1)
    (hillegible : ¬ ∀ m ∈ ms, m.2.Legible) (s : Text) (r : JsonValue × Text) :
    parseMembers len fuel map (cutIf cut (membersText ms ++ s)) ≠ .ok r := by
  induction ms generalizing fuel map with
  | nil => exact absurd (fun m hm ↦ absurd hm List.not_mem_nil) hillegible
  | cons m ms ih =>
    obtain ⟨hkey, hkeys⟩ := List.forall_mem_cons.mp hkeys
    -- what follows the first member: the rest of them, if there are more
    obtain ⟨t, ht, hmore⟩ : ∃ t, membersText (m :: ms) ++ s = memberText m ++ t ∧
        (ms ≠ [] → t = 0x2C :: (membersText ms ++ s)) := by
      cases ms with
      | nil => exact ⟨s, rfl, fun h ↦ absurd rfl h⟩
      | cons m' ms => exact ⟨_, List.append_assoc .., fun _ ↦ List.cons_append⟩
    have hcut : cutIf cut (membersText (m :: ms) ++ s) =
        0x22 :: (m.1 ++ 0x22 :: 0x3A :: cutIf cut (m.2.text ++ t)) := by
      rw [ht, memberText_append, cutIf_cons (by decide), cutIf_append (plainKey_nonzero hkey),
        cutIf_cons (by decide), cutIf_cons (by decide)]
    intro hread
    cases fuel with
    | zero => cases hread
    | succ fuel =>
      obtain ⟨s₁, key, s₂, s₃, val, s₄, hquote, hstring, hcolon, hval, hend⟩ :=
        parseMembers_eq_ok hread
      rw [hcut, skipWhitespace_cons rfl] at hquote
      cases hquote
      rw [parseString_plainKey hkey] at hstring
      cases hstring
      rw [skipWhitespace_cons rfl] at hcolon
      cases hcolon
      by_cases htok : m.2.Legible
      · have hrest : ¬ ∀ m ∈ ms, m.2.Legible := fun h ↦
          hillegible (List.forall_mem_cons.mpr ⟨htok, h⟩)
        have hne : ms ≠ [] := by
          rintro rfl
          exact hrest fun m hm ↦ absurd hm List.not_mem_nil
        rw [hmore hne, cutIf_append (token_nonzero htok), cutIf_cons (by decide)] at hval
        cases fuel with
        | zero => cases hval
        | succ fuel =>
          rw [parseValue_token htok (noDigitHead_cons rfl _)] at hval
          cases hval
          rw [skipWhitespace_cons rfl] at hend
          rcases hend with ⟨hbrace, _⟩ | ⟨s₅, hcomma, hmembers⟩
          · cases hbrace
          · cases hcomma
            exact ih hkeys hrest hmembers
      · exact parseValue_illegible htok cut t _ hval

theorem membersText_length (ms : List Member) : ms.length ≤ (membersText ms).length := by
  match ms with
  | [] => exact Nat.zero_le _
  | [m] =>
    unfold membersText memberText
    rw [List.length_cons, List.length_nil, List.length_cons]
    omega
  | m :: m' :: ms =>
    have ih := membersText_length (m' :: ms)
    unfold membersText
    simp only [List.length_cons, List.length_append] at ih ⊢
    omega

/-- The first character of the members is a quote. -/
theorem membersText_head (hne : ms ≠ []) (cut : Bool) (s : Text) :
    ∃ s', cutIf cut (membersText ms ++ s) = 0x22 :: s' := by
  match ms, hne with
  | [m], _ => exact ⟨_, cutIf_cons (by decide) _⟩
  | m :: m' :: ms, _ => exact ⟨_, cutIf_cons (by decide) _⟩

theorem membersText_nonzero (hkeys : ∀ m ∈ ms, PlainKey m.1)
    (hlegible : ∀ m ∈ ms, m.2.Legible) : 0 ∉ membersText ms := by
  induction ms with
  | nil => exact List.not_mem_nil
  | cons m ms ih =>
    obtain ⟨hkey, hkeys⟩ := List.forall_mem_cons.mp hkeys
    obtain ⟨htok, htoks⟩ := List.forall_mem_cons.mp hlegible
    cases ms with
    | nil => exact memberText_nonzero hkey htok
    | cons m' ms =>
      unfold membersText
      rw [List.mem_append, List.mem_cons, not_or, not_or]
      exact ⟨memberText_nonzero hkey htok, by decide, ih hkeys htoks⟩

theorem skipWhitespace_objectText (ms : List Member) :
    skipWhitespace (objectText ms) = 0x7B :: (membersText ms ++ [0x7D]) :=
  skipWhitespace_cons rfl _

/-- **A legible object is read back.** -/
theorem parse_written (hne : ms ≠ []) (hkeys : ∀ m ∈ ms, PlainKey m.1)
    (hlegible : ∀ m ∈ ms, m.2.Legible) :
    parse (cutIf cut (objectText ms)) = .ok (objectOf [] ms) := by
  have hnonzero : 0 ∉ objectText ms := by
    unfold objectText
    rw [List.mem_cons, List.mem_append, not_or, not_or]
    exact ⟨by decide, membersText_nonzero hkeys hlegible, by decide⟩
  rw [cutIf_eq_self hnonzero]
  obtain ⟨s', hhead⟩ := membersText_head hne false [0x7D]
  change membersText ms ++ [0x7D] = 0x22 :: s' at hhead
  have hlen := membersText_length ms
  have hsize : (objectText ms).length = (membersText ms).length + 2 := by
    unfold objectText
    rw [List.length_cons, List.length_append, List.length_singleton]
  obtain ⟨fuel, hfuel, hlt⟩ : ∃ n, 3 * (objectText ms).length + 1 = n + 1 + 1 ∧ ms.length < n :=
    ⟨3 * (objectText ms).length - 1, by omega, by omega⟩
  have hmembers : parseMembers (objectText ms).length fuel [] (membersText ms ++ [0x7D]) = _ :=
    parseMembers_written hne hkeys hlegible hlt []
  have hskip : skipWhitespace (membersText ms ++ [0x7D]) = membersText ms ++ [0x7D] := by
    rw [hhead]
    exact skipWhitespace_cons rfl s'
  rw [parse_eq_ok, skipWhitespace_objectText, hfuel]
  refine ⟨[], rfl, ?_⟩
  rw [parseValue_object (skipWhitespace_cons rfl _), parseObject_members, hskip]
  · exact hmembers
  · rw [hskip, hhead]
    show some (0x22 : UInt16) ≠ some 0x7D
    decide

/-- **An object with an illegible string is not read back.** -/
theorem parse_illegible (hkeys : ∀ m ∈ ms, PlainKey m.1) (hillegible : ¬ ∀ m ∈ ms, m.2.Legible)
    (v : JsonValue) : parse (cutIf cut (objectText ms)) ≠ .ok v := by
  have hne : ms ≠ [] := by
    rintro rfl
    exact hillegible fun m hm ↦ absurd hm List.not_mem_nil
  obtain ⟨s', hhead⟩ := membersText_head hne cut [0x7D]
  have hcut : cutIf cut (objectText ms) = 0x7B :: cutIf cut (membersText ms ++ [0x7D]) :=
    cutIf_cons (by decide) _
  intro hread
  obtain ⟨rest, _, hvalue⟩ := parse_eq_ok.mp hread
  generalize (cutIf cut (objectText ms)).length = len at hvalue
  rw [hcut, skipWhitespace_cons rfl, parseValue_object (skipWhitespace_cons rfl _), hhead] at hvalue
  cases len with
  | zero => cases hvalue
  | succ len =>
    rcases parseObject_eq_ok hvalue with ⟨hbrace, _⟩ | ⟨_, hmembers⟩
    · rw [skipWhitespace_cons rfl] at hbrace
      cases hbrace
    · rw [skipWhitespace_cons rfl, ← hhead] at hmembers
      exact parseMembers_illegible hkeys hillegible _ _ hmembers

/-! ## 5. The fields of an object that was read -/

theorem get_cons (k : Text) (v : JsonValue) (map : List (Text × JsonValue)) (key : Text) :
    (JsonValue.object ((k, v) :: map)).get key =
      if k = key then some v else (JsonValue.object map).get key := by
  show (((k, v) :: map).find? fun entry ↦ entry.1 = key).map (·.2) = _
  rw [List.find?_cons]
  by_cases hk : k = key
  · rw [if_pos hk, decide_eq_true hk]
    rfl
  · rw [if_neg hk, decide_eq_false hk]
    rfl

theorem get_setEntry (map : List (Text × JsonValue)) (key key' : Text) (val : JsonValue) :
    (JsonValue.object (setEntry key val map)).get key' =
      if key = key' then some val else (JsonValue.object map).get key' := by
  induction map with
  | nil => exact get_cons ..
  | cons entry map ih =>
    obtain ⟨k, v⟩ := entry
    unfold setEntry
    by_cases hk : k = key
    · rw [if_pos hk, get_cons, get_cons, hk]
      split <;> rfl
    · rw [if_neg hk, get_cons, get_cons, ih]
      by_cases hk' : k = key'
      · rw [if_pos hk', if_neg (fun h ↦ hk (hk'.trans h.symm)), if_pos hk']
      · rw [if_neg hk', if_neg hk']

theorem get_objectOf_of_not_mem (hkey : key ∉ ms.map (·.1)) :
    (objectOf map ms).get key = (JsonValue.object map).get key := by
  unfold objectOf
  induction ms generalizing map with
  | nil => rfl
  | cons m ms ih =>
    rw [List.map_cons, List.mem_cons, not_or] at hkey
    rw [List.foldl_cons, ih hkey.2, get_setEntry, if_neg (Ne.symm hkey.1)]

/-- A field is the value of its member, when no key is written twice. -/
theorem get_objectOf_of_mem (hnodup : (ms.map (·.1)).Nodup) {m : Member} (hm : m ∈ ms) :
    (objectOf map ms).get m.1 = some m.2.value := by
  induction ms generalizing map with
  | nil => exact absurd hm List.not_mem_nil
  | cons m' ms ih =>
    rw [List.map_cons, List.nodup_cons] at hnodup
    rcases List.mem_cons.mp hm with rfl | hm
    · show (objectOf (setEntry m.1 m.2.value map) ms).get m.1 = _
      rw [get_objectOf_of_not_mem hnodup.1, get_setEntry, if_pos rfl]
    · exact ih hnodup.2 hm

end JsonParser

end UtxoVm.Contracts
