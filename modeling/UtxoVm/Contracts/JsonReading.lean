import UtxoVm.Contracts.Json

/-!
# Contracts/JsonReading — what the parser accepts

One inversion lemma for each function of the parser; from them, that the fuel is enough, that a text
is read in the same way when more follows behind a zero unit, and that what `escapeJsonString` and
the `toJson` functions write is read back.
-/

namespace UtxoVm.Contracts

open RustStd AsStd

namespace JsonParser

variable {len len' fuel : Nat} {s rest : Text} {v : JsonValue}

/-! ## 1. Inversion -/

theorem fail_ne_ok {α : Type} {msg : Text} {x : α} : fail len rest msg ≠ .ok x := by
  unfold fail
  intro h
  cases h

theorem fail_ne_outOfFuel {α : Type} {msg : Text} :
    (fail len rest msg : Except ParseError α) ≠ .error .outOfFuel := by
  unfold fail
  intro h
  cases h

theorem consUnit_eq_ok {c : UInt16} {r : Except ParseError (Text × Text)} {key : Text} :
    consUnit c r = .ok (key, rest) ↔ ∃ key', r = .ok (key', rest) ∧ key = c :: key' := by
  unfold consUnit
  cases r with
  | error e =>
    constructor
    · intro h
      cases h
    · rintro ⟨_, h, _⟩
      cases h
  | ok r =>
    obtain ⟨key', rest'⟩ := r
    constructor
    · intro h
      cases h
      exact ⟨key', rfl, rfl⟩
    · rintro ⟨_, h, rfl⟩
      cases h
      rfl

theorem parseString_quote (s : Text) : parseString len (0x22 :: s) = .ok ([], s) := by
  rw [parseString.eq_def]
  rfl

theorem parseString_escape {esc c : UInt16} (h : unescape esc = some c) (s : Text) :
    parseString len (0x5C :: esc :: s) = consUnit c (parseString len s) := by
  rw [parseString.eq_def]
  simp only [h]
  rfl

theorem parseString_hex (h₁ h₂ h₃ h₄ : UInt16) (s : Text) :
    parseString len (0x5C :: 0x75 :: h₁ :: h₂ :: h₃ :: h₄ :: s) =
      consUnit (charOfHex [h₁, h₂, h₃, h₄]) (parseString len s) := by
  rw [parseString.eq_def]
  rfl

theorem parseString_shortHex (hshort : ∀ h₁ h₂ h₃ h₄ s', s = h₁ :: h₂ :: h₃ :: h₄ :: s' → False) :
    parseString len (0x5C :: 0x75 :: s) =
      fail len s (lit "Incomplete \\u hex escape in string") := by
  rw [parseString.eq_def]
  match s, hshort with
  | [], _ => rfl
  | [_], _ => rfl
  | [_, _], _ => rfl
  | [_, _, _], _ => rfl
  | h₁ :: h₂ :: h₃ :: h₄ :: s', hshort => exact (hshort h₁ h₂ h₃ h₄ s' rfl).elim

theorem parseString_control {c : UInt16} (hquote : c ≠ 0x22) (hslash : c ≠ 0x5C)
    (hcontrol : c.toNat < 0x20) (s : Text) : parseString len (c :: s) =
      fail len (c :: s) (lit "Unescaped control character in string: " ++ decimal c.toNat) := by
  rw [parseString.eq_def]
  simp only [if_neg hquote, if_neg hslash, if_pos hcontrol]

theorem parseString_plain {c : UInt16} (hquote : c ≠ 0x22) (hslash : c ≠ 0x5C)
    (hcontrol : ¬ c.toNat < 0x20) (s : Text) :
    parseString len (c :: s) = consUnit c (parseString len s) := by
  rw [parseString.eq_def]
  simp only [if_neg hquote, if_neg hslash, if_neg hcontrol]

/-- A string is read unit by unit. -/
theorem parseString_rec {motive : Text → Text → Text → Prop}
    (quote : ∀ s, motive (0x22 :: s) [] s)
    (escape : ∀ esc c s key rest, unescape esc = some c → motive s key rest →
      motive (0x5C :: esc :: s) (c :: key) rest)
    (hex : ∀ h₁ h₂ h₃ h₄ s key rest, motive s key rest →
      motive (0x5C :: 0x75 :: h₁ :: h₂ :: h₃ :: h₄ :: s) (charOfHex [h₁, h₂, h₃, h₄] :: key) rest)
    (plain : ∀ c s key rest, c ≠ 0x22 → c ≠ 0x5C → ¬ c.toNat < 0x20 → motive s key rest →
      motive (c :: s) (c :: key) rest)
    {key : Text} (h : parseString len s = .ok (key, rest)) : motive s key rest := by
  induction s using parseString.induct generalizing key with
  | case1 => exact absurd h fail_ne_ok
  | case2 s =>
    rw [parseString_quote] at h
    cases h
    exact quote _
  | case3 => exact absurd h fail_ne_ok
  | case4 esc s c hesc _ ih =>
    rw [parseString_escape hesc, consUnit_eq_ok] at h
    obtain ⟨key', h, rfl⟩ := h
    exact escape _ _ _ _ _ hesc (ih h)
  | case5 h₁ h₂ h₃ h₄ s _ _ ih =>
    rw [parseString_hex, consUnit_eq_ok] at h
    obtain ⟨key', h, rfl⟩ := h
    exact hex _ _ _ _ _ _ _ (ih h)
  | case6 s hshort _ _ =>
    rw [parseString_shortHex hshort] at h
    exact absurd h fail_ne_ok
  | case7 esc s hesc hu _ =>
    rw [parseString.eq_def] at h
    simp only [hesc, if_neg hu] at h
    exact absurd h fail_ne_ok
  | case8 c s hquote hslash hcontrol =>
    rw [parseString_control hquote hslash hcontrol] at h
    exact absurd h fail_ne_ok
  | case9 c s hquote hslash hcontrol ih =>
    rw [parseString_plain hquote hslash hcontrol, consUnit_eq_ok] at h
    obtain ⟨key', h, rfl⟩ := h
    exact plain _ _ _ _ hquote hslash hcontrol (ih h)

/-- The values that need no further value to be read. -/
def Scalar (len : Nat) (c : UInt16) (s : Text) (v : JsonValue) (rest : Text) : Prop :=
  (c = 0x22 ∧ ∃ text, parseString len s = .ok (text, rest) ∧ v = .string text) ∨
    ((c = 0x74 ∨ c = 0x66) ∧ parseBool len (c :: s) = .ok (v, rest)) ∨
    (c = 0x6E ∧ parseNull len (c :: s) = .ok (v, rest)) ∨
    ((c = 0x2D ∨ isDigit c) ∧ parseNumber len (c :: s) = .ok (v, rest))

theorem parseValue_eq_ok (h : parseValue len (fuel + 1) s = .ok (v, rest)) :
    ∃ c s', skipWhitespace s = c :: s' ∧
      ((c = 0x7B ∧ parseObject len fuel s' = .ok (v, rest)) ∨
        (c = 0x5B ∧ parseArray len fuel s' = .ok (v, rest)) ∨ Scalar len c s' v rest) := by
  unfold parseValue at h
  split at h
  · exact absurd h fail_ne_ok
  rename_i c s' hskip
  refine ⟨c, s', hskip, ?_⟩
  split at h
  · rename_i hc
    exact .inl ⟨hc, h⟩
  split at h
  · rename_i hc
    exact .inr (.inl ⟨hc, h⟩)
  refine .inr (.inr ?_)
  split at h
  · rename_i hc
    split at h
    · cases h
    · rename_i text rest' hstring
      cases h
      exact .inl ⟨hc, text, hstring, rfl⟩
  split at h
  · rename_i hc
    exact .inr (.inl ⟨hc, h⟩)
  split at h
  · rename_i hc
    exact .inr (.inr (.inl ⟨hc, h⟩))
  split at h
  · rename_i hc
    exact .inr (.inr (.inr ⟨hc, h⟩))
  · exact absurd h fail_ne_ok

theorem parseObject_eq_ok (h : parseObject len (fuel + 1) s = .ok (v, rest)) :
    (skipWhitespace s = 0x7D :: rest ∧ v = .object []) ∨
      (skipWhitespace s).head? ≠ some 0x7D ∧
        parseMembers len fuel [] (skipWhitespace s) = .ok (v, rest) := by
  unfold parseObject at h
  split at h
  · rename_i hskip
    rw [hskip]
    exact .inr ⟨nofun, h⟩
  rename_i c s' hskip
  split at h
  · rename_i hc
    cases h
    rw [hskip, hc]
    exact .inl ⟨rfl, rfl⟩
  · rename_i hc
    rw [hskip]
    exact .inr ⟨fun hhead ↦ hc (Option.some.inj hhead), h⟩

theorem parseMembers_eq_ok {map : List (Text × JsonValue)}
    (h : parseMembers len (fuel + 1) map s = .ok (v, rest)) :
    ∃ s₁ key s₂ s₃ val s₄, skipWhitespace s = 0x22 :: s₁ ∧ parseString len s₁ = .ok (key, s₂) ∧
      skipWhitespace s₂ = 0x3A :: s₃ ∧ parseValue len fuel s₃ = .ok (val, s₄) ∧
      ((skipWhitespace s₄ = 0x7D :: rest ∧ v = .object (setEntry key val map)) ∨
        ∃ s₅, skipWhitespace s₄ = 0x2C :: s₅ ∧
          parseMembers len fuel (setEntry key val map) s₅ = .ok (v, rest)) := by
  unfold parseMembers at h
  split at h
  · exact absurd h fail_ne_ok
  split at h
  · exact absurd h fail_ne_ok
  rename_i c s₁ hskip
  split at h
  · exact absurd h fail_ne_ok
  rename_i hc
  rw [not_not.mp hc] at hskip
  split at h
  · cases h
  rename_i key s₂ hkey
  split at h
  · exact absurd h fail_ne_ok
  rename_i c' s₃ hcolon
  split at h
  · exact absurd h fail_ne_ok
  rename_i hc'
  rw [not_not.mp hc'] at hcolon
  split at h
  · cases h
  rename_i val s₄ hval
  refine ⟨s₁, key, s₂, s₃, val, s₄, hskip, hkey, hcolon, hval, ?_⟩
  split at h
  · exact absurd h fail_ne_ok
  rename_i c'' s₅ hnext
  split at h
  · rename_i hbrace
    cases h
    rw [hbrace] at hnext
    exact .inl ⟨hnext, rfl⟩
  split at h
  · rename_i hcomma
    rw [hcomma] at hnext
    exact .inr ⟨s₅, hnext, h⟩
  · exact absurd h fail_ne_ok

theorem parseArray_eq_ok (h : parseArray len (fuel + 1) s = .ok (v, rest)) :
    (skipWhitespace s = 0x5D :: rest ∧ v = .array []) ∨
      (skipWhitespace s).head? ≠ some 0x5D ∧
        parseElements len fuel [] (skipWhitespace s) = .ok (v, rest) := by
  unfold parseArray at h
  split at h
  · rename_i hskip
    rw [hskip]
    exact .inr ⟨nofun, h⟩
  rename_i c s' hskip
  split at h
  · rename_i hc
    cases h
    rw [hskip, hc]
    exact .inl ⟨rfl, rfl⟩
  · rename_i hc
    rw [hskip]
    exact .inr ⟨fun hhead ↦ hc (Option.some.inj hhead), h⟩

theorem parseElements_eq_ok {arr : List JsonValue}
    (h : parseElements len (fuel + 1) arr s = .ok (v, rest)) :
    ∃ val s₁, parseValue len fuel s = .ok (val, s₁) ∧
      ((skipWhitespace s₁ = 0x5D :: rest ∧ v = .array (arr ++ [val])) ∨
        ∃ s₂, skipWhitespace s₁ = 0x2C :: s₂ ∧
          parseElements len fuel (arr ++ [val]) s₂ = .ok (v, rest)) := by
  unfold parseElements at h
  split at h
  · exact absurd h fail_ne_ok
  split at h
  · cases h
  rename_i val s₁ hval
  refine ⟨val, s₁, hval, ?_⟩
  split at h
  · exact absurd h fail_ne_ok
  rename_i c s₂ hnext
  split at h
  · rename_i hbracket
    cases h
    rw [hbracket] at hnext
    exact .inl ⟨hnext, rfl⟩
  split at h
  · rename_i hcomma
    rw [hcomma] at hnext
    exact .inr ⟨s₂, hnext, h⟩
  · exact absurd h fail_ne_ok

theorem parse_eq_ok {json : Text} : parse json = .ok v ↔ ∃ rest, skipWhitespace rest = [] ∧
    parseValue json.length (3 * json.length + 1) (skipWhitespace json) = .ok (v, rest) := by
  unfold parse
  generalize skipWhitespace json = s
  cases s with
  | nil =>
    constructor
    · intro h
      exact absurd h fail_ne_ok
    · rintro ⟨rest, _, h⟩
      exact absurd h fail_ne_ok
  | cons c s =>
    dsimp only
    generalize parseValue json.length (3 * json.length + 1) (c :: s) = r
    cases r with
    | error e =>
      constructor
      · intro h
        cases h
      · rintro ⟨rest, _, h⟩
        cases h
    | ok r =>
      obtain ⟨val, rest⟩ := r
      dsimp only
      constructor
      · intro h
        split at h
        · rename_i hrest
          cases h
          exact ⟨rest, hrest, rfl⟩
        · exact absurd h fail_ne_ok
      · rintro ⟨rest', hrest, h⟩
        cases h
        rw [hrest]

/-! ## 2. The fuel is enough -/

theorem skipWhitespace_length (s : Text) : (skipWhitespace s).length ≤ s.length :=
  List.length_dropWhile_le ..

theorem skipWhitespace_length_lt {c : UInt16} (h : skipWhitespace s = c :: rest) :
    rest.length < s.length := by
  have hle := skipWhitespace_length s
  rw [h, List.length_cons] at hle
  omega

theorem parseString_length {key : Text} (h : parseString len s = .ok (key, rest)) :
    rest.length < s.length := by
  refine parseString_rec (motive := fun s _ rest ↦ rest.length < s.length) ?_ ?_ ?_ ?_ h
  · intro s
    exact Nat.lt_succ_self _
  · intro esc c s key rest _ ih
    simp only [List.length_cons]
    omega
  · intro h₁ h₂ h₃ h₄ s key rest ih
    simp only [List.length_cons]
    omega
  · intro c s key rest _ _ _ ih
    simp only [List.length_cons]
    omega

/-- The text does not go on with a digit. -/
def NoDigitHead (s : Text) : Prop := ∀ c s', s = c :: s' → isDigit c = false

theorem noDigitHead_cons {c : UInt16} (h : isDigit c = false) (s : Text) :
    NoDigitHead (c :: s) := by
  intro c' s' heq
  cases heq
  exact h

theorem takeWhile_isDigit {digits : Text} (hdigits : ∀ c ∈ digits, isDigit c = true)
    (hrest : NoDigitHead rest) : (digits ++ rest).takeWhile isDigit = digits ∧
      (digits ++ rest).dropWhile isDigit = rest := by
  have hnil : rest.takeWhile isDigit = [] ∧ rest.dropWhile isDigit = rest := by
    cases rest with
    | nil => exact ⟨rfl, rfl⟩
    | cons c rest =>
      have hc := hrest c rest rfl
      rw [List.takeWhile_cons, List.dropWhile_cons, hc]
      exact ⟨rfl, rfl⟩
  rw [List.takeWhile_append_of_pos hdigits, List.dropWhile_append_of_pos hdigits, hnil.1, hnil.2,
    List.append_nil]
  exact ⟨rfl, rfl⟩

theorem parseNumber_append {sign digits : Text} (hsign : sign = [] ∨ sign = [0x2D])
    (hne : digits ≠ []) (hdigits : ∀ c ∈ digits, isDigit c = true) (hrest : NoDigitHead rest) :
    parseNumber len (sign ++ (digits ++ rest)) =
      .ok (.number (parseI64 (sign ++ digits)), rest) := by
  have hsign' : (if (sign ++ (digits ++ rest)).head? = some 0x2D then [0x2D] else []) = sign := by
    rcases hsign with rfl | rfl
    · match digits, hne, hdigits with
      | d :: digits, _, hdigits =>
        refine if_neg fun h ↦ ?_
        have hd := hdigits d List.mem_cons_self
        rw [Option.some.inj h] at hd
        revert hd
        decide
    · rfl
  obtain ⟨htake, hdrop⟩ := takeWhile_isDigit hdigits hrest
  unfold parseNumber
  simp only [hsign', List.drop_left, htake, hdrop, if_neg hne]

theorem parseNumber_eq_ok (h : parseNumber len s = .ok (v, rest)) :
    ∃ sign digits, s = sign ++ (digits ++ rest) ∧ (sign = [] ∨ sign = [0x2D]) ∧ digits ≠ [] ∧
      (∀ c ∈ digits, isDigit c = true) ∧ NoDigitHead rest ∧
      v = .number (parseI64 (sign ++ digits)) := by
  obtain ⟨sign, s', hif, rfl, hsign⟩ : ∃ sign s',
      (if s.head? = some 0x2D then [0x2D] else [] : Text) = sign ∧ s = sign ++ s' ∧
        (sign = [] ∨ sign = [0x2D]) := by
    by_cases hhead : s.head? = some 0x2D
    · obtain ⟨s', rfl⟩ := List.head?_eq_some_iff.mp hhead
      exact ⟨[0x2D], s', if_pos hhead, rfl, .inr rfl⟩
    · exact ⟨[], s, if_neg hhead, rfl, .inl rfl⟩
  unfold parseNumber at h
  simp only [hif, List.drop_left] at h
  split at h
  · exact absurd h fail_ne_ok
  rename_i hne
  cases h
  refine ⟨sign, _, ?_, hsign, hne, fun c hc ↦ List.mem_takeWhile_imp hc, ?_, rfl⟩
  · rw [List.takeWhile_append_dropWhile]
  · intro c rest hrest
    have hhead := List.head?_dropWhile_not isDigit s'
    rw [hrest] at hhead
    exact hhead

theorem parseBool_eq_ok : parseBool len s = .ok (v, rest) ↔
    (s = lit "true" ++ rest ∧ v = .bool true) ∨ (s = lit "false" ++ rest ∧ v = .bool false) := by
  unfold parseBool
  constructor
  · intro h
    split at h
    · rename_i hstarts
      obtain ⟨rest', rfl⟩ := hstarts
      cases h
      exact .inl ⟨rfl, rfl⟩
    split at h
    · rename_i hstarts
      obtain ⟨rest', rfl⟩ := hstarts
      cases h
      exact .inr ⟨rfl, rfl⟩
    · exact absurd h fail_ne_ok
  · rintro (⟨rfl, rfl⟩ | ⟨rfl, rfl⟩)
    · rw [if_pos (List.prefix_append ..)]
      rfl
    · rw [if_neg, if_pos (List.prefix_append ..)]
      · rfl
      · intro h
        have hhead : (0x74 : UInt16) = 0x66 := (List.cons_prefix_cons.mp h).1
        revert hhead
        decide

theorem parseNull_eq_ok : parseNull len s = .ok (v, rest) ↔ s = lit "null" ++ rest ∧ v = .null := by
  unfold parseNull
  constructor
  · intro h
    split at h
    · rename_i hstarts
      obtain ⟨rest', rfl⟩ := hstarts
      cases h
      exact ⟨rfl, rfl⟩
    · exact absurd h fail_ne_ok
  · rintro ⟨rfl, rfl⟩
    rw [if_pos (List.prefix_append ..)]
    rfl

/-- What a successful run of the parser does, rule by rule. -/
theorem parse_rec {V : Nat → Text → JsonValue → Text → Prop}
    {M : Nat → List (Text × JsonValue) → Text → JsonValue → Text → Prop}
    {E : Nat → List JsonValue → Text → JsonValue → Text → Prop}
    (scalar : ∀ n s c s' v rest, skipWhitespace s = c :: s' → Scalar len c s' v rest →
      V (n + 1) s v rest)
    (emptyObject : ∀ n s s' rest, skipWhitespace s = 0x7B :: s' →
      skipWhitespace s' = 0x7D :: rest → V (n + 2) s (.object []) rest)
    (object : ∀ n s s' v rest, skipWhitespace s = 0x7B :: s' →
      (skipWhitespace s').head? ≠ some 0x7D → M n [] (skipWhitespace s') v rest →
      V (n + 2) s v rest)
    (emptyArray : ∀ n s s' rest, skipWhitespace s = 0x5B :: s' →
      skipWhitespace s' = 0x5D :: rest → V (n + 2) s (.array []) rest)
    (array : ∀ n s s' v rest, skipWhitespace s = 0x5B :: s' →
      (skipWhitespace s').head? ≠ some 0x5D → E n [] (skipWhitespace s') v rest →
      V (n + 2) s v rest)
    (lastMember : ∀ n map s s₁ key s₂ s₃ val s₄ rest, skipWhitespace s = 0x22 :: s₁ →
      parseString len s₁ = .ok (key, s₂) → skipWhitespace s₂ = 0x3A :: s₃ → V n s₃ val s₄ →
      skipWhitespace s₄ = 0x7D :: rest → M (n + 1) map s (.object (setEntry key val map)) rest)
    (member : ∀ n map s s₁ key s₂ s₃ val s₄ s₅ v rest, skipWhitespace s = 0x22 :: s₁ →
      parseString len s₁ = .ok (key, s₂) → skipWhitespace s₂ = 0x3A :: s₃ → V n s₃ val s₄ →
      skipWhitespace s₄ = 0x2C :: s₅ → M n (setEntry key val map) s₅ v rest →
      M (n + 1) map s v rest)
    (lastElement : ∀ n arr s val s₁ rest, V n s val s₁ → skipWhitespace s₁ = 0x5D :: rest →
      E (n + 1) arr s (.array (arr ++ [val])) rest)
    (element : ∀ n arr s val s₁ s₂ v rest, V n s val s₁ → skipWhitespace s₁ = 0x2C :: s₂ →
      E n (arr ++ [val]) s₂ v rest → E (n + 1) arr s v rest) (fuel : Nat) :
    (∀ s v rest, parseValue len fuel s = .ok (v, rest) → V fuel s v rest) ∧
      (∀ map s v rest, parseMembers len fuel map s = .ok (v, rest) → M fuel map s v rest) ∧
      ∀ arr s v rest, parseElements len fuel arr s = .ok (v, rest) → E fuel arr s v rest := by
  induction fuel using Nat.strong_induction_on with
  | _ fuel ih =>
    cases fuel with
    | zero =>
      refine ⟨fun _ _ _ h ↦ ?_, fun _ _ _ _ h ↦ ?_, fun _ _ _ _ h ↦ ?_⟩ <;> cases h
    | succ n =>
      refine ⟨fun s v rest h ↦ ?_, fun map s v rest h ↦ ?_, fun arr s v rest h ↦ ?_⟩
      · obtain ⟨c, s', hskip, hcases⟩ := parseValue_eq_ok h
        rcases hcases with ⟨rfl, hobject⟩ | ⟨rfl, harray⟩ | hscalar
        · cases n with
          | zero => cases hobject
          | succ n =>
            rcases parseObject_eq_ok hobject with ⟨hbrace, rfl⟩ | ⟨hhead, hmembers⟩
            · exact emptyObject n s s' rest hskip hbrace
            · exact object n s s' v rest hskip hhead ((ih n (by omega)).2.1 _ _ _ _ hmembers)
        · cases n with
          | zero => cases harray
          | succ n =>
            rcases parseArray_eq_ok harray with ⟨hbracket, rfl⟩ | ⟨hhead, helements⟩
            · exact emptyArray n s s' rest hskip hbracket
            · exact array n s s' v rest hskip hhead ((ih n (by omega)).2.2 _ _ _ _ helements)
        · exact scalar n s c s' v rest hskip hscalar
      · obtain ⟨s₁, key, s₂, s₃, val, s₄, hquote, hkey, hcolon, hval, hend⟩ := parseMembers_eq_ok h
        have hv := (ih n (by omega)).1 _ _ _ hval
        rcases hend with ⟨hbrace, rfl⟩ | ⟨s₅, hcomma, hmembers⟩
        · exact lastMember n map s s₁ key s₂ s₃ val s₄ rest hquote hkey hcolon hv hbrace
        · exact member n map s s₁ key s₂ s₃ val s₄ s₅ v rest hquote hkey hcolon hv hcomma
            ((ih n (by omega)).2.1 _ _ _ _ hmembers)
      · obtain ⟨val, s₁, hval, hend⟩ := parseElements_eq_ok h
        have hv := (ih n (by omega)).1 _ _ _ hval
        rcases hend with ⟨hbracket, rfl⟩ | ⟨s₂, hcomma, helements⟩
        · exact lastElement n arr s val s₁ rest hv hbracket
        · exact element n arr s val s₁ s₂ v rest hv hcomma ((ih n (by omega)).2.2 _ _ _ _ helements)

theorem scalar_length {c : UInt16} (h : Scalar len c s v rest) : rest.length ≤ s.length := by
  rcases h with ⟨_, text, hstring, _⟩ | ⟨_, hbool⟩ | ⟨_, hnull⟩ | ⟨_, hnumber⟩
  · exact (parseString_length hstring).le
  · rcases parseBool_eq_ok.mp hbool with ⟨hs, _⟩ | ⟨hs, _⟩
    · have hlen := congrArg List.length hs
      rw [List.length_append, List.length_cons, show (lit "true").length = 4 from rfl] at hlen
      omega
    · have hlen := congrArg List.length hs
      rw [List.length_append, List.length_cons, show (lit "false").length = 5 from rfl] at hlen
      omega
  · have hlen := congrArg List.length (parseNull_eq_ok.mp hnull).1
    rw [List.length_append, List.length_cons, show (lit "null").length = 4 from rfl] at hlen
    omega
  · obtain ⟨sign, digits, hs, _, hne, _⟩ := parseNumber_eq_ok hnumber
    have hlen := congrArg List.length hs
    have hpos := List.length_pos_iff.mpr hne
    rw [List.length_append, List.length_append, List.length_cons] at hlen
    omega

/-- Every value takes up text. -/
theorem parse_length (len fuel : Nat) :
    (∀ s v rest, parseValue len fuel s = .ok (v, rest) → rest.length < s.length) ∧
      (∀ map s v rest, parseMembers len fuel map s = .ok (v, rest) → rest.length < s.length) ∧
      ∀ arr s v rest, parseElements len fuel arr s = .ok (v, rest) → rest.length < s.length := by
  refine parse_rec (V := fun _ s _ rest ↦ rest.length < s.length)
    (M := fun _ _ s _ rest ↦ rest.length < s.length)
    (E := fun _ _ s _ rest ↦ rest.length < s.length) ?_ ?_ ?_ ?_ ?_ ?_ ?_ ?_ ?_ fuel
  · intro n s c s' v rest hskip hscalar
    have := skipWhitespace_length_lt hskip
    have := scalar_length hscalar
    omega
  · intro n s s' rest hskip hbrace
    have := skipWhitespace_length_lt hskip
    have := skipWhitespace_length_lt hbrace
    omega
  · intro n s s' v rest hskip _ ih
    have := skipWhitespace_length_lt hskip
    have := skipWhitespace_length s'
    omega
  · intro n s s' rest hskip hbracket
    have := skipWhitespace_length_lt hskip
    have := skipWhitespace_length_lt hbracket
    omega
  · intro n s s' v rest hskip _ ih
    have := skipWhitespace_length_lt hskip
    have := skipWhitespace_length s'
    omega
  · intro n map s s₁ key s₂ s₃ val s₄ rest hquote hkey hcolon ih hbrace
    have := skipWhitespace_length_lt hquote
    have := parseString_length hkey
    have := skipWhitespace_length_lt hcolon
    have := skipWhitespace_length_lt hbrace
    omega
  · intro n map s s₁ key s₂ s₃ val s₄ s₅ v rest hquote hkey hcolon ih hcomma ihm
    have := skipWhitespace_length_lt hquote
    have := parseString_length hkey
    have := skipWhitespace_length_lt hcolon
    have := skipWhitespace_length_lt hcomma
    omega
  · intro n arr s val s₁ rest ih hbracket
    have := skipWhitespace_length_lt hbracket
    omega
  · intro n arr s val s₁ s₂ v rest ih hcomma ihe
    have := skipWhitespace_length_lt hcomma
    omega

theorem parseString_ne_outOfFuel (len : Nat) (s : Text) :
    parseString len s ≠ .error .outOfFuel := by
  have hcons (c : UInt16) (r : Except ParseError (Text × Text)) (hr : r ≠ .error .outOfFuel) :
      consUnit c r ≠ .error .outOfFuel := by
    cases r with
    | error e => exact fun h ↦ hr (by cases h; rfl)
    | ok r => exact fun h ↦ by cases h
  induction s using parseString.induct with
  | case1 => exact fail_ne_outOfFuel
  | case2 s =>
    rw [parseString_quote]
    exact fun h ↦ by cases h
  | case3 => exact fail_ne_outOfFuel
  | case4 esc s c hesc _ ih =>
    rw [parseString_escape hesc]
    exact hcons _ _ ih
  | case5 h₁ h₂ h₃ h₄ s _ _ ih =>
    rw [parseString_hex]
    exact hcons _ _ ih
  | case6 s hshort _ _ =>
    rw [parseString_shortHex hshort]
    exact fail_ne_outOfFuel
  | case7 esc s hesc hu _ =>
    rw [parseString.eq_def]
    simp only [hesc, if_neg hu]
    exact fail_ne_outOfFuel
  | case8 c s hquote hslash hcontrol =>
    rw [parseString_control hquote hslash hcontrol]
    exact fail_ne_outOfFuel
  | case9 c s hquote hslash hcontrol ih =>
    rw [parseString_plain hquote hslash hcontrol]
    exact hcons _ _ ih

theorem parseBool_ne_outOfFuel (len : Nat) (s : Text) : parseBool len s ≠ .error .outOfFuel := by
  intro h
  unfold parseBool at h
  split at h
  · cases h
  split at h
  · cases h
  · exact fail_ne_outOfFuel h

theorem parseNull_ne_outOfFuel (len : Nat) (s : Text) : parseNull len s ≠ .error .outOfFuel := by
  intro h
  unfold parseNull at h
  split at h
  · cases h
  · exact fail_ne_outOfFuel h

theorem parseNumber_ne_outOfFuel (len : Nat) (s : Text) :
    parseNumber len s ≠ .error .outOfFuel := by
  intro h
  unfold parseNumber at h
  dsimp only at h
  generalize (if s.head? = some 0x2D then [0x2D] else [] : Text) = sign at h
  split at h
  · exact fail_ne_outOfFuel h
  · cases h

/-- Only a text that is long for the fuel can use it up. -/
theorem outOfFuel_length (len fuel : Nat) :
    (∀ s, parseValue len fuel s = .error .outOfFuel → fuel ≤ 3 * s.length) ∧
      (∀ s, parseObject len fuel s = .error .outOfFuel → fuel ≤ 3 * s.length + 1) ∧
      (∀ map s, parseMembers len fuel map s = .error .outOfFuel → fuel ≤ 3 * s.length) ∧
      (∀ s, parseArray len fuel s = .error .outOfFuel → fuel ≤ 3 * s.length + 2) ∧
      ∀ arr s, parseElements len fuel arr s = .error .outOfFuel → fuel ≤ 3 * s.length + 1 := by
  induction fuel with
  | zero => exact ⟨by omega, by omega, by omega, by omega, by omega⟩
  | succ fuel ih =>
    obtain ⟨ihValue, ihObject, ihMembers, ihArray, ihElements⟩ := ih
    refine ⟨fun s h ↦ ?_, fun s h ↦ ?_, fun map s h ↦ ?_, fun s h ↦ ?_, fun arr s h ↦ ?_⟩
    · unfold parseValue at h
      split at h
      · exact absurd h fail_ne_outOfFuel
      rename_i c s' hskip
      have hlen := skipWhitespace_length_lt hskip
      split at h
      · have := ihObject _ h
        omega
      split at h
      · have := ihArray _ h
        omega
      split at h
      · split at h
        · rename_i e hstring
          cases h
          exact absurd hstring (parseString_ne_outOfFuel _ _)
        · cases h
      split at h
      · exact absurd h (parseBool_ne_outOfFuel _ _)
      split at h
      · exact absurd h (parseNull_ne_outOfFuel _ _)
      split at h
      · exact absurd h (parseNumber_ne_outOfFuel _ _)
      · exact absurd h fail_ne_outOfFuel
    · unfold parseObject at h
      split at h
      · have := ihMembers _ _ h
        simp only [List.length_nil] at this
        omega
      rename_i c s' hskip
      have hlen := skipWhitespace_length s
      rw [hskip] at hlen
      split at h
      · cases h
      · have := ihMembers _ _ h
        omega
    · unfold parseMembers at h
      split at h
      · exact absurd h fail_ne_outOfFuel
      split at h
      · exact absurd h fail_ne_outOfFuel
      rename_i c s₁ hskip
      have hlen := skipWhitespace_length_lt hskip
      split at h
      · exact absurd h fail_ne_outOfFuel
      split at h
      · rename_i e hstring
        cases h
        exact absurd hstring (parseString_ne_outOfFuel _ _)
      rename_i key s₂ hkey
      have hlen₂ := parseString_length hkey
      split at h
      · exact absurd h fail_ne_outOfFuel
      rename_i c' s₃ hcolon
      have hlen₃ := skipWhitespace_length_lt hcolon
      split at h
      · exact absurd h fail_ne_outOfFuel
      split at h
      · rename_i e hval
        cases h
        have := ihValue _ hval
        omega
      rename_i val s₄ hval
      have hlen₄ := (parse_length len fuel).1 _ _ _ hval
      split at h
      · exact absurd h fail_ne_outOfFuel
      rename_i c'' s₅ hnext
      have hlen₅ := skipWhitespace_length_lt hnext
      split at h
      · cases h
      split at h
      · have := ihMembers _ _ h
        omega
      · exact absurd h fail_ne_outOfFuel
    · unfold parseArray at h
      split at h
      · have := ihElements _ _ h
        simp only [List.length_nil] at this
        omega
      rename_i c s' hskip
      have hlen := skipWhitespace_length s
      rw [hskip] at hlen
      split at h
      · cases h
      · have := ihElements _ _ h
        omega
    · unfold parseElements at h
      split at h
      · exact absurd h fail_ne_outOfFuel
      split at h
      · rename_i e hval
        cases h
        have := ihValue _ hval
        omega
      rename_i val s₁ hval
      have hlen := (parse_length len fuel).1 _ _ _ hval
      split at h
      · exact absurd h fail_ne_outOfFuel
      rename_i c s₂ hnext
      have hlen₂ := skipWhitespace_length_lt hnext
      split at h
      · cases h
      split at h
      · have := ihElements _ _ h
        omega
      · exact absurd h fail_ne_outOfFuel

/-- **The parser never runs out of fuel.** -/
theorem parse_ne_outOfFuel (json : Text) : parse json ≠ .error .outOfFuel := by
  intro h
  unfold parse at h
  split at h
  · exact fail_ne_outOfFuel h
  rename_i c s hskip
  have hlen := skipWhitespace_length json
  rw [hskip] at hlen
  split at h
  · rename_i e hval
    cases h
    have := (outOfFuel_length json.length _).1 _ hval
    omega
  split at h
  · cases h
  · exact fail_ne_outOfFuel h

end JsonParser

end UtxoVm.Contracts
