import UtxoVm.Scanner.ParserSafety

/-!
# The search for an envelope

`parse_envelope` jumps from one `OP_FALSE OP_IF` of an `OP_RETURN` script to the next and stops
eight bytes before the end.  The plain scan tries every offset; both find the same envelope.
-/

namespace UtxoVm

open RustStd CheckedParser

variable (X : Crates) (script : Bytes)

/-! ## 1. The plain scan -/

/-- The first success among the offsets. -/
def firstEnvelope : List Nat → Except Exit (Option UtxoVmEnvelope)
  | [] => pure none
  | offset :: offsets => do
      match ← parseIfEnvelope X script offset with
      | some env => pure (some env)
      | none => firstEnvelope offsets

/-- Offset 0 first; behind `OP_RETURN` then every offset from the end of the first push on. -/
def naiveEnvelope : Except Exit (Option UtxoVmEnvelope) := do
  match ← parseIfEnvelope X script 0 with
  | some env => pure (some env)
  | none =>
      if script.head? = some 0x6a then
        let offset ← opReturnOffset script
        firstEnvelope X script (List.range' offset (script.length + 1 - offset))
      else pure none

section

variable {X script}

theorem firstEnvelope_of_none {offset : Nat} (hnone : parseIfEnvelope X script offset = .ok none)
    (offsets : List Nat) :
    firstEnvelope X script (offset :: offsets) = firstEnvelope X script offsets := by
  rw [firstEnvelope, hnone]
  rfl

theorem firstEnvelope_of_some {offset : Nat} {env : UtxoVmEnvelope}
    (hsome : parseIfEnvelope X script offset = .ok (some env)) (offsets : List Nat) :
    firstEnvelope X script (offset :: offsets) = .ok (some env) := by
  rw [firstEnvelope, hsome]
  rfl

/-- Offsets without an envelope can be left out in front. -/
theorem firstEnvelope_skip {skipped : List Nat}
    (hskipped : ∀ offset ∈ skipped, parseIfEnvelope X script offset = .ok none)
    (offsets : List Nat) :
    firstEnvelope X script (skipped ++ offsets) = firstEnvelope X script offsets := by
  induction skipped with
  | nil => rfl
  | cons offset skipped ih =>
    rw [List.cons_append, firstEnvelope_of_none (hskipped offset (List.mem_cons_self ..))]
    exact ih fun o ho ↦ hskipped o (List.mem_cons_of_mem _ ho)

theorem firstEnvelope_of_all_none {offsets : List Nat}
    (hnone : ∀ offset ∈ offsets, parseIfEnvelope X script offset = .ok none) :
    firstEnvelope X script offsets = .ok none := by
  have hskip := firstEnvelope_skip hnone []
  rw [List.append_nil] at hskip
  exact hskip

/-! ## 2. Where an envelope can start -/

/-- `OP_FALSE OP_IF` stands at `offset`. -/
def FalseIfAt (script : Bytes) (offset : Nat) : Prop :=
  script[offset]? = some 0x00 ∧ script[offset + 1]? = some 0x63

theorem byteOf_eq {i : Nat} {b : UInt8} (h : byteOf script i = .ok b) : script[i]? = some b := by
  unfold byteOf at h
  split at h
  · rename_i hb
    cases h
    exact hb
  · cases h

/-- **An envelope** has room for ten bytes and starts with `OP_FALSE OP_IF`. -/
theorem parseIfEnvelope_some {start : Nat} {env : UtxoVmEnvelope}
    (h : parseIfEnvelope X script start = .ok (some env)) :
    start + 10 ≤ script.length ∧ FalseIfAt script start := by
  unfold parseIfEnvelope at h
  split at h
  · cases h
  rename_i hroom
  cases h₀ : byteOf script start with
  | error e =>
    rw [h₀] at h
    cases h
  | ok b₀ =>
    rw [h₀] at h
    change (if b₀ ≠ 0x00 then _ else _) = _ at h
    split at h
    · cases h
    rename_i hb₀
    cases h₁ : byteOf script (start + 1) with
    | error e =>
      rw [h₁] at h
      cases h
    | ok b₁ =>
      rw [h₁] at h
      change (if b₁ ≠ 0x63 then _ else _) = _ at h
      split at h
      · cases h
      rename_i hb₁
      rw [not_not] at hb₀ hb₁
      subst hb₀ hb₁
      exact ⟨not_lt.mp hroom, byteOf_eq h₀, byteOf_eq h₁⟩

/-- Anywhere else there is none. -/
theorem parseIfEnvelope_none {start : Nat} (hstart : start ≤ script.length)
    (hno : start + 10 ≤ script.length → ¬ FalseIfAt script start) :
    parseIfEnvelope X script start = .ok none := by
  obtain ⟨r, hr⟩ := parseIfEnvelope_total X hstart
  cases r with
  | none => exact hr
  | some env =>
    obtain ⟨hroom, hfalseIf⟩ := parseIfEnvelope_some hr
    exact absurd hfalseIf (hno hroom)

/-! ## 3. The two-byte search -/

/-- The search stops at the first `OP_FALSE OP_IF`. -/
theorem findFalseIf_spec (bs : Bytes) :
    (∀ i, findFalseIf bs = some i → FalseIfAt bs i ∧ ∀ j < i, ¬ FalseIfAt bs j) ∧
      (findFalseIf bs = none → ∀ j, ¬ FalseIfAt bs j) := by
  induction bs using findFalseIf.induct with
  | case1 a b rest hfound =>
    rw [findFalseIf, if_pos hfound]
    refine ⟨fun i hi ↦ ?_, fun h ↦ by cases h⟩
    cases hi
    exact ⟨⟨congrArg some hfound.1, congrArg some hfound.2⟩,
      fun j hj ↦ absurd hj (Nat.not_lt_zero j)⟩
  | case2 a b rest hother ih =>
    rw [findFalseIf, if_neg hother]
    have hzero : ¬ FalseIfAt (a :: b :: rest) 0 := fun h ↦
      hother ⟨Option.some.inj h.1, Option.some.inj h.2⟩
    obtain ⟨hsome, hnone⟩ := ih
    constructor
    · intro i hi
      rw [Option.map_eq_some_iff] at hi
      obtain ⟨k, hk, rfl⟩ := hi
      obtain ⟨hat, hbefore⟩ := hsome k hk
      refine ⟨hat, fun j hj ↦ ?_⟩
      cases j with
      | zero => exact hzero
      | succ j => exact hbefore j (Nat.lt_of_succ_lt_succ hj)
    · intro hn j
      rw [Option.map_eq_none_iff] at hn
      cases j with
      | zero => exact hzero
      | succ j => exact hnone hn j
  | case3 bs hshort =>
    have hno : findFalseIf bs = none := by
      rw [findFalseIf]
      exact hshort
    rw [hno]
    refine ⟨fun i hi ↦ (Option.some_ne_none i hi.symm).elim, fun _ j hat ↦ ?_⟩
    -- two bytes in a row need a list of at least two
    have hlt := (List.getElem?_eq_some_iff.mp hat.2).1
    rcases bs with _ | ⟨a, _ | ⟨b, rest⟩⟩
    · exact absurd hlt (Nat.not_lt_zero _)
    · simp at hlt
    · exact hshort a b rest rfl

theorem falseIfAt_drop (offset i : Nat) :
    FalseIfAt (script.drop offset) i ↔ FalseIfAt script (offset + i) := by
  unfold FalseIfAt
  rw [List.getElem?_drop, List.getElem?_drop, Nat.add_assoc]

theorem sliceOf_drop {offset : Nat} (hle : offset ≤ script.length) :
    sliceOf script offset script.length = .ok (script.drop offset) := by
  unfold sliceOf
  rw [if_pos ⟨hle, le_refl _⟩, List.take_length]

/-- **The search loop** is the plain scan of the offsets from `offset` on. -/
theorem scanEnvelopes_eq {fuel offset : Nat} (hle : offset ≤ script.length)
    (hfuel : script.length < offset + fuel) :
    scanEnvelopes X script fuel offset =
      firstEnvelope X script (List.range' offset (script.length + 1 - offset)) := by
  induction fuel generalizing offset with
  | zero => omega
  | succ fuel ih =>
    unfold scanEnvelopes
    split
    · -- behind the bound there is no room for an envelope
      rename_i hend
      symm
      apply firstEnvelope_of_all_none
      intro o ho
      rw [List.mem_range'_1] at ho
      exact parseIfEnvelope_none (by omega) fun hroom ↦ by omega
    rename_i hmore
    rw [sliceOf_drop hle]
    dsimp only [bind, Except.bind]
    obtain ⟨hsome, hnone⟩ := findFalseIf_spec (script.drop offset)
    cases hfind : findFalseIf (script.drop offset) with
    | none =>
      symm
      apply firstEnvelope_of_all_none
      intro o ho
      rw [List.mem_range'_1] at ho
      refine parseIfEnvelope_none (by omega) fun _ hat ↦ hnone hfind (o - offset) ?_
      rw [falseIfAt_drop, Nat.add_sub_cancel' ho.1]
      exact hat
    | some rel =>
      have hrel := findFalseIf_lt hfind
      rw [List.length_drop] at hrel
      obtain ⟨-, hbefore⟩ := hsome rel hfind
      have hskipped : ∀ o ∈ List.range' offset rel, parseIfEnvelope X script o = .ok none := by
        intro o ho
        rw [List.mem_range'_1] at ho
        refine parseIfEnvelope_none (by omega) fun _ hat ↦ hbefore (o - offset) (by omega) ?_
        rw [falseIfAt_drop, Nat.add_sub_cancel' ho.1]
        exact hat
      have hsplit : List.range' offset (script.length + 1 - offset) =
          List.range' offset rel ++ (offset + rel) ::
            List.range' (offset + rel + 1) (script.length + 1 - (offset + rel + 1)) := by
        have hcount : script.length + 1 - offset =
            rel + (script.length + 1 - (offset + rel + 1) + 1) := by omega
        rw [hcount, ← List.range'_append_1, List.range'_succ]
      rw [hsplit, firstEnvelope_skip hskipped]
      have hinside : offset + rel ≤ script.length := by omega
      obtain ⟨r, hr⟩ := parseIfEnvelope_total X hinside
      change (parseIfEnvelope X script (offset + rel) >>= _) = _
      cases r with
      | some env =>
        rw [firstEnvelope_of_some hr, hr]
        rfl
      | none =>
        rw [firstEnvelope_of_none hr, hr]
        exact ih (by omega) (by omega)

end

/-! ## 4. The two scans agree -/

/-- **The fast search is the plain scan**, and where an envelope can be read, the two-byte search
from any earlier offset stops there or before it, inside the loop's bound. -/
theorem parseEnvelope_eq_naive :
    parseEnvelope X script = naiveEnvelope X script ∧
      ∀ offset env, parseIfEnvelope X script offset = .ok (some env) →
        offset + 8 < script.length ∧
          ∀ start ≤ offset, ∃ rel,
            findFalseIf (script.drop start) = some rel ∧ start + rel ≤ offset := by
  constructor
  · obtain ⟨r, hr⟩ := parseIfEnvelope_total X (Nat.zero_le script.length)
    unfold parseEnvelope naiveEnvelope
    rw [hr]
    cases r with
    | some env =>
      obtain ⟨hroom, -⟩ := parseIfEnvelope_some hr
      rw [if_neg (by omega)]
      rfl
    | none =>
      cases script with
      | nil => rfl
      | cons op rest =>
        have hpos : 0 < (op :: rest).length := Nat.succ_pos rest.length
        obtain ⟨offset, hle, hoffset⟩ := opReturnOffset_total hpos
        have hscan : scanEnvelopes X (op :: rest) ((op :: rest).length + 1) offset =
            firstEnvelope X (op :: rest) (List.range' offset ((op :: rest).length + 1 - offset)) :=
          scanEnvelopes_eq hle (by omega)
        by_cases hshort : (op :: rest).length < 10
        · rw [if_pos hshort]
          change _ = if (op :: rest).head? = some 0x6a then opReturnOffset (op :: rest) >>= _ else _
          split
          · rw [hoffset]
            symm
            apply firstEnvelope_of_all_none
            intro o ho
            rw [List.mem_range'_1] at ho
            exact parseIfEnvelope_none (by omega) fun hroom ↦ by omega
          · rfl
        · rw [if_neg hshort]
          change (if op = 0x6a then opReturnOffset (op :: rest) >>= _ else _) =
            if some op = some 0x6a then opReturnOffset (op :: rest) >>= _ else _
          rw [hoffset]
          by_cases hreturn : op = 0x6a
          · rw [if_pos hreturn, if_pos (congrArg some hreturn)]
            exact hscan
          · rw [if_neg hreturn, if_neg fun h ↦ hreturn (Option.some.inj h)]
  · intro offset env henv
    obtain ⟨hroom, hat⟩ := parseIfEnvelope_some henv
    refine ⟨by omega, fun start hstart ↦ ?_⟩
    obtain ⟨hsome, hnone⟩ := findFalseIf_spec (script.drop start)
    have hthere : FalseIfAt (script.drop start) (offset - start) := by
      rw [falseIfAt_drop, Nat.add_sub_cancel' hstart]
      exact hat
    cases hfind : findFalseIf (script.drop start) with
    | none => exact absurd hthere (hnone hfind _)
    | some rel =>
      obtain ⟨-, hbefore⟩ := hsome rel hfind
      refine ⟨rel, rfl, ?_⟩
      by_contra hlt
      exact hbefore (offset - start) (by omega) hthere

end UtxoVm
