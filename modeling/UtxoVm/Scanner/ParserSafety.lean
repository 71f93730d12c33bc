import UtxoVm.Reasoning.Checked
import UtxoVm.Scanner.Parser

/-!
# The parser on machine integers

`parse_envelope` and `parse_if_envelope` once more, now with every index, slice and addition of the
source checked and with loops that have to end.  They return on every slice, and what they return is
what the parser of `Scanner.Parser` returns.
-/

namespace UtxoVm

open RustStd Checked

/-- A `&[u8]`: an allocation of Rust has at most `isize::MAX` bytes. -/
structure ByteSlice where
  bytes : Bytes
  length_lt : bytes.length < 2 ^ 63

namespace CheckedParser

variable (X : Crates) (limit : Nat) (script : Bytes)

/-! ## 1. The parser -/

def readChunk (offset : Nat) : Run Chunk := do
  let op ← index script offset
  if 0x01 ≤ op ∧ op ≤ 0x4b then
    return .data (← add limit offset 1) op.toNat
  else if op = 0x4c then
    let offset ← add limit offset 1
    if script.length ≤ offset then return .stop
    let len := (← index script offset).toNat
    return .data (← add limit offset 1) len
  else if op = 0x4d then
    let offset ← add limit offset 1
    if script.length ≤ (← add limit offset 1) then return .stop
    let len := leBytes [← index script offset, ← index script (← add limit offset 1)]
    return .data (← add limit offset 2) len
  else if op = 0x4e then
    let offset ← add limit offset 1
    if script.length ≤ (← add limit offset 3) then return .stop
    let len := leBytes
      [← index script offset, ← index script (← add limit offset 1),
        ← index script (← add limit offset 2), ← index script (← add limit offset 3)]
    return .data (← add limit offset 4) len
  else if op = 0x00 then return .skip (← add limit offset 1)
  else return .stop

/-- One iteration of the payload loop, on the offset and the payload so far. -/
def payloadStep (state : Nat × Bytes) : Run ((Nat × Bytes) ⊕ Option Bytes) := do
  if script.length ≤ state.1 then return .inr none
  if (← index script state.1) = 0x68 then return .inr (some state.2)
  match ← readChunk limit script state.1 with
  | .data start len =>
      let stop ← add limit start len
      if script.length < stop then return .inr none
      return .inl (stop, state.2 ++ (← slice script start stop))
  | .skip next => return .inl (next, state.2)
  | .stop => return .inr none

def readPayload (offset : Nat) : Run (Option Bytes) :=
  loop (payloadStep limit script) (script.length + 1) (offset, [])

def readVersion (offset : Nat) : Run (Option (UInt8 × Nat)) := do
  let verLen := (← index script offset).toNat
  let offset ← add limit offset 1
  if verLen = 1 ∧ offset < script.length then
    let version ← index script offset
    return some (version, ← add limit offset 1)
  else if script.length < (← add limit offset verLen) then return none
  else return some (1, ← add limit offset verLen)

def parseIfEnvelope (start : Nat) : Run (Option UtxoVmEnvelope) := do
  if script.length < (← add limit start 10) then return none
  if (← index script start) ≠ 0x00 then return none
  if (← index script (← add limit start 1)) ≠ 0x63 then return none
  let offset ← add limit start 2
  let tagLen := (← index script offset).toNat
  let offset ← add limit offset 1
  let stop ← add limit offset tagLen
  if script.length < stop then return none
  if (← slice script offset stop) ≠ asBytes "utxovm" then return none
  if script.length ≤ stop then return none
  let some (version, offset) ← readVersion limit script stop | return none
  if script.length ≤ offset then return none
  let ctLen := (← index script offset).toNat
  let offset ← add limit offset 1
  let stop ← add limit offset ctLen
  if script.length < stop then return none
  let contentType ← slice script offset stop
  let some payload ← readPayload limit script stop | return none
  return some (mkEnvelope X version contentType payload)

/-- `offset += push_len.min(script_bytes.len().saturating_sub(offset))`. -/
def clamp (offset pushLen : Nat) : Run Nat :=
  add limit offset (min pushLen (script.length - offset))

def opReturnOffset : Run Nat := do
  if script.length ≤ 1 then return 1
  let op ← index script 1
  if 0x01 ≤ op ∧ op ≤ 0x4b then clamp limit script (← add limit 1 1) op.toNat
  else if op = 0x4c then
    let offset ← add limit 1 1
    if offset < script.length then
      let pushLen := (← index script offset).toNat
      clamp limit script (← add limit offset 1) pushLen
    else return offset
  else if op = 0x4d then
    let offset ← add limit 1 1
    if (← add limit offset 1) < script.length then
      let pushLen := leBytes [← index script offset, ← index script (← add limit offset 1)]
      clamp limit script (← add limit offset 2) pushLen
    else return offset
  else if op = 0x4e then
    let offset ← add limit 1 1
    if (← add limit offset 3) < script.length then
      let pushLen := leBytes
        [← index script offset, ← index script (← add limit offset 1),
          ← index script (← add limit offset 2), ← index script (← add limit offset 3)]
      clamp limit script (← add limit offset 4) pushLen
    else return offset
  else return 1

/-- One iteration of the search loop, on the offset. -/
def scanStep (offset : Nat) : Run (Nat ⊕ Option UtxoVmEnvelope) := do
  if script.length ≤ (← add limit offset 8) then return .inr none
  match findFalseIf (← slice script offset script.length) with
  | none => return .inr none
  | some rel =>
      let candidate ← add limit offset rel
      match ← parseIfEnvelope X limit script candidate with
      | some env => return .inr (some env)
      | none => return .inl (← add limit candidate 1)

def parseEnvelope : Run (Option UtxoVmEnvelope) := do
  if script.length < 10 then return none
  match ← parseIfEnvelope X limit script 0 with
  | some env => return some env
  | none =>
      if (← index script 0) = 0x6a then
        loop (scanStep X limit script) (script.length + 1) (← opReturnOffset limit script)
      else return none

/-! ## 2. It returns -/

section Safety

variable {X limit script}

/-- A chunk lies ahead of `offset`; its length has 32 bits. -/
def Ahead (script : Bytes) (offset : Nat) : Chunk → Prop
  | .data start len => offset < start ∧ start ≤ script.length ∧ len < 2 ^ 32
  | .skip next => next = offset + 1
  | .stop => True

theorem leBytes_lt (bs : Bytes) : leBytes bs < 256 ^ bs.length := by
  induction bs with
  | nil => exact Nat.one_pos
  | cons b bs ih =>
    have hb : b.toNat < 256 := b.toNat_lt
    unfold leBytes
    rw [List.length_cons, Nat.pow_succ]
    omega

variable (hlimit : script.length + 2 ^ 33 ≤ limit)
include hlimit

theorem readChunk_returns {offset : Nat} (hoffset : offset < script.length) :
    Returns (readChunk limit script offset) (Ahead script offset) := by
  unfold readChunk
  rw [returns_bind]
  refine returns_index hoffset fun op _ ↦ ?_
  have hop : op.toNat < 256 := op.toNat_lt
  split
  · simp only [returns_bind, returns_add, returns_pure, Ahead]
    omega
  split
  · simp only [returns_bind, returns_add]
    refine ⟨by omega, ?_⟩
    split
    · exact returns_pure.mpr trivial
    rw [returns_bind]
    refine returns_index (by omega) fun b _ ↦ ?_
    have hb : b.toNat < 256 := b.toNat_lt
    simp only [returns_bind, returns_add, returns_pure, Ahead]
    omega
  split
  · simp only [returns_bind, returns_add]
    refine ⟨by omega, by omega, ?_⟩
    split
    · exact returns_pure.mpr trivial
    simp only [returns_bind, returns_add]
    refine returns_index (by omega) fun b₀ _ ↦ ⟨by omega, ?_⟩
    refine returns_index (by omega) fun b₁ _ ↦ ⟨by omega, ?_⟩
    have hlen := leBytes_lt [b₀, b₁]
    simp only [List.length_cons, List.length_nil] at hlen
    simp only [returns_pure, Ahead]
    omega
  split
  · simp only [returns_bind, returns_add]
    refine ⟨by omega, by omega, ?_⟩
    split
    · exact returns_pure.mpr trivial
    simp only [returns_bind, returns_add]
    refine returns_index (by omega) fun b₀ _ ↦ ⟨by omega, ?_⟩
    refine returns_index (by omega) fun b₁ _ ↦ ⟨by omega, ?_⟩
    refine returns_index (by omega) fun b₂ _ ↦ ⟨by omega, ?_⟩
    refine returns_index (by omega) fun b₃ _ ↦ ⟨by omega, ?_⟩
    have hlen := leBytes_lt [b₀, b₁, b₂, b₃]
    simp only [List.length_cons, List.length_nil] at hlen
    simp only [returns_pure, Ahead]
    omega
  split
  · simp only [returns_bind, returns_add, returns_pure]
    exact ⟨by omega, rfl⟩
  · exact returns_pure.mpr trivial

/-- **The payload loop moves on**: the next iteration starts at a larger offset, inside the script
or at its end. -/
theorem payloadStep_returns (offset : Nat) (payload : Bytes) :
    Returns (payloadStep limit script (offset, payload))
      (Sum.elim (fun s ↦ offset < s.1 ∧ s.1 ≤ script.length) fun _ ↦ True) := by
  unfold payloadStep
  split
  · exact returns_pure.mpr trivial
  rename_i hinside
  rw [not_le] at hinside
  rw [returns_bind]
  refine returns_index hinside fun op _ ↦ ?_
  split
  · exact returns_pure.mpr trivial
  rw [returns_bind]
  refine (readChunk_returns hlimit hinside).imp fun chunk hchunk ↦ ?_
  cases chunk with
  | data start len =>
    obtain ⟨hstart, hle, hlen⟩ := hchunk
    simp only [returns_bind, returns_add]
    refine ⟨by omega, ?_⟩
    split
    · exact returns_pure.mpr trivial
    rw [returns_bind]
    refine returns_slice (by omega) (by omega) (returns_pure.mpr ?_)
    show offset < start + len ∧ start + len ≤ script.length
    omega
  | skip next =>
    refine returns_pure.mpr ?_
    show offset < next ∧ next ≤ script.length
    have hnext : next = offset + 1 := hchunk
    omega
  | stop => exact returns_pure.mpr trivial

theorem readPayload_returns (offset : Nat) :
    Returns (readPayload limit script offset) fun _ ↦ True := by
  unfold readPayload
  refine Returns.loop (I := fun _ ↦ True) (μ := fun s ↦ script.length - s.1)
    (fun s _ ↦ (payloadStep_returns hlimit s.1 s.2).imp fun r hr ↦ ?_) trivial ?_
  · cases r with
    | inl s' =>
      have hnext : s.1 < s'.1 ∧ s'.1 ≤ script.length := hr
      refine ⟨trivial, ?_⟩
      show script.length - s'.1 < script.length - s.1
      omega
    | inr _ => trivial
  · show script.length - offset < script.length + 1
    omega

theorem readVersion_returns {offset : Nat} (hoffset : offset < script.length) :
    Returns (readVersion limit script offset) fun r ↦
      ∀ version next, r = some (version, next) → next ≤ script.length := by
  unfold readVersion
  rw [returns_bind]
  refine returns_index hoffset fun verLen _ ↦ ?_
  have hlen : verLen.toNat < 256 := verLen.toNat_lt
  simp only [returns_bind, returns_add]
  refine ⟨by omega, ?_⟩
  split
  · rename_i hone
    rw [returns_bind]
    refine returns_index hone.2 fun version _ ↦ ?_
    simp only [returns_bind, returns_add, returns_pure]
    refine ⟨by omega, fun _ _ h ↦ ?_⟩
    cases h
    omega
  · simp only [returns_bind, returns_add]
    refine ⟨by omega, ?_⟩
    split
    · exact returns_pure.mpr fun _ _ h ↦ by cases h
    · simp only [returns_bind, returns_add, returns_pure]
      refine ⟨by omega, fun _ _ h ↦ ?_⟩
      cases h
      omega

theorem parseIfEnvelope_returns {start : Nat} (hstart : start ≤ script.length) :
    Returns (parseIfEnvelope X limit script start) fun _ ↦ True := by
  unfold parseIfEnvelope
  simp only [returns_bind, returns_add]
  refine ⟨by omega, ?_⟩
  split
  · exact returns_pure.mpr trivial
  rw [returns_bind]
  refine returns_index (by omega) fun b₀ _ ↦ ?_
  split
  · exact returns_pure.mpr trivial
  simp only [returns_bind, returns_add]
  refine ⟨by omega, returns_index (by omega) fun b₁ _ ↦ ?_⟩
  split
  · exact returns_pure.mpr trivial
  simp only [returns_bind, returns_add]
  refine ⟨by omega, returns_index (by omega) fun tagLen _ ↦ ?_⟩
  have htag : tagLen.toNat < 256 := tagLen.toNat_lt
  refine ⟨by omega, by omega, ?_⟩
  split
  · exact returns_pure.mpr trivial
  rw [returns_bind]
  refine returns_slice (by omega) (by omega) ?_
  split
  · exact returns_pure.mpr trivial
  split
  · exact returns_pure.mpr trivial
  rw [returns_bind]
  refine (readVersion_returns hlimit (by omega)).imp fun r hr ↦ ?_
  split
  · rename_i version offset
    have hoffset := hr version offset rfl
    split
    · exact returns_pure.mpr trivial
    rw [returns_bind]
    refine returns_index (by omega) fun ctLen _ ↦ ?_
    have hct : ctLen.toNat < 256 := ctLen.toNat_lt
    simp only [returns_bind, returns_add]
    refine ⟨by omega, by omega, ?_⟩
    split
    · exact returns_pure.mpr trivial
    rw [returns_bind]
    refine returns_slice (by omega) (by omega) ?_
    rw [returns_bind]
    refine (readPayload_returns hlimit _).imp fun payload _ ↦ ?_
    split <;> exact returns_pure.mpr trivial
  · exact returns_pure.mpr trivial

theorem clamp_returns {offset : Nat} (hoffset : offset ≤ script.length) (pushLen : Nat) :
    Returns (clamp limit script offset pushLen) fun offset ↦ offset ≤ script.length := by
  unfold clamp
  rw [returns_add]
  omega

theorem opReturnOffset_returns (hpos : 0 < script.length) :
    Returns (opReturnOffset limit script) fun offset ↦ offset ≤ script.length := by
  unfold opReturnOffset
  split
  · exact returns_pure.mpr hpos
  rw [returns_bind]
  refine returns_index (by omega) fun op _ ↦ ?_
  split
  · simp only [returns_bind, returns_add]
    exact ⟨by omega, clamp_returns hlimit (by omega) _⟩
  split
  · simp only [returns_bind, returns_add]
    refine ⟨by omega, ?_⟩
    split
    · simp only [returns_bind, returns_add]
      exact returns_index (by omega) fun b _ ↦ ⟨by omega, clamp_returns hlimit (by omega) _⟩
    · rw [returns_pure]
      omega
  split
  · simp only [returns_bind, returns_add]
    refine ⟨by omega, by omega, ?_⟩
    split
    · simp only [returns_bind, returns_add]
      refine returns_index (by omega) fun b₀ _ ↦ ⟨by omega, returns_index (by omega) fun b₁ _ ↦ ?_⟩
      exact ⟨by omega, clamp_returns hlimit (by omega) _⟩
    · rw [returns_pure]
      omega
  split
  · simp only [returns_bind, returns_add]
    refine ⟨by omega, by omega, ?_⟩
    split
    · simp only [returns_bind, returns_add]
      refine returns_index (by omega) fun b₀ _ ↦ ⟨by omega, returns_index (by omega) fun b₁ _ ↦ ?_⟩
      refine ⟨by omega, returns_index (by omega) fun b₂ _ ↦ ⟨by omega, ?_⟩⟩
      refine returns_index (by omega) fun b₃ _ ↦ ?_
      exact ⟨by omega, clamp_returns hlimit (by omega) _⟩
    · rw [returns_pure]
      omega
  · rw [returns_pure]
    omega

omit hlimit in
theorem findFalseIf_lt {bs : Bytes} {i : Nat} (h : findFalseIf bs = some i) :
    i + 1 < bs.length := by
  induction bs using findFalseIf.induct generalizing i with
  | case1 a b rest hfound =>
    rw [findFalseIf, if_pos hfound] at h
    cases h
    simp only [List.length_cons]
    omega
  | case2 a b rest hother ih =>
    rw [findFalseIf, if_neg hother, Option.map_eq_some_iff] at h
    obtain ⟨j, hj, rfl⟩ := h
    have hlt := ih hj
    simp only [List.length_cons] at hlt ⊢
    omega
  | case3 bs hshort =>
    rw [findFalseIf] at h
    · cases h
    · exact hshort

/-- **The search moves on** to a larger offset inside the script. -/
theorem scanStep_returns {offset : Nat} (hoffset : offset ≤ script.length) :
    Returns (scanStep X limit script offset)
      (Sum.elim (fun next ↦ offset < next ∧ next ≤ script.length) fun _ ↦ True) := by
  unfold scanStep
  simp only [returns_bind, returns_add]
  refine ⟨by omega, ?_⟩
  split
  · exact returns_pure.mpr trivial
  rw [returns_bind]
  refine returns_slice (by omega) (le_refl _) ?_
  split
  · exact returns_pure.mpr trivial
  rename_i rel hfound
  have hrel := findFalseIf_lt hfound
  rw [List.take_length, List.length_drop] at hrel
  simp only [returns_bind, returns_add]
  refine ⟨by omega, (parseIfEnvelope_returns hlimit (by omega)).imp fun r _ ↦ ?_⟩
  split
  · exact returns_pure.mpr trivial
  · simp only [returns_bind, returns_add, returns_pure]
    refine ⟨by omega, ?_⟩
    show offset < offset + rel + 1 ∧ offset + rel + 1 ≤ script.length
    omega

omit hlimit in
/-- Behind the end of the script the search is over, or the bound itself overflows. -/
theorem scanStep_beyond {offset : Nat} (hoffset : script.length < offset) (next : Nat) :
    scanStep X limit script offset ≠ .ok (.inl next) := by
  intro hstep
  unfold scanStep add at hstep
  by_cases hlt : offset + 8 < limit
  · have hend : script.length ≤ offset + 8 := by omega
    rw [if_pos hlt] at hstep
    change (if script.length ≤ offset + 8 then _ else _) = _ at hstep
    rw [if_pos hend] at hstep
    cases hstep
  · rw [if_neg hlt] at hstep
    cases hstep

theorem parseEnvelope_returns : Returns (parseEnvelope X limit script) fun _ ↦ True := by
  unfold parseEnvelope
  split
  · exact returns_pure.mpr trivial
  rw [returns_bind]
  refine (parseIfEnvelope_returns hlimit (Nat.zero_le _)).imp fun r _ ↦ ?_
  split
  · exact returns_pure.mpr trivial
  rw [returns_bind]
  refine returns_index (by omega) fun op _ ↦ ?_
  split
  · rw [returns_bind]
    refine (opReturnOffset_returns hlimit (by omega)).imp fun offset hoffset ↦ ?_
    refine Returns.loop (I := fun s ↦ s ≤ script.length) (μ := fun s ↦ script.length - s)
      (fun s hs ↦ (scanStep_returns hlimit hs).imp fun r hr ↦ ?_) hoffset (by omega)
    cases r with
    | inl next =>
      have hnext : s < next ∧ next ≤ script.length := hr
      show next ≤ script.length ∧ script.length - next < script.length - s
      omega
    | inr _ => trivial
  · exact returns_pure.mpr trivial

end Safety

/-! ## 3. It is the same parser -/

section Plain

variable {X limit script}

theorem index_refines (i : Nat) : Refines (index script i) (byteOf script i) := by
  unfold index byteOf
  cases script[i]? with
  | some b => exact .ok b
  | none => exact .fault _

theorem slice_refines (start stop : Nat) :
    Refines (slice script start stop) (sliceOf script start stop) := by
  unfold slice sliceOf
  exact .ite (.ok _) (.fault _)

/-- A checked index puts a byte in front of the slice that follows it. -/
theorem index_cons {i : Nat} {b : UInt8} (h : index script i = .ok b) :
    script.drop i = b :: script.drop (i + 1) := by
  unfold index at h
  split at h
  · rename_i hb
    cases h
    obtain ⟨hlt, rfl⟩ := List.getElem?_eq_some_iff.mp hb
    exact List.drop_eq_getElem_cons hlt
  · cases h

theorem sliceOf_eq {start : Nat} {bs rest : Bytes} (h : script.drop start = bs ++ rest)
    (hne : bs ≠ []) : sliceOf script start (start + bs.length) = .ok bs := by
  have hlength := congrArg List.length h
  rw [List.length_drop, List.length_append] at hlength
  have hpos := List.length_pos_iff.mpr hne
  unfold sliceOf
  rw [if_pos ⟨Nat.le_add_right .., by omega⟩, List.drop_take, Nat.add_sub_cancel_left, h,
    List.take_left]

theorem readChunk_refines (offset : Nat) :
    Refines (readChunk limit script offset) (UtxoVm.readChunk script offset) := by
  unfold readChunk UtxoVm.readChunk
  refine .bind (index_refines _) fun op ↦ .ite (.add (.pure _)) (.ite ?_ (.ite ?_ (.ite ?_ ?_)))
  · exact .add (.ite (.pure _) (.bind (index_refines _) fun b ↦ .add (.pure _)))
  · refine .add (.add (.ite (.pure _) (.silent fun b₀ h₀ ↦ .add (.silent fun b₁ h₁ ↦ .add ?_))))
    have hdrop : script.drop (offset + 1) = [b₀, b₁] ++ script.drop (offset + 1 + 1 + 1) := by
      rw [index_cons h₀, index_cons h₁]
      rfl
    have hslice : sliceOf script (offset + 1) (offset + 3) = .ok [b₀, b₁] :=
      sliceOf_eq hdrop (List.cons_ne_nil _ _)
    rw [hslice]
    exact .pure _
  · refine .add (.add (.ite (.pure _) (.silent fun b₀ h₀ ↦ .add (.silent fun b₁ h₁ ↦ .add
      (.silent fun b₂ h₂ ↦ .add (.silent fun b₃ h₃ ↦ .add ?_))))))
    have hdrop : script.drop (offset + 1) =
        [b₀, b₁, b₂, b₃] ++ script.drop (offset + 1 + 3 + 1) := by
      rw [index_cons h₀, index_cons h₁, index_cons h₂, index_cons h₃]
      rfl
    have hslice : sliceOf script (offset + 1) (offset + 5) = .ok [b₀, b₁, b₂, b₃] :=
      sliceOf_eq hdrop (List.cons_ne_nil _ _)
    rw [hslice]
    exact .pure _
  · exact .ite (.add (.pure _)) (.pure _)

theorem loop_payloadStep_refines (fuel offset : Nat) (payload : Bytes) :
    Refines (loop (payloadStep limit script) fuel (offset, payload))
      (UtxoVm.readPayload script fuel offset payload) := by
  induction fuel generalizing offset payload with
  | zero => exact .fault _
  | succ fuel ih =>
    unfold loop payloadStep UtxoVm.readPayload
    refine .ite_bind (.pure _) (.assoc (.bind (index_refines _) fun op ↦ .ite_bind (.pure _)
      (.assoc (.bind (readChunk_refines _) fun chunk ↦ ?_))))
    cases chunk with
    | data start len =>
      exact .assoc (.add (.ite_bind (.pure _)
        (.assoc (.bind (slice_refines _ _) fun bytes ↦ ih _ _))))
    | skip next => exact ih _ _
    | stop => exact .pure _

theorem readVersion_refines (offset : Nat) :
    Refines (readVersion limit script offset) (UtxoVm.readVersion script offset) := by
  unfold readVersion UtxoVm.readVersion
  refine .bind (index_refines _) fun verLen ↦ .add (.ite ?_ (.add (.ite (.pure _) (.add (.pure _)))))
  exact .bind (index_refines _) fun version ↦ .add (.pure _)

theorem parseIfEnvelope_refines (start : Nat) :
    Refines (parseIfEnvelope X limit script start) (UtxoVm.parseIfEnvelope X script start) := by
  unfold parseIfEnvelope UtxoVm.parseIfEnvelope
  refine .add (.ite (.pure _) (.bind (index_refines _) fun b₀ ↦ .ite (.pure _) (.add
    (.bind (index_refines _) fun b₁ ↦ .ite (.pure _) (.add (.bind (index_refines _) fun tagLen ↦
      .add (.add (.ite (.pure _) (.bind (slice_refines _ _) fun tag ↦ .ite (.pure _)
        (.ite (.pure _) (.bind (readVersion_refines _) fun version ↦ ?_)))))))))))
  rcases version with _ | ⟨version, offset⟩
  · exact .pure _
  · refine .ite (.pure _) (.bind (index_refines _) fun ctLen ↦ .add (.add (.ite (.pure _)
      (.bind (slice_refines _ _) fun contentType ↦ .bind (loop_payloadStep_refines _ _ _)
        fun payload ↦ ?_))))
    rcases payload with _ | payload <;> exact .pure _

theorem clamp_refines (offset pushLen : Nat) : Refines (clamp limit script offset pushLen)
    (pure (offset + min pushLen (script.length - offset)) : Except Exit Nat) := by
  intro n hn
  unfold clamp add at hn
  split at hn
  · cases hn
    rfl
  · cases hn

theorem opReturnOffset_refines :
    Refines (opReturnOffset limit script) (UtxoVm.opReturnOffset script) := by
  unfold opReturnOffset UtxoVm.opReturnOffset
  refine .ite (.pure _) (.bind (index_refines _) fun op ↦ .ite (.add (clamp_refines _ _))
    (.ite ?_ (.ite ?_ (.ite ?_ (.pure _)))))
  · exact .add (.ite (.bind (index_refines _) fun b ↦ .add (clamp_refines _ _)) (.pure _))
  · refine .add (.add (.ite ?_ (.pure _)))
    refine .silent fun b₀ h₀ ↦ .add (.silent fun b₁ h₁ ↦ .add ?_)
    have hdrop : script.drop 2 = [b₀, b₁] ++ script.drop 4 := by
      rw [index_cons h₀, index_cons h₁]
      rfl
    have hslice : sliceOf script 2 4 = .ok [b₀, b₁] := sliceOf_eq hdrop (List.cons_ne_nil _ _)
    rw [hslice]
    exact clamp_refines _ _
  · refine .add (.add (.ite ?_ (.pure _)))
    refine .silent fun b₀ h₀ ↦ .add (.silent fun b₁ h₁ ↦ .add (.silent fun b₂ h₂ ↦ .add
      (.silent fun b₃ h₃ ↦ .add ?_)))
    have hdrop : script.drop 2 = [b₀, b₁, b₂, b₃] ++ script.drop 6 := by
      rw [index_cons h₀, index_cons h₁, index_cons h₂, index_cons h₃]
      rfl
    have hslice : sliceOf script 2 6 = .ok [b₀, b₁, b₂, b₃] :=
      sliceOf_eq hdrop (List.cons_ne_nil _ _)
    rw [hslice]
    exact clamp_refines _ _

theorem loop_scanStep_refines (fuel offset : Nat) :
    Refines (loop (scanStep X limit script) fuel offset)
      (scanEnvelopes X script fuel offset) := by
  induction fuel generalizing offset with
  | zero => exact .fault _
  | succ fuel ih =>
    unfold loop scanStep scanEnvelopes
    refine .assoc (.add (.ite_bind (.pure _) (.assoc (.bind (slice_refines _ _) fun bytes ↦ ?_))))
    cases findFalseIf bytes with
    | none => exact .pure _
    | some rel =>
      refine .assoc (.add (.assoc (.bind (parseIfEnvelope_refines _) fun r ↦ ?_)))
      cases r with
      | none => exact .assoc (.add (ih _))
      | some env => exact .pure _

theorem parseEnvelope_refines :
    Refines (parseEnvelope X limit script) (UtxoVm.parseEnvelope X script) := by
  unfold parseEnvelope UtxoVm.parseEnvelope
  refine .ite (.pure _) (.bind (parseIfEnvelope_refines _) fun r ↦ ?_)
  cases r with
  | some env => exact .pure _
  | none =>
    exact .bind (index_refines _) fun op ↦
      .ite (.bind opReturnOffset_refines fun offset ↦ loop_scanStep_refines _ _) (.pure _)

/-- A limit that is large enough for the script. -/
theorem exists_limit (script : Bytes) : ∃ limit, script.length + 2 ^ 33 ≤ limit := ⟨_, le_refl _⟩

/-- `parse_if_envelope` answers at every offset. -/
theorem parseIfEnvelope_total (X : Crates) {script : Bytes} {start : Nat}
    (hstart : start ≤ script.length) : ∃ r, UtxoVm.parseIfEnvelope X script start = .ok r := by
  obtain ⟨limit, hlimit⟩ := exists_limit script
  obtain ⟨r, hr, -⟩ := parseIfEnvelope_returns (X := X) hlimit hstart
  exact ⟨r, parseIfEnvelope_refines start r hr⟩

theorem parseEnvelope_total (X : Crates) (script : Bytes) :
    ∃ r, UtxoVm.parseEnvelope X script = .ok r := by
  obtain ⟨limit, hlimit⟩ := exists_limit script
  obtain ⟨r, hr, -⟩ := parseEnvelope_returns (X := X) hlimit
  exact ⟨r, parseEnvelope_refines r hr⟩

theorem opReturnOffset_total {script : Bytes} (hpos : 0 < script.length) :
    ∃ offset ≤ script.length, UtxoVm.opReturnOffset script = .ok offset := by
  obtain ⟨limit, hlimit⟩ := exists_limit script
  obtain ⟨offset, hr, hle⟩ := opReturnOffset_returns hlimit hpos
  exact ⟨offset, hle, opReturnOffset_refines offset hr⟩

end Plain

/-! ## 4. Safety -/

/-- `usize` has 64 bits. -/
def usizeLimit : Nat := 2 ^ 64

/-- **The parser is safe.**  On every slice it returns, with no index or slice out of range and no
addition that overflows, from any offset, and it returns what the plain parser returns; and each
iteration of its two loops that is followed by another one has raised the offset. -/
theorem parser_is_safe (X : Crates) (script : ByteSlice) :
    (∃ r, parseEnvelope X usizeLimit script.bytes = .ok r ∧
      UtxoVm.parseEnvelope X script.bytes = .ok r) ∧
    (∀ start ≤ script.bytes.length, ∃ r,
      parseIfEnvelope X usizeLimit script.bytes start = .ok r ∧
        UtxoVm.parseIfEnvelope X script.bytes start = .ok r) ∧
    (∀ offset payload next payload',
      payloadStep usizeLimit script.bytes (offset, payload) = .ok (.inl (next, payload')) →
        offset < next) ∧
    ∀ offset next, scanStep X usizeLimit script.bytes offset = .ok (.inl next) → offset < next := by
  have hlimit : script.bytes.length + 2 ^ 33 ≤ usizeLimit := by
    have hlength := script.length_lt
    unfold usizeLimit
    omega
  refine ⟨?_, fun start hstart ↦ ?_, fun offset payload next payload' hstep ↦ ?_,
    fun offset next hstep ↦ ?_⟩
  · obtain ⟨r, hr, -⟩ := parseEnvelope_returns (X := X) hlimit
    exact ⟨r, hr, parseEnvelope_refines r hr⟩
  · obtain ⟨r, hr, -⟩ := parseIfEnvelope_returns (X := X) hlimit hstart
    exact ⟨r, hr, parseIfEnvelope_refines start r hr⟩
  · obtain ⟨r, hr, hmoved⟩ := payloadStep_returns hlimit offset payload
    cases hr.symm.trans hstep
    exact hmoved.1
  · by_cases hoffset : offset ≤ script.bytes.length
    · obtain ⟨r, hr, hmoved⟩ := scanStep_returns (X := X) hlimit hoffset
      cases hr.symm.trans hstep
      exact hmoved.1
    · exact absurd hstep (scanStep_beyond (not_le.mp hoffset) next)

end CheckedParser

end UtxoVm
