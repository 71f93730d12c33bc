import UtxoVm.Consensus.L1Scripts

/-!
# Timelocked leaves

A leaf waits for its delay if the interpreter reads the delay back.  The scripts push it as unsigned
bytes, and the interpreter takes the highest bit for a sign.
-/

namespace UtxoVm

open RustStd ScriptNum

/-- The element that `push_minimal_uint` puts on the stack. -/
def delayElement (value : Nat) : Bytes :=
  if value = 0 then []
  else if value ≤ 16 then [UInt8.ofNat value]
  else if value ≤ 0xff then leBytes 1 value
  else if value ≤ 0xffff then leBytes 2 value
  else if value ≤ 0xffffff then leBytes 3 value
  else leBytes 4 value

/-- The highest bit of the highest byte is clear. -/
def SignBitClear (delay : Nat) : Prop :=
  delay ≤ 0x7f ∨ 0x100 ≤ delay ∧ delay ≤ 0x7fff ∨ 0x10000 ≤ delay ∧ delay ≤ 0x7fffff ∨
    0x1000000 ≤ delay ∧ delay ≤ 0x7fffffff

/-- The script checks a signature under the key as soon as the delay has passed, and does nothing
else. -/
def WaitsFor (script : Bytes) (delay : Nat) (key : Bytes) : Prop :=
  ∀ host sig, run host script [sig] = spendAfter host delay key sig

theorem scan_pushMinimalUint (value : Nat) (rest : Bytes) :
    scan (pushMinimalUint value ++ rest) none =
      (scan rest none).map (.push (delayElement value) :: ·) := by
  unfold pushMinimalUint delayElement
  split
  · rfl
  split
  · exact scan_small (by omega) (by omega) rest
  split
  · exact scan_push 0x01 (leBytes 1 value) rest (leBytes_length ..) (by decide) (by decide)
  split
  · exact scan_push 0x02 (leBytes 2 value) rest (leBytes_length ..) (by decide) (by decide)
  split
  · exact scan_push 0x03 (leBytes 3 value) rest (leBytes_length ..) (by decide) (by decide)
  · exact scan_push 0x04 (leBytes 4 value) rest (leBytes_length ..) (by decide) (by decide)

theorem delayElement_length (value : Nat) : (delayElement value).length ≤ 4 := by
  unfold delayElement
  grind [leBytes_length]

theorem delayElement_iff {delay : Nat} (hdelay : delay < 2 ^ 32) :
    (value (delayElement delay) = delay ∧ minimal (delayElement delay) = true) ↔
      SignBitClear delay := by
  unfold delayElement SignBitClear
  split
  · rename_i hzero
    simp [hzero, value, minimal]
  split
  · show (value (leBytes (0 + 1) delay) = delay ∧ minimal (leBytes (0 + 1) delay) = true) ↔ _
    rw [value_leBytes_iff (by omega) (by omega)]
    omega
  split
  · rw [value_leBytes_iff (by omega) (by omega)]
    omega
  split
  · rw [value_leBytes_iff (by omega) (by omega)]
    omega
  split
  · rw [value_leBytes_iff (by omega) (by omega)]
    omega
  · rw [value_leBytes_iff (by omega) (by omega)]
    omega

theorem decode_timelockLeaf (delay : UInt32) {pubkey : Bytes} (hpubkey : pubkey.length = 32) :
    decode (timelockLeaf delay pubkey) = some (timelockOps (delayElement delay.toNat) pubkey) := by
  have hleaf : timelockLeaf delay pubkey = pushMinimalUint delay.toNat ++
      opCheckSequenceVerify :: opDrop :: 32 :: (pubkey ++ [opCheckSig]) := by
    simp [timelockLeaf]
  unfold decode
  rw [hleaf, scan_pushMinimalUint]
  show ((((scan (32 :: (pubkey ++ [opCheckSig])) none).map (Op.drop :: ·)).map
    (Op.checkSequenceVerify :: ·)).map _) = _
  rw [scan_push 32 pubkey [opCheckSig] hpubkey (by decide) (by decide)]
  rfl

theorem timelockLeaf_waitsFor_iff (delay : UInt32) {pubkey : Bytes} (hpubkey : pubkey.length = 32) :
    WaitsFor (timelockLeaf delay pubkey) delay.toNat pubkey ↔ SignBitClear delay.toNat := by
  unfold WaitsFor run
  rw [decode_timelockLeaf delay hpubkey]
  exact (timelock_iff (delayElement_length _) pubkey delay.toNat).trans
    (delayElement_iff delay.toNat_lt)

/-- **Timelocked leaves are spendable at their delay** exactly if the highest bit of the delay's
highest byte is clear. -/
theorem timelocks_exact_iff (delay : UInt32) :
    (∃ element, (∀ host stack, run host (pushMinimalUint delay.toNat) stack =
        .ok (element :: stack)) ∧
      ((value element = delay.toNat ∧ minimal element = true) ↔ SignBitClear delay.toNat)) ∧
    (∀ operatorPubkey leaf, buildOperatorUnbondLeaf operatorPubkey delay = .ok leaf →
      (WaitsFor leaf delay.toNat operatorPubkey ↔ SignBitClear delay.toNat)) ∧
    (∀ config tree, config.claimDelay = delay → buildChallengeClaimScriptTree config = .ok tree →
      (WaitsFor tree.claimLeaf delay.toNat config.challengerPubkey ↔
        SignBitClear delay.toNat)) ∧
    ∀ userPubkey leaf, buildSilenceEscapeScript userPubkey delay = .ok leaf →
      (WaitsFor leaf delay.toNat (userPubkey.drop 1) ↔ SignBitClear delay.toNat) := by
  refine ⟨⟨delayElement delay.toNat, fun host stack ↦ ?_, delayElement_iff delay.toNat_lt⟩, ?_, ?_,
    ?_⟩
  · have hscan := scan_pushMinimalUint delay.toNat []
    rw [List.append_nil] at hscan
    unfold run decode
    rw [hscan]
    rfl
  · intro operatorPubkey leaf hleaf
    unfold buildOperatorUnbondLeaf at hleaf
    split at hleaf
    · cases hleaf
    · rename_i hlength
      cases hleaf
      exact timelockLeaf_waitsFor_iff delay (not_not.mp hlength)
  · intro config tree hdelay htree
    unfold buildChallengeClaimScriptTree at htree
    split at htree
    · cases htree
    split at htree
    · cases htree
    · rename_i hlength _
      cases htree
      rw [← hdelay]
      exact timelockLeaf_waitsFor_iff config.claimDelay (not_not.mp hlength)
  · intro userPubkey leaf hleaf
    unfold buildSilenceEscapeScript at hleaf
    split at hleaf
    · cases hleaf
    · rename_i hlength
      cases hleaf
      refine timelockLeaf_waitsFor_iff delay ?_
      rw [List.length_drop, not_not.mp hlength]

theorem timelocks_exact_iff_week :
    ∃ leaf, buildOperatorUnbondLeaf (List.replicate 32 2) 1008 = .ok leaf ∧
      WaitsFor leaf 1008 (List.replicate 32 2) :=
  ⟨_, rfl, ((timelocks_exact_iff 1008).2.1 (List.replicate 32 2) _ rfl).mpr (by
    unfold SignBitClear
    decide)⟩

/-- **A delay that becomes zero.**  The byte `0x80` is read as minus zero. -/
theorem timelock_misread :
    (∀ host, run host (pushMinimalUint 128) [] = .ok [[0x80]]) ∧ value [0x80] = 0 ∧
      minimal [0x80] = false ∧
      ∃ leaf, buildOperatorUnbondLeaf (List.replicate 32 2) 128 = .ok leaf ∧
        ¬ WaitsFor leaf 128 (List.replicate 32 2) := by
  refine ⟨fun host ↦ rfl, by decide, by decide, _, rfl, fun hwaits ↦ ?_⟩
  have hclear := (timelockLeaf_waitsFor_iff 128 (List.length_replicate ..)).mp hwaits
  unfold SignBitClear at hclear
  exact absurd hclear (by decide)

end UtxoVm
