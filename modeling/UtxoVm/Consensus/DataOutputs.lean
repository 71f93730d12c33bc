import UtxoVm.Consensus.L1Scripts
import UtxoVm.Reasoning.Wire

/-!
# Data outputs

The `OP_RETURN` outputs of a spent seal and of a batch.  What is written is read back by pushes; the
number of seals is cut to four bytes.
-/

namespace UtxoVm

open RustStd ScriptNum Wire

structure SealSpendProof where
  objectId : Bytes
  prevSeal : Bytes
  newSeal : Bytes
  stateHash : Bytes

/-- The arguments of `build_batch_commitment_output`. -/
structure BatchCommitment where
  stateRoot : Bytes
  consumedSeals : List Bytes
  totalFees : UInt64
  operatorSignature : Bytes

/-! ## 1. Builders -/

/-- `OP_RETURN` and the push of a protocol identifier. -/
def protocolOutput (protocol : String) : Bytes :=
  opReturn :: UInt8.ofNat (asBytes protocol).length :: asBytes protocol

def buildSealSpendOutput (sealProof : SealSpendProof) : Except String Bytes :=
  if sealProof.objectId.length ≠ 32 then .error "Object ID must be 32 bytes"
  else if sealProof.prevSeal.length ≠ 36 then
    .error "Previous seal must be 36 bytes (txid + vout)"
  else if sealProof.newSeal.length ≠ 36 then .error "New seal must be 36 bytes (txid + vout)"
  else if sealProof.stateHash.length ≠ 32 then .error "State hash must be 32 bytes"
  else
    .ok (protocolOutput "utxovm:seal" ++ 0x20 :: sealProof.objectId ++
      0x24 :: sealProof.prevSeal ++ 0x24 :: sealProof.newSeal ++ 0x20 :: sealProof.stateHash)

def buildBatchCommitmentOutput (batch : BatchCommitment) : Except String Bytes :=
  if batch.stateRoot.length ≠ 32 then .error "State root must be 32 bytes"
  else if batch.consumedSeals.any (·.length ≠ 36) then .error "Each consumed seal must be 36 bytes"
  else if batch.operatorSignature.length ≠ 65 then .error "Operator signature must be 65 bytes"
  else
    .ok (protocolOutput "utxovm:batch" ++ 0x20 :: batch.stateRoot ++
      pushMinimalUint batch.consumedSeals.length ++ batch.consumedSeals.flatMap (0x24 :: ·) ++
      0x08 :: leBytes 8 batch.totalFees.toNat ++ 0x41 :: batch.operatorSignature)

/-! ## 2. Readers -/

/-- Read the start of an output of the protocol. -/
def protocolReader (protocol : String) : Reader Unit := do
  let first ← bytes 1
  let tag ← bounded
  if first = [opReturn] ∧ tag = asBytes protocol then return () else failure

/-- Read the push of a number: an opcode, or that many bytes. -/
def uintReader : Reader Nat := do
  let first ← number 1
  if first = 0 then return 0
  else if 0x50 < first then return first - 0x50
  else number (min first 4)

def sealSpendReader : Reader SealSpendProof := do
  protocolReader "utxovm:seal"
  let objectId ← bounded
  let prevSeal ← bounded
  let newSeal ← bounded
  let stateHash ← bounded
  return { objectId, prevSeal, newSeal, stateHash }

def batchReader : Reader BatchCommitment := do
  protocolReader "utxovm:batch"
  let stateRoot ← bounded
  let count ← uintReader
  let consumedSeals ← many bounded count
  let fees ← bounded
  let operatorSignature ← bounded
  return { stateRoot, consumedSeals, totalFees := UInt64.ofNat (leValue fees), operatorSignature }

theorem reads_protocol {protocol : String} (h : (asBytes protocol).length < 256) :
    Reads (protocolReader protocol) (protocolOutput protocol) () := by
  have hdone : Reads (if [opReturn] = [opReturn] ∧ asBytes protocol = asBytes protocol then
      return () else failure : Reader Unit) [] () := by
    rw [if_pos ⟨rfl, rfl⟩]
    exact .pure ()
  have htag : Reads (do
      let tag ← bounded
      if [opReturn] = [opReturn] ∧ tag = asBytes protocol then return () else failure : Reader Unit)
      (writeBounded (asBytes protocol) ++ []) () := (reads_bounded h).bind hdone
  have hreturn : Reads (bytes 1) [opReturn] [opReturn] := reads_bytes rfl
  rw [List.append_nil] at htag
  exact hreturn.bind htag

/-- A push of fewer than 256 bytes. -/
theorem reads_push (len : UInt8) {data : Bytes} (h : data.length = len.toNat) :
    Reads bounded (len :: data) data := by
  have hread : Reads bounded (writeBounded data) data := reads_bounded (h ▸ len.toNat_lt)
  unfold writeBounded at hread
  rwa [h, UInt8.ofNat_toNat] at hread

theorem reads_uint {n : Nat} (hn : n < 2 ^ 32) : Reads uintReader (pushMinimalUint n) n := by
  have hwide (w : Nat) (hw : 0 < w ∧ w ≤ 4) (hlt : n < 256 ^ w) :
      Reads uintReader (UInt8.ofNat w :: leBytes w n) n := by
    apply (reads_byte (n := w) (by omega)).bind
    rw [if_neg (by omega), if_neg (by omega), Nat.min_eq_left hw.2]
    exact reads_number hlt
  unfold pushMinimalUint
  split
  · rename_i hzero
    rw [hzero]
    exact (reads_byte (n := 0) (by decide)).bind (.pure 0)
  split
  · have hread : Reads uintReader ([UInt8.ofNat (0x50 + n)] ++ []) n := by
      apply (reads_byte (n := 0x50 + n) (by omega)).bind
      rw [if_neg (by omega), if_pos (by omega), Nat.add_sub_cancel_left]
      exact .pure n
    exact hread
  split
  · exact hwide 1 (by decide) (by omega)
  split
  · exact hwide 2 (by decide) (by omega)
  split
  · exact hwide 3 (by decide) (by omega)
  · exact hwide 4 (by decide) (by omega)

theorem returns_uint : Returns uintReader (· < 2 ^ 32) := by
  unfold uintReader
  refine (returns_number 1).bind fun first hfirst ↦ ?_
  split
  · exact .pure (by decide)
  split
  · exact .pure (by omega)
  · intro input n rest hrun
    have hn := returns_number (min first 4) input n rest hrun
    exact hn.trans_le ((Nat.pow_le_pow_right (by decide) (Nat.min_le_right first 4)).trans
      (by decide))

/-! ## 3. What is written is read back -/

theorem sealSpend_reads {sealProof : SealSpendProof} {script : Bytes}
    (h : buildSealSpendOutput sealProof = .ok script) :
    whole sealSpendReader script = some sealProof := by
  unfold buildSealSpendOutput at h
  split at h
  · cases h
  rename_i hobject
  split at h
  · cases h
  rename_i hprev
  split at h
  · cases h
  rename_i hnew
  split at h
  · cases h
  rename_i hstate
  cases h
  have hscript : protocolOutput "utxovm:seal" ++ 0x20 :: sealProof.objectId ++
      0x24 :: sealProof.prevSeal ++ 0x24 :: sealProof.newSeal ++ 0x20 :: sealProof.stateHash =
        protocolOutput "utxovm:seal" ++ (0x20 :: sealProof.objectId ++
          (0x24 :: sealProof.prevSeal ++ (0x24 :: sealProof.newSeal ++
            (0x20 :: sealProof.stateHash ++ [])))) := by
    simp
  rw [hscript]
  apply Reads.whole
  apply (reads_protocol (by decide)).bind
  apply (reads_push 0x20 (not_not.mp hobject)).bind
  apply (reads_push 0x24 (not_not.mp hprev)).bind
  apply (reads_push 0x24 (not_not.mp hnew)).bind
  apply (reads_push 0x20 (not_not.mp hstate)).bind
  exact .pure sealProof

/-- The output of a batch whose number of seals fits in four bytes. -/
theorem batch_reads {batch : BatchCommitment} {script : Bytes}
    (h : buildBatchCommitmentOutput batch = .ok script)
    (hcount : batch.consumedSeals.length < 2 ^ 32) : whole batchReader script = some batch := by
  unfold buildBatchCommitmentOutput at h
  split at h
  · cases h
  rename_i hroot
  split at h
  · cases h
  rename_i hseals
  split at h
  · cases h
  rename_i hsignature
  cases h
  have hscript : protocolOutput "utxovm:batch" ++ 0x20 :: batch.stateRoot ++
      pushMinimalUint batch.consumedSeals.length ++ batch.consumedSeals.flatMap (0x24 :: ·) ++
      0x08 :: leBytes 8 batch.totalFees.toNat ++ 0x41 :: batch.operatorSignature =
        protocolOutput "utxovm:batch" ++ (0x20 :: batch.stateRoot ++
          (pushMinimalUint batch.consumedSeals.length ++
            (batch.consumedSeals.flatMap (0x24 :: ·) ++
              (0x08 :: leBytes 8 batch.totalFees.toNat ++
                (0x41 :: batch.operatorSignature ++ []))))) := by
    simp
  have hseal (consumed : Bytes) (hmem : consumed ∈ batch.consumedSeals) :
      Reads bounded (0x24 :: consumed) consumed := by
    have hlength : consumed.length = 36 := by
      by_contra hne
      exact hseals (List.any_eq_true.mpr ⟨consumed, hmem, decide_eq_true hne⟩)
    exact reads_push 0x24 hlength
  have hbytes : (leBytes 8 batch.totalFees.toNat).length = 8 := leBytes_length ..
  have hfees : UInt64.ofNat (leValue (leBytes 8 batch.totalFees.toNat)) = batch.totalFees := by
    rw [leValue_leBytes (w := 8) batch.totalFees.toNat_lt, UInt64.ofNat_toNat]
  rw [hscript]
  apply Reads.whole
  apply (reads_protocol (by decide)).bind
  apply (reads_push 0x20 (not_not.mp hroot)).bind
  apply (reads_uint hcount).bind
  apply (reads_many hseal).bind
  apply (reads_push 0x08 hbytes).bind
  apply (reads_push 0x41 (not_not.mp hsignature)).bind
  rw [hfees]
  exact .pure batch

/-- No reader of the count gets more seals than four bytes say. -/
theorem returns_batch : Returns batchReader (·.consumedSeals.length < 2 ^ 32) := by
  unfold batchReader
  refine (Returns.any _).bind fun _ _ ↦ (Returns.any _).bind fun stateRoot _ ↦ ?_
  refine returns_uint.bind fun count hcount ↦ ?_
  refine (returns_many_length bounded count).bind fun consumedSeals hseals ↦ ?_
  refine (Returns.any _).bind fun fees _ ↦ (Returns.any _).bind fun operatorSignature _ ↦ .pure ?_
  rw [hseals]
  exact hcount

/-- **Data outputs are read back.**  The output of a spent seal always is, and the output of a batch
exactly when the number of its seals fits in four bytes. -/
theorem data_outputs_read_back :
    (∀ sealProof script, buildSealSpendOutput sealProof = .ok script →
      whole sealSpendReader script = some sealProof) ∧
    ∀ batch script, buildBatchCommitmentOutput batch = .ok script →
      (whole batchReader script = some batch ↔ batch.consumedSeals.length < 2 ^ 32) := by
  refine ⟨fun sealProof script h ↦ sealSpend_reads h, fun batch script h ↦ ⟨?_, batch_reads h⟩⟩
  exact fun hread ↦ returns_batch.whole hread

/-- A batch of one seal. -/
def demoBatch : BatchCommitment where
  stateRoot := List.replicate 32 0xaa
  consumedSeals := [List.replicate 36 0xbb]
  totalFees := 1000
  operatorSignature := List.replicate 65 0xcc

theorem data_outputs_read_back_batch : ∃ script,
    buildBatchCommitmentOutput demoBatch = .ok script ∧ whole batchReader script = some demoBatch :=
  ⟨_, rfl, (data_outputs_read_back.2 demoBatch _ rfl).mpr (by decide)⟩

end UtxoVm
