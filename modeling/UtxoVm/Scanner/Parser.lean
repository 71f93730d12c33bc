import UtxoVm.Storage.Db

/-!
# The envelope parser (`scanner/parser.rs`)

Every index and slice of the source is checked here, so that an access out of range would show as
`panic`.  The loops get one unit of fuel per byte of the script, which is enough since each
iteration moves the offset.
-/

namespace UtxoVm

open RustStd

/-- `script[i]`. -/
def byteOf (script : Bytes) (i : Nat) : Except Exit UInt8 :=
  match script[i]? with
  | some b => .ok b
  | none => .error .panic

/-- `&script[start..stop]`. -/
def sliceOf (script : Bytes) (start stop : Nat) : Except Exit Bytes :=
  if start ≤ stop ∧ stop ≤ script.length then .ok ((script.take stop).drop start)
  else .error .panic

def leBytes : Bytes → Nat
  | [] => 0
  | b :: bs => b.toNat + 256 * leBytes bs

/-! ## 1. One envelope -/

/-- What one iteration of the payload loop does. -/
inductive Chunk where
  /-- A push of `len` bytes that start at `offset`. -/
  | data (offset len : Nat)
  | skip (offset : Nat)
  | stop

/-- The opcode at `offset`: a push of at most 75 bytes, `OP_PUSHDATA1`, `2`, `4`, `OP_FALSE`, or
something else. -/
def readChunk (script : Bytes) (offset : Nat) : Except Exit Chunk := do
  let op ← byteOf script offset
  if 0x01 ≤ op ∧ op ≤ 0x4b then pure (.data (offset + 1) op.toNat)
  else if op = 0x4c then
    if script.length ≤ offset + 1 then pure .stop
    else pure (.data (offset + 2) (← byteOf script (offset + 1)).toNat)
  else if op = 0x4d then
    if script.length ≤ offset + 2 then pure .stop
    else pure (.data (offset + 3) (leBytes (← sliceOf script (offset + 1) (offset + 3))))
  else if op = 0x4e then
    if script.length ≤ offset + 4 then pure .stop
    else pure (.data (offset + 5) (leBytes (← sliceOf script (offset + 1) (offset + 5))))
  else if op = 0x00 then pure (.skip (offset + 1))
  else pure .stop

/-- The payload up to `OP_ENDIF`; `none` when the loop ends without having found it. -/
def readPayload (script : Bytes) : Nat → Nat → Bytes → Except Exit (Option Bytes)
  | 0, _, _ => .ok none
  | fuel + 1, offset, payload => do
      if script.length ≤ offset then pure none
      else if (← byteOf script offset) = 0x68 then pure (some payload)
      else
        match ← readChunk script offset with
        | .data start len =>
            if script.length < start + len then pure none
            else
              readPayload script fuel (start + len)
                (payload ++ (← sliceOf script start (start + len)))
        | .skip next => readPayload script fuel next payload
        | .stop => pure none

/-- The version byte and the offset after it. -/
def readVersion (script : Bytes) (offset : Nat) : Except Exit (Option (UInt8 × Nat)) := do
  let verLen := (← byteOf script offset).toNat
  let offset := offset + 1
  if verLen = 1 ∧ offset < script.length then pure (some (← byteOf script offset, offset + 1))
  else if script.length < offset + verLen then pure none
  else pure (some (1, offset + verLen))

/-- The envelope of a version, content type and payload: only JSON envelopes carry metadata. -/
def mkEnvelope (X : Crates) (version : UInt8) (contentType payload : Bytes) : UtxoVmEnvelope :=
  { protocol := "utxovm", version, contentType, payload
    metadata :=
      if contentType = asBytes "application/json" then X.jsonFromSlice payload else none }

def parseIfEnvelope (X : Crates) (script : Bytes) (start : Nat) :
    Except Exit (Option UtxoVmEnvelope) := do
  if script.length < start + 10 then return none
  if (← byteOf script start) ≠ 0x00 then return none
  if (← byteOf script (start + 1)) ≠ 0x63 then return none
  let tagLen := (← byteOf script (start + 2)).toNat
  let offset := start + 3
  if script.length < offset + tagLen then return none
  if (← sliceOf script offset (offset + tagLen)) ≠ asBytes "utxovm" then return none
  let offset := offset + tagLen
  if script.length ≤ offset then return none
  let some (version, offset) ← readVersion script offset | return none
  if script.length ≤ offset then return none
  let ctLen := (← byteOf script offset).toNat
  let offset := offset + 1
  if script.length < offset + ctLen then return none
  let contentType ← sliceOf script offset (offset + ctLen)
  let some payload ← readPayload script (script.length + 1) (offset + ctLen) [] | return none
  return some (mkEnvelope X version contentType payload)

/-! ## 2. The search -/

/-- The position of the first `OP_FALSE OP_IF` (`windows(2).position`). -/
def findFalseIf : Bytes → Option Nat
  | a :: b :: rest =>
      if a = 0x00 ∧ b = 0x63 then some 0 else (findFalseIf (b :: rest)).map (· + 1)
  | _ => none

/-- The offset behind the push that follows `OP_RETURN`, clamped to the script. -/
def opReturnOffset (script : Bytes) : Except Exit Nat := do
  if script.length ≤ 1 then return 1
  let op ← byteOf script 1
  let clamp (offset len : Nat) : Nat := offset + min len (script.length - offset)
  if 0x01 ≤ op ∧ op ≤ 0x4b then return clamp 2 op.toNat
  else if op = 0x4c then
    if 2 < script.length then return clamp 3 (← byteOf script 2).toNat else return 2
  else if op = 0x4d then
    if 3 < script.length then return clamp 4 (leBytes (← sliceOf script 2 4)) else return 2
  else if op = 0x4e then
    if 5 < script.length then return clamp 6 (leBytes (← sliceOf script 2 6)) else return 2
  else return 1

/-- The search loop: jump from one `OP_FALSE OP_IF` to the next. -/
def scanEnvelopes (X : Crates) (script : Bytes) :
    Nat → Nat → Except Exit (Option UtxoVmEnvelope)
  | 0, _ => .ok none
  | fuel + 1, offset => do
      if script.length ≤ offset + 8 then pure none
      else
        match findFalseIf (← sliceOf script offset script.length) with
        | none => pure none
        | some rel =>
            match ← parseIfEnvelope X script (offset + rel) with
            | some env => pure (some env)
            | none => scanEnvelopes X script fuel (offset + rel + 1)

def parseEnvelope (X : Crates) (script : Bytes) : Except Exit (Option UtxoVmEnvelope) := do
  if script.length < 10 then return none
  match ← parseIfEnvelope X script 0 with
  | some env => return some env
  | none =>
      if (← byteOf script 0) = 0x6a then
        scanEnvelopes X script (script.length + 1) (← opReturnOffset script)
      else return none

end UtxoVm
