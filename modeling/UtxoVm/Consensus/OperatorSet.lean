import UtxoVm.Reasoning.Keyed
import UtxoVm.Reasoning.RustStd

/-!
# Operators and their bonds (`consensus/operator_set.rs`)

Operators register with a bond, post batches, and leave after a delay or are slashed.  Arithmetic
on 64 bits wraps around, as in a release build.
-/

namespace UtxoVm

open RustStd

inductive OperatorStatus where
  | active
  | unbonding
  | slashed
  | exited
  deriving DecidableEq, Repr

structure Operator where
  pubkey : String
  address : String
  bondAmount : UInt64
  bondUtxo : Option String
  status : OperatorStatus
  registeredAt : UInt64
  unbondStartedAt : Option UInt64
  lastBatchBlock : Option UInt64
  lastBatchRoot : Option String
  totalBatches : UInt64
  missedBatches : UInt64
  uptimePct : Float

structure OperatorSetConfig where
  minOperators : UInt32 := 3
  maxOperators : UInt32 := 10
  honestThreshold : UInt32 := 2
  minBond : UInt64 := 100000000
  unbondDelay : UInt32 := 60
  challengeWindow : UInt32 := 10
  batchInterval : UInt32 := 5

structure OperatorSet where
  config : OperatorSetConfig
  operators : List Operator
  totalBond : UInt64
  totalTvl : UInt64

/-- `u64::checked_mul`. -/
def checkedMul (a b : UInt64) : Option UInt64 :=
  if a.toNat * b.toNat < 2 ^ 64 then some (a * b) else none

namespace OperatorSet

/-! ## 1. The operations -/

def new (config : OperatorSetConfig) : OperatorSet where
  config
  operators := []
  totalBond := 0
  totalTvl := 0

variable (s : OperatorSet)

def getOperator (pubkey : String) : Option Operator :=
  Keyed.lookup Operator.pubkey pubkey s.operators

/-- The operator that was found is written back. -/
def setOperator (operator : Operator) : OperatorSet :=
  { s with operators := Keyed.replace Operator.pubkey operator s.operators }

def registerOperator (pubkey address : String) (bondAmount : UInt64) (bondUtxo : String)
    (blockHeight : UInt64) : Except String OperatorSet :=
  if bondAmount < s.config.minBond then
    .error ("Bond amount " ++ toString bondAmount ++ " is below minimum " ++
      toString s.config.minBond)
  else if (asBytes pubkey).length ≠ 66 ∨ !(pubkey.toList.all fun c ↦ (hexVal c).isSome) then
    .error ("Invalid operator pubkey: must be 66 hex chars (33-byte compressed secp256k1), " ++
      "got len=" ++ toString (asBytes pubkey).length)
  else if s.operators.any fun op ↦ op.pubkey == pubkey then .error "Operator already registered"
  else if s.config.maxOperators.toNat ≤ s.operators.length then .error "Maximum operators reached"
  else
    let operator : Operator :=
      { pubkey
        address
        bondAmount
        bondUtxo := some bondUtxo
        status := .active
        registeredAt := blockHeight
        unbondStartedAt := none
        lastBatchBlock := none
        lastBatchRoot := none
        totalBatches := 0
        missedBatches := 0
        uptimePct := 100.0 }
    .ok { s with operators := s.operators ++ [operator], totalBond := s.totalBond + bondAmount }

def unbondOperator (pubkey : String) (blockHeight : UInt64) : Except String OperatorSet :=
  match s.getOperator pubkey with
  | none => .error "Operator not found"
  | some operator =>
      if operator.status ≠ .active then .error "Operator is not active"
      else
        .ok (s.setOperator
          { operator with status := .unbonding, unbondStartedAt := some blockHeight })

def exitOperator (pubkey : String) (blockHeight : UInt64) : Except String OperatorSet :=
  match s.getOperator pubkey with
  | none => .error "Operator not found"
  | some operator =>
      if operator.status ≠ .unbonding then .error "Operator is not unbonding"
      else
        match operator.unbondStartedAt with
        | none => .error "Unbond start time not recorded"
        | some unbondStartedAt =>
            let deadline := unbondStartedAt + s.config.unbondDelay.toUInt64
            if blockHeight < deadline then
              .error ("Unbond delay not met. Need " ++ toString (deadline - blockHeight) ++
                " more blocks")
            else
              let s' := s.setOperator { operator with status := .exited }
              .ok { s' with totalBond := s'.totalBond - operator.bondAmount }

/-- The slashed amount comes with the new state. -/
def slashOperator (pubkey : String) : Except String (UInt64 × OperatorSet) :=
  match s.getOperator pubkey with
  | none => .error "Operator not found"
  | some operator =>
      if operator.status ≠ .active then .error "Operator is not active"
      else
        let s' := s.setOperator { operator with status := .slashed }
        .ok (operator.bondAmount, { s' with totalBond := s'.totalBond - operator.bondAmount })

def recordBatch (pubkey : String) (blockHeight : UInt64) (stateRoot : String) :
    Except String OperatorSet :=
  match s.getOperator pubkey with
  | none => .error "Operator not found"
  | some operator =>
      if operator.status ≠ .active then .error "Operator is not active"
      else
        .ok (s.setOperator
          { operator with
            lastBatchBlock := some blockHeight
            lastBatchRoot := some stateRoot
            totalBatches := operator.totalBatches + 1 })

def recordMissedBatch (pubkey : String) : Except String OperatorSet :=
  match s.getOperator pubkey with
  | none => .error "Operator not found"
  | some operator =>
      let missedBatches := operator.missedBatches + 1
      let totalExpected := operator.totalBatches + missedBatches
      let uptimePct :=
        if 0 < totalExpected then
          (operator.totalBatches.toFloat / totalExpected.toFloat) * 100.0
        else operator.uptimePct
      .ok (s.setOperator { operator with missedBatches, uptimePct })

def activeOperators : List Operator := s.operators.filter fun op ↦ op.status = .active

def hasQuorum : Bool := s.config.honestThreshold.toNat ≤ s.activeOperators.length

def updateTvl (tvl : UInt64) : OperatorSet := { s with totalTvl := tvl }

/-- The bond has to be ten times the value that is locked. -/
def isBondAdequate : Bool :=
  if s.totalTvl = 0 then true
  else
    match checkedMul s.totalTvl 10 with
    | some required => required ≤ s.totalBond
    | none => false

end OperatorSet

/-! ## 2. Runs -/

inductive OperatorCall where
  | register (pubkey address : String) (bondAmount : UInt64) (bondUtxo : String)
      (blockHeight : UInt64)
  | unbond (pubkey : String) (blockHeight : UInt64)
  | exit (pubkey : String) (blockHeight : UInt64)
  | slash (pubkey : String)
  | recordBatch (pubkey : String) (blockHeight : UInt64) (stateRoot : String)
  | recordMissedBatch (pubkey : String)
  | updateTvl (tvl : UInt64)

namespace OperatorSet

variable (s : OperatorSet)

def perform : OperatorCall → Except String OperatorSet
  | .register pubkey address bondAmount bondUtxo blockHeight =>
      s.registerOperator pubkey address bondAmount bondUtxo blockHeight
  | .unbond pubkey blockHeight => s.unbondOperator pubkey blockHeight
  | .exit pubkey blockHeight => s.exitOperator pubkey blockHeight
  | .slash pubkey => (s.slashOperator pubkey).map (·.2)
  | .recordBatch pubkey blockHeight stateRoot => s.recordBatch pubkey blockHeight stateRoot
  | .recordMissedBatch pubkey => s.recordMissedBatch pubkey
  | .updateTvl tvl => .ok (s.updateTvl tvl)

/-- A call that fails leaves the state as it was. -/
def call (c : OperatorCall) : OperatorSet :=
  match s.perform c with
  | .ok s' => s'
  | .error _ => s

def run (calls : List OperatorCall) : OperatorSet := calls.foldl call s

def Succeeds (c : OperatorCall) : Prop := ∃ s', s.perform c = .ok s'

end OperatorSet

end UtxoVm
