import UtxoVm.Consensus.OperatorSet

/-!
# Fees and their distribution (`consensus/fee_distribution.rs`)

Fees are collected in envelopes, of which the indexer takes its part; the rest is pending until it
is shared among the operators.  Arithmetic on 64 bits wraps around, as in a release build.
-/

namespace UtxoVm

structure FeeEnvelope where
  totalFee : UInt64
  indexerFee : UInt64
  operatorPool : UInt64
  batchCount : UInt64
  blockHeight : UInt64
  txid : String
  deriving DecidableEq, Repr

structure OperatorFeeShare where
  pubkey : String
  batchesPosted : UInt64
  batchesChallenged : UInt64
  feeShare : UInt64
  address : String
  deriving DecidableEq, Repr

structure FeeDistribution where
  envelopes : List FeeEnvelope
  operatorShares : List OperatorFeeShare
  totalFeesCollected : UInt64
  totalFeesDistributed : UInt64
  pendingFees : UInt64
  deriving DecidableEq, Repr

structure FeeParams where
  indexerFeePct : UInt8 := 10
  minIndexerFee : UInt64 := 1000

/-- `u64::saturating_sub`. -/
def saturatingSub (a b : UInt64) : UInt64 := if a < b then 0 else a - b

/-- `u64::checked_div`. -/
def checkedDiv (a b : UInt64) : Option UInt64 := if b = 0 then none else some (a / b)

/-! ## 1. Envelopes -/

def calculateIndexerFee (params : FeeParams) (totalFee : UInt64) : UInt64 :=
  -- a product that overflows counts as `u64::MAX`
  let indexerFee := ((checkedMul totalFee params.indexerFeePct.toUInt64).map (· / 100)).getD
    (UInt64.ofNat (2 ^ 64 - 1))
  min (max indexerFee params.minIndexerFee) totalFee

def calculateOperatorPool (params : FeeParams) (totalFee : UInt64) : UInt64 :=
  saturatingSub totalFee (calculateIndexerFee params totalFee)

/-- The batches of an operator that count. -/
def OperatorFeeShare.effectiveBatches (op : OperatorFeeShare) : UInt64 :=
  saturatingSub op.batchesPosted op.batchesChallenged

/-- The share of an operator: nothing, where the product overflows. -/
def operatorShare (pendingFees totalEffectiveBatches : UInt64) (op : OperatorFeeShare) : UInt64 :=
  ((checkedMul pendingFees op.effectiveBatches).bind
    (checkedDiv · totalEffectiveBatches)).getD 0

/-- The loop over the operators, with the shares and the running total so far. -/
def shareLoop (pendingFees totalEffectiveBatches : UInt64) :
    List OperatorFeeShare → List OperatorFeeShare → UInt64 → List OperatorFeeShare × UInt64
  | [], shares, distributed => (shares, distributed)
  | op :: ops, shares, distributed =>
      let share := operatorShare pendingFees totalEffectiveBatches op
      shareLoop pendingFees totalEffectiveBatches ops (shares ++ [{ op with feeShare := share }])
        (distributed + share)

/-- The first operator gets what the others left. -/
def addRemainder (pendingFees distributed : UInt64) :
    List OperatorFeeShare → List OperatorFeeShare
  | [] => []
  | first :: others =>
      if distributed < pendingFees then
        { first with feeShare := first.feeShare + (pendingFees - distributed) } :: others
      else first :: others

/-- The first operator with the key has one more batch challenged. -/
def challengeFirst (pubkey : String) : List OperatorFeeShare → Option (List OperatorFeeShare)
  | [] => none
  | share :: shares =>
      if share.pubkey = pubkey then
        some ({ share with batchesChallenged := share.batchesChallenged + 1 } :: shares)
      else (challengeFirst pubkey shares).map (share :: ·)

namespace FeeDistribution

/-! ## 2. The operations -/

def new : FeeDistribution where
  envelopes := []
  operatorShares := []
  totalFeesCollected := 0
  totalFeesDistributed := 0
  pendingFees := 0

variable (s : FeeDistribution)

/-- The envelope comes with the new state. -/
def createFeeEnvelopeWithParams (totalFee batchCount blockHeight : UInt64) (txid : String)
    (params : FeeParams) : FeeEnvelope × FeeDistribution :=
  let indexerFee := calculateIndexerFee params totalFee
  let operatorPool := saturatingSub totalFee indexerFee
  let envelope : FeeEnvelope :=
    { totalFee, indexerFee, operatorPool, batchCount, blockHeight, txid }
  (envelope,
    { s with
      envelopes := s.envelopes ++ [envelope]
      totalFeesCollected := s.totalFeesCollected + totalFee
      pendingFees := s.pendingFees + operatorPool })

def createFeeEnvelope (totalFee batchCount blockHeight : UInt64) (txid : String) :
    FeeEnvelope × FeeDistribution :=
  s.createFeeEnvelopeWithParams totalFee batchCount blockHeight txid {}

/-- The shares come with the new state. -/
def calculateOperatorShares (operators : List OperatorFeeShare) :
    Except String (List OperatorFeeShare × FeeDistribution) :=
  if operators.isEmpty then .error "No operators to distribute fees to"
  else
    let totalEffectiveBatches := (operators.map OperatorFeeShare.effectiveBatches).sum
    if totalEffectiveBatches = 0 then .error "No effective batches posted"
    else
      let (shares, distributed) := shareLoop s.pendingFees totalEffectiveBatches operators [] 0
      let shares := addRemainder s.pendingFees distributed shares
      .ok (shares, { s with operatorShares := shares })

def distributeFees : FeeDistribution :=
  let distributed := (s.operatorShares.map OperatorFeeShare.feeShare).sum
  { s with
    totalFeesDistributed := s.totalFeesDistributed + distributed
    pendingFees := saturatingSub s.pendingFees distributed }

def markOperatorChallenged (pubkey : String) : Except String FeeDistribution :=
  match challengeFirst pubkey s.operatorShares with
  | none => .error "Operator not found in shares"
  | some shares => .ok { s with operatorShares := shares }

end FeeDistribution

/-! ## 3. Runs -/

inductive FeeCall where
  | create (totalFee batchCount blockHeight : UInt64) (txid : String) (params : FeeParams)
  | calculate (operators : List OperatorFeeShare)
  | distribute
  | challenge (pubkey : String)

/-- The fee that a call collects. -/
def FeeCall.collected : FeeCall → Nat
  | .create totalFee _ _ _ _ => totalFee.toNat
  | _ => 0

namespace FeeDistribution

variable (s : FeeDistribution)

def perform : FeeCall → Except String FeeDistribution
  | .create totalFee batchCount blockHeight txid params =>
      .ok (s.createFeeEnvelopeWithParams totalFee batchCount blockHeight txid params).2
  | .calculate operators => (s.calculateOperatorShares operators).map (·.2)
  | .distribute => .ok s.distributeFees
  | .challenge pubkey => s.markOperatorChallenged pubkey

/-- A call that fails leaves the state as it was. -/
def call (c : FeeCall) : FeeDistribution :=
  match s.perform c with
  | .ok s' => s'
  | .error _ => s

def run (calls : List FeeCall) : FeeDistribution := calls.foldl call s

end FeeDistribution

end UtxoVm
