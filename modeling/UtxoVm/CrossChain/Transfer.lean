import UtxoVm.Types

/-!
# Bridge transfers (the records of `cross_chain/bridge.rs`)
-/

namespace UtxoVm

inductive BridgeStatus where
  | pending
  | verified
  | locked
  | minted
  | completed
  | failed
  deriving DecidableEq, Repr

structure BridgeTransfer where
  id : String
  sourceChain : String
  sourceObjectId : String
  destChain : String
  destOwner : String
  amount : Nat
  status : BridgeStatus
  createdAt : Int
  completedAt : Option Int
  deriving DecidableEq, Repr

/-- The prefix that `lock_assets` puts before the owner of a locked object. -/
def lockPrefix : String := "bridge_locked:"

end UtxoVm
