import UtxoVm.Types

/-!
# Electrs data (`scanner/electrs.rs`)
-/

namespace UtxoVm

structure ElectrsTxInput where
  txid : String
  vout : Nat
  deriving DecidableEq, Repr

structure ElectrsTxOutput where
  value : Nat
  scriptpubkey : String
  scriptpubkeyHex : Option String
  deriving DecidableEq, Repr

structure ElectrsTx where
  txid : String
  vin : List ElectrsTxInput
  vout : List ElectrsTxOutput
  deriving DecidableEq, Repr

/-- `validate_hex_hash(s, expected_len)` accepts. -/
def validateHexHash (s : String) (expectedLen : Nat) : Bool :=
  (RustStd.asBytes s).length == expectedLen * 2 && s.toList.all fun c ↦ (RustStd.hexVal c).isSome

end UtxoVm
