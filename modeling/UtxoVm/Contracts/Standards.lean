import UtxoVm.Contracts.Json

/-!
# Contracts/Standards — token, NFT, vault and swap order

The four classes of the standard contracts.  A failed `assert` traps: the call has no result then.
-/

namespace UtxoVm.Contracts

open RustStd AsStd

/-- What the host answers during a call. -/
structure Host where
  caller : Text
  satoshis : UInt64
  stealthSettle : Text → UInt64 → Bool

/-- An event: its topic and its data. -/
abbrev Event := Text × Text

def assert (cond : Prop) [Decidable cond] (msg : String) : Except Text Unit :=
  if cond then .ok () else .error (lit msg)

/-- What comes after an `assert` runs when its condition holds. -/
theorem assert_bind_eq_ok {α : Type} {cond : Prop} [Decidable cond] {msg : String}
    {x : Except Text α} {a : α} : (do assert cond msg; x) = .ok a ↔ cond ∧ x = .ok a := by
  unfold assert
  split
  · rename_i h
    exact ⟨fun hx ↦ ⟨h, hx⟩, fun hx ↦ hx.2⟩
  · rename_i h
    constructor
    · intro hx
      cases hx
    · exact fun hx ↦ absurd hx.1 h

theorem pure_eq_ok {α : Type} {a b : α} : (pure a : Except Text α) = .ok b ↔ b = a := by
  constructor
  · intro h
    cases h
    rfl
  · rintro rfl
    rfl

def amountText (n : UInt64) : Text := decimal n.toNat

/-! ## 1. Smart object token -/

structure SmartObjectToken where
  name : Text
  symbol : Text
  decimals : UInt8
  localSupply : UInt64
  balance : UInt64
  owner : Text

namespace SmartObjectToken

/-- Full transfers only: the recipient's token has the whole balance. -/
def transfer (h : Host) (token : SmartObjectToken) (recipient : Text) (amount : UInt64) :
    Except Text (SmartObjectToken × Event) := do
  assert (h.caller = token.owner) "Unauthorized: Only token owner can transfer"
  assert (amount = token.balance) "UTXO transfer requires full balance: amount must equal balance"
  assert (0 < amount) "Amount must be greater than zero"
  pure ({ token with balance := amount, owner := recipient },
    (lit "Transfer", lit "Transferred " ++ amountText amount ++ lit " " ++ token.symbol ++
      lit " to " ++ recipient))

/-- The new token has the minted part as its balance, and the raised supply. -/
def mint (h : Host) (token : SmartObjectToken) (recipient : Text) (amount : UInt64) :
    Except Text (SmartObjectToken × Event) := do
  assert (h.caller = token.owner) "Unauthorized: Only minter/owner can mint"
  assert (0 < amount) "Mint amount must be greater than zero"
  pure ({ token with
      localSupply := token.localSupply + amount, balance := amount, owner := recipient },
    (lit "Mint", lit "Minted " ++ amountText amount ++ lit " " ++ token.symbol ++ lit " to " ++
      recipient))

def burn (h : Host) (token : SmartObjectToken) (amount : UInt64) :
    Except Text (SmartObjectToken × Event) := do
  assert (h.caller = token.owner) "Unauthorized: Only token owner can burn"
  assert (amount ≤ token.balance) "Insufficient balance to burn"
  assert (0 < amount) "Burn amount must be greater than zero"
  pure ({ token with balance := token.balance - amount, localSupply := token.localSupply - amount },
    (lit "Burn", lit "Burned " ++ amountText amount ++ lit " " ++ token.symbol))

section

variable {h : Host} {token : SmartObjectToken} {recipient : Text} {amount : UInt64}
  {r : SmartObjectToken × Event}

theorem transfer_eq_ok : token.transfer h recipient amount = .ok r ↔
    h.caller = token.owner ∧ amount = token.balance ∧ 0 < amount ∧
      r = ({ token with balance := amount, owner := recipient },
        (lit "Transfer", lit "Transferred " ++ amountText amount ++ lit " " ++ token.symbol ++
          lit " to " ++ recipient)) := by
  unfold transfer
  rw [assert_bind_eq_ok, assert_bind_eq_ok, assert_bind_eq_ok, pure_eq_ok]

theorem mint_eq_ok : token.mint h recipient amount = .ok r ↔
    h.caller = token.owner ∧ 0 < amount ∧
      r = ({ token with
          localSupply := token.localSupply + amount, balance := amount, owner := recipient },
        (lit "Mint", lit "Minted " ++ amountText amount ++ lit " " ++ token.symbol ++ lit " to " ++
          recipient)) := by
  unfold mint
  rw [assert_bind_eq_ok, assert_bind_eq_ok, pure_eq_ok]

theorem burn_eq_ok : token.burn h amount = .ok r ↔
    h.caller = token.owner ∧ amount ≤ token.balance ∧ 0 < amount ∧
      r = ({ token with
          balance := token.balance - amount, localSupply := token.localSupply - amount },
        (lit "Burn", lit "Burned " ++ amountText amount ++ lit " " ++ token.symbol)) := by
  unfold burn
  rw [assert_bind_eq_ok, assert_bind_eq_ok, assert_bind_eq_ok, pure_eq_ok]

end

def toJson (token : SmartObjectToken) : Text :=
  lit "\x7b" ++
    (lit "\"name\":\"" ++ escapeJsonString token.name ++ lit "\"," ++
      lit "\"symbol\":\"" ++ escapeJsonString token.symbol ++ lit "\"," ++
      lit "\"decimals\":" ++ decimal token.decimals.toNat ++ lit "," ++
      lit "\"localSupply\":\"" ++ amountText token.localSupply ++ lit "\"," ++
      lit "\"totalSupply\":\"" ++ amountText token.localSupply ++ lit "\"," ++
      lit "\"balance\":\"" ++ amountText token.balance ++ lit "\"," ++
      lit "\"owner\":\"" ++ escapeJsonString token.owner ++ lit "\"") ++
    lit "\x7d"

end SmartObjectToken

/-! ## 2. Smart object NFT -/

structure SmartObjectNFT where
  collectionName : Text
  tokenId : UInt64
  metadataUri : Text
  owner : Text

namespace SmartObjectNFT

def transfer (h : Host) (nft : SmartObjectNFT) (recipient : Text) :
    Except Text (SmartObjectNFT × Event) := do
  assert (h.caller = nft.owner) "Unauthorized: Only current NFT owner can transfer"
  pure ({ nft with owner := recipient },
    (lit "NFTTransfer", lit "Token " ++ amountText nft.tokenId ++ lit " transferred to " ++
      recipient))

def setMetadataUri (h : Host) (nft : SmartObjectNFT) (newUri : Text) :
    Except Text (SmartObjectNFT × Event) := do
  assert (h.caller = nft.owner) "Unauthorized: Only owner can update metadata"
  pure ({ nft with metadataUri := newUri },
    (lit "NFTMetadataUpdate", lit "Token " ++ amountText nft.tokenId ++ lit " metadata updated"))

def burn (h : Host) (nft : SmartObjectNFT) : Except Text (SmartObjectNFT × Event) := do
  assert (h.caller = nft.owner) "Unauthorized: Only owner can burn"
  pure ({ nft with owner := [] },
    (lit "NFTBurn", lit "Token " ++ amountText nft.tokenId ++ lit " burned"))

section

variable {h : Host} {nft : SmartObjectNFT} {recipient newUri : Text} {r : SmartObjectNFT × Event}

theorem transfer_eq_ok : nft.transfer h recipient = .ok r ↔
    h.caller = nft.owner ∧
      r = ({ nft with owner := recipient },
        (lit "NFTTransfer", lit "Token " ++ amountText nft.tokenId ++ lit " transferred to " ++
          recipient)) := by
  unfold transfer
  rw [assert_bind_eq_ok, pure_eq_ok]

theorem setMetadataUri_eq_ok : nft.setMetadataUri h newUri = .ok r ↔
    h.caller = nft.owner ∧
      r = ({ nft with metadataUri := newUri },
        (lit "NFTMetadataUpdate",
          lit "Token " ++ amountText nft.tokenId ++ lit " metadata updated")) := by
  unfold setMetadataUri
  rw [assert_bind_eq_ok, pure_eq_ok]

theorem burn_eq_ok : nft.burn h = .ok r ↔
    h.caller = nft.owner ∧
      r = ({ nft with owner := [] },
        (lit "NFTBurn", lit "Token " ++ amountText nft.tokenId ++ lit " burned")) := by
  unfold burn
  rw [assert_bind_eq_ok, pure_eq_ok]

end

def toJson (nft : SmartObjectNFT) : Text :=
  lit "\x7b" ++
    (lit "\"collectionName\":\"" ++ escapeJsonString nft.collectionName ++ lit "\"," ++
      lit "\"tokenId\":\"" ++ amountText nft.tokenId ++ lit "\"," ++
      lit "\"metadataUri\":\"" ++ escapeJsonString nft.metadataUri ++ lit "\"," ++
      lit "\"owner\":\"" ++ escapeJsonString nft.owner ++ lit "\"") ++
    lit "\x7d"

end SmartObjectNFT

/-! ## 3. Native vault -/

structure NativeVault where
  totalLockedSatoshis : UInt64
  vaultOwner : Text

namespace NativeVault

def deposit (h : Host) (vault : NativeVault) : Except Text (NativeVault × Event) := do
  assert (0 < h.satoshis) "No satoshis attached in transaction"
  pure ({ vault with totalLockedSatoshis := vault.totalLockedSatoshis + h.satoshis },
    (lit "Deposit", lit "Locked " ++ amountText h.satoshis ++ lit " base units"))

/-- Returns `true`, or traps. -/
def withdrawToStealth (h : Host) (vault : NativeVault) (stealthAddress : Text) (amount : UInt64) :
    Except Text (NativeVault × Event) := do
  assert (h.caller = vault.vaultOwner) "Unauthorized: Caller is not vault owner"
  assert (amount ≤ vault.totalLockedSatoshis) "Insufficient vault balance"
  assert (0 < amount) "Amount must be greater than zero"
  assert (h.stealthSettle stealthAddress amount = true) "Stealth settlement failed"
  pure ({ vault with totalLockedSatoshis := vault.totalLockedSatoshis - amount },
    (lit "StealthWithdraw", lit "Sent " ++ amountText amount ++
      lit " units to stealth address: " ++ stealthAddress))

section

variable {h : Host} {vault : NativeVault} {stealthAddress : Text} {amount : UInt64}
  {r : NativeVault × Event}

theorem deposit_eq_ok : vault.deposit h = .ok r ↔
    0 < h.satoshis ∧
      r = ({ vault with totalLockedSatoshis := vault.totalLockedSatoshis + h.satoshis },
        (lit "Deposit", lit "Locked " ++ amountText h.satoshis ++ lit " base units")) := by
  unfold deposit
  rw [assert_bind_eq_ok, pure_eq_ok]

theorem withdrawToStealth_eq_ok : vault.withdrawToStealth h stealthAddress amount = .ok r ↔
    h.caller = vault.vaultOwner ∧ amount ≤ vault.totalLockedSatoshis ∧ 0 < amount ∧
      h.stealthSettle stealthAddress amount = true ∧
      r = ({ vault with totalLockedSatoshis := vault.totalLockedSatoshis - amount },
        (lit "StealthWithdraw", lit "Sent " ++ amountText amount ++
          lit " units to stealth address: " ++ stealthAddress)) := by
  unfold withdrawToStealth
  rw [assert_bind_eq_ok, assert_bind_eq_ok, assert_bind_eq_ok, assert_bind_eq_ok, pure_eq_ok]

end

def toJson (vault : NativeVault) : Text :=
  lit "\x7b" ++
    (lit "\"totalLockedSatoshis\":\"" ++ amountText vault.totalLockedSatoshis ++ lit "\"," ++
      lit "\"vaultOwner\":\"" ++ escapeJsonString vault.vaultOwner ++ lit "\"") ++
    lit "\x7d"

end NativeVault

/-! ## 4. Atomic swap order -/

structure AtomicSwapOrder where
  maker : Text
  offeredTokenId : UInt64
  demandedSatoshis : UInt64
  isFilled : Bool
  isCancelled : Bool

namespace AtomicSwapOrder

/-- Returns `true`, or traps. -/
def fill (h : Host) (order : AtomicSwapOrder) (taker : Text) :
    Except Text (AtomicSwapOrder × Event) := do
  assert (order.isFilled = false) "Order already filled"
  assert (order.isCancelled = false) "Order is cancelled"
  assert (order.demandedSatoshis ≤ h.satoshis) "Insufficient payment in satoshis"
  pure ({ order with isFilled := true },
    (lit "SwapFilled", lit "Order filled by " ++ taker ++ lit " for " ++
      amountText order.demandedSatoshis ++ lit " satoshis"))

/-- Returns `true`, or traps. -/
def cancel (h : Host) (order : AtomicSwapOrder) : Except Text (AtomicSwapOrder × Event) := do
  assert (h.caller = order.maker) "Unauthorized: Only order maker can cancel"
  assert (order.isFilled = false) "Cannot cancel: order already filled"
  assert (order.isCancelled = false) "Order already cancelled"
  pure ({ order with isCancelled := true },
    (lit "SwapCancelled", lit "Order for token " ++ amountText order.offeredTokenId ++
      lit " cancelled by maker"))

section

variable {h : Host} {order : AtomicSwapOrder} {taker : Text} {r : AtomicSwapOrder × Event}

theorem fill_eq_ok : order.fill h taker = .ok r ↔
    order.isFilled = false ∧ order.isCancelled = false ∧ order.demandedSatoshis ≤ h.satoshis ∧
      r = ({ order with isFilled := true },
        (lit "SwapFilled", lit "Order filled by " ++ taker ++ lit " for " ++
          amountText order.demandedSatoshis ++ lit " satoshis")) := by
  unfold fill
  rw [assert_bind_eq_ok, assert_bind_eq_ok, assert_bind_eq_ok, pure_eq_ok]

theorem cancel_eq_ok : order.cancel h = .ok r ↔
    h.caller = order.maker ∧ order.isFilled = false ∧ order.isCancelled = false ∧
      r = ({ order with isCancelled := true },
        (lit "SwapCancelled", lit "Order for token " ++ amountText order.offeredTokenId ++
          lit " cancelled by maker")) := by
  unfold cancel
  rw [assert_bind_eq_ok, assert_bind_eq_ok, assert_bind_eq_ok, pure_eq_ok]

end

def boolText (b : Bool) : Text := if b then lit "true" else lit "false"

def toJson (order : AtomicSwapOrder) : Text :=
  lit "\x7b" ++
    (lit "\"maker\":\"" ++ escapeJsonString order.maker ++ lit "\"," ++
      lit "\"offeredTokenId\":\"" ++ amountText order.offeredTokenId ++ lit "\"," ++
      lit "\"demandedSatoshis\":\"" ++ amountText order.demandedSatoshis ++ lit "\"," ++
      lit "\"isFilled\":" ++ boolText order.isFilled ++ lit "," ++
      lit "\"isCancelled\":" ++ boolText order.isCancelled) ++
    lit "\x7d"

end AtomicSwapOrder

end UtxoVm.Contracts
