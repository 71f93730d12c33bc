import UtxoVm.Contracts.Standards

/-!
# Contracts/Entry — the entry points of the contract module

The module keeps the state as a JSON text and the contract type beside it.  `init` and
`restore_state` take the type from the JSON, `call` goes by the type that was found.
-/

namespace UtxoVm.Contracts

open RustStd AsStd

/-- The globals of an instance of the module. -/
structure Contract where
  globalStateJson : Text
  contractType : Text

/-- An instance right after instantiation. -/
def Contract.fresh : Contract where
  globalStateJson := lit "\x7b\x7d"
  contractType := []

/-- What an entry point leaves behind: the globals, the events and the return code. -/
structure Reply where
  contract : Contract
  events : List Event
  code : Int32

/-- The parsed text when it is an object, else the parser's message (none for other values). -/
def parseFields (json : Text) : Except Text JsonValue :=
  match JsonParser.parse json with
  | .error e => .error e.errorMsg
  | .ok v => if v.isObject then .ok v else .error []

/-- The contract type that a state names: its `type`, or `SOT` for a state with a symbol. -/
def detectType (parsed : JsonValue) : Text :=
  let type := parsed.getString (lit "type")
  if type = [] then
    if parsed.getString (lit "symbol") ≠ [] then lit "SOT" else []
  else type

def decodeArgs (args : Bytes) : Text := if args = [] then lit "\x7b\x7d" else decode args

def readCString (mem : Bytes) (maxLen : Nat) : Text :=
  decode ((mem.take maxLen).takeWhile (· ≠ 0))

def init (c : Contract) (args : Bytes) : Reply :=
  let args := decodeArgs args
  match parseFields args with
  | .error msg =>
      { contract := c, events := [(lit "Error", lit "Invalid init JSON: " ++ msg)], code := 1 }
  | .ok parsed =>
      let contractType := detectType parsed
      { contract := { globalStateJson := args, contractType }
        events := [(lit "Initialized", lit "type=" ++ contractType ++ lit " state=" ++ args)]
        code := 0 }

/-! ## 1. Calls -/

/-- What the call of a method does: the new state text, the events and the code. -/
abbrev MethodResult := Except Text (Text × List Event × Int32)

def unknownMethod (kind : String) (globalStateJson method : Text) : MethodResult :=
  .ok (globalStateJson, [(lit "Error", lit "Unknown " ++ lit kind ++ lit " method: " ++ method)], 1)

/-- A method that succeeded: its state is written back. -/
def stored (topic : String) (json : Text) (event : Event) : Text × List Event × Int32 :=
  (json, [event, (lit topic, json)], 0)

def tokenOf (state : JsonValue) : SmartObjectToken where
  name := state.getString (lit "name")
  symbol := state.getString (lit "symbol")
  decimals := (state.getInt (lit "decimals")).toUInt64.toUInt8
  localSupply :=
    if state.has (lit "localSupply") then (state.getInt (lit "localSupply")).toUInt64
    else (state.getInt (lit "totalSupply")).toUInt64
  balance := (state.getInt (lit "balance")).toUInt64
  owner := state.getString (lit "owner")

def callSOT (h : Host) (globalStateJson method : Text) (state args : JsonValue) : MethodResult :=
  let token := tokenOf state
  if method = lit "transfer" then do
    let (newToken, event) ← token.transfer h (args.getString (lit "to"))
      (args.getInt (lit "amount")).toUInt64
    pure (stored "TransferComplete" newToken.toJson event)
  else if method = lit "mint" then do
    let (newToken, event) ← token.mint h (args.getString (lit "to"))
      (args.getInt (lit "amount")).toUInt64
    pure (stored "MintComplete" newToken.toJson event)
  else if method = lit "burn" then do
    let (token, event) ← token.burn h (args.getInt (lit "amount")).toUInt64
    pure (stored "BurnComplete" token.toJson event)
  else if method = lit "balanceOf" then
    let shown :=
      if args.getString (lit "address") = token.owner then amountText token.balance else lit "0"
    .ok (globalStateJson, [(lit "Balance", shown)], 0)
  else unknownMethod "SOT" globalStateJson method

def nftOf (state : JsonValue) : SmartObjectNFT where
  collectionName := state.getString (lit "collectionName")
  tokenId := (state.getInt (lit "tokenId")).toUInt64
  metadataUri := state.getString (lit "metadataUri")
  owner := state.getString (lit "owner")

def callSON (h : Host) (globalStateJson method : Text) (state args : JsonValue) : MethodResult :=
  let nft := nftOf state
  if method = lit "transfer" then do
    let (nft, event) ← nft.transfer h (args.getString (lit "to"))
    pure (stored "NFTTransferComplete" nft.toJson event)
  else if method = lit "setMetadataUri" then do
    let (nft, event) ← nft.setMetadataUri h (args.getString (lit "uri"))
    pure (stored "NFTMetadataUpdateComplete" nft.toJson event)
  else if method = lit "burn" then do
    let (nft, event) ← nft.burn h
    pure (stored "NFTBurnComplete" nft.toJson event)
  else unknownMethod "SON" globalStateJson method

def vaultOf (state : JsonValue) : NativeVault where
  totalLockedSatoshis := (state.getInt (lit "totalLockedSatoshis")).toUInt64
  vaultOwner := state.getString (lit "vaultOwner")

def callNativeVault (h : Host) (globalStateJson method : Text) (state args : JsonValue) :
    MethodResult :=
  let vault := vaultOf state
  if method = lit "deposit" then do
    let (vault, event) ← vault.deposit h
    pure (stored "DepositComplete" vault.toJson event)
  else if method = lit "withdrawToStealth" then do
    let (vault, event) ← vault.withdrawToStealth h (args.getString (lit "stealthAddress"))
      (args.getInt (lit "amount")).toUInt64
    pure (stored "WithdrawComplete" vault.toJson event)
  else unknownMethod "NativeVault" globalStateJson method

def orderOf (state : JsonValue) : AtomicSwapOrder where
  maker := state.getString (lit "maker")
  offeredTokenId := (state.getInt (lit "offeredTokenId")).toUInt64
  demandedSatoshis := (state.getInt (lit "demandedSatoshis")).toUInt64
  isFilled := state.getBool (lit "isFilled")
  isCancelled := state.getBool (lit "isCancelled")

def callAtomicSwap (h : Host) (globalStateJson method : Text) (state args : JsonValue) :
    MethodResult :=
  let order := orderOf state
  if method = lit "fill" then do
    let (order, event) ← order.fill h (args.getString (lit "taker"))
    pure (stored "SwapFillComplete" order.toJson event)
  else if method = lit "cancel" then do
    let (order, event) ← order.cancel h
    pure (stored "SwapCancelComplete" order.toJson event)
  else unknownMethod "AtomicSwap" globalStateJson method

/-- The dispatch of `call` on the contract type. -/
def dispatch (h : Host) (c : Contract) (method : Text) (state args : JsonValue) : MethodResult :=
  if c.contractType = lit "SOT" ∨ c.contractType = lit "UTX20" then
    callSOT h c.globalStateJson method state args
  else if c.contractType = lit "SON" ∨ c.contractType = lit "UTX721" then
    callSON h c.globalStateJson method state args
  else if c.contractType = lit "NativeVault" then
    callNativeVault h c.globalStateJson method state args
  else if c.contractType = lit "AtomicSwap" then
    callAtomicSwap h c.globalStateJson method state args
  else
    .ok (c.globalStateJson,
      [(lit "Error", lit "Unknown contract type: " ++ c.contractType)], 1)

/-- `method` is the memory from the method pointer on. -/
def call (h : Host) (c : Contract) (method args : Bytes) : Except Text Reply :=
  let method := readCString method 64
  let args := decodeArgs args
  match parseFields args with
  | .error msg =>
      .ok
        { contract := c
          events := [(lit "Error", lit "Invalid call args JSON: " ++ msg)]
          code := 1 }
  | .ok parsedArgs =>
      match parseFields c.globalStateJson with
      | .error msg =>
          .ok
            { contract := c
              events := [(lit "Error", lit "Invalid contract state JSON: " ++ msg)]
              code := 1 }
      | .ok parsedState => do
          let (json, events, code) ← dispatch h c method parsedState parsedArgs
          pure
            { contract := { c with globalStateJson := json }
              events :=
                (lit "CallInvoked", lit "method=" ++ method ++ lit " args=" ++ args) :: events
              code }

/-! ## 2. The state outside the instance -/

def getState (c : Contract) : Bytes := encode c.globalStateJson

def getStateSize (c : Contract) : Nat := (encode c.globalStateJson).length

def restoreState (c : Contract) (state : Bytes) : Reply :=
  if state = [] then { contract := c, events := [], code := 0 }
  else
    let stateStr := decode state
    match parseFields stateStr with
    | .error msg =>
        { contract := c
          events := [(lit "Error", lit "Invalid restore_state JSON: " ++ msg)]
          code := 1 }
    | .ok parsed =>
        let contractType := detectType parsed
        { contract := { globalStateJson := stateStr, contractType }
          events := [(lit "StateRestored", lit "type=" ++ contractType)]
          code := 0 }

end UtxoVm.Contracts
