import UtxoVm.Contracts.JsonRoundTrip
import UtxoVm.Contracts.Entry

/-!
# Contracts/KeepsKind — does a contract stay of its kind?

The kind is not stored: `restore_state` finds it again in the fields of the state, which the four
`toJson` functions write out.  None of them writes the field `type`.
-/

namespace UtxoVm.Contracts

open RustStd AsStd JsonParser

/-! ## 1. What the contracts write -/

theorem escapeJsonString_plain {s : Text} (h : PlainKey s) : escapeJsonString s = s := by
  induction s with
  | nil => rfl
  | cons c s ih =>
    obtain ⟨⟨hquote, hslash, hc⟩, hkey⟩ := List.forall_mem_cons.mp h
    have hne (d : UInt16) (hd : d.toNat < 0x20) : c ≠ d := by
      rintro rfl
      omega
    rw [escapeJsonString_cons, ih hkey]
    unfold escapeChar
    rw [if_neg hquote, if_neg hslash, if_neg (hne _ (by decide)), if_neg (hne _ (by decide)),
      if_neg (hne _ (by decide))]
    rfl

theorem plainKey_amountText (n : UInt64) : PlainKey (amountText n) := by
  intro c hc
  have hdigit := decimal_digits _ c hc
  have hne (d : UInt16) (hd : d.toNat < 0x30 ∨ 0x39 < d.toNat) : c ≠ d := by
    rintro rfl
    omega
  exact ⟨hne _ (by decide), hne _ (by decide), by omega⟩

theorem escapeJsonString_amountText (n : UInt64) :
    escapeJsonString (amountText n) = amountText n :=
  escapeJsonString_plain (plainKey_amountText n)

theorem legible_plain {s : Text} (h : PlainKey s) : Legible s := by
  intro c hc hcontrol
  have := (h c hc).2.2
  omega

theorem legible_amountText (n : UInt64) : Legible (amountText n) :=
  legible_plain (plainKey_amountText n)

namespace SmartObjectToken

def members (token : SmartObjectToken) : List Member :=
  [(lit "name", .string token.name), (lit "symbol", .string token.symbol),
    (lit "decimals", .number token.decimals.toNat),
    (lit "localSupply", .string (amountText token.localSupply)),
    (lit "totalSupply", .string (amountText token.localSupply)),
    (lit "balance", .string (amountText token.balance)), (lit "owner", .string token.owner)]

theorem toJson_eq (token : SmartObjectToken) : token.toJson = objectText token.members := by
  have hname : lit "\"name\":\"" = 0x22 :: (lit "name" ++ [0x22, 0x3A, 0x22]) := by decide
  have hsymbol : lit "\"symbol\":\"" = 0x22 :: (lit "symbol" ++ [0x22, 0x3A, 0x22]) := by
    decide
  have hdecimals : lit "\"decimals\":" = 0x22 :: (lit "decimals" ++ [0x22, 0x3A]) := by
    decide
  have hlocal : lit "\"localSupply\":\"" = 0x22 :: (lit "localSupply" ++ [0x22, 0x3A, 0x22]) := by
    decide
  have htotal : lit "\"totalSupply\":\"" = 0x22 :: (lit "totalSupply" ++ [0x22, 0x3A, 0x22]) := by
    decide
  have hbalance : lit "\"balance\":\"" = 0x22 :: (lit "balance" ++ [0x22, 0x3A, 0x22]) := by
    decide
  have howner : lit "\"owner\":\"" = 0x22 :: (lit "owner" ++ [0x22, 0x3A, 0x22]) := by
    decide
  unfold toJson members objectText
  rw [hname, hsymbol, hdecimals, hlocal, htotal, hbalance, howner,
    show lit "\"," = [0x22, 0x2C] by decide, show lit "," = [0x2C] by decide,
    show lit "\"" = [0x22] by decide, show lit "\x7b" = [0x7B] by decide,
    show lit "\x7d" = [0x7D] by decide]
  simp only [membersText, memberText, Token.text, escapeJsonString_amountText, List.cons_append,
    List.nil_append, List.append_assoc]

end SmartObjectToken

theorem SmartObjectToken.members_legible (token : SmartObjectToken) :
    (∀ m ∈ token.members, m.2.Legible) ↔
      Legible token.name ∧ Legible token.symbol ∧ Legible token.owner := by
  unfold members
  simp only [List.forall_mem_cons, Token.Legible, legible_amountText, true_and]
  exact ⟨fun h ↦ ⟨h.1, h.2.1, h.2.2.1⟩,
    fun h ↦ ⟨h.1, h.2.1, h.2.2, fun m hm ↦ absurd hm List.not_mem_nil⟩⟩

namespace SmartObjectNFT

def members (nft : SmartObjectNFT) : List Member :=
  [(lit "collectionName", .string nft.collectionName),
    (lit "tokenId", .string (amountText nft.tokenId)), (lit "metadataUri", .string nft.metadataUri),
    (lit "owner", .string nft.owner)]

theorem toJson_eq (nft : SmartObjectNFT) : nft.toJson = objectText nft.members := by
  have hcollection : lit "\"collectionName\":\"" =
      0x22 :: (lit "collectionName" ++ [0x22, 0x3A, 0x22]) := by
    decide
  have hid : lit "\"tokenId\":\"" = 0x22 :: (lit "tokenId" ++ [0x22, 0x3A, 0x22]) := by
    decide
  have huri : lit "\"metadataUri\":\"" = 0x22 :: (lit "metadataUri" ++ [0x22, 0x3A, 0x22]) := by
    decide
  have howner : lit "\"owner\":\"" = 0x22 :: (lit "owner" ++ [0x22, 0x3A, 0x22]) := by
    decide
  unfold toJson members objectText
  rw [hcollection, hid, huri, howner,
    show lit "\"," = [0x22, 0x2C] by decide, show lit "\"" = [0x22] by decide,
    show lit "\x7b" = [0x7B] by decide, show lit "\x7d" = [0x7D] by decide]
  simp only [membersText, memberText, Token.text, escapeJsonString_amountText, List.cons_append,
    List.nil_append, List.append_assoc]

end SmartObjectNFT

namespace NativeVault

def members (vault : NativeVault) : List Member :=
  [(lit "totalLockedSatoshis", .string (amountText vault.totalLockedSatoshis)),
    (lit "vaultOwner", .string vault.vaultOwner)]

theorem toJson_eq (vault : NativeVault) : vault.toJson = objectText vault.members := by
  have htotal : lit "\"totalLockedSatoshis\":\"" =
      0x22 :: (lit "totalLockedSatoshis" ++ [0x22, 0x3A, 0x22]) := by
    decide
  have howner : lit "\"vaultOwner\":\"" = 0x22 :: (lit "vaultOwner" ++ [0x22, 0x3A, 0x22]) := by
    decide
  unfold toJson members objectText
  rw [htotal, howner,
    show lit "\"," = [0x22, 0x2C] by decide, show lit "\"" = [0x22] by decide,
    show lit "\x7b" = [0x7B] by decide, show lit "\x7d" = [0x7D] by decide]
  simp only [membersText, memberText, Token.text, escapeJsonString_amountText, List.cons_append,
    List.nil_append, List.append_assoc]

end NativeVault

namespace AtomicSwapOrder

def members (order : AtomicSwapOrder) : List Member :=
  [(lit "maker", .string order.maker),
    (lit "offeredTokenId", .string (amountText order.offeredTokenId)),
    (lit "demandedSatoshis", .string (amountText order.demandedSatoshis)),
    (lit "isFilled", .bool order.isFilled), (lit "isCancelled", .bool order.isCancelled)]

theorem toJson_eq (order : AtomicSwapOrder) : order.toJson = objectText order.members := by
  have hmaker : lit "\"maker\":\"" = 0x22 :: (lit "maker" ++ [0x22, 0x3A, 0x22]) := by
    decide
  have hoffered : lit "\"offeredTokenId\":\"" =
      0x22 :: (lit "offeredTokenId" ++ [0x22, 0x3A, 0x22]) := by
    decide
  have hdemanded : lit "\"demandedSatoshis\":\"" =
      0x22 :: (lit "demandedSatoshis" ++ [0x22, 0x3A, 0x22]) := by
    decide
  have hfilled : lit "\"isFilled\":" = 0x22 :: (lit "isFilled" ++ [0x22, 0x3A]) := by
    decide
  have hcancelled : lit "\"isCancelled\":" = 0x22 :: (lit "isCancelled" ++ [0x22, 0x3A]) := by
    decide
  unfold toJson members objectText
  rw [hmaker, hoffered, hdemanded, hfilled, hcancelled,
    show lit "\"," = [0x22, 0x2C] by decide, show lit "," = [0x2C] by decide,
    show lit "\x7b" = [0x7B] by decide, show lit "\x7d" = [0x7D] by decide]
  simp only [membersText, memberText, Token.text, boolText, escapeJsonString_amountText,
    List.cons_append, List.nil_append, List.append_assoc]

end AtomicSwapOrder

/-! ## 2. Kinds -/

inductive ContractKind where
  | sot
  | son
  | nativeVault
  | atomicSwap
  deriving DecidableEq

/-- The kind that `call` finds for a contract type. -/
def kindOf (contractType : Text) : Option ContractKind :=
  if contractType = lit "SOT" ∨ contractType = lit "UTX20" then some .sot
  else if contractType = lit "SON" ∨ contractType = lit "UTX721" then some .son
  else if contractType = lit "NativeVault" then some .nativeVault
  else if contractType = lit "AtomicSwap" then some .atomicSwap
  else none

namespace ContractKind

def methods : ContractKind → List Text
  | sot => [lit "transfer", lit "mint", lit "burn", lit "balanceOf"]
  | son => [lit "transfer", lit "setMetadataUri", lit "burn"]
  | nativeVault => [lit "deposit", lit "withdrawToStealth"]
  | atomicSwap => [lit "fill", lit "cancel"]

def handler : ContractKind → Host → Text → Text → JsonValue → JsonValue → MethodResult
  | sot => callSOT
  | son => callSON
  | nativeVault => callNativeVault
  | atomicSwap => callAtomicSwap

end ContractKind

theorem dispatch_eq (h : Host) (c : Contract) (method : Text) (state args : JsonValue) :
    dispatch h c method state args =
      match kindOf c.contractType with
      | some k => k.handler h c.globalStateJson method state args
      | none => .ok (c.globalStateJson,
          [(lit "Error", lit "Unknown contract type: " ++ c.contractType)], 1) := by
  unfold dispatch kindOf
  split
  · rfl
  split
  · rfl
  split
  · rfl
  split <;> rfl

/-- The state, given back to a fresh instance, selects the kind, and every method of the kind is
answered by it. -/
structure Kept (k : ContractKind) (state : Bytes) : Prop where
  selected : kindOf (restoreState .fresh state).contract.contractType = some k
  dispatched : ∀ h method parsedState args, method ∈ k.methods →
    dispatch h (restoreState .fresh state).contract method parsedState args =
      k.handler h (restoreState .fresh state).contract.globalStateJson method parsedState args

theorem kept_iff {k : ContractKind} {state : Bytes} :
    Kept k state ↔ kindOf (restoreState .fresh state).contract.contractType = some k := by
  constructor
  · exact Kept.selected
  · intro hkind
    refine ⟨hkind, fun h method parsedState args _ ↦ ?_⟩
    rw [dispatch_eq, hkind]

/-! ## 3. The type that is found again -/

/-- The contract type that a state text names. -/
def selectedType (json : Text) : Text :=
  match parseFields json with
  | .ok parsed => detectType parsed
  | .error _ => []

theorem restored_contractType (c : Contract) :
    (restoreState .fresh (getState c)).contract.contractType =
      selectedType (untilNul c.globalStateJson) := by
  unfold restoreState getState selectedType
  rw [← decode_encode]
  split
  · rename_i hnil
    rw [hnil]
    rfl
  · dsimp only
    cases parseFields (decode (encode c.globalStateJson)) <;> rfl

/-- A fresh instance takes over a state that it can read. -/
theorem restored_of_parse {bytes : Bytes} {parsed : JsonValue}
    (h : parseFields (decode bytes) = .ok parsed) :
    (restoreState .fresh bytes).contract = ⟨decode bytes, detectType parsed⟩ := by
  have hne : bytes ≠ [] := by
    rintro rfl
    cases h
  unfold restoreState
  rw [if_neg hne]
  dsimp only
  rw [h]

theorem parseFields_eq_ok {json : Text} {v : JsonValue} :
    parseFields json = .ok v ↔ parse json = .ok v ∧ v.isObject = true := by
  unfold parseFields
  constructor
  · intro h
    split at h
    · cases h
    split at h
    · rename_i hparse hobject
      cases h
      exact ⟨hparse, hobject⟩
    · cases h
  · rintro ⟨hparse, hobject⟩
    rw [hparse]
    exact if_pos hobject

section

variable {ms : List Member} {v : JsonValue}

/-- The keys of a written object: none needs an escape, and none is `type`. -/
def Untyped (keys : List Text) : Prop :=
  keys ≠ [] ∧ (∀ key ∈ keys, PlainKey key) ∧ lit "type" ∉ keys

instance (keys : List Text) : Decidable (Untyped keys) := inferInstanceAs (Decidable (_ ∧ _ ∧ _))

variable {keys : List Text}

theorem Untyped.members (h : Untyped keys) (hms : ms.map (·.1) = keys) :
    ms ≠ [] ∧ (∀ m ∈ ms, PlainKey m.1) ∧ lit "type" ∉ ms.map (·.1) := by
  rw [hms]
  refine ⟨?_, fun m hm ↦ h.2.1 m.1 (hms ▸ List.mem_map_of_mem hm), h.2.2⟩
  rintro rfl
  exact h.1 hms.symm

theorem getString_objectOf {key : Text} (hkey : key ∉ ms.map (·.1)) :
    (objectOf [] ms).getString key = [] := by
  unfold JsonValue.getString
  rw [get_objectOf_of_not_mem hkey]
  rfl

/-- What can be read of a written text are its members, and they name no type. -/
theorem parseFields_written (cut : Bool) (h : Untyped keys) (hms : ms.map (·.1) = keys)
    (hv : parseFields (cutIf cut (objectText ms)) = .ok v) :
    (∀ m ∈ ms, m.2.Legible) ∧ v = objectOf [] ms ∧ v.getString (lit "type") = [] := by
  obtain ⟨hne, hplain, htype⟩ := h.members hms
  have hparse := (parseFields_eq_ok.mp hv).1
  by_cases hlegible : ∀ m ∈ ms, m.2.Legible
  · rw [parse_written hne hplain hlegible] at hparse
    cases hparse
    exact ⟨hlegible, rfl, getString_objectOf htype⟩
  · exact absurd hparse (parse_illegible hplain hlegible v)

/-- Without the field `type`, only the symbol names a type. -/
theorem selectedType_written (h : Untyped keys) (hms : ms.map (·.1) = keys) :
    selectedType (untilNul (objectText ms)) =
      if (∀ m ∈ ms, m.2.Legible) ∧ (objectOf [] ms).getString (lit "symbol") ≠ [] then lit "SOT"
      else [] := by
  obtain ⟨hne, hplain, htype⟩ := h.members hms
  unfold selectedType
  change (match parseFields (cutIf true (objectText ms)) with | .ok _ => _ | .error _ => _) = _
  by_cases hlegible : ∀ m ∈ ms, m.2.Legible
  · rw [parseFields_eq_ok.mpr ⟨parse_written hne hplain hlegible, rfl⟩]
    unfold detectType
    dsimp only
    rw [getString_objectOf htype, if_pos rfl]
    exact if_congr (and_iff_right hlegible).symm rfl rfl
  · rw [if_neg fun h ↦ hlegible h.1]
    split
    · rename_i hparse
      exact absurd (parseFields_written true h hms hparse).1 hlegible
    · rfl

/-- A contract that writes neither `type` nor `symbol` is of no kind afterwards. -/
theorem selectedType_none (h : Untyped keys) (hms : ms.map (·.1) = keys)
    (hsymbol : lit "symbol" ∉ keys) : selectedType (untilNul (objectText ms)) = [] := by
  rw [← hms] at hsymbol
  rw [selectedType_written h hms, getString_objectOf hsymbol]
  exact if_neg fun h ↦ h.2 rfl

end

namespace SmartObjectToken

def keys : List Text :=
  [lit "name", lit "symbol", lit "decimals", lit "localSupply", lit "totalSupply", lit "balance",
    lit "owner"]

theorem keys_untyped : Untyped keys := by decide

theorem members_keys (token : SmartObjectToken) : token.members.map (·.1) = keys := by
  unfold members keys
  simp only [List.map_cons, List.map_nil]

theorem getString_symbol (token : SmartObjectToken) :
    (objectOf [] token.members).getString (lit "symbol") = token.symbol := by
  have hnodup : (token.members.map (·.1)).Nodup := by
    rw [members_keys]
    decide
  have hmem : ((lit "symbol", .string token.symbol) : Member) ∈ token.members :=
    List.mem_cons_of_mem _ List.mem_cons_self
  unfold JsonValue.getString
  rw [get_objectOf_of_mem hnodup hmem]
  rfl

theorem selectedType_toJson (token : SmartObjectToken) :
    selectedType (untilNul token.toJson) =
      if (Legible token.name ∧ Legible token.symbol ∧ Legible token.owner) ∧ token.symbol ≠ [] then
        lit "SOT"
      else [] := by
  rw [toJson_eq, selectedType_written keys_untyped token.members_keys, getString_symbol]
  simp only [members_legible]

end SmartObjectToken

namespace SmartObjectNFT

def keys : List Text := [lit "collectionName", lit "tokenId", lit "metadataUri", lit "owner"]

theorem keys_untyped : Untyped keys := by decide

theorem members_keys (nft : SmartObjectNFT) : nft.members.map (·.1) = keys := by
  unfold members keys
  simp only [List.map_cons, List.map_nil]

theorem selectedType_toJson (nft : SmartObjectNFT) : selectedType (untilNul nft.toJson) = [] := by
  rw [toJson_eq]
  exact selectedType_none keys_untyped nft.members_keys (by decide)

end SmartObjectNFT

namespace NativeVault

def keys : List Text := [lit "totalLockedSatoshis", lit "vaultOwner"]

theorem keys_untyped : Untyped keys := by decide

theorem members_keys (vault : NativeVault) : vault.members.map (·.1) = keys := by
  unfold members keys
  simp only [List.map_cons, List.map_nil]

theorem selectedType_toJson (vault : NativeVault) : selectedType (untilNul vault.toJson) = [] := by
  rw [toJson_eq]
  exact selectedType_none keys_untyped vault.members_keys (by decide)

end NativeVault

namespace AtomicSwapOrder

def keys : List Text :=
  [lit "maker", lit "offeredTokenId", lit "demandedSatoshis", lit "isFilled", lit "isCancelled"]

theorem keys_untyped : Untyped keys := by decide

theorem members_keys (order : AtomicSwapOrder) : order.members.map (·.1) = keys := by
  unfold members keys
  simp only [List.map_cons, List.map_nil]

theorem selectedType_toJson (order : AtomicSwapOrder) :
    selectedType (untilNul order.toJson) = [] := by
  rw [toJson_eq]
  exact selectedType_none keys_untyped order.members_keys (by decide)

end AtomicSwapOrder

/-! ## 4. Calls -/

/-- What a method that succeeds leaves as the state text. -/
inductive Writes (json method : Text) (state args : JsonValue) : ContractKind → Text → Prop
  | balanceOf : method = lit "balanceOf" → Writes json method state args .sot json
  | token (token : SmartObjectToken) : method ≠ lit "balanceOf" →
      token.name = state.getString (lit "name") →
      token.symbol = state.getString (lit "symbol") →
      token.owner =
        (if method = lit "burn" then state.getString (lit "owner") else args.getString (lit "to")) →
      Writes json method state args .sot token.toJson
  | nft (nft : SmartObjectNFT) : Writes json method state args .son nft.toJson
  | vault (vault : NativeVault) : Writes json method state args .nativeVault vault.toJson
  | order (order : AtomicSwapOrder) : Writes json method state args .atomicSwap order.toJson

section

variable {h : Host} {json method json' : Text} {state args : JsonValue} {events : List Event}

/-- A step of a method followed by writing the result back. -/
theorem stored_eq_ok {α : Type} {m : Except Text (α × Event)} {topic : String}
    {toJson : α → Text} {code : Int32}
    (hm : (do let (x, event) ← m; pure (stored topic (toJson x) event) : MethodResult) =
      .ok (json', events, code)) : code = 0 ∧ ∃ x event, m = .ok (x, event) ∧ json' = toJson x := by
  cases m with
  | error e => cases hm
  | ok r =>
    obtain ⟨x, event⟩ := r
    cases hm
    exact ⟨rfl, x, event, rfl, rfl⟩

/-- A method succeeds, or leaves the state text as it is. -/
theorem handler_writes {k : ContractKind} {code : Int32}
    (hrun : k.handler h json method state args = .ok (json', events, code)) :
    (code = 0 ∧ Writes json method state args k json') ∨ (code = 1 ∧ json' = json) := by
  cases k with
  | sot =>
    change callSOT h json method state args = _ at hrun
    unfold callSOT at hrun
    dsimp only at hrun
    split at hrun
    · rename_i hmethod
      obtain ⟨token', event, hstep, rfl⟩ := (stored_eq_ok hrun).2
      obtain ⟨_, _, _, hr⟩ := SmartObjectToken.transfer_eq_ok.mp hstep
      cases hr
      have hne : method ≠ lit "balanceOf" ∧ method ≠ lit "burn" := by
        rw [hmethod]
        decide
      exact .inl ⟨(stored_eq_ok hrun).1, .token _ hne.1 rfl rfl (if_neg hne.2).symm⟩
    split at hrun
    · rename_i hmethod
      obtain ⟨token', event, hstep, rfl⟩ := (stored_eq_ok hrun).2
      obtain ⟨_, _, hr⟩ := SmartObjectToken.mint_eq_ok.mp hstep
      cases hr
      have hne : method ≠ lit "balanceOf" ∧ method ≠ lit "burn" := by
        rw [hmethod]
        decide
      exact .inl ⟨(stored_eq_ok hrun).1, .token _ hne.1 rfl rfl (if_neg hne.2).symm⟩
    split at hrun
    · rename_i hmethod
      obtain ⟨token', event, hstep, rfl⟩ := (stored_eq_ok hrun).2
      obtain ⟨_, _, _, hr⟩ := SmartObjectToken.burn_eq_ok.mp hstep
      cases hr
      have hne : method ≠ lit "balanceOf" := by
        rw [hmethod]
        decide
      exact .inl ⟨(stored_eq_ok hrun).1, .token _ hne rfl rfl (if_pos hmethod).symm⟩
    split at hrun
    · rename_i hmethod
      cases hrun
      exact .inl ⟨rfl, .balanceOf hmethod⟩
    · cases hrun
      exact .inr ⟨rfl, rfl⟩
  | son =>
    change callSON h json method state args = _ at hrun
    unfold callSON at hrun
    dsimp only at hrun
    split at hrun
    · obtain ⟨nft, event, _, rfl⟩ := (stored_eq_ok hrun).2
      exact .inl ⟨(stored_eq_ok hrun).1, .nft nft⟩
    split at hrun
    · obtain ⟨nft, event, _, rfl⟩ := (stored_eq_ok hrun).2
      exact .inl ⟨(stored_eq_ok hrun).1, .nft nft⟩
    split at hrun
    · obtain ⟨nft, event, _, rfl⟩ := (stored_eq_ok hrun).2
      exact .inl ⟨(stored_eq_ok hrun).1, .nft nft⟩
    · cases hrun
      exact .inr ⟨rfl, rfl⟩
  | nativeVault =>
    change callNativeVault h json method state args = _ at hrun
    unfold callNativeVault at hrun
    dsimp only at hrun
    split at hrun
    · obtain ⟨vault, event, _, rfl⟩ := (stored_eq_ok hrun).2
      exact .inl ⟨(stored_eq_ok hrun).1, .vault vault⟩
    split at hrun
    · obtain ⟨vault, event, _, rfl⟩ := (stored_eq_ok hrun).2
      exact .inl ⟨(stored_eq_ok hrun).1, .vault vault⟩
    · cases hrun
      exact .inr ⟨rfl, rfl⟩
  | atomicSwap =>
    change callAtomicSwap h json method state args = _ at hrun
    unfold callAtomicSwap at hrun
    dsimp only at hrun
    split at hrun
    · obtain ⟨order, event, _, rfl⟩ := (stored_eq_ok hrun).2
      exact .inl ⟨(stored_eq_ok hrun).1, .order order⟩
    split at hrun
    · obtain ⟨order, event, _, rfl⟩ := (stored_eq_ok hrun).2
      exact .inl ⟨(stored_eq_ok hrun).1, .order order⟩
    · cases hrun
      exact .inr ⟨rfl, rfl⟩

end

/-- A call reports an error and leaves the state text, or its method has run. -/
theorem call_handled {h : Host} {c : Contract} {method args : Bytes} {reply : Reply}
    (hcall : call h c method args = .ok reply) :
    reply.contract.contractType = c.contractType ∧
      ((reply.code = 1 ∧ reply.contract.globalStateJson = c.globalStateJson) ∨
        ∃ k state fields events, kindOf c.contractType = some k ∧
          parseFields c.globalStateJson = .ok state ∧ parseFields (decodeArgs args) = .ok fields ∧
          k.handler h c.globalStateJson (readCString method 64) state fields =
            .ok (reply.contract.globalStateJson, events, reply.code)) := by
  unfold call at hcall
  dsimp only at hcall
  split at hcall
  · cases hcall
    exact ⟨rfl, .inl ⟨rfl, rfl⟩⟩
  rename_i fields hfields
  split at hcall
  · cases hcall
    exact ⟨rfl, .inl ⟨rfl, rfl⟩⟩
  rename_i state hstate
  rw [dispatch_eq] at hcall
  cases hkind : kindOf c.contractType with
  | none =>
    rw [hkind] at hcall
    cases hcall
    exact ⟨rfl, .inl ⟨rfl, rfl⟩⟩
  | some k =>
    rw [hkind] at hcall
    dsimp only at hcall
    cases hrun : k.handler h c.globalStateJson (readCString method 64) state fields with
    | error e =>
      rw [hrun] at hcall
      cases hcall
    | ok r =>
      obtain ⟨json, events, code⟩ := r
      rw [hrun] at hcall
      cases hcall
      exact ⟨rfl, .inr ⟨k, state, fields, events, rfl, hstate, hfields, hrun⟩⟩

/-- A call leaves the contract as it is, reports an error, or writes the state of its kind. -/
theorem call_eq_ok {h : Host} {c : Contract} {method args : Bytes} {reply : Reply}
    (hcall : call h c method args = .ok reply) :
    reply.contract.contractType = c.contractType ∧
      ((reply.code = 1 ∧ reply.contract.globalStateJson = c.globalStateJson) ∨
        reply.code = 0 ∧ ∃ k state fields, kindOf c.contractType = some k ∧
          parseFields c.globalStateJson = .ok state ∧ parseFields (decodeArgs args) = .ok fields ∧
          Writes c.globalStateJson (readCString method 64) state fields k
            reply.contract.globalStateJson) := by
  obtain ⟨htype, hrefused | ⟨k, state, fields, events, hkind, hstate, hfields, hrun⟩⟩ :=
    call_handled hcall
  · exact ⟨htype, .inl hrefused⟩
  rcases handler_writes hrun with ⟨hcode, hwrites⟩ | hrefused
  · exact ⟨htype, .inr ⟨hcode, k, state, fields, hkind, hstate, hfields, hwrites⟩⟩
  · exact ⟨htype, .inl hrefused⟩

/-! ## 5. Reachable instances -/

/-- The instances that the entry points lead to. -/
inductive Contract.Reached : Contract → Prop
  | fresh : Reached .fresh
  | init {c : Contract} (args : Bytes) : Reached c → Reached (init c args).contract
  | restoreState {c : Contract} (state : Bytes) : Reached c →
      Reached (restoreState c state).contract
  | call {h : Host} {c : Contract} {method args : Bytes} {reply : Reply} : Reached c →
      call h c method args = .ok reply → Reached reply.contract

/-- A type that the state names is the contract type. -/
def Contract.TypeAgrees (c : Contract) : Prop :=
  ∀ state, parseFields c.globalStateJson = .ok state →
    state.getString (lit "type") = [] ∨ state.getString (lit "type") = c.contractType

theorem detectType_agrees (parsed : JsonValue) :
    parsed.getString (lit "type") = [] ∨ parsed.getString (lit "type") = detectType parsed := by
  unfold detectType
  dsimp only
  by_cases htype : parsed.getString (lit "type") = []
  · exact .inl htype
  · exact .inr (if_neg htype).symm

/-- What a method writes anew names no type. -/
theorem Writes.typeless {json method json' : Text} {state args : JsonValue} {k : ContractKind}
    (h : Writes json method state args k json') :
    json' = json ∨ ∀ v, parseFields json' = .ok v → v.getString (lit "type") = [] := by
  cases h with
  | balanceOf => exact .inl rfl
  | token token =>
    rw [token.toJson_eq]
    exact .inr fun v hv ↦
      (parseFields_written false SmartObjectToken.keys_untyped token.members_keys hv).2.2
  | nft nft =>
    rw [nft.toJson_eq]
    exact .inr fun v hv ↦
      (parseFields_written false SmartObjectNFT.keys_untyped nft.members_keys hv).2.2
  | vault vault =>
    rw [vault.toJson_eq]
    exact .inr fun v hv ↦
      (parseFields_written false NativeVault.keys_untyped vault.members_keys hv).2.2
  | order order =>
    rw [order.toJson_eq]
    exact .inr fun v hv ↦
      (parseFields_written false AtomicSwapOrder.keys_untyped order.members_keys hv).2.2

theorem Contract.Reached.typeAgrees {c : Contract} (hc : c.Reached) : c.TypeAgrees := by
  induction hc with
  | fresh =>
    intro state hstate
    have hparse : parseFields (lit "\x7b\x7d") = .ok (.object []) := rfl
    cases hparse.symm.trans hstate
    exact .inl rfl
  | init args _ ih =>
    unfold Contracts.init
    dsimp only
    split
    · exact ih
    · rename_i parsed hparsed
      intro state hstate
      cases hparsed.symm.trans hstate
      exact detectType_agrees parsed
  | restoreState bytes _ ih =>
    unfold Contracts.restoreState
    split
    · exact ih
    dsimp only
    split
    · exact ih
    · rename_i parsed hparsed
      intro state hstate
      cases hparsed.symm.trans hstate
      exact detectType_agrees parsed
  | call _ hcall ih =>
    obtain ⟨htype, ⟨_, hjson⟩ | ⟨_, k, state, fields, _, _, _, hwrites⟩⟩ := call_eq_ok hcall
    · intro v hv
      rw [hjson] at hv
      rw [htype]
      exact ih v hv
    · intro v hv
      rcases hwrites.typeless with hjson | htypeless
      · rw [hjson] at hv
        rw [htype]
        exact ih v hv
      · exact .inl (htypeless v hv)

/-! ## 6. The kind after a call -/

/-- When the state after a successful call still tells the kind: only a token's can, if it has a
symbol and can be read back. -/
def KeepsKind (k : ContractKind) (c : Contract) (method args : Bytes) : Prop :=
  k = .sot ∧ ∃ state fields, parseFields c.globalStateJson = .ok state ∧
    parseFields (decodeArgs args) = .ok fields ∧
    if readCString method 64 = lit "balanceOf" then
      -- the state text stays, and a zero character would cut it
      0 ∉ c.globalStateJson ∧
        (state.getString (lit "type") ≠ [] ∨ state.getString (lit "symbol") ≠ [])
    else
      state.getString (lit "symbol") ≠ [] ∧ Legible (state.getString (lit "name")) ∧
        Legible (state.getString (lit "symbol")) ∧
        Legible (if readCString method 64 = lit "burn" then state.getString (lit "owner")
          else fields.getString (lit "to"))

/-- A state text that is not rewritten selects the contract type again, if it names one. -/
theorem selectedType_kept {c : Contract} {state : JsonValue} (htype : c.TypeAgrees)
    (hstate : parseFields c.globalStateJson = .ok state)
    (hkind : kindOf c.contractType = some .sot) :
    kindOf (selectedType (untilNul c.globalStateJson)) = some .sot ↔ 0 ∉ c.globalStateJson ∧
      (state.getString (lit "type") ≠ [] ∨ state.getString (lit "symbol") ≠ []) := by
  have hnone : kindOf [] ≠ some .sot := by decide
  by_cases hzero : 0 ∈ c.globalStateJson
  · -- what is left of the text before the zero character cannot be read
    refine iff_of_false (fun hsot ↦ ?_) fun h ↦ h.1 hzero
    obtain ⟨rest, hrest⟩ := exists_untilNul hzero
    unfold selectedType at hsot
    split at hsot
    · rename_i parsed hparsed
      have hread := (parseFields_eq_ok.mp hstate).1
      rw [hrest] at hread
      exact parse_append_error (parseFields_eq_ok.mp hparsed).1 rest state hread
    · exact hnone hsot
  · rw [untilNul_eq_self hzero]
    unfold selectedType
    rw [hstate]
    unfold detectType
    dsimp only
    by_cases hnil : state.getString (lit "type") = []
    · rw [if_pos hnil]
      by_cases hsymbol : state.getString (lit "symbol") = []
      · rw [if_neg (not_not.mpr hsymbol)]
        refine iff_of_false hnone fun h ↦ ?_
        exact h.2.elim (fun h ↦ h hnil) fun h ↦ h hsymbol
      · rw [if_pos hsymbol]
        exact iff_of_true (by decide) ⟨hzero, .inr hsymbol⟩
    · rw [if_neg hnil]
      have hagrees := (htype state hstate).resolve_left hnil
      rw [hagrees]
      exact iff_of_true hkind ⟨hzero, .inl fun h ↦ hnil (hagrees.trans h)⟩

theorem kindOf_nil : kindOf [] = none := by decide

/-- A token that was written is found again when it has a symbol and its strings can be read. -/
theorem selectedType_token (token : SmartObjectToken) :
    kindOf (selectedType (untilNul token.toJson)) = some .sot ↔
      token.symbol ≠ [] ∧ Legible token.name ∧ Legible token.symbol ∧ Legible token.owner := by
  rw [token.selectedType_toJson]
  split
  · rename_i hread
    exact iff_of_true (by decide) ⟨hread.2, hread.1⟩
  · rename_i hread
    rw [kindOf_nil]
    exact iff_of_false (fun h ↦ by cases h) fun h ↦ hread ⟨h.2, h.1⟩

/-- **When a contract keeps its kind.** -/
theorem keeps_kind_iff {c : Contract} (hreached : c.Reached) {k : ContractKind}
    (hkind : kindOf c.contractType = some k) {h : Host} {method args : Bytes} {reply : Reply}
    (hcall : call h c method args = .ok reply) (hok : reply.code = 0) :
    Kept k (getState reply.contract) ↔ KeepsKind k c method args := by
  obtain ⟨_, ⟨hcode, _⟩ | ⟨_, k', state, fields, hkind', hstate, hfields, hwrites⟩⟩ :=
    call_eq_ok hcall
  · rw [hok] at hcode
    cases hcode
  cases hkind.symm.trans hkind'
  rw [kept_iff, restored_contractType]
  unfold KeepsKind
  generalize reply.contract.globalStateJson = json at hwrites
  cases hwrites with
  | balanceOf hmethod =>
    rw [selectedType_kept hreached.typeAgrees hstate hkind]
    constructor
    · intro hkept
      refine ⟨rfl, state, fields, hstate, hfields, ?_⟩
      rw [if_pos hmethod]
      exact hkept
    · rintro ⟨_, state', fields', hstate', _, hkept⟩
      rw [if_pos hmethod] at hkept
      cases hstate.symm.trans hstate'
      exact hkept
  | token token hmethod hname hsymbol howner =>
    rw [selectedType_token, hname, hsymbol, howner]
    constructor
    · intro hkept
      refine ⟨rfl, state, fields, hstate, hfields, ?_⟩
      rw [if_neg hmethod]
      exact hkept
    · rintro ⟨_, state', fields', hstate', hfields', hkept⟩
      rw [if_neg hmethod] at hkept
      cases hstate.symm.trans hstate'
      cases hfields.symm.trans hfields'
      exact hkept
  | nft nft =>
    rw [nft.selectedType_toJson, kindOf_nil]
    exact iff_of_false (fun h ↦ by cases h) fun h ↦ by cases h.1
  | vault vault =>
    rw [vault.selectedType_toJson, kindOf_nil]
    exact iff_of_false (fun h ↦ by cases h) fun h ↦ by cases h.1
  | order order =>
    rw [order.selectedType_toJson, kindOf_nil]
    exact iff_of_false (fun h ↦ by cases h) fun h ↦ by cases h.1

def demoHost : Host where
  caller := lit "a"
  satoshis := 0
  stealthSettle _ _ := false

def demoToken : Contract :=
  (init .fresh (asBytes "\x7b\"symbol\":\"T\",\"balance\":5,\"owner\":\"a\"\x7d")).contract

def demoTransferArgs : Bytes := asBytes "\x7b\"to\":\"b\",\"amount\":5\x7d"

/-- What a call left, or the instance as it was when it trapped. -/
def demoReply (c : Contract) (method args : Bytes) : Reply :=
  (call demoHost c method args).toOption.getD { contract := c, events := [], code := 1 }

/-- A token that was transferred is a token afterwards. -/
theorem keeps_kind_iff_transfer :
    Kept .sot (getState (demoReply demoToken (asBytes "transfer") demoTransferArgs).contract) ↔
      KeepsKind .sot demoToken (asBytes "transfer") demoTransferArgs :=
  keeps_kind_iff (h := demoHost) (.init _ .fresh) (by decide +kernel) (by rfl) (by decide +kernel)

def demoNft : Contract :=
  (init .fresh (asBytes "\x7b\"type\":\"SON\",\"tokenId\":1,\"owner\":\"a\"\x7d")).contract

/-- An NFT that was transferred is of no kind afterwards. -/
theorem nft_transfer_loses_kind :
    let reply := demoReply demoNft (asBytes "transfer") demoTransferArgs
    demoNft.Reached ∧ kindOf demoNft.contractType = some .son ∧
      call demoHost demoNft (asBytes "transfer") demoTransferArgs = .ok reply ∧ reply.code = 0 ∧
      ¬ Kept .son (getState reply.contract) := by
  refine ⟨.init _ .fresh, by decide +kernel, by rfl, by decide +kernel, fun hkept ↦ ?_⟩
  have hselected := hkept.selected
  revert hselected
  decide +kernel

end UtxoVm.Contracts
