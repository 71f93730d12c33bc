import UtxoVm.Contracts.KeepsKind

/-!
# Contracts/StateText — the state that is read back

Each class is written by its `toJson` and read field by field from the parsed text.  The text gives
back the same fields exactly when its strings are legible.
-/

namespace UtxoVm.Contracts

open RustStd AsStd JsonParser

/-! ## 1. Strings -/

/-- A quoted string is read back exactly when it is legible. -/
theorem parse_quoted_iff (s : Text) :
    parse (0x22 :: (escapeJsonString s ++ [0x22])) = .ok (.string s) ↔ Legible s := by
  have hskip : skipWhitespace (0x22 :: (escapeJsonString s ++ [0x22])) =
      0x22 :: (escapeJsonString s ++ [0x22]) := skipWhitespace_cons rfl _
  rw [parse_eq_ok, hskip]
  constructor
  · rintro ⟨rest, -, hread⟩
    by_contra h
    have hillegible : ¬ (Token.string s).Legible := h
    rw [← List.append_nil (0x22 :: (escapeJsonString s ++ [0x22]))] at hread
    exact parseValue_illegible hillegible false [] _ hread
  · intro h
    have hlegible : (Token.string s).Legible := h
    have hend : NoDigitHead [] := fun c s' hcons ↦ (List.cons_ne_nil c s' hcons.symm).elim
    refine ⟨[], rfl, ?_⟩
    rw [← List.append_nil (0x22 :: (escapeJsonString s ++ [0x22]))]
    exact parseValue_token hlegible hend

/-! ## 2. Fields -/

theorem dropWhile_digits {s : Text} (hs : ∀ c ∈ s, 0x30 ≤ c.toNat ∧ c.toNat ≤ 0x39) :
    s.dropWhile isWhitespaceChar = s := by
  cases s with
  | nil => rfl
  | cons c s =>
    have hc := hs c List.mem_cons_self
    have hne (d : UInt16) (hd : d.toNat < 0x30) : (c == d) = false := by
      rw [beq_eq_false_iff_ne]
      rintro rfl
      omega
    have hspace : isWhitespaceChar c = false := by
      unfold isWhitespaceChar
      rw [hne _ (by decide), hne _ (by decide), hne _ (by decide), hne _ (by decide)]
      rfl
    rw [List.dropWhile_cons, hspace]
    rfl

/-- An amount has no white space to trim. -/
theorem trimmed_amountText (n : UInt64) :
    (((amountText n).dropWhile isWhitespaceChar).reverse.dropWhile isWhitespaceChar).reverse =
      amountText n := by
  have hdigits : ∀ c ∈ amountText n, 0x30 ≤ c.toNat ∧ c.toNat ≤ 0x39 := decimal_digits n.toNat
  have hreverse : ∀ c ∈ (amountText n).reverse, 0x30 ≤ c.toNat ∧ c.toNat ≤ 0x39 := fun c hc ↦
    hdigits c (List.mem_reverse.mp hc)
  rw [dropWhile_digits hdigits, dropWhile_digits hreverse, List.reverse_reverse]

section Fields

variable {ms : List Member} {keys : List Text}

/-- What is read of a written object. -/
theorem parse_objectText_iff (h : Untyped keys) (hms : ms.map (·.1) = keys) {v : JsonValue} :
    parse (objectText ms) = .ok v ↔ (∀ m ∈ ms, m.2.Legible) ∧ v = objectOf [] ms := by
  obtain ⟨hne, hplain, -⟩ := h.members hms
  by_cases hlegible : ∀ m ∈ ms, m.2.Legible
  · have hparse : parse (cutIf false (objectText ms)) = .ok (objectOf [] ms) :=
      parse_written hne hplain hlegible
    change parse (objectText ms) = _ at hparse
    rw [hparse, and_iff_right hlegible]
    constructor
    · intro hv
      cases hv
      rfl
    · exact fun hv ↦ congrArg _ hv.symm
  · have hno : parse (cutIf false (objectText ms)) ≠ .ok v := parse_illegible hplain hlegible v
    exact iff_of_false hno fun hv ↦ hlegible hv.1

variable (hnodup : (ms.map (·.1)).Nodup) {key : Text}
include hnodup

theorem getString_member {s : Text} (hmem : (key, Token.string s) ∈ ms) :
    (objectOf [] ms).getString key = s := by
  unfold JsonValue.getString
  rw [get_objectOf_of_mem hnodup hmem]
  rfl

theorem getBool_member {b : Bool} (hmem : (key, Token.bool b) ∈ ms) :
    (objectOf [] ms).getBool key = b := by
  unfold JsonValue.getBool
  rw [get_objectOf_of_mem hnodup hmem]
  rfl

theorem getInt_number {n : Nat} (hmem : (key, Token.number n) ∈ ms) :
    (objectOf [] ms).getInt key = parseI64 (decimal n) := by
  unfold JsonValue.getInt
  rw [get_objectOf_of_mem hnodup hmem]
  rfl

/-- A quoted amount is read back, whatever its size. -/
theorem getInt_amount {n : UInt64} (hmem : (key, Token.string (amountText n)) ∈ ms) :
    ((objectOf [] ms).getInt key).toUInt64 = n := by
  have htrimmed := trimmed_amountText n
  have hne : amountText n ≠ [] := decimal_ne_nil n.toNat
  unfold JsonValue.getInt
  rw [get_objectOf_of_mem hnodup hmem]
  dsimp only [Token.value]
  rw [htrimmed, if_pos hne]
  exact parseI64_decimal n

theorem has_member {tok : Token} (hmem : (key, tok) ∈ ms) :
    (objectOf [] ms).has key = true := by
  unfold JsonValue.has
  rw [get_objectOf_of_mem hnodup hmem]
  rfl

end Fields

/-! ## 3. The four classes -/

theorem SmartObjectToken.tokenOf_members (token : SmartObjectToken) :
    tokenOf (objectOf [] token.members) = token := by
  have hnodup : (token.members.map (·.1)).Nodup := by
    rw [members_keys]
    decide
  have hdecimals : ((objectOf [] token.members).getInt (lit "decimals")).toUInt64.toUInt8 =
      token.decimals := by
    rw [getInt_number hnodup (n := token.decimals.toNat) (by simp [members]),
      ← UInt8.toNat_toUInt64, parseI64_decimal, UInt8.toUInt8_toUInt64]
  have hsupply : (lit "localSupply", Token.string (amountText token.localSupply)) ∈
      token.members := by simp [members]
  unfold tokenOf
  rw [getString_member hnodup (s := token.name) (by simp [members]),
    getString_member hnodup (s := token.symbol) (by simp [members]), hdecimals,
    has_member hnodup hsupply, if_pos rfl, getInt_amount hnodup hsupply,
    getInt_amount hnodup (n := token.balance) (by simp [members]),
    getString_member hnodup (s := token.owner) (by simp [members])]

theorem SmartObjectNFT.nftOf_members (nft : SmartObjectNFT) :
    nftOf (objectOf [] nft.members) = nft := by
  have hnodup : (nft.members.map (·.1)).Nodup := by
    rw [members_keys]
    decide
  unfold nftOf
  rw [getString_member hnodup (s := nft.collectionName) (by simp [members]),
    getInt_amount hnodup (n := nft.tokenId) (by simp [members]),
    getString_member hnodup (s := nft.metadataUri) (by simp [members]),
    getString_member hnodup (s := nft.owner) (by simp [members])]

theorem NativeVault.vaultOf_members (vault : NativeVault) :
    vaultOf (objectOf [] vault.members) = vault := by
  have hnodup : (vault.members.map (·.1)).Nodup := by
    rw [members_keys]
    decide
  unfold vaultOf
  rw [getInt_amount hnodup (n := vault.totalLockedSatoshis) (by simp [members]),
    getString_member hnodup (s := vault.vaultOwner) (by simp [members])]

theorem AtomicSwapOrder.orderOf_members (order : AtomicSwapOrder) :
    orderOf (objectOf [] order.members) = order := by
  have hnodup : (order.members.map (·.1)).Nodup := by
    rw [members_keys]
    decide
  unfold orderOf
  rw [getString_member hnodup (s := order.maker) (by simp [members]),
    getInt_amount hnodup (n := order.offeredTokenId) (by simp [members]),
    getInt_amount hnodup (n := order.demandedSatoshis) (by simp [members]),
    getBool_member hnodup (b := order.isFilled) (by simp [members]),
    getBool_member hnodup (b := order.isCancelled) (by simp [members])]

theorem SmartObjectNFT.members_legible (nft : SmartObjectNFT) :
    (∀ m ∈ nft.members, m.2.Legible) ↔
      Legible nft.collectionName ∧ Legible nft.metadataUri ∧ Legible nft.owner := by
  unfold members
  simp only [List.forall_mem_cons, Token.Legible, legible_amountText, true_and]
  exact ⟨fun h ↦ ⟨h.1, h.2.1, h.2.2.1⟩,
    fun h ↦ ⟨h.1, h.2.1, h.2.2, fun m hm ↦ absurd hm List.not_mem_nil⟩⟩

theorem NativeVault.members_legible (vault : NativeVault) :
    (∀ m ∈ vault.members, m.2.Legible) ↔ Legible vault.vaultOwner := by
  unfold members
  simp only [List.forall_mem_cons, Token.Legible, legible_amountText, true_and]
  exact ⟨fun h ↦ h.1, fun h ↦ ⟨h, fun m hm ↦ absurd hm List.not_mem_nil⟩⟩

theorem AtomicSwapOrder.members_legible (order : AtomicSwapOrder) :
    (∀ m ∈ order.members, m.2.Legible) ↔ Legible order.maker := by
  unfold members
  simp only [List.forall_mem_cons, Token.Legible, legible_amountText, true_and]
  exact ⟨fun h ↦ h.1, fun h ↦ ⟨h, fun m hm ↦ absurd hm List.not_mem_nil⟩⟩

/-- A class whose reader gives the fields back is read back exactly when its strings are legible. -/
theorem readsBack_iff {α : Type} {ms : List Member} {keys : List Text} {read : JsonValue → α}
    {a : α} (h : Untyped keys) (hms : ms.map (·.1) = keys) (hread : read (objectOf [] ms) = a) :
    (∃ v, parse (objectText ms) = .ok v ∧ read v = a) ↔ ∀ m ∈ ms, m.2.Legible := by
  constructor
  · rintro ⟨v, hv, -⟩
    exact ((parse_objectText_iff h hms).mp hv).1
  · exact fun hlegible ↦ ⟨_, (parse_objectText_iff h hms).mpr ⟨hlegible, rfl⟩, hread⟩

/-- **What the contracts write can be read back** exactly when the strings in it are legible, and
then every field comes back. -/
theorem state_reads_back_iff (s : Text) (token : SmartObjectToken) (nft : SmartObjectNFT)
    (vault : NativeVault) (order : AtomicSwapOrder) :
    (parse (0x22 :: (escapeJsonString s ++ [0x22])) = .ok (.string s) ↔ Legible s) ∧
    ((∃ v, parse token.toJson = .ok v ∧ tokenOf v = token) ↔
      Legible token.name ∧ Legible token.symbol ∧ Legible token.owner) ∧
    ((∃ v, parse nft.toJson = .ok v ∧ nftOf v = nft) ↔
      Legible nft.collectionName ∧ Legible nft.metadataUri ∧ Legible nft.owner) ∧
    ((∃ v, parse vault.toJson = .ok v ∧ vaultOf v = vault) ↔ Legible vault.vaultOwner) ∧
    ((∃ v, parse order.toJson = .ok v ∧ orderOf v = order) ↔ Legible order.maker) := by
  refine ⟨parse_quoted_iff s, ?_, ?_, ?_, ?_⟩
  · rw [token.toJson_eq, ← token.members_legible]
    exact readsBack_iff SmartObjectToken.keys_untyped token.members_keys token.tokenOf_members
  · rw [nft.toJson_eq, ← nft.members_legible]
    exact readsBack_iff SmartObjectNFT.keys_untyped nft.members_keys nft.nftOf_members
  · rw [vault.toJson_eq, ← vault.members_legible]
    exact readsBack_iff NativeVault.keys_untyped vault.members_keys vault.vaultOf_members
  · rw [order.toJson_eq, ← order.members_legible]
    exact readsBack_iff AtomicSwapOrder.keys_untyped order.members_keys order.orderOf_members

/-- A control character is written as it is, and then refused. -/
theorem control_character_not_read_back :
    ¬ ∃ v, parse (0x22 :: (escapeJsonString [0x01] ++ [0x22])) = .ok v := by
  rintro ⟨v, h⟩
  have hread : (parse (0x22 :: (escapeJsonString [0x01] ++ [0x22]))).isOk = false := by
    decide
  rw [h] at hread
  cases hread

end UtxoVm.Contracts
