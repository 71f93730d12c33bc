import UtxoVm.Scanner.BridgeLock
import UtxoVm.Scanner.Scan
import UtxoVm.Sdk.LightLineage

/-!
# Swap transactions of the SDK (`sdk/src/psbt_swap.ts`)

`buildAtomicFillTx` pairs the seal of an object with a payment: one output pays the seller, one is
meant to carry the object to the buyer.  The scripts of addresses hold no envelope, so the node sees
the seal spent by a transaction in which it reads nothing.  Running transactions, it does not touch
the object from then on; rollbacks and bridge calls are not looked at here.
-/

namespace UtxoVm

open RustStd StateStore BlockProcessor

/-! ## 1. Orders -/

inductive AssetType where
  | sot | son | custom
  deriving DecidableEq, Repr

structure AtomicSellOrder where
  orderId : String
  chain : String
  sellObjectId : String
  sellSeal : String
  assetType : AssetType
  priceSatoshis : String
  sellerAddress : String
  sellerPublicKey : String
  createdAt : Int
  expiresAt : Option Int
  deriving DecidableEq, Repr

/-- `bigint | string`. -/
inductive Price where
  | bigint (n : Int)
  | text (s : String)

/-- `price.toString()`. -/
def Price.toText : Price → String
  | bigint n => toString n
  | text s => s

structure SellParams where
  chain : Option String := none
  sellObjectId : String
  sellSeal : String
  assetType : Option AssetType := none
  priceSatoshis : Price
  sellerAddress : String
  sellerPublicKey : String
  expiresInSeconds : Option Int := none

/-- `a || b` on an optional text: a missing and an empty one are both falsy. -/
def orText (a : Option String) (b : String) : String :=
  match a with
  | some s => if s = "" then b else s
  | none => b

/-- `a || b` on an optional number: a missing one and zero are both falsy. -/
def orBigInt (a : Option Int) (b : Int) : Int :=
  match a with
  | some n => if n = 0 then b else n
  | none => b

/-- `now` is `Date.now()`, `random` the two pieces of random digits. -/
def createSellOrder (now : Int) (random : String) (p : SellParams) : AtomicSellOrder where
  orderId := "order_" ++ random
  chain := orText p.chain "JKC"
  sellObjectId := p.sellObjectId
  sellSeal := p.sellSeal
  assetType := p.assetType.getD .son
  priceSatoshis := p.priceSatoshis.toText
  sellerAddress := p.sellerAddress
  sellerPublicKey := p.sellerPublicKey
  createdAt := now
  expiresAt := (p.expiresInSeconds.filter (· ≠ 0)).map fun seconds ↦ now + seconds * 1000

/-! ## 2. `BigInt(text)` -/

/-- A literal in a radix: digits of that radix only, and at least one. -/
def bigDigits (radix : Nat) (cs : List Char) : Option Nat :=
  if cs = [] then none
  else cs.foldlM (fun n c ↦ ((hexVal c).filter (· < radix)).map (n * radix + ·)) 0

/-- `BigInt(text)`; `none` is a `SyntaxError`. -/
def bigInt (text : String) : Option Int :=
  match ((text.toList.dropWhile isJsWhitespace).reverse.dropWhile isJsWhitespace).reverse with
  | [] => some 0
  | '0' :: 'x' :: cs => (bigDigits 16 cs).map Int.ofNat
  | '0' :: 'X' :: cs => (bigDigits 16 cs).map Int.ofNat
  | '0' :: 'o' :: cs => (bigDigits 8 cs).map Int.ofNat
  | '0' :: 'O' :: cs => (bigDigits 8 cs).map Int.ofNat
  | '0' :: 'b' :: cs => (bigDigits 2 cs).map Int.ofNat
  | '0' :: 'B' :: cs => (bigDigits 2 cs).map Int.ofNat
  | '-' :: cs => (bigDigits 10 cs).map fun n ↦ -(n : Int)
  | '+' :: cs => (bigDigits 10 cs).map Int.ofNat
  | cs => (bigDigits 10 cs).map Int.ofNat

theorem hexVal_digit {c : Char} (h : c.isDigit = true) : hexVal c = some (c.toNat - '0'.toNat) := by
  simp only [Char.isDigit, Bool.and_eq_true, decide_eq_true_eq] at h
  unfold hexVal
  exact if_pos h

theorem bigDigits_toDigits (n : Nat) : bigDigits 10 (Nat.toDigits 10 n) = some n := by
  have hdigits (c : Char) (hc : c ∈ Nat.toDigits 10 n) : c.isDigit = true :=
    Nat.isDigit_of_mem_toDigits (by decide) (by decide) hc
  -- folding over digits is what `ofDigitChars` does
  have hfold (cs : List Char) (hcs : ∀ c ∈ cs, c.isDigit = true) (acc : Nat) :
      cs.foldlM (fun n c ↦ ((hexVal c).filter (· < 10)).map (n * 10 + ·)) acc =
        some (Nat.ofDigitChars 10 cs acc) := by
    induction cs generalizing acc with
    | nil => rfl
    | cons c cs ih =>
      have hc := hcs c List.mem_cons_self
      have hlt : c.toNat - '0'.toNat < 10 := by
        simp only [Char.isDigit, Bool.and_eq_true, decide_eq_true_eq, UInt32.le_iff_toNat_le] at hc
        have hhigh : c.toNat ≤ 57 := hc.2
        show c.toNat - 48 < 10
        omega
      rw [List.foldlM_cons, hexVal_digit hc, Option.filter_some, if_pos (decide_eq_true hlt)]
      show cs.foldlM _ (acc * 10 + _) = _
      rw [ih (fun c hc ↦ hcs c (List.mem_cons_of_mem _ hc)), Nat.ofDigitChars_cons, Nat.mul_comm]
  unfold bigDigits
  rw [if_neg Nat.toDigits_ne_nil, hfold _ hdigits, Nat.ofDigitChars_ten_toDigits]

/-- Digits, and a sign in front of them, have no white space around them. -/
theorem trimmed_eq {cs : List Char} (h : ∀ c ∈ cs, isJsWhitespace c = false) :
    ((cs.dropWhile isJsWhitespace).reverse.dropWhile isJsWhitespace).reverse = cs := by
  have hkeep (l : List Char) (hl : ∀ c ∈ l, isJsWhitespace c = false) :
      l.dropWhile isJsWhitespace = l := by
    rw [List.dropWhile_eq_self_iff]
    intro hpos
    rw [hl _ (List.getElem_mem hpos)]
    exact Bool.false_ne_true
  rw [hkeep cs h, hkeep _ fun c hc ↦ h c (List.mem_reverse.mp hc), List.reverse_reverse]

/-- **A price is read back.** -/
theorem bigInt_toString (n : Int) : bigInt (toString n) = some n := by
  have hdigits (n : Nat) (c : Char) (hc : c ∈ Nat.toDigits 10 n) : c.isDigit = true :=
    Nat.isDigit_of_mem_toDigits (by decide) (by decide) hc
  have hplain (n : Nat) (c : Char) (hc : c ∈ Nat.toDigits 10 n) : isJsWhitespace c = false :=
    digit_not_whitespace (hdigits n c hc)
  unfold bigInt
  cases n with
  | ofNat n =>
    have hchars : (toString (Int.ofNat n)).toList = Nat.toDigits 10 n := by
      show (toString n).toList = _
      simp
    rw [hchars, trimmed_eq (hplain n)]
    -- no digit is a sign or the mark of a radix
    split
    · rename_i hnil
      exact absurd hnil Nat.toDigits_ne_nil
    all_goals rename_i hcs
    · exact absurd (hdigits n 'x' (by simp [hcs])) (by decide)
    · exact absurd (hdigits n 'X' (by simp [hcs])) (by decide)
    · exact absurd (hdigits n 'o' (by simp [hcs])) (by decide)
    · exact absurd (hdigits n 'O' (by simp [hcs])) (by decide)
    · exact absurd (hdigits n 'b' (by simp [hcs])) (by decide)
    · exact absurd (hdigits n 'B' (by simp [hcs])) (by decide)
    · exact absurd (hdigits n '-' (by simp [hcs])) (by decide)
    · exact absurd (hdigits n '+' (by simp [hcs])) (by decide)
    · rw [bigDigits_toDigits]
      rfl
  | negSucc n =>
    have hchars : (toString (Int.negSucc n)).toList = '-' :: Nat.toDigits 10 (n + 1) := by
      show ("-" ++ toString (n + 1)).toList = _
      simp
    have hsign : ∀ c ∈ '-' :: Nat.toDigits 10 (n + 1), isJsWhitespace c = false := by
      intro c hc
      rcases List.mem_cons.mp hc with rfl | hc
      · decide
      · exact hplain _ c hc
    rw [hchars, trimmed_eq hsign]
    split
    case h_8 cs hcs =>
      -- the sign, and the digits after it
      rw [← (List.cons.inj hcs).2, bigDigits_toDigits]
      rfl
    case h_10 hminus _ => exact absurd rfl (hminus _)
    all_goals rename_i hcs
    all_goals cases hcs

/-- An order asks for the price that it was made with. -/
theorem createSellOrder_price (now : Int) (random : String) (p : SellParams) {n : Int}
    (hprice : p.priceSatoshis = .bigint n) :
    bigInt (createSellOrder now random p).priceSatoshis = some n := by
  show bigInt p.priceSatoshis.toText = some n
  rw [hprice]
  exact bigInt_toString n

/-! ## 3. The fill transaction -/

structure BuyerPaymentInput where
  txid : String
  vout : Nat
  satoshis : Int

inductive SwapInputType where
  | assetSeal | payment
  deriving DecidableEq, Repr

/-- The index is `NaN` when the seal names none. -/
structure SwapInput where
  txid : String
  vout : Option Int
  type : SwapInputType
  deriving DecidableEq, Repr

inductive SwapRole where
  | sellerPayout | buyerAsset | buyerChange
  deriving DecidableEq, Repr

structure SwapOutput where
  address : String
  satoshis : Int
  role : SwapRole
  deriving DecidableEq, Repr

structure AtomicSwapTransactionPayload where
  orderId : String
  inputs : List SwapInput
  outputs : List SwapOutput
  newAssetSeal : String
  deriving DecidableEq, Repr

structure FillParams where
  order : AtomicSellOrder
  buyerAddress : String
  buyerPaymentUtxo : BuyerPaymentInput
  changeAddress : Option String := none
  dustSatoshis : Option Int := none
  estimatedFeeSatoshis : Option Int := none

/-- What `buildAtomicFillTx` throws. -/
inductive FillError where
  | syntaxError
  | error (message : String)

namespace FillParams

variable (p : FillParams)

def dust : Int := orBigInt p.dustSatoshis 1000

def fee : Int := orBigInt p.estimatedFeeSatoshis 500

def requiredSatoshis (price : Int) : Int := price + p.dust + p.fee

/-- `const [sealTxid, sealVoutStr] = order.sellSeal.split(":")`. -/
def sealInput : SwapInput :=
  let parts := splitOn p.order.sellSeal ':'
  { txid := (parts[0]?).getD "", vout := (parts[1]?).bind parseInt10, type := .assetSeal }

def paymentInput : SwapInput where
  txid := p.buyerPaymentUtxo.txid
  vout := some p.buyerPaymentUtxo.vout
  type := .payment

def fillOutputs (price : Int) : List SwapOutput :=
  let change := p.buyerPaymentUtxo.satoshis - p.requiredSatoshis price
  let paid : List SwapOutput :=
    [⟨p.order.sellerAddress, price, .sellerPayout⟩, ⟨p.buyerAddress, p.dust, .buyerAsset⟩]
  if 0 < change then paid ++ [⟨orText p.changeAddress p.buyerAddress, change, .buyerChange⟩]
  else paid

end FillParams

def buildAtomicFillTx (p : FillParams) : Except FillError AtomicSwapTransactionPayload :=
  match bigInt p.order.priceSatoshis with
  | none => .error .syntaxError
  | some price =>
      if p.buyerPaymentUtxo.satoshis < p.requiredSatoshis price then
        .error (.error ("Insufficient buyer payment UTXO. Has " ++
          toString p.buyerPaymentUtxo.satoshis ++ ", requires " ++
          toString (p.requiredSatoshis price) ++ " (Price: " ++ toString price ++ ", Dust: " ++
          toString p.dust ++ ", Fee: " ++ toString p.fee ++ ")"))
      else
        .ok
          { orderId := p.order.orderId
            inputs := [p.sealInput, p.paymentInput]
            outputs := p.fillOutputs price
            newAssetSeal := "pending:1" }

theorem buildAtomicFillTx_eq_ok {p : FillParams} {payload : AtomicSwapTransactionPayload}
    (h : buildAtomicFillTx p = .ok payload) :
    ∃ price, bigInt p.order.priceSatoshis = some price ∧
      p.requiredSatoshis price ≤ p.buyerPaymentUtxo.satoshis ∧
      payload.inputs = [p.sealInput, p.paymentInput] ∧
      payload.outputs = p.fillOutputs price := by
  unfold buildAtomicFillTx at h
  cases hprice : bigInt p.order.priceSatoshis with
  | none =>
    rw [hprice] at h
    cases h
  | some price =>
    rw [hprice] at h
    dsimp only at h
    by_cases hshort : p.buyerPaymentUtxo.satoshis < p.requiredSatoshis price
    · rw [if_pos hshort] at h
      cases h
    · rw [if_neg hshort] at h
      cases h
      exact ⟨price, rfl, not_lt.mp hshort, rfl, rfl⟩

/-- The outputs take the payment but for the fee. -/
theorem FillParams.fillOutputs_sum (p : FillParams) {price : Int}
    (henough : p.requiredSatoshis price ≤ p.buyerPaymentUtxo.satoshis) :
    ((p.fillOutputs price).map (·.satoshis)).sum + p.fee = p.buyerPaymentUtxo.satoshis := by
  unfold fillOutputs
  dsimp only
  split
  · simp only [List.cons_append, List.nil_append, List.map_cons, List.map_nil, List.sum_cons,
      List.sum_nil]
    unfold requiredSatoshis
    omega
  · rename_i hchange
    simp only [List.map_cons, List.map_nil, List.sum_cons, List.sum_nil]
    -- without change the payment is exact
    unfold requiredSatoshis at henough hchange
    omega

/-! ## 4. Scripts of addresses -/

/-- Pay to public key hash, pay to script hash, and the witness programs. -/
inductive AddressScript : Bytes → Prop
  | p2pkh {hash : Bytes} : hash.length = 20 →
      AddressScript ([0x76, 0xa9, 0x14] ++ hash ++ [0x88, 0xac])
  | p2sh {hash : Bytes} : hash.length = 20 → AddressScript ([0xa9, 0x14] ++ hash ++ [0x87])
  | p2wpkh {hash : Bytes} : hash.length = 20 → AddressScript ([0x00, 0x14] ++ hash)
  | p2wsh {hash : Bytes} : hash.length = 32 → AddressScript ([0x00, 0x20] ++ hash)
  | p2tr {key : Bytes} : key.length = 32 → AddressScript ([0x51, 0x20] ++ key)

/-- How such a script starts: neither with `OP_RETURN` nor with `OP_FALSE OP_IF`. -/
theorem AddressScript.start {script : Bytes} (h : AddressScript script) :
    ∃ a b rest, script = a :: b :: rest ∧ a ≠ 0x6a ∧ (a = 0x00 → b ≠ 0x63) := by
  cases h with
  | p2pkh _ => exact ⟨_, _, _, rfl, by decide, by decide⟩
  | p2sh _ => exact ⟨_, _, _, rfl, by decide, by decide⟩
  | p2wpkh _ => exact ⟨_, _, _, rfl, by decide, by decide⟩
  | p2wsh _ => exact ⟨_, _, _, rfl, by decide, by decide⟩
  | p2tr _ => exact ⟨_, _, _, rfl, by decide, by decide⟩

/-- **The script of an address holds no envelope.** -/
theorem AddressScript.parseEnvelope (X : Crates) {script : Bytes} (h : AddressScript script) :
    UtxoVm.parseEnvelope X script = .ok none := by
  obtain ⟨a, b, rest, rfl, hreturn, hif⟩ := h.start
  have hfirst : parseIfEnvelope X (a :: b :: rest) 0 = .ok none := by
    unfold parseIfEnvelope
    split
    · rfl
    show (if a ≠ 0x00 then _ else _) = _
    by_cases ha : a = 0x00
    · rw [if_neg (not_not.mpr ha)]
      show (if b ≠ 0x63 then _ else _) = _
      rw [if_pos (hif ha)]
      rfl
    · rw [if_pos ha]
      rfl
  unfold UtxoVm.parseEnvelope
  split
  · rfl
  rw [hfirst]
  show (if a = 0x6a then _ else _) = _
  rw [if_neg hreturn]
  rfl

/-! ## 5. The transaction on the chain -/

/-- The output pays to the script of the address. -/
def PaysTo (scriptOf : String → Bytes) (address : String) (out : ElectrsTxOutput) : Prop :=
  out.scriptpubkeyHex.getD out.scriptpubkey = hexEncode (scriptOf address)

/-- The transaction has the inputs and the outputs of the payload; `scriptOf` is the address
decoding of the wallet. -/
structure Settles (scriptOf : String → Bytes) (payload : AtomicSwapTransactionPayload)
    (tx : ElectrsTx) : Prop where
  vin : tx.vin.map (fun v ↦ (v.txid, some (v.vout : Int))) =
    payload.inputs.map fun i ↦ (i.txid, i.vout)
  vout : List.Forall₂ (fun o out ↦ (out.value : Int) = o.satoshis ∧ PaysTo scriptOf o.address out)
    payload.outputs tx.vout
  address : ∀ o ∈ payload.outputs, AddressScript (scriptOf o.address)

section

variable {X : Crates} {P : BlockProcessor} {scriptOf : String → Bytes}
  {payload : AtomicSwapTransactionPayload} {tx : ElectrsTx}

/-- The node finds no envelope in the outputs. -/
theorem Settles.outputEnvelope (h : Settles scriptOf payload tx) {out : ElectrsTxOutput}
    (hout : out ∈ tx.vout) : outputEnvelope X out = .ok none := by
  obtain ⟨i, hi, rfl⟩ := List.getElem_of_mem hout
  have hlength := h.vout.length_eq
  obtain ⟨-, hpays⟩ := h.vout.get (by omega) hi
  have hscript := h.address _ (List.getElem_mem (l := payload.outputs) (n := i) (by omega))
  unfold BlockProcessor.outputEnvelope
  unfold PaysTo at hpays
  simp only [List.get_eq_getElem] at hpays
  rw [hpays, hexDecode_hexEncode]
  exact hscript.parseEnvelope X

theorem selectOutput_none {s : StateStore} {outs : List ElectrsTxOutput}
    (h : ∀ out ∈ outs, outputEnvelope X out = .ok none) (voutIdx : Nat) :
    selectOutput X P s tx voutIdx outs = .ok none := by
  induction outs generalizing voutIdx with
  | nil => rfl
  | cons out rest ih =>
    unfold selectOutput
    rw [h out List.mem_cons_self]
    exact ih (fun out hout ↦ h out (List.mem_cons_of_mem _ hout)) _

/-- **The node does nothing for the fill**, whatever the store. -/
theorem Settles.runTx (h : Settles scriptOf payload tx) (blockHeight : Nat) (s : StateStore)
    {r : TxRun} (hr : r.tx = tx) : runTx X P blockHeight s r = s := by
  have hnone : selectAction X P s r.tx = .ok none := by
    rw [hr]
    exact selectOutput_none (fun _ hout ↦ h.outputEnvelope hout) 0
  unfold BlockProcessor.runTx
  rw [run_processTx, hnone]
  rfl

/-- A seal is split into the txid and the index that it was put together from. -/
theorem splitOn_sealOf {txid : String} (hcolon : ':' ∉ txid.toList) (vout : Nat) :
    splitOn (sealOf txid vout) ':' = [txid, toString vout] := by
  have hchars : (sealOf txid vout).toList = txid.toList ++ ':' :: Nat.toDigits 10 vout := by
    simp [sealOf]
  unfold splitOn
  rw [hchars, splitChars_append hcolon, splitChars_of_not_mem (colon_not_mem_toDigits vout)]
  show [String.ofList txid.toList, String.ofList (Nat.toDigits 10 vout)] = _
  rw [String.ofList_toList, ← Nat.toString_eq_ofList_toDigits]

/-- The fill spends the seal that the order names. -/
theorem Settles.spends (h : Settles scriptOf payload tx) {p : FillParams}
    (hinputs : payload.inputs = [p.sealInput, p.paymentInput]) {txid : String}
    (hcolon : ':' ∉ txid.toList) {vout : Nat} (hseal : p.order.sellSeal = sealOf txid vout) :
    Spends tx p.order.sellSeal := by
  have hvin := h.vin
  have hinput : p.sealInput = ⟨txid, some (vout : Int), .assetSeal⟩ := by
    unfold FillParams.sealInput
    rw [hseal, splitOn_sealOf hcolon]
    show SwapInput.mk txid (parseInt10 (toString vout)) _ = _
    rw [parseInt10_toString]
  rw [hinputs, hinput, List.map_cons] at hvin
  have hmem : (txid, some (vout : Int)) ∈ tx.vin.map fun v ↦ (v.txid, some (v.vout : Int)) := by
    rw [hvin]
    exact List.mem_cons_self
  obtain ⟨v, hv, heq⟩ := List.mem_map.mp hmem
  cases heq
  exact ⟨v, hv, hseal⟩

end

/-! ## 6. What becomes of the object -/

/-- Transactions that `process_tx` is run on one after the other, with no rollback and no call of the
bridge between them: with new txids, and with records that can be read back. -/
def Orderly (X : Crates) (P : BlockProcessor) (txids : List String) :
    List (Nat × TxRun) → StateStore → Prop
  | [], _ => True
  | r :: rs, s =>
      r.2.tx.txid ∉ txids ∧
      (∀ u, plannedUpdate X P s r.2.tx r.1 = some u → u.RoundTrips) ∧
      Orderly X P (r.2.tx.txid :: txids) rs (runTx X P r.1 s r.2)

section

variable {X : Crates} {P : BlockProcessor} {rollbacks : Bool} {txids : List String}
  {s : StateStore} {id : String} {obj : SmartObjectRecord}

/-- **One step.**  An object stays as it is if the transaction does not spend its seal, or carries no
envelope, and does not create its id. -/
theorem runTx_keeps (h : SealRun X rollbacks txids s) (hobj : s.objects[id]? = some obj)
    (blockHeight : Nat) (r : TxRun)
    (hidle : ¬ Spends r.tx obj.sealRef ∨ ∀ out ∈ r.tx.vout, outputEnvelope X out = .ok none)
    (hid : createdObjectId r.tx.txid ≠ .ok id) :
    (runTx X P blockHeight s r).objects[id]? = some obj := by
  rcases changes_by_spending h P blockHeight r with ⟨hobjects, -, -⟩ | ⟨new, -, hdiffers, hmay⟩
  · rw [hobjects]
    exact hobj
  by_cases hother : id = new.objectId
  · -- the changed object is this one: its seal is spent under an envelope, or its id created
    subst hother
    rcases hmay.spends obj hobj with hspends | hcreates
    · rcases hidle with hidle | hidle
      · exact absurd hspends hidle
      · obtain ⟨voutIdx, out, envelope, ⟨hout, henvelope⟩, -⟩ := hmay.sealed
        rw [hidle out (List.mem_of_getElem? hout)] at henvelope
        cases henvelope
    · exact absurd hcreates.2 hid
  · rw [hdiffers.objects id hother]
    exact hobj

/-- **The whole run.** -/
theorem runTxs_keeps (h : SealRun X rollbacks txids s) (hobj : s.objects[id]? = some obj)
    {runs : List (Nat × TxRun)} (horderly : Orderly X P txids runs s)
    (hidle : ∀ r ∈ runs, ¬ Spends r.2.tx obj.sealRef ∨
      ∀ out ∈ r.2.tx.vout, outputEnvelope X out = .ok none)
    (hids : ∀ r ∈ runs, createdObjectId r.2.tx.txid ≠ .ok id) :
    (runTxs X P runs s).objects[id]? = some obj := by
  induction runs generalizing txids s with
  | nil => exact hobj
  | cons r rs ih =>
    obtain ⟨hfresh, hread, hrest⟩ := horderly
    have hkept := runTx_keeps (P := P) h hobj r.1 r.2 (hidle r List.mem_cons_self)
      (hids r List.mem_cons_self)
    exact ih (h.processTx P r.1 r.2 hfresh hread) hkept hrest
      (fun r' hr' ↦ hidle r' (List.mem_cons_of_mem _ hr'))
      fun r' hr' ↦ hids r' (List.mem_cons_of_mem _ hr')

end

/-- What the parties pay and get: the seller has the price, and of the two inputs the fee and all the
value behind the seal go to the miner. -/
structure Paid (scriptOf : String → Bytes) (p : FillParams) (sealed : Nat) (tx : ElectrsTx) :
    Prop where
  seller : ∃ price out, bigInt p.order.priceSatoshis = some price ∧ out ∈ tx.vout ∧
    (out.value : Int) = price ∧ PaysTo scriptOf p.order.sellerAddress out
  miner : sealed + p.buyerPaymentUtxo.satoshis =
    (tx.vout.map fun out ↦ (out.value : Int)).sum + (p.fee + sealed)

theorem Settles.paid {scriptOf : String → Bytes} {payload : AtomicSwapTransactionPayload}
    {tx : ElectrsTx} (h : Settles scriptOf payload tx) {p : FillParams}
    (hbuild : buildAtomicFillTx p = .ok payload) (sealed : Nat) : Paid scriptOf p sealed tx := by
  obtain ⟨price, hprice, henough, -, houtputs⟩ := buildAtomicFillTx_eq_ok hbuild
  constructor
  · have hvout := h.vout
    obtain ⟨rest, hrest⟩ : ∃ rest, p.fillOutputs price =
        ⟨p.order.sellerAddress, price, .sellerPayout⟩ :: rest := by
      unfold FillParams.fillOutputs
      dsimp only
      split <;> exact ⟨_, rfl⟩
    rw [houtputs, hrest] at hvout
    obtain ⟨out, outs, ⟨hvalue, hpays⟩, -, heq⟩ := List.forall₂_cons_left_iff.mp hvout
    refine ⟨price, out, hprice, ?_, hvalue, hpays⟩
    rw [heq]
    exact List.mem_cons_self
  · have hvalues : (tx.vout.map fun out ↦ (out.value : Int)) =
        payload.outputs.map (·.satoshis) := by
      have hvout := h.vout
      generalize payload.outputs = os, tx.vout = outs at hvout ⊢
      induction hvout with
      | nil => rfl
      | cons hhead _ ih => rw [List.map_cons, List.map_cons, hhead.1, ih]
    have hsum := p.fillOutputs_sum henough
    rw [hvalues, houtputs]
    omega

/-- **A fill pays the seller and loses the object.**  The order names an object and its seal; the
fill that the SDK builds for it spends that seal and pays the price.  The node does nothing for the
fill, and since no other transaction can spend the seal any more, no run of transactions changes the
object again, as long as nothing is rolled back and the bridge does not lock it: it keeps the seller
as its owner and a seal that is spent. -/
theorem fill_strands_object {X : Crates} {P : BlockProcessor} {scriptOf : String → Bytes}
    {rollbacks : Bool} {txids : List String} {s : StateStore} {obj : SmartObjectRecord}
    {p : FillParams} {payload : AtomicSwapTransactionPayload} {tx : ElectrsTx}
    {runs : List (Nat × TxRun)}
    (hrun : SealRun X rollbacks txids s) (hcolon : ∀ txid ∈ txids, ':' ∉ txid.toList)
    (hobj : s.objects[p.order.sellObjectId]? = some obj) (hseal : obj.sealRef = p.order.sellSeal)
    (hbuild : buildAtomicFillTx p = .ok payload) (hfill : Settles scriptOf payload tx)
    (horderly : Orderly X P txids runs s)
    -- an output is spent once
    (honce : ∀ r ∈ runs, r.2.tx = tx ∨ ∀ σ, Spends tx σ → ¬ Spends r.2.tx σ)
    (hids : ∀ r ∈ runs, createdObjectId r.2.tx.txid ≠ .ok p.order.sellObjectId) :
    Spends tx obj.sealRef ∧ Paid scriptOf p obj.satoshis tx ∧
      (∀ (blockHeight : Nat) (s' : StateStore) (r : TxRun), r.tx = tx →
        runTx X P blockHeight s' r = s') ∧
      (runTxs X P runs s).objects[p.order.sellObjectId]? = some obj := by
  obtain ⟨price, -, -, hinputs, -⟩ := buildAtomicFillTx_eq_ok hbuild
  have hspends : Spends tx obj.sealRef := by
    -- the seal of a stored object is an output of a transaction of the run
    obtain ⟨txid, hmem, vout, hσ⟩ := hrun.sealed.spent obj.sealRef p.order.sellObjectId
      (.inl ⟨obj, hobj, rfl⟩)
    rw [hseal] at hσ ⊢
    exact hfill.spends hinputs (hcolon txid hmem) hσ
  refine ⟨hspends, hfill.paid hbuild obj.satoshis, fun blockHeight s' r hr ↦
    hfill.runTx blockHeight s' hr, ?_⟩
  apply runTxs_keeps hrun hobj horderly _ hids
  intro r hr
  rcases honce r hr with hsame | hother
  · right
    rw [hsame]
    exact fun out hout ↦ hfill.outputEnvelope hout
  · exact .inl (hother _ hspends)

/-- An order for the object of `demoCreateTx`, at its seal. -/
def demoSellOrder : AtomicSellOrder :=
  createSellOrder 0 "0011223344556677"
    { sellObjectId := demoObjectId
      sellSeal := sealOf demoCreateTx.txid 0
      priceSatoshis := .bigint 5000
      sellerAddress := "seller"
      sellerPublicKey := "02aa" }

def demoFillParams : FillParams where
  order := demoSellOrder
  buyerAddress := "buyer"
  buyerPaymentUtxo := ⟨demoFunding.txid, 7, 9000⟩

def demoAddressScript : Bytes := [0x00, 0x14] ++ List.replicate 20 0xaa

def demoPay (value : Nat) : ElectrsTxOutput where
  value
  scriptpubkey := hexEncode demoAddressScript
  scriptpubkeyHex := none

def demoFillTx : ElectrsTx where
  txid := "0000000500000000000000000000000000000000000000000000000000000000"
  vin := [⟨demoCreateTx.txid, 0⟩, ⟨demoFunding.txid, 7⟩]
  vout := [demoPay 5000, demoPay 1000, demoPay 2500]

def demoFillRun : TxRun := { writes := {}, now := 0, tx := demoFillTx }

theorem demoFillTx_settles {payload : AtomicSwapTransactionPayload}
    (hpayload : buildAtomicFillTx demoFillParams = .ok payload) :
    Settles (fun _ ↦ demoAddressScript) payload demoFillTx := by
  cases hpayload
  refine ⟨by decide +kernel, ?_, fun o _ ↦ .p2wpkh (by decide)⟩
  exact .cons ⟨by decide +kernel, rfl⟩ (.cons ⟨by decide +kernel, rfl⟩
    (.cons ⟨by decide +kernel, rfl⟩ .nil))

/-- The fill is mined in the block after the create. -/
theorem fill_strands_object_mined :
    let s := runTx demoCrates demoProcessor 1 (StateStore.empty demoCrates) demoCreateRun
    Spends demoFillTx demoSellOrder.sellSeal ∧
      Paid (fun _ ↦ demoAddressScript) demoFillParams 1000 demoFillTx ∧
      (runTxs demoCrates demoProcessor [(2, demoFillRun)] s).objects[demoObjectId]? =
        some (demoObject 1) := by
  have hcreate : SealRun demoCrates false [demoCreateTx.txid] (runTx demoCrates demoProcessor 1
      (StateStore.empty demoCrates) demoCreateRun) := by
    refine .processTx demoProcessor 1 demoCreateRun .empty (by decide) ?_
    intro u hu obj hobj
    rw [demoCreateRun, demoCreateTx_planned] at hu
    cases hu
    cases hobj
    decide
  have hstored : (runTx demoCrates demoProcessor 1 (StateStore.empty demoCrates)
      demoCreateRun).objects[demoObjectId]? = some (demoObject 1) := by
    set_option maxRecDepth 4000 in
    exact (Table.get_insert ..).trans (if_pos rfl)
  have horderly : Orderly demoCrates demoProcessor [demoCreateTx.txid] [(2, demoFillRun)]
      (runTx demoCrates demoProcessor 1 (StateStore.empty demoCrates) demoCreateRun) := by
    refine ⟨by decide, fun u hu ↦ ?_, trivial⟩
    have hnone : (plannedUpdate demoCrates demoProcessor (runTx demoCrates demoProcessor 1
        (StateStore.empty demoCrates) demoCreateRun) demoFillRun.tx 2).isNone := by
      decide +kernel
    rw [hu] at hnone
    cases hnone
  obtain ⟨hspends, hpaid, -, hkept⟩ := fill_strands_object (p := demoFillParams) hcreate
    (by decide) hstored rfl rfl (demoFillTx_settles rfl) horderly
    (List.forall_mem_singleton.mpr (.inl rfl)) (List.forall_mem_singleton.mpr (by decide +kernel))
  exact ⟨hspends, hpaid, hkept⟩

end UtxoVm
