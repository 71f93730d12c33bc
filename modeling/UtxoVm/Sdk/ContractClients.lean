import UtxoVm.Contracts.StandardRun
import UtxoVm.Scanner.Update
import UtxoVm.Sdk.Envelope

/-!
# Contract clients of the SDK (`sdk/src/contracts`)

A client turns a method call into a call envelope.  The node hands the method and the arguments to
the contract of the object whose seal is spent; the target that the envelope names plays no part.
-/

namespace UtxoVm

open RustStd AsStd Contracts JsonParser BlockProcessor EnvelopeBuilder

/-! ## 1. Call envelopes -/

/-- The argument objects of the clients: all values are strings. -/
abbrev CallArgs := List (String × String)

structure CallPayload where
  targetSeal : String
  method : String
  args : CallArgs

/-- The escapes of `JSON.stringify`; other control characters are written as `\u00xx`. -/
def stringifyChar (c : Char) : List Char :=
  if c = '\x08' then ['\\', 'b']
  else if c = '\t' then ['\\', 't']
  else if c = '\n' then ['\\', 'n']
  else if c = '\x0c' then ['\\', 'f']
  else if c = '\r' then ['\\', 'r']
  else if c = '"' then ['\\', '"']
  else if c = '\\' then ['\\', '\\']
  else if c.toNat < 0x20 then
    ['\\', 'u', '0', '0', RustStd.hexDigit (c.toNat / 16), RustStd.hexDigit (c.toNat % 16)]
  else [c]

def stringifyText (s : String) : String :=
  String.ofList ('"' :: (s.toList.flatMap stringifyChar ++ ['"']))

def stringifyArgs (args : CallArgs) : String :=
  "\x7b" ++ ",".intercalate (args.map fun (k, v) ↦ stringifyText k ++ ":" ++ stringifyText v) ++
    "\x7d"

/-- `JSON.stringify(callData)`. -/
def CallPayload.stringify (p : CallPayload) : String :=
  "\x7b\"targetSeal\":" ++ stringifyText p.targetSeal ++ ",\"method\":" ++
    stringifyText p.method ++ ",\"args\":" ++ stringifyArgs p.args ++ "\x7d"

namespace EnvelopeBuilder

def buildCallEnvelope (targetSeal method : String) (args : CallArgs) : InscriptionEnvelope where
  protocol := "utxovm"
  version := 1
  contentType := "application/json"
  payload := asBytes (CallPayload.stringify ⟨targetSeal, method, args⟩)

end EnvelopeBuilder

/-! ## 2. The clients -/

/-- What a client method hands to `buildCallEnvelope` and `broadcastEnvelope`, but for the target
and the wallet. -/
structure MethodCall where
  method : String
  args : CallArgs
  attachedSatoshis : Int := 1000

def SOTClient.transfer (recipient : String) (amount : Int) : MethodCall where
  method := "transfer"
  args := [("to", recipient), ("amount", toString amount)]

def SOTClient.mint (recipient : String) (amount : Int) : MethodCall where
  method := "mint"
  args := [("to", recipient), ("amount", toString amount)]

def SOTClient.burn (amount : Int) : MethodCall where
  method := "burn"
  args := [("amount", toString amount)]

def SONClient.transfer (recipient : String) : MethodCall where
  method := "transfer"
  args := [("to", recipient)]

def SONClient.setMetadataUri (newUri : String) : MethodCall where
  method := "setMetadataUri"
  args := [("newUri", newUri)]

def SONClient.burn : MethodCall where
  method := "burn"
  args := []

def NativeVaultClient.deposit (satoshis : Int) : MethodCall where
  method := "deposit"
  args := []
  attachedSatoshis := satoshis

def NativeVaultClient.withdrawToStealth (stealthAddress : String) (amount : Int) : MethodCall where
  method := "withdrawToStealth"
  args := [("stealthAddress", stealthAddress), ("amount", toString amount)]

/-- The taker is the public key of the wallet. -/
def AtomicSwapClient.fill (publicKey : String) (paymentSatoshis : Int) : MethodCall where
  method := "fill"
  args := [("taker", publicKey)]
  attachedSatoshis := paymentSatoshis

def AtomicSwapClient.cancel : MethodCall where
  method := "cancel"
  args := []

/-- A call of one of the client methods. -/
inductive ClientCall where
  | sotTransfer (recipient : String) (amount : Int)
  | sotMint (recipient : String) (amount : Int)
  | sotBurn (amount : Int)
  | sonTransfer (recipient : String)
  | sonSetMetadataUri (newUri : String)
  | sonBurn
  | vaultDeposit (satoshis : Int)
  | vaultWithdraw (stealthAddress : String) (amount : Int)
  | swapFill (publicKey : String) (paymentSatoshis : Int)
  | swapCancel

namespace ClientCall

def toCall : ClientCall → MethodCall
  | sotTransfer recipient amount => SOTClient.transfer recipient amount
  | sotMint recipient amount => SOTClient.mint recipient amount
  | sotBurn amount => SOTClient.burn amount
  | sonTransfer recipient => SONClient.transfer recipient
  | sonSetMetadataUri newUri => SONClient.setMetadataUri newUri
  | sonBurn => SONClient.burn
  | vaultDeposit satoshis => NativeVaultClient.deposit satoshis
  | vaultWithdraw stealthAddress amount =>
      NativeVaultClient.withdrawToStealth stealthAddress amount
  | swapFill publicKey paymentSatoshis => AtomicSwapClient.fill publicKey paymentSatoshis
  | swapCancel => AtomicSwapClient.cancel

/-- The contracts that the client is for. -/
def kind : ClientCall → ContractKind
  | sotTransfer .. | sotMint .. | sotBurn .. => .sot
  | sonTransfer .. | sonSetMetadataUri .. | sonBurn => .son
  | vaultDeposit .. | vaultWithdraw .. => .nativeVault
  | swapFill .. | swapCancel => .atomicSwap

def envelope (target : String) (call : ClientCall) : InscriptionEnvelope :=
  buildCallEnvelope target call.toCall.method call.toCall.args

end ClientCall

/-! ## 3. What the clients are for -/

/-- A `bigint` as the contract reads it: it is wrapped to 64 bits. -/
def wrapped (amount : Int) : UInt64 := (Int64.ofInt amount).toUInt64

/-- What a client call that succeeds does to the object. -/
inductive ClientCall.Effect (h : Host) : ClientCall → Standard → Standard → Prop
  | sotTransfer {t : SmartObjectToken} {recipient : String} {amount : Int} :
      h.caller = t.owner → wrapped amount = t.balance → 0 < t.balance →
      Effect h (.sotTransfer recipient amount) (.token t)
        (.token { t with owner := units recipient })
  | sotMint {t : SmartObjectToken} {recipient : String} {amount : Int} :
      h.caller = t.owner → 0 < wrapped amount →
      Effect h (.sotMint recipient amount) (.token t)
        (.token { t with
          localSupply := t.localSupply + wrapped amount, balance := wrapped amount
          owner := units recipient })
  | sotBurn {t : SmartObjectToken} {amount : Int} :
      h.caller = t.owner → wrapped amount ≤ t.balance → 0 < wrapped amount →
      Effect h (.sotBurn amount) (.token t)
        (.token { t with
          balance := t.balance - wrapped amount, localSupply := t.localSupply - wrapped amount })
  | sonTransfer {n : SmartObjectNFT} {recipient : String} : h.caller = n.owner →
      Effect h (.sonTransfer recipient) (.nft n) (.nft { n with owner := units recipient })
  -- the contract looks for `uri`, the client sends `newUri`
  | sonSetMetadataUri {n : SmartObjectNFT} {newUri : String} : h.caller = n.owner →
      Effect h (.sonSetMetadataUri newUri) (.nft n) (.nft { n with metadataUri := [] })
  | sonBurn {n : SmartObjectNFT} : h.caller = n.owner →
      Effect h .sonBurn (.nft n) (.nft { n with owner := [] })
  | vaultDeposit {v : NativeVault} {satoshis : Int} : 0 < h.satoshis →
      Effect h (.vaultDeposit satoshis) (.vault v)
        (.vault { v with totalLockedSatoshis := v.totalLockedSatoshis + h.satoshis })
  | vaultWithdraw {v : NativeVault} {stealthAddress : String} {amount : Int} :
      h.caller = v.vaultOwner → wrapped amount ≤ v.totalLockedSatoshis → 0 < wrapped amount →
      h.stealthSettle (units stealthAddress) (wrapped amount) = true →
      Effect h (.vaultWithdraw stealthAddress amount) (.vault v)
        (.vault { v with totalLockedSatoshis := v.totalLockedSatoshis - wrapped amount })
  | swapFill {o : AtomicSwapOrder} {publicKey : String} {paymentSatoshis : Int} :
      o.isFilled = false → o.isCancelled = false → o.demandedSatoshis ≤ h.satoshis →
      Effect h (.swapFill publicKey paymentSatoshis) (.order o)
        (.order { o with isFilled := true })
  | swapCancel {o : AtomicSwapOrder} : h.caller = o.maker → o.isFilled = false →
      o.isCancelled = false →
      Effect h .swapCancel (.order o) (.order { o with isCancelled := true })

/-! ## 4. Arguments in the contract -/

/-- The arguments as an object of the contract's parser. -/
def argsValue (args : CallArgs) : JsonValue :=
  objectOf [] (args.map fun (k, v) ↦ (units k, Token.string (units v)))

/-- The object has the members of the arguments, in any order. -/
def ReadsArgs (fields : JsonValue) (args : CallArgs) : Prop :=
  ∀ key, fields.get key = (argsValue args).get key

theorem units_toString (n : Nat) : units (toString n) = decimal n := by
  have hchars : (toString n).toList = Nat.toDigits 10 n := by simp
  have hunits (cs : List Char) (hcs : ∀ c ∈ cs, c.isDigit = true) :
      Utf8.toUtf16 cs = cs.map fun c ↦ UInt16.ofNat c.toNat := by
    induction cs with
    | nil => rfl
    | cons c cs ih =>
      have hdigit := hcs c List.mem_cons_self
      rw [Char.isDigit_iff_toNat] at hdigit
      have hhigh : c.toNat ≤ 57 := hdigit.2
      show Utf8.utf16Units c ++ Utf8.toUtf16 cs = _
      rw [ih fun c hc ↦ hcs c (List.mem_cons_of_mem _ hc)]
      unfold Utf8.utf16Units
      rw [if_pos (by omega)]
      rfl
  unfold units decimal
  rw [hchars]
  exact hunits _ fun c hc ↦ Nat.isDigit_of_mem_toDigits (by decide) (by decide) hc

theorem trimmed_of_plain {s : Text} (h : ∀ c ∈ s, isWhitespaceChar c = false) :
    ((s.dropWhile isWhitespaceChar).reverse.dropWhile isWhitespaceChar).reverse = s := by
  have hkeep (l : Text) (hl : ∀ c ∈ l, isWhitespaceChar c = false) :
      l.dropWhile isWhitespaceChar = l := by
    rw [List.dropWhile_eq_self_iff]
    intro hpos
    rw [hl _ (List.getElem_mem hpos)]
    exact Bool.false_ne_true
  rw [hkeep s h, hkeep _ fun c hc ↦ h c (List.mem_reverse.mp hc), List.reverse_reverse]

/-- A `bigint` in decimal: nothing to trim, and the number is read wrapped. -/
theorem units_bigint (amount : Int) :
    (∀ c ∈ units (toString amount), isWhitespaceChar c = false) ∧ units (toString amount) ≠ [] ∧
      (parseI64 (units (toString amount))).toUInt64 = wrapped amount := by
  have hplain (n : Nat) (c : UInt16) (hc : c ∈ decimal n) : isWhitespaceChar c = false := by
    have hdigit := decimal_digits n c hc
    have hne (d : UInt16) (hd : d.toNat < 0x30) : (c == d) = false := by
      rw [beq_eq_false_iff_ne]
      rintro rfl
      omega
    unfold isWhitespaceChar
    rw [hne _ (by decide), hne _ (by decide), hne _ (by decide), hne _ (by decide)]
    rfl
  cases amount with
  | ofNat n =>
    have hunits : units (toString (Int.ofNat n)) = decimal n := units_toString n
    rw [hunits]
    refine ⟨hplain n, decimal_ne_nil n, ?_⟩
    unfold parseI64 wrapped
    rw [parseInt_digits (decimal_digits n), digitsNat_decimal]
    rfl
  | negSucc n =>
    have hunits : units (toString (Int.negSucc n)) = 0x2D :: decimal (n + 1) := by
      have hchars : (toString (Int.negSucc n)).toList = '-' :: (toString (n + 1)).toList := by
        show ("-" ++ toString (n + 1)).toList = _
        rw [String.toList_append]
        rfl
      rw [← units_toString]
      unfold units
      rw [hchars]
      rfl
    rw [hunits]
    refine ⟨?_, List.cons_ne_nil _ _, ?_⟩
    · intro c hc
      rcases List.mem_cons.mp hc with rfl | hc
      · decide
      · exact hplain _ c hc
    · unfold parseI64 wrapped
      rw [parseInt_minus (decimal_digits _), digitsNat_decimal]
      rfl

section

variable {args : CallArgs} {fields : JsonValue} {key value : String}
  (hnodup : (args.map fun arg ↦ units arg.1).Nodup) (hreads : ReadsArgs fields args)
include hnodup hreads

theorem get_arg (hmem : (key, value) ∈ args) :
    fields.get (units key) = some (.string (units value)) := by
  have hmap : (args.map fun (k, v) ↦ (units k, Token.string (units v))).map (·.1) =
      args.map fun arg ↦ units arg.1 := by
    rw [List.map_map]
    rfl
  rw [hreads]
  unfold argsValue
  exact get_objectOf_of_mem (hmap ▸ hnodup) (List.mem_map_of_mem hmem)

theorem getString_arg (hmem : (key, value) ∈ args) :
    fields.getString (units key) = units value := by
  unfold JsonValue.getString
  rw [get_arg hnodup hreads hmem]

theorem getInt_arg {amount : Int} (hmem : (key, toString amount) ∈ args) :
    (fields.getInt (units key)).toUInt64 = wrapped amount := by
  obtain ⟨hplain, hne, hread⟩ := units_bigint amount
  have htrimmed := trimmed_of_plain hplain
  unfold JsonValue.getInt
  rw [get_arg hnodup hreads hmem]
  dsimp only
  rw [htrimmed, if_pos hne]
  exact hread

end

/-! ## 5. From the rules to the effects -/

theorem ClientCall.args_nodup (call : ClientCall) :
    (call.toCall.args.map fun arg ↦ units arg.1).Nodup := by
  cases call with
  | sotTransfer | sotMint =>
    show [units "to", units "amount"].Nodup
    decide
  | vaultWithdraw =>
    show [units "stealthAddress", units "amount"].Nodup
    decide
  | sotBurn | sonTransfer | sonSetMetadataUri | swapFill => exact List.nodup_singleton _
  | sonBurn | vaultDeposit | swapCancel => exact List.nodup_nil

section

variable {s : Success} {x y : Standard} {call : ClientCall}

theorem amount_of_args (hargs : ReadsArgs s.args call.toCall.args) {amount : Int}
    (hmem : ("amount", toString amount) ∈ call.toCall.args) : s.amount = wrapped amount := by
  have hkey : lit "amount" = units "amount" := by decide
  unfold Success.amount amountOf
  rw [hkey]
  exact getInt_arg call.args_nodup hargs hmem

theorem arg_of_args (hargs : ReadsArgs s.args call.toCall.args) {key value : String}
    (hkey : lit key = units key) (hmem : (key, value) ∈ call.toCall.args) :
    s.arg key = units value := by
  unfold Success.arg
  rw [hkey]
  exact getString_arg call.args_nodup hargs hmem

/-- **What the contract does is what the client method is for**, but for the metadata URI. -/
theorem ClientCall.effect_of_step (hstep : Standard.Step s x y)
    (hmethod : s.method = lit call.toCall.method) (hargs : ReadsArgs s.args call.toCall.args)
    (hkind : x.kind = call.kind) : call.Effect s.host x y := by
  have hto : lit "to" = units "to" := by decide
  -- the rule for the method is the only one that can have been applied
  cases call with
  | sotTransfer recipient amount =>
    change s.method = lit "transfer" at hmethod
    cases hstep with
    | transferToken _ howner hamount hpos =>
      have hread := amount_of_args hargs (List.mem_cons_of_mem _ List.mem_cons_self)
      have hrecipient := arg_of_args hargs hto List.mem_cons_self
      rw [hrecipient]
      rw [hread] at hamount hpos
      exact .sotTransfer howner hamount (hamount ▸ hpos)
    | mint hname | burnToken hname | balanceOf hname =>
      exact absurd (hmethod.symm.trans hname) (by decide)
    | _ => cases hkind
  | sotMint recipient amount =>
    change s.method = lit "mint" at hmethod
    cases hstep with
    | mint _ howner hpos =>
      have hread := amount_of_args hargs (List.mem_cons_of_mem _ List.mem_cons_self)
      have hrecipient := arg_of_args hargs hto List.mem_cons_self
      rw [hread] at hpos
      rw [hrecipient, hread]
      exact .sotMint howner hpos
    | transferToken hname | burnToken hname | balanceOf hname =>
      exact absurd (hmethod.symm.trans hname) (by decide)
    | _ => cases hkind
  | sotBurn amount =>
    change s.method = lit "burn" at hmethod
    cases hstep with
    | burnToken _ howner hle hpos =>
      have hread := amount_of_args hargs List.mem_cons_self
      rw [hread] at hle hpos
      rw [hread]
      exact .sotBurn howner hle hpos
    | transferToken hname | mint hname | balanceOf hname =>
      exact absurd (hmethod.symm.trans hname) (by decide)
    | _ => cases hkind
  | sonTransfer recipient =>
    change s.method = lit "transfer" at hmethod
    cases hstep with
    | transferNft _ howner =>
      rw [arg_of_args hargs hto List.mem_cons_self]
      exact .sonTransfer howner
    | setMetadataUri hname | burnNft hname => exact absurd (hmethod.symm.trans hname) (by decide)
    | _ => cases hkind
  | sonSetMetadataUri newUri =>
    change s.method = lit "setMetadataUri" at hmethod
    cases hstep with
    | setMetadataUri _ howner =>
      have hmissing : s.arg "uri" = [] := by
        have habsent : (argsValue [("newUri", newUri)]).getString (lit "uri") = [] := by
          apply getString_objectOf
          show lit "uri" ∉ [units "newUri"]
          decide
        unfold Success.arg JsonValue.getString
        rw [hargs]
        exact habsent
      rw [hmissing]
      exact .sonSetMetadataUri howner
    | transferNft hname | burnNft hname => exact absurd (hmethod.symm.trans hname) (by decide)
    | _ => cases hkind
  | sonBurn =>
    change s.method = lit "burn" at hmethod
    cases hstep with
    | burnNft _ howner => exact .sonBurn howner
    | transferNft hname | setMetadataUri hname =>
      exact absurd (hmethod.symm.trans hname) (by decide)
    | _ => cases hkind
  | vaultDeposit satoshis =>
    change s.method = lit "deposit" at hmethod
    cases hstep with
    | deposit _ hpos => exact .vaultDeposit hpos
    | withdraw hname => exact absurd (hmethod.symm.trans hname) (by decide)
    | _ => cases hkind
  | vaultWithdraw stealthAddress amount =>
    change s.method = lit "withdrawToStealth" at hmethod
    cases hstep with
    | withdraw _ howner hle hpos hsettled =>
      have hread := amount_of_args hargs (List.mem_cons_of_mem _ List.mem_cons_self)
      have haddress := arg_of_args hargs (by decide) List.mem_cons_self
      rw [hread] at hle hpos hsettled
      rw [haddress] at hsettled
      rw [hread]
      exact .vaultWithdraw howner hle hpos hsettled
    | deposit hname => exact absurd (hmethod.symm.trans hname) (by decide)
    | _ => cases hkind
  | swapFill publicKey paymentSatoshis =>
    change s.method = lit "fill" at hmethod
    cases hstep with
    | fill _ hfilled hcancelled hpaid => exact .swapFill hfilled hcancelled hpaid
    | cancel hname => exact absurd (hmethod.symm.trans hname) (by decide)
    | _ => cases hkind
  | swapCancel =>
    change s.method = lit "cancel" at hmethod
    cases hstep with
    | cancel _ hmaker hfilled hcancelled => exact .swapCancel hmaker hfilled hcancelled
    | fill hname => exact absurd (hmethod.symm.trans hname) (by decide)
    | _ => cases hkind

end

/-! ## 6. Calls on an instance -/

/-- The method name ends at its zero byte. -/
theorem readCString_terminated {name : Bytes} (hlength : name.length < 64) (hzero : 0 ∉ name)
    (mem : Bytes) : readCString (name ++ 0 :: mem) 64 = decode name := by
  have htake : (name ++ 0 :: mem).take 64 = name ++ 0 :: mem.take (63 - name.length) := by
    rw [List.take_append, List.take_of_length_le hlength.le,
      show 64 - name.length = (63 - name.length) + 1 by omega, List.take_succ_cons]
  have hname : name.takeWhile (· ≠ 0) = name := by
    rw [List.takeWhile_eq_self_iff]
    exact fun b hb ↦ decide_eq_true fun heq ↦ hzero (heq ▸ hb)
  unfold readCString
  rw [htake, List.takeWhile_append_of_pos, List.takeWhile_cons_of_neg (by simp), List.append_nil]
  exact fun b hb ↦ decide_eq_true fun heq ↦ hzero (heq ▸ hb)

theorem ClientCall.readCString_method (call : ClientCall) (mem : Bytes) :
    readCString (asBytes call.toCall.method ++ 0 :: mem) 64 = lit call.toCall.method := by
  have hread (name : String) (hlength : (asBytes name).length < 64) (hzero : 0 ∉ asBytes name)
      (hdecode : decode (asBytes name) = lit name) :
      readCString (asBytes name ++ 0 :: mem) 64 = lit name := by
    rw [readCString_terminated hlength hzero, hdecode]
  cases call with
  | sotTransfer | sonTransfer => exact hread "transfer" (by decide) (by decide) (by decide)
  | sotMint => exact hread "mint" (by decide) (by decide) (by decide)
  | sotBurn | sonBurn => exact hread "burn" (by decide) (by decide) (by decide)
  | sonSetMetadataUri => exact hread "setMetadataUri" (by decide) (by decide) (by decide)
  | vaultDeposit => exact hread "deposit" (by decide) (by decide) (by decide)
  | vaultWithdraw => exact hread "withdrawToStealth" (by decide) (by decide) (by decide)
  | swapFill => exact hread "fill" (by decide) (by decide) (by decide)
  | swapCancel => exact hread "cancel" (by decide) (by decide) (by decide)

/-- A client call as it reaches an instance: under which host, what lies behind the name of the
method in memory, and bytes that are parsed as the arguments. -/
structure Delivery where
  host : Host
  call : ClientCall
  mem : Bytes
  args : Bytes
  fields : JsonValue
  parsed : parseFields (decodeArgs args) = .ok fields
  reads : ReadsArgs fields call.toCall.args

def Delivery.use (d : Delivery) : Use :=
  .call d.host (asBytes d.call.toCall.method ++ 0 :: d.mem) d.args

/-- **One call.**  It leaves the object as it is, or does what the client method is for. -/
theorem Delivery.effect (d : Delivery) {c : Contract} {x : Standard} (h : c.Holds x)
    (hkind : x.kind = d.call.kind) :
    ∃ y, (d.use.after c).Holds y ∧ (y = x ∨ d.call.Effect d.host x y) := by
  obtain ⟨y, hsteps, hy⟩ := use_steps h d.use
  refine ⟨y, hy, ?_⟩
  have hsuccess : d.use.success c = [] ∨ d.use.success c =
      [⟨d.host, lit d.call.toCall.method, d.fields⟩] := by
    unfold Delivery.use Use.success
    dsimp only
    rw [d.parsed, d.call.readCString_method]
    split
    · split
      · right
        rename_i hfields _
        cases hfields
        rfl
      · exact .inl rfl
    · exact .inl rfl
  rcases hsuccess with hnone | hone
  · rw [hnone] at hsteps
    cases hsteps
    exact .inl rfl
  · rw [hone] at hsteps
    cases hsteps with
    | cons hstep hrest =>
      cases hrest
      exact .inr (ClientCall.effect_of_step hstep rfl d.reads hkind)

/-! ## 7. From the transaction to the contract -/

/-- The argument object, as `serde_json` holds it: in key order. -/
def argsJson (args : CallArgs) : Json :=
  .object (args.foldl (fun fields arg ↦ Json.insertField arg.1 (.string arg.2) fields) [])

/-- The call data, as `serde_json` holds it. -/
def CallPayload.toJson (p : CallPayload) : Json :=
  .object [("args", argsJson p.args), ("method", .string p.method),
    ("targetSeal", .string p.targetSeal)]

section

variable {X : Crates} {P : BlockProcessor} {s : StateStore} {tx : ElectrsTx} {target : String}
  {call : ClientCall}

/-- The call data of a client call. -/
def ClientCall.payload (target : String) (call : ClientCall) : CallPayload :=
  ⟨target, call.toCall.method, call.toCall.args⟩

/-- What the node parses from the script of a client call. -/
def ClientCall.parsed (X : Crates) (target : String) (call : ClientCall) : UtxoVmEnvelope :=
  mkEnvelope X 1 (asBytes "application/json") (asBytes (call.payload target).stringify)

theorem ClientCall.parseEnvelope_envelope
    (hsize : (call.envelope target).payload.length < 2 ^ 31) :
    parseEnvelope X (serializeTaprootEnvelope (call.envelope target)) =
      .ok (some (call.parsed X target)) := by
  have hstart : parseIfEnvelope X (serializeTaprootEnvelope (call.envelope target)) 0 =
      .ok (some (call.parsed X target)) :=
    parseIfEnvelope_serialized X (by decide) hsize (serializeTaprootEnvelope_eq ..)
  have hroom := (parseIfEnvelope_some hstart).1
  unfold parseEnvelope
  rw [if_neg (by omega), hstart]
  rfl

/-- The envelope of a client call is a call, with the method and the arguments of the client. -/
theorem ClientCall.parsed_reads
    (hread : X.jsonFromSlice (asBytes (call.payload target).stringify) =
      some (call.payload target).toJson) :
    isCreate (call.parsed X target) = false ∧
      methodOf (metadataOf (call.parsed X target)) = call.toCall.method ∧
      argsOf (metadataOf (call.parsed X target)) = argsJson call.toCall.args := by
  have hmetadata : metadataOf (call.parsed X target) = (call.payload target).toJson := by
    show (if asBytes "application/json" = asBytes "application/json" then
      X.jsonFromSlice (asBytes (call.payload target).stringify) else none).getD .null = _
    rw [if_pos rfl, hread]
    rfl
  have hwasm : isWasm (call.parsed X target) = false := by
    show (asBytes "application/json" == asBytes "application/wasm") = false
    decide
  have hop : opOf (call.parsed X target) = "call" := by
    unfold opOf
    rw [hwasm, hmetadata]
    rfl
  refine ⟨?_, ?_, ?_⟩
  · unfold isCreate
    rw [hop]
    decide
  · rw [hmetadata]
    rfl
  · rw [hmetadata]
    rfl

/-- Outputs without an envelope are passed over. -/
theorem selectOutput_append {outs rest : List ElectrsTxOutput}
    (h : ∀ out ∈ outs, outputEnvelope X out = .ok none) (voutIdx : Nat) :
    selectOutput X P s tx voutIdx (outs ++ rest) =
      selectOutput X P s tx (voutIdx + outs.length) rest := by
  induction outs generalizing voutIdx with
  | nil => rfl
  | cons out outs ih =>
    rw [List.cons_append]
    conv_lhs => unfold selectOutput
    rw [h out List.mem_cons_self]
    dsimp only
    rw [ih (fun out hout ↦ h out (List.mem_cons_of_mem _ hout)), List.length_cons]
    congr 1
    omega

/-- **A client call reaches the object whose seal is spent.**  The first envelope of a transaction
is that of a client call; `serde_json` reads the call data, and the contract's parser finds the
arguments in what it writes of them.  The node then calls the object whose seal the transaction
spends, whatever target the client gave, and a contract of the kind that the client is for does what
the client method says, or nothing. -/
theorem client_call_reaches_contract {before after : List ElectrsTxOutput} {out : ElectrsTxOutput}
    {obj : SmartObjectRecord} (htx : tx.vout = before ++ out :: after)
    (hbefore : ∀ o ∈ before, outputEnvelope X o = .ok none)
    (hscript : out.scriptpubkeyHex.getD out.scriptpubkey =
      hexEncode (serializeTaprootEnvelope (call.envelope target)))
    (hsize : (call.envelope target).payload.length < 2 ^ 31)
    (hread : X.jsonFromSlice (asBytes (call.payload target).stringify) =
      some (call.payload target).toJson)
    {fields : JsonValue}
    (hwrite : parseFields (decodeArgs (X.jsonToVec (argsJson call.toCall.args))) = .ok fields)
    (hfields : ReadsArgs fields call.toCall.args)
    (hfee : P.validateFee tx = true) (hspent : BlockProcessor.target s tx.vin = some obj) :
    ∃ envelope, selectAction X P s tx = .ok (some (.call before.length out envelope obj)) ∧
      ∀ (h : Host) (mem : Bytes) (c : Contract) (x : Standard), c.Holds x → x.kind = call.kind →
        ∃ y, ((Use.call h (asBytes (methodOf (metadataOf envelope)) ++ 0 :: mem)
            (X.jsonToVec (argsOf (metadataOf envelope)))).after c).Holds y ∧
          (y = x ∨ call.Effect h x y) := by
  obtain ⟨hcreate, hmethod, hargs⟩ := ClientCall.parsed_reads hread
  refine ⟨call.parsed X target, ?_, ?_⟩
  · have henvelope : outputEnvelope X out = .ok (some (call.parsed X target)) := by
      unfold outputEnvelope
      rw [hscript, hexDecode_hexEncode]
      exact ClientCall.parseEnvelope_envelope hsize
    unfold selectAction
    rw [htx, selectOutput_append hbefore, Nat.zero_add]
    unfold selectOutput
    rw [henvelope]
    dsimp only
    rw [hcreate, hfee, hspent]
    rfl
  · intro h mem c x hholds hkind
    rw [hmethod, hargs]
    exact Delivery.effect ⟨h, call, mem, _, fields, hwrite, hfields⟩ hholds hkind

end

/-- The clients of an NFT are asked for a new URI. -/
def demoUriCall : ClientCall := .sonSetMetadataUri "v"

/-- Crates that know the call data of `demoUriCall`. -/
def demoClientCrates : Crates :=
  { demoCrates with
    jsonFromSlice := fun text ↦
      if text = asBytes (demoUriCall.payload "seal").stringify then
        some (demoUriCall.payload "seal").toJson
      else none }

def demoUriOutput : ElectrsTxOutput where
  value := 1000
  scriptpubkey := hexEncode (serializeTaprootEnvelope (demoUriCall.envelope "seal"))
  scriptpubkeyHex := none

/-- It spends the seal of the object of `demoCreateTx`. -/
def demoUriTx : ElectrsTx where
  txid := demoCallTx.txid
  vin := demoCallTx.vin
  vout := [demoUriOutput]

def demoUriStore : StateStore :=
  StateStore.putObject demoCrates (demoObject 1) (StateStore.empty demoCrates)

/-- The arguments that a fresh NFT is given. -/
def demoNftState : JsonValue :=
  .object [(lit "type", .string (lit "SON")), (lit "tokenId", .number 1),
    (lit "owner", .string (lit "a"))]

theorem demoNft_holds : (init .fresh demoNftArgs).contract.Holds (.nft (nftOf demoNftState)) := by
  have hstate : parseFields (decodeArgs demoNftArgs) = .ok demoNftState := by rfl
  have hkind : kindOf (detectType demoNftState) = some .son := by decide
  exact init_holds hstate hkind

theorem client_call_reaches_contract_uri :
    ∃ envelope, selectAction demoClientCrates demoProcessor demoUriStore demoUriTx =
        .ok (some (.call 0 demoUriOutput envelope (demoObject 1))) ∧
      ∃ y, ((Use.call demoHost (asBytes (methodOf (metadataOf envelope)) ++ [0])
          (demoClientCrates.jsonToVec (argsOf (metadataOf envelope)))).after
            (init .fresh demoNftArgs).contract).Holds y ∧
        (y = .nft (nftOf demoNftState) ∨
          demoUriCall.Effect demoHost (.nft (nftOf demoNftState)) y) := by
  have hreadable : (demoObject 1).readable = true := by decide
  have hstored : StateStore.lookupSeal demoUriStore (sealOf demoCreateTx.txid 0) =
      .ok (some (demoObject 1)) := by
    have hid : demoUriStore.seals[sealOf demoCreateTx.txid 0]? = some (demoObject 1).objectId :=
      (Table.get_insert ..).trans (if_pos rfl)
    have hobj : demoUriStore.objects[(demoObject 1).objectId]? = some (demoObject 1) :=
      (Table.get_insert ..).trans (if_pos rfl)
    unfold StateStore.lookupSeal
    rw [hid]
    dsimp only
    rw [hobj]
    unfold StateStore.parseObject
    dsimp only
    rw [if_pos hreadable]
  have hspent : BlockProcessor.target demoUriStore demoUriTx.vin = some (demoObject 1) := by
    show BlockProcessor.target demoUriStore [⟨demoCreateTx.txid, 0⟩] = _
    unfold BlockProcessor.target
    rw [hstored]
  have hvout : demoUriTx.vout = [] ++ demoUriOutput :: [] := rfl
  have hread : demoClientCrates.jsonFromSlice (asBytes (demoUriCall.payload "seal").stringify) =
      some (demoUriCall.payload "seal").toJson := by
    unfold demoClientCrates
    dsimp only
    rw [if_pos rfl]
  have hwrite : parseFields (decodeArgs (demoClientCrates.jsonToVec
      (argsJson demoUriCall.toCall.args))) = .ok (argsValue demoUriCall.toCall.args) := by rfl
  have hsize : (demoUriCall.envelope "seal").payload.length < 2 ^ 31 := by decide +kernel
  have hfee : demoProcessor.validateFee demoUriTx = true := by decide
  obtain ⟨envelope, hselected, heffect⟩ := client_call_reaches_contract hvout
    (fun o ho ↦ absurd ho List.not_mem_nil) rfl hsize hread hwrite (fun _ ↦ rfl) hfee hspent
  exact ⟨envelope, hselected, heffect demoHost [] _ _ demoNft_holds rfl⟩

/-! ## 8. Runs of client calls -/

/-- A client call arrives, or the state is exported and restored in a fresh instance. -/
inductive ClientUse where
  | deliver (d : Delivery)
  | restore

def ClientUse.use : ClientUse → Use
  | deliver d => d.use
  | restore => .restore

/-- Some client call leads from the one value to the other. -/
def Drives (x y : Standard) : Prop := ∃ (h : Host) (call : ClientCall), call.Effect h x y

theorem Drives.kind {x y : Standard} (h : Drives x y) : y.kind = x.kind := by
  obtain ⟨host, call, heffect⟩ := h
  cases heffect <;> rfl

end UtxoVm
