import UtxoVm.Contracts.TokenRun

/-!
# Contracts/StandardRun — the contract module as a machine over values

The module keeps its state as a JSON text and parses it at every call.  Above the texts stand the
four standards as values with rules.  What succeeds in a run of the module, with any number of
restarts between the calls, is a run of the rules.
-/

namespace UtxoVm.Contracts

open RustStd AsStd JsonParser

/-! ## 1. The standards as values -/

/-- A contract of one of the four standards. -/
inductive Standard where
  | token (token : SmartObjectToken)
  | nft (nft : SmartObjectNFT)
  | vault (vault : NativeVault)
  | order (order : AtomicSwapOrder)

namespace Standard

def kind : Standard → ContractKind
  | token _ => .sot
  | nft _ => .son
  | vault _ => .nativeVault
  | order _ => .atomicSwap

def toJson : Standard → Text
  | token t => t.toJson
  | nft n => n.toJson
  | vault v => v.toJson
  | order o => o.toJson

def members : Standard → List Member
  | token t => t.members
  | nft n => n.members
  | vault v => v.members
  | order o => o.members

end Standard

/-- The value that a parsed state stands for. -/
def ContractKind.read : ContractKind → JsonValue → Standard
  | sot, state => .token (tokenOf state)
  | son, state => .nft (nftOf state)
  | nativeVault, state => .vault (vaultOf state)
  | atomicSwap, state => .order (orderOf state)

@[simp] theorem ContractKind.read_kind (k : ContractKind) (state : JsonValue) :
    (k.read state).kind = k := by
  cases k <;> rfl

/-- A call that succeeded: under which host, and what it asked for. -/
structure Success where
  host : Host
  method : Text
  args : JsonValue

namespace Success

def amount (s : Success) : UInt64 := amountOf s.args

def arg (s : Success) (key : String) : Text := s.args.getString (lit key)

end Success

/-- The rules of the standards. -/
inductive Standard.Step (s : Success) : Standard → Standard → Prop
  -- tokens: the owner hands on, issues and destroys; anyone asks for the balance
  | transferToken {t : SmartObjectToken} : s.method = lit "transfer" → s.host.caller = t.owner →
      s.amount = t.balance → 0 < s.amount → Step s (token t) (token { t with owner := s.arg "to" })
  | mint {t : SmartObjectToken} : s.method = lit "mint" → s.host.caller = t.owner →
      0 < s.amount → Step s (token t) (token { t with
        localSupply := t.localSupply + s.amount, balance := s.amount, owner := s.arg "to" })
  | burnToken {t : SmartObjectToken} : s.method = lit "burn" → s.host.caller = t.owner →
      s.amount ≤ t.balance → 0 < s.amount → Step s (token t) (token { t with
        balance := t.balance - s.amount, localSupply := t.localSupply - s.amount })
  | balanceOf {t : SmartObjectToken} : s.method = lit "balanceOf" → Step s (token t) (token t)
  -- the owner of an NFT alone does anything with it
  | transferNft {n : SmartObjectNFT} : s.method = lit "transfer" → s.host.caller = n.owner →
      Step s (nft n) (nft { n with owner := s.arg "to" })
  | setMetadataUri {n : SmartObjectNFT} : s.method = lit "setMetadataUri" →
      s.host.caller = n.owner → Step s (nft n) (nft { n with metadataUri := s.arg "uri" })
  | burnNft {n : SmartObjectNFT} : s.method = lit "burn" → s.host.caller = n.owner →
      Step s (nft n) (nft { n with owner := [] })
  -- everyone pays into a vault, its owner pays out
  | deposit {v : NativeVault} : s.method = lit "deposit" → 0 < s.host.satoshis →
      Step s (vault v)
        (vault { v with totalLockedSatoshis := v.totalLockedSatoshis + s.host.satoshis })
  | withdraw {v : NativeVault} : s.method = lit "withdrawToStealth" →
      s.host.caller = v.vaultOwner → s.amount ≤ v.totalLockedSatoshis → 0 < s.amount →
      s.host.stealthSettle (s.arg "stealthAddress") s.amount = true →
      Step s (vault v) (vault { v with totalLockedSatoshis := v.totalLockedSatoshis - s.amount })
  -- an open order is filled by whoever pays, or cancelled by its maker
  | fill {o : AtomicSwapOrder} : s.method = lit "fill" → o.isFilled = false →
      o.isCancelled = false → o.demandedSatoshis ≤ s.host.satoshis →
      Step s (order o) (order { o with isFilled := true })
  | cancel {o : AtomicSwapOrder} : s.method = lit "cancel" → s.host.caller = o.maker →
      o.isFilled = false → o.isCancelled = false →
      Step s (order o) (order { o with isCancelled := true })

/-- One success after the other. -/
inductive Standard.Steps : Standard → List Success → Standard → Prop
  | nil (x : Standard) : Steps x [] x
  | cons {s : Success} {ss : List Success} {x y z : Standard} :
      Step s x y → Steps y ss z → Steps x (s :: ss) z

theorem Standard.Step.kind {s : Success} {x y : Standard} (h : Step s x y) : y.kind = x.kind := by
  cases h <;> rfl

/-! ## 2. Runs of an instance -/

/-- What happens to an instance after its `init`: a call, or its state is exported and restored in
a fresh instance. -/
inductive Use where
  | call (h : Host) (method args : Bytes)
  | restore

/-- A call that traps leaves the globals alone. -/
def Use.after (c : Contract) : Use → Contract
  | call h method args =>
      match Contracts.call h c method args with
      | .ok reply => reply.contract
      | .error _ => c
  | restore => (restoreState .fresh (getState c)).contract

/-- The call, if it returned the code of success. -/
def Use.success (c : Contract) : Use → List Success
  | call h method args =>
      match Contracts.call h c method args, parseFields (decodeArgs args) with
      | .ok reply, .ok fields =>
          if reply.code = 0 then [⟨h, readCString method 64, fields⟩] else []
      | _, _ => []
  | restore => []

def leave (c : Contract) (us : List Use) : Contract := us.foldl Use.after c

def successes (c : Contract) : List Use → List Success
  | [] => []
  | u :: us => u.success c ++ successes (u.after c) us

/-! ## 3. What the methods do is what the rules say -/

section

variable {h : Host} {json json' method : Text} {state args : JsonValue} {events : List Event}

/-- The text that a method leaves: of the new value, or the old text when the value stays. -/
def Leaves (json json' : Text) (x y : Standard) : Prop :=
  json' = y.toJson ∨ (json' = json ∧ y = x)

theorem unknownMethod_code {kind : String} {code : Int32}
    (hrun : unknownMethod kind json method = .ok (json', events, code)) : code ≠ 0 := by
  cases hrun
  decide

theorem callSOT_step (hrun : callSOT h json method state args = .ok (json', events, 0)) :
    ∃ y, Standard.Step ⟨h, method, args⟩ (.token (tokenOf state)) y ∧
      Leaves json json' (.token (tokenOf state)) y := by
  unfold callSOT at hrun
  dsimp only at hrun
  by_cases htransfer : method = lit "transfer"
  · rw [if_pos htransfer] at hrun
    obtain ⟨t, event, hstep, rfl⟩ := (stored_eq_ok hrun).2
    obtain ⟨howner, hamount, hpos, hr⟩ := SmartObjectToken.transfer_eq_ok.mp hstep
    cases hr
    rw [hamount]
    exact ⟨_, .transferToken htransfer howner hamount hpos, .inl rfl⟩
  rw [if_neg htransfer] at hrun
  by_cases hmint : method = lit "mint"
  · rw [if_pos hmint] at hrun
    obtain ⟨t, event, hstep, rfl⟩ := (stored_eq_ok hrun).2
    obtain ⟨howner, hpos, hr⟩ := SmartObjectToken.mint_eq_ok.mp hstep
    cases hr
    exact ⟨_, .mint hmint howner hpos, .inl rfl⟩
  rw [if_neg hmint] at hrun
  by_cases hburn : method = lit "burn"
  · rw [if_pos hburn] at hrun
    obtain ⟨t, event, hstep, rfl⟩ := (stored_eq_ok hrun).2
    obtain ⟨howner, hamount, hpos, hr⟩ := SmartObjectToken.burn_eq_ok.mp hstep
    cases hr
    exact ⟨_, .burnToken hburn howner hamount hpos, .inl rfl⟩
  rw [if_neg hburn] at hrun
  by_cases hbalance : method = lit "balanceOf"
  · rw [if_pos hbalance] at hrun
    cases hrun
    exact ⟨_, .balanceOf hbalance, .inr ⟨rfl, rfl⟩⟩
  rw [if_neg hbalance] at hrun
  exact absurd rfl (unknownMethod_code hrun)

theorem callSON_step (hrun : callSON h json method state args = .ok (json', events, 0)) :
    ∃ y, Standard.Step ⟨h, method, args⟩ (.nft (nftOf state)) y ∧
      Leaves json json' (.nft (nftOf state)) y := by
  unfold callSON at hrun
  dsimp only at hrun
  by_cases htransfer : method = lit "transfer"
  · rw [if_pos htransfer] at hrun
    obtain ⟨n, event, hstep, rfl⟩ := (stored_eq_ok hrun).2
    obtain ⟨howner, hr⟩ := SmartObjectNFT.transfer_eq_ok.mp hstep
    cases hr
    exact ⟨_, .transferNft htransfer howner, .inl rfl⟩
  rw [if_neg htransfer] at hrun
  by_cases huri : method = lit "setMetadataUri"
  · rw [if_pos huri] at hrun
    obtain ⟨n, event, hstep, rfl⟩ := (stored_eq_ok hrun).2
    obtain ⟨howner, hr⟩ := SmartObjectNFT.setMetadataUri_eq_ok.mp hstep
    cases hr
    exact ⟨_, .setMetadataUri huri howner, .inl rfl⟩
  rw [if_neg huri] at hrun
  by_cases hburn : method = lit "burn"
  · rw [if_pos hburn] at hrun
    obtain ⟨n, event, hstep, rfl⟩ := (stored_eq_ok hrun).2
    obtain ⟨howner, hr⟩ := SmartObjectNFT.burn_eq_ok.mp hstep
    cases hr
    exact ⟨_, .burnNft hburn howner, .inl rfl⟩
  rw [if_neg hburn] at hrun
  exact absurd rfl (unknownMethod_code hrun)

theorem callNativeVault_step
    (hrun : callNativeVault h json method state args = .ok (json', events, 0)) :
    ∃ y, Standard.Step ⟨h, method, args⟩ (.vault (vaultOf state)) y ∧
      Leaves json json' (.vault (vaultOf state)) y := by
  unfold callNativeVault at hrun
  dsimp only at hrun
  by_cases hdeposit : method = lit "deposit"
  · rw [if_pos hdeposit] at hrun
    obtain ⟨v, event, hstep, rfl⟩ := (stored_eq_ok hrun).2
    obtain ⟨hpos, hr⟩ := NativeVault.deposit_eq_ok.mp hstep
    cases hr
    exact ⟨_, .deposit hdeposit hpos, .inl rfl⟩
  rw [if_neg hdeposit] at hrun
  by_cases hwithdraw : method = lit "withdrawToStealth"
  · rw [if_pos hwithdraw] at hrun
    obtain ⟨v, event, hstep, rfl⟩ := (stored_eq_ok hrun).2
    obtain ⟨howner, hamount, hpos, hsettled, hr⟩ := NativeVault.withdrawToStealth_eq_ok.mp hstep
    cases hr
    exact ⟨_, .withdraw hwithdraw howner hamount hpos hsettled, .inl rfl⟩
  rw [if_neg hwithdraw] at hrun
  exact absurd rfl (unknownMethod_code hrun)

theorem callAtomicSwap_step
    (hrun : callAtomicSwap h json method state args = .ok (json', events, 0)) :
    ∃ y, Standard.Step ⟨h, method, args⟩ (.order (orderOf state)) y ∧
      Leaves json json' (.order (orderOf state)) y := by
  unfold callAtomicSwap at hrun
  dsimp only at hrun
  by_cases hfill : method = lit "fill"
  · rw [if_pos hfill] at hrun
    obtain ⟨o, event, hstep, rfl⟩ := (stored_eq_ok hrun).2
    obtain ⟨hfilled, hcancelled, hpaid, hr⟩ := AtomicSwapOrder.fill_eq_ok.mp hstep
    cases hr
    exact ⟨_, .fill hfill hfilled hcancelled hpaid, .inl rfl⟩
  rw [if_neg hfill] at hrun
  by_cases hcancel : method = lit "cancel"
  · rw [if_pos hcancel] at hrun
    obtain ⟨o, event, hstep, rfl⟩ := (stored_eq_ok hrun).2
    obtain ⟨hmaker, hfilled, hcancelled, hr⟩ := AtomicSwapOrder.cancel_eq_ok.mp hstep
    cases hr
    exact ⟨_, .cancel hcancel hmaker hfilled hcancelled, .inl rfl⟩
  rw [if_neg hcancel] at hrun
  exact absurd rfl (unknownMethod_code hrun)

/-- A method that succeeds takes a step of the rules. -/
theorem handler_step {k : ContractKind}
    (hrun : k.handler h json method state args = .ok (json', events, 0)) :
    ∃ y, Standard.Step ⟨h, method, args⟩ (k.read state) y ∧ Leaves json json' (k.read state) y := by
  cases k with
  | sot => exact callSOT_step hrun
  | son => exact callSON_step hrun
  | nativeVault => exact callNativeVault_step hrun
  | atomicSwap => exact callAtomicSwap_step hrun

end

/-! ## 4. Values in texts -/

namespace Standard

theorem toJson_eq (x : Standard) : x.toJson = objectText x.members := by
  cases x with
  | token t => exact t.toJson_eq
  | nft n => exact n.toJson_eq
  | vault v => exact v.toJson_eq
  | order o => exact o.toJson_eq

theorem read_members (x : Standard) : x.kind.read (objectOf [] x.members) = x := by
  cases x with
  | token t => exact congrArg token t.tokenOf_members
  | nft n => exact congrArg nft n.nftOf_members
  | vault v => exact congrArg vault v.vaultOf_members
  | order o => exact congrArg order o.orderOf_members

/-- The keys of a written value, with a symbol for tokens only. -/
theorem exists_keys (x : Standard) :
    ∃ keys, Untyped keys ∧ x.members.map (·.1) = keys ∧
      (x.kind = .sot ∨ lit "symbol" ∉ keys) := by
  cases x with
  | token t => exact ⟨_, SmartObjectToken.keys_untyped, t.members_keys, .inl rfl⟩
  | nft n => exact ⟨_, SmartObjectNFT.keys_untyped, n.members_keys, .inr (by decide)⟩
  | vault v => exact ⟨_, NativeVault.keys_untyped, v.members_keys, .inr (by decide)⟩
  | order o => exact ⟨_, AtomicSwapOrder.keys_untyped, o.members_keys, .inr (by decide)⟩

/-- What can be read of a written value, cut at a zero unit or not, is the value; it is of its kind
or of none. -/
theorem read_written {x : Standard} (cut : Bool) {state : JsonValue}
    (h : parseFields (cutIf cut x.toJson) = .ok state) :
    x.kind.read state = x ∧
      (kindOf (detectType state) = none ∨ kindOf (detectType state) = some x.kind) := by
  obtain ⟨keys, huntyped, hkeys, hsymbol⟩ := x.exists_keys
  rw [toJson_eq] at h
  obtain ⟨-, rfl, htype⟩ := parseFields_written cut huntyped hkeys h
  refine ⟨x.read_members, ?_⟩
  unfold detectType
  dsimp only
  rw [if_pos htype]
  rcases hsymbol with hsot | hnone
  · rw [hsot]
    split
    · exact .inr (by decide)
    · exact .inl kindOf_nil
  · rw [← hkeys] at hnone
    rw [getString_objectOf hnone, if_neg (not_not.mpr rfl)]
    exact .inl kindOf_nil

end Standard

/-- The state text is that of the value, or is read as it. -/
def Contract.Bears (c : Contract) (x : Standard) : Prop :=
  c.globalStateJson = x.toJson ∨
    ∃ state, parseFields c.globalStateJson = .ok state ∧ x.kind.read state = x

/-- How an instance holds a value: written by a call, read from outside, or lost when the state
could not be restored. -/
inductive Contract.Holds (c : Contract) (x : Standard) : Prop
  | written : kindOf c.contractType = some x.kind → c.globalStateJson = x.toJson → Holds c x
  | read (state : JsonValue) : parseFields c.globalStateJson = .ok state → x.kind.read state = x →
      c.contractType = detectType state →
      (kindOf c.contractType = none ∨ kindOf c.contractType = some x.kind) → Holds c x
  | lost : c = .fresh → Holds c x

namespace Contract.Holds

variable {c : Contract} {x : Standard}

theorem bears (h : c.Holds x) : c = .fresh ∨ c.Bears x := by
  cases h with
  | written _ hjson => exact .inr (.inl hjson)
  | read state hstate hx => exact .inr (.inr ⟨state, hstate, hx⟩)
  | lost hc => exact .inl hc

/-- What an instance that can be called reads is the value. -/
theorem read_eq (h : c.Holds x) {k : ContractKind} (hk : kindOf c.contractType = some k)
    {state : JsonValue} (hstate : parseFields c.globalStateJson = .ok state) :
    k = x.kind ∧ k.read state = x := by
  cases h with
  | written hkind hjson =>
    cases hk.symm.trans hkind
    rw [hjson] at hstate
    exact ⟨rfl, (Standard.read_written false hstate).1⟩
  | read state' hstate' hx _ hkind =>
    cases hstate.symm.trans hstate'
    rcases hkind with hnone | hkind
    · cases hk.symm.trans hnone
    · cases hk.symm.trans hkind
      exact ⟨rfl, hx⟩
  | lost hc =>
    rw [hc] at hk
    cases hk.symm.trans kindOf_nil

/-- Only the two globals matter. -/
theorem congr {c' : Contract} (h : c.Holds x) (hjson : c'.globalStateJson = c.globalStateJson)
    (htype : c'.contractType = c.contractType) : c'.Holds x := by
  obtain ⟨json, type⟩ := c'
  dsimp only at hjson htype
  rw [hjson, htype]
  exact h

/-- A fresh instance that is given the state holds the value, or has lost it. -/
theorem restore (h : c.Holds x) : (restoreState .fresh (getState c)).contract.Holds x := by
  cases hread : parseFields (decode (getState c)) with
  | error msg =>
    apply lost
    unfold restoreState
    split
    · rfl
    · dsimp only
      rw [hread]
  | ok state =>
    have hdecode : decode (getState c) = untilNul c.globalStateJson := decode_encode _
    rw [restored_of_parse hread]
    cases h with
    | written hkind hjson =>
      have hcut : parseFields (cutIf true x.toJson) = .ok state := by
        rw [← hjson]
        rw [hdecode] at hread
        exact hread
      obtain ⟨hx, hnewkind⟩ := Standard.read_written true hcut
      exact .read state hread hx rfl hnewkind
    | read state' hstate' hx htype hkind =>
      -- a text that was read has no zero unit, so that nothing was cut off
      have hsame : decode (getState c) = c.globalStateJson := by
        rw [hdecode] at hread ⊢
        exact untilNul_of_read hstate' hread
      rw [hsame] at hread ⊢
      cases hread.symm.trans hstate'
      exact .read state hstate' hx rfl (htype ▸ hkind)
    | lost hc =>
      have hfresh : parseFields (decode (getState .fresh)) = .ok (.object []) := rfl
      rw [hc] at hread ⊢
      cases hfresh.symm.trans hread
      exact .lost rfl

end Contract.Holds

/-! ## 5. The module refines the rules -/

/-- One use: what succeeds is a step of the rules. -/
theorem use_steps {c : Contract} {x : Standard} (h : c.Holds x) (u : Use) :
    ∃ y, Standard.Steps x (u.success c) y ∧ (u.after c).Holds y := by
  cases u with
  | restore => exact ⟨x, .nil x, h.restore⟩
  | call host method args =>
    unfold Use.success Use.after
    dsimp only
    cases hcall : call host c method args with
    | error msg => exact ⟨x, .nil x, h⟩
    | ok reply =>
      dsimp only
      obtain ⟨htype, hrefused | ⟨k, state, fields, events, hk, hstate, hfields, hrun⟩⟩ :=
        call_handled hcall
      · -- an error code: nothing was written
        refine ⟨x, ?_, h.congr hrefused.2 htype⟩
        have hcode : reply.code ≠ 0 := by
          rw [hrefused.1]
          decide
        cases parseFields (decodeArgs args) with
        | error msg => exact .nil x
        | ok fields =>
          dsimp only
          rw [if_neg hcode]
          exact .nil x
      rw [hfields]
      dsimp only
      by_cases hcode : reply.code = 0
      · rw [hcode] at hrun
        rw [if_pos hcode]
        obtain ⟨y, hstep, hleaves⟩ := handler_step hrun
        obtain ⟨rfl, hx⟩ := h.read_eq hk hstate
        rw [hx] at hstep hleaves
        refine ⟨y, .cons hstep (.nil y), ?_⟩
        rcases hleaves with hjson | ⟨hjson, rfl⟩
        · apply Contract.Holds.written
          · rw [htype, hstep.kind]
            exact hk
          · exact hjson
        · exact h.congr hjson htype
      · -- the method is unknown
        rw [if_neg hcode]
        rcases handler_writes hrun with ⟨hzero, -⟩ | ⟨-, hjson⟩
        · exact absurd hzero hcode
        · exact ⟨x, .nil x, h.congr hjson htype⟩

theorem Standard.Steps.append {x y z : Standard} {ss ss' : List Success} (h : Steps x ss y)
    (h' : Steps y ss' z) : Steps x (ss ++ ss') z := by
  induction h with
  | nil x => exact h'
  | cons hstep _ ih => exact .cons hstep (ih h')

theorem uses_steps {c : Contract} {x : Standard} (h : c.Holds x) (us : List Use) :
    ∃ y, Standard.Steps x (successes c us) y ∧ (leave c us).Holds y := by
  induction us generalizing c x with
  | nil => exact ⟨x, .nil x, h⟩
  | cons u us ih =>
    obtain ⟨y, hfirst, hy⟩ := use_steps h u
    obtain ⟨z, hrest, hz⟩ := ih hy
    exact ⟨z, hfirst.append hrest, hz⟩

theorem init_holds {args : Bytes} {state : JsonValue} {k : ContractKind}
    (hstate : parseFields (decodeArgs args) = .ok state)
    (hkind : kindOf (detectType state) = some k) :
    (init .fresh args).contract.Holds (k.read state) := by
  have hinit : (init .fresh args).contract = ⟨decodeArgs args, detectType state⟩ := by
    unfold init
    dsimp only
    rw [hstate]
  rw [hinit]
  apply Contract.Holds.read state hstate
  · rw [k.read_kind]
  · rfl
  · rw [k.read_kind]
    exact .inr hkind

/-- **The module refines the rules.**  Whatever is done with an instance after its `init`, the
calls that succeed are a run of the rules from the value that it was given, and the instance bears
the last value, unless a state could not be restored. -/
theorem module_refines_rules {args : Bytes} {state : JsonValue} {k : ContractKind}
    (hstate : parseFields (decodeArgs args) = .ok state)
    (hkind : kindOf (detectType state) = some k) (us : List Use) :
    ∃ x, Standard.Steps (k.read state) (successes (init .fresh args).contract us) x ∧
      (leave (init .fresh args).contract us = .fresh ∨
        (leave (init .fresh args).contract us).Bears x) := by
  obtain ⟨x, hsteps, hx⟩ := uses_steps (init_holds hstate hkind) us
  exact ⟨x, hsteps, hx.bears⟩

def demoNftArgs : Bytes := asBytes "\x7b\"type\":\"SON\",\"tokenId\":1,\"owner\":\"a\"\x7d"

/-- The owner of the NFT hands it on, and the state is given to a fresh instance. -/
def demoNftUses : List Use :=
  [.call demoHost (asBytes "transfer") demoTransferArgs, .restore]

theorem module_refines_rules_nft : ∃ state x, parseFields (decodeArgs demoNftArgs) = .ok state ∧
    Standard.Steps (ContractKind.son.read state)
      (successes (init .fresh demoNftArgs).contract demoNftUses) x ∧
    (leave (init .fresh demoNftArgs).contract demoNftUses = .fresh ∨
      (leave (init .fresh demoNftArgs).contract demoNftUses).Bears x) := by
  have hstate : parseFields (decodeArgs demoNftArgs) =
      .ok (.object [(lit "type", .string (lit "SON")), (lit "tokenId", .number 1),
        (lit "owner", .string (lit "a"))]) := by rfl
  obtain ⟨x, hx⟩ := module_refines_rules (k := .son) hstate (by decide) demoNftUses
  exact ⟨_, x, hstate, hx⟩

end UtxoVm.Contracts
