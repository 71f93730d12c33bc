import UtxoVm.Contracts.StateText

/-!
# Contracts/TokenRun — what a token's calls do to its amounts

A transfer and a mint put a new token in the place of the whole state.  The new token of a mint has
the minted amount alone as its balance, while the supply goes on counting what was there before.
-/

namespace UtxoVm.Contracts

open RustStd AsStd JsonParser

/-! ## 1. The amounts in a token's text -/

theorem escapeChar_cases (c : UInt16) :
    (∃ esc, escapeChar c = [0x5C, esc]) ∨ (escapeChar c = [c] ∧ c ≠ 0x22 ∧ c ≠ 0x5C) := by
  unfold escapeChar
  split
  · exact .inl ⟨_, rfl⟩
  rename_i hquote
  split
  · exact .inl ⟨_, rfl⟩
  rename_i hslash
  split
  · exact .inl ⟨_, rfl⟩
  split
  · exact .inl ⟨_, rfl⟩
  split
  · exact .inl ⟨_, rfl⟩
  · exact .inr ⟨rfl, hquote, hslash⟩

/-- The escapes are a prefix code. -/
theorem escapeChar_append {c c' : UInt16} {a a' : Text}
    (h : escapeChar c ++ a = escapeChar c' ++ a') : a = a' := by
  rcases escapeChar_cases c with ⟨esc, hc⟩ | ⟨hc, -, hne⟩ <;>
    rcases escapeChar_cases c' with ⟨esc', hc'⟩ | ⟨hc', -, hne'⟩ <;>
    rw [hc, hc'] at h
  · exact (List.cons.inj (List.cons.inj h).2).2
  · exact absurd (List.cons.inj h).1.symm hne'
  · exact absurd (List.cons.inj h).1 hne
  · exact (List.cons.inj h).2

/-- What follows a written string does not depend on the string. -/
theorem escapeJsonString_append {s s' a a' : Text}
    (h : escapeJsonString s ++ 0x22 :: a = escapeJsonString s' ++ 0x22 :: a') : a = a' := by
  have hquote (c : UInt16) (b b' : Text) : 0x22 :: b ≠ escapeChar c ++ b' := by
    intro heq
    rcases escapeChar_cases c with ⟨esc, hc⟩ | ⟨hc, hne, -⟩ <;> rw [hc] at heq
    · exact absurd (List.cons.inj heq).1 (by decide)
    · exact hne (List.cons.inj heq).1.symm
  induction s generalizing s' with
  | nil =>
    cases s' with
    | nil => exact (List.cons.inj h).2
    | cons c' s' =>
      rw [escapeJsonString_cons, List.append_assoc] at h
      exact absurd h (hquote c' _ _)
  | cons c s ih =>
    rw [escapeJsonString_cons, List.append_assoc] at h
    cases s' with
    | nil => exact absurd h.symm (hquote c _ _)
    | cons c' s' =>
      rw [escapeJsonString_cons, List.append_assoc] at h
      exact ih (escapeChar_append h)

/-- A written number is found again before anything that is no digit. -/
theorem decimal_append {n n' : Nat} {c : UInt16} (hc : isDigit c = false) {a a' : Text}
    (h : decimal n ++ c :: a = decimal n' ++ c :: a') : n = n' ∧ a = a' := by
  have hread := takeWhile_isDigit (decimal_isDigit n) (noDigitHead_cons hc a)
  have hread' := takeWhile_isDigit (decimal_isDigit n') (noDigitHead_cons hc a')
  rw [h] at hread
  have hdigits : decimal n = decimal n' := hread.1.symm.trans hread'.1
  refine ⟨?_, (List.cons.inj (hread.2.symm.trans hread'.2)).2⟩
  rw [← digitsNat_decimal n, hdigits, digitsNat_decimal]

theorem amountText_append {n n' : UInt64} {a a' : Text}
    (h : amountText n ++ 0x22 :: a = amountText n' ++ 0x22 :: a') : n = n' ∧ a = a' := by
  obtain ⟨hn, ha⟩ := decimal_append (c := 0x22) rfl h
  exact ⟨UInt64.toNat_inj.mp hn, ha⟩

/-- A text is the state of tokens of one supply and one balance only. -/
theorem SmartObjectToken.toJson_amounts {token token' : SmartObjectToken}
    (h : token.toJson = token'.toJson) :
    token.localSupply = token'.localSupply ∧ token.balance = token'.balance := by
  rw [toJson_eq, toJson_eq] at h
  simp only [objectText, members, membersText, memberText, Token.text, escapeJsonString_amountText,
    List.cons_append, List.nil_append, List.append_assoc, List.cons.injEq, true_and,
    List.append_cancel_left_eq] at h
  have hsymbol := escapeJsonString_append h
  simp only [List.cons.injEq, true_and, List.append_cancel_left_eq] at hsymbol
  have hdecimals := escapeJsonString_append hsymbol
  simp only [List.cons.injEq, true_and, List.append_cancel_left_eq] at hdecimals
  have hlocal := (decimal_append rfl hdecimals).2
  simp only [List.cons.injEq, true_and, List.append_cancel_left_eq] at hlocal
  obtain ⟨hsupply, htotal⟩ := amountText_append hlocal
  simp only [List.cons.injEq, true_and, List.append_cancel_left_eq] at htotal
  have hbalance := (amountText_append htotal).2
  simp only [List.cons.injEq, true_and, List.append_cancel_left_eq] at hbalance
  exact ⟨hsupply, (amountText_append hbalance).1⟩

/-! ## 2. Calls -/

/-- The methods of a token that write a token. -/
inductive TokenMethod where
  | transfer
  | mint
  | burn
  deriving DecidableEq

def TokenMethod.text : TokenMethod → Text
  | transfer => lit "transfer"
  | mint => lit "mint"
  | burn => lit "burn"

/-- The amount that the arguments ask for, as the contract takes it. -/
def amountOf (args : JsonValue) : UInt64 := (args.getInt (lit "amount")).toUInt64

/-- What a call that succeeds does to the amounts. -/
def TokenMethod.Moves (amount : UInt64) (token token' : SmartObjectToken) : TokenMethod → Prop
  | transfer =>
      amount = token.balance ∧ token'.balance = amount ∧ token'.localSupply = token.localSupply
  | mint => token'.balance = amount ∧ token'.localSupply = token.localSupply + amount
  | burn =>
      amount ≤ token.balance ∧ token'.balance = token.balance - amount ∧
        token'.localSupply = token.localSupply - amount

theorem callSOT_moves {h : Host} {json json' : Text} {m : TokenMethod} {state args : JsonValue}
    {events : List Event} {code : Int32}
    (hrun : callSOT h json m.text state args = .ok (json', events, code)) :
    ∃ token', json' = token'.toJson ∧ m.Moves (amountOf args) (tokenOf state) token' := by
  unfold callSOT at hrun
  dsimp only at hrun
  cases m with
  | transfer =>
    have heq : TokenMethod.transfer.text = lit "transfer" := rfl
    rw [if_pos heq] at hrun
    obtain ⟨token', event, hstep, rfl⟩ := (stored_eq_ok hrun).2
    obtain ⟨-, hamount, -, hr⟩ := SmartObjectToken.transfer_eq_ok.mp hstep
    cases hr
    exact ⟨_, rfl, hamount, rfl, rfl⟩
  | mint =>
    have heq : TokenMethod.mint.text = lit "mint" := rfl
    have hne : TokenMethod.mint.text ≠ lit "transfer" := by decide
    rw [if_neg hne, if_pos heq] at hrun
    obtain ⟨token', event, hstep, rfl⟩ := (stored_eq_ok hrun).2
    obtain ⟨-, -, hr⟩ := SmartObjectToken.mint_eq_ok.mp hstep
    cases hr
    exact ⟨_, rfl, rfl, rfl⟩
  | burn =>
    have heq : TokenMethod.burn.text = lit "burn" := rfl
    have hne : TokenMethod.burn.text ≠ lit "transfer" ∧ TokenMethod.burn.text ≠ lit "mint" := by
      decide
    rw [if_neg hne.1, if_neg hne.2, if_pos heq] at hrun
    obtain ⟨token', event, hstep, rfl⟩ := (stored_eq_ok hrun).2
    obtain ⟨-, hamount, -, hr⟩ := SmartObjectToken.burn_eq_ok.mp hstep
    cases hr
    exact ⟨_, rfl, hamount, rfl, rfl⟩

/-- A call of a token: what it asked for, the token that was read and the one that was written. -/
structure TokenCall where
  method : TokenMethod
  amount : UInt64
  before : SmartObjectToken
  after : SmartObjectToken

namespace TokenCall

/-- The call is dispatched to the token and succeeds. -/
structure Made (t : TokenCall) (c c' : Contract) : Prop where
  kind : kindOf c.contractType = some .sot
  called : ∃ h method args fields reply, call h c method args = .ok reply ∧ reply.code = 0 ∧
    reply.contract = c' ∧ readCString method 64 = t.method.text ∧
    parseFields (decodeArgs args) = .ok fields ∧ amountOf fields = t.amount
  before : ∃ state, parseFields c.globalStateJson = .ok state ∧ tokenOf state = t.before
  after : c'.globalStateJson = t.after.toJson

theorem Made.moves {t : TokenCall} {c c' : Contract} (h : t.Made c c') :
    t.method.Moves t.amount t.before t.after := by
  obtain ⟨host, method, args, fields, reply, hcall, hcode, rfl, hmethod, hfields, hamount⟩ :=
    h.called
  obtain ⟨state, hstate, hbefore⟩ := h.before
  rcases (call_handled hcall).2 with ⟨hcode', -⟩ | ⟨k, state', fields', events, hk, hs, hf, hrun⟩
  · rw [hcode] at hcode'
    cases hcode'
  cases h.kind.symm.trans hk
  cases hstate.symm.trans hs
  cases hfields.symm.trans hf
  rw [hmethod] at hrun
  obtain ⟨token', hjson, hmoves⟩ := callSOT_moves hrun
  rw [hamount, hbefore] at hmoves
  -- the text that was written shows one supply and one balance
  obtain ⟨hsupply, hbalance⟩ := SmartObjectToken.toJson_amounts (h.after.symm.trans hjson)
  unfold TokenMethod.Moves at hmoves ⊢
  rw [hsupply, hbalance]
  exact hmoves

/-- Every successful call of the three methods is such a call. -/
theorem exists_made {h : Host} {c : Contract} {method args : Bytes} {reply : Reply}
    (hcall : call h c method args = .ok reply) (hkind : kindOf c.contractType = some .sot)
    (hcode : reply.code = 0) {m : TokenMethod} (hmethod : readCString method 64 = m.text) :
    ∃ t : TokenCall, t.method = m ∧ t.Made c reply.contract := by
  rcases (call_handled hcall).2 with ⟨hcode', -⟩ | ⟨k, state, fields, events, hk, hs, hf, hrun⟩
  · rw [hcode] at hcode'
    cases hcode'
  cases hkind.symm.trans hk
  rw [hmethod] at hrun
  obtain ⟨token', hjson, -⟩ := callSOT_moves hrun
  refine ⟨⟨m, amountOf fields, tokenOf state, token'⟩, rfl, ?_⟩
  exact ⟨hkind, ⟨h, method, args, fields, reply, hcall, hcode, rfl, hmethod, hf, rfl⟩,
    ⟨state, hs, rfl⟩, hjson⟩

/-- The amounts change by the amount of the call and by nothing else, no operation on them wraps
around, and the balance stays within the supply. -/
def Conserves (t : TokenCall) : Prop :=
  t.after.balance ≤ t.after.localSupply ∧
    match t.method with
    | .transfer => t.after.balance = t.before.balance ∧ t.after.localSupply = t.before.localSupply
    | .mint =>
        t.after.balance.toNat = t.before.balance.toNat + t.amount.toNat ∧
          t.after.localSupply.toNat = t.before.localSupply.toNat + t.amount.toNat
    | .burn =>
        t.after.balance.toNat + t.amount.toNat = t.before.balance.toNat ∧
          t.after.localSupply.toNat + t.amount.toNat = t.before.localSupply.toNat

/-- A mint finds nothing in the balance, and room in the supply. -/
def Fits (t : TokenCall) : Prop :=
  t.method = .mint →
    t.before.balance = 0 ∧ t.before.localSupply.toNat + t.amount.toNat < 2 ^ 64

/-- One call on a token whose balance is within its supply. -/
theorem conserves_iff_fits {t : TokenCall} (h : t.method.Moves t.amount t.before t.after)
    (hle : t.before.balance ≤ t.before.localSupply) : t.Conserves ↔ t.Fits := by
  obtain ⟨method, amount, before, after⟩ := t
  unfold Conserves Fits
  dsimp only at h hle ⊢
  cases method with
  | transfer =>
    obtain ⟨hamount, hbalance, hsupply⟩ := h
    rw [hbalance, hsupply, hamount]
    exact iff_of_true ⟨hle, rfl, rfl⟩ fun hmint ↦ by cases hmint
  | mint =>
    obtain ⟨hbalance, hsupply⟩ := h
    rw [hbalance, hsupply, UInt64.toNat_add, UInt64.le_iff_toNat_le, UInt64.toNat_add,
      ← UInt64.toNat_inj]
    have hbound := before.localSupply.toNat_lt
    have hamount := amount.toNat_lt
    constructor
    · rintro ⟨-, hb, hs⟩ -
      exact ⟨UInt64.toNat_inj.mp (by simpa using hb), by omega⟩
    · intro hfits
      obtain ⟨hzero, hroom⟩ := hfits rfl
      rw [Nat.mod_eq_of_lt hroom, hzero]
      exact ⟨Nat.le_add_left .., by simp, rfl⟩
  | burn =>
    obtain ⟨hamount, hbalance, hsupply⟩ := h
    have hsupply' := UInt64.le_trans hamount hle
    rw [hbalance, hsupply, UInt64.le_iff_toNat_le, UInt64.toNat_sub_of_le _ _ hamount,
      UInt64.toNat_sub_of_le _ _ hsupply']
    rw [UInt64.le_iff_toNat_le] at hamount hle
    exact iff_of_true ⟨by omega, by omega, by omega⟩ fun hmint ↦ by cases hmint

end TokenCall

/-! ## 3. Runs -/

/-- Successful calls one after the other; between them the state may be given to a fresh
instance. -/
inductive TokenRun (c : Contract) : List TokenCall → Contract → Prop
  | start : TokenRun c [] c
  | call {calls : List TokenCall} {t : TokenCall} {c₁ c₂ : Contract} : TokenRun c calls c₁ →
      t.Made c₁ c₂ → TokenRun c (calls ++ [t]) c₂
  | restore {calls : List TokenCall} {c₁ : Contract} : TokenRun c calls c₁ →
      TokenRun c calls (restoreState .fresh (getState c₁)).contract

/-- The state text is that of the token, or is read as it. -/
def Contract.Shows (c : Contract) (token : SmartObjectToken) : Prop :=
  c.globalStateJson = token.toJson ∨
    ∃ state, parseFields c.globalStateJson = .ok state ∧ tokenOf state = token

/-- The balance of the token in the state is within the supply. -/
def Contract.Covered (c : Contract) : Prop :=
  ∃ token, c.Shows token ∧ token.balance ≤ token.localSupply

/-- What can be read of a token's text, cut at a zero unit or not, is the token. -/
theorem SmartObjectToken.tokenOf_read {token : SmartObjectToken} (cut : Bool) {state : JsonValue}
    (h : parseFields (cutIf cut token.toJson) = .ok state) : tokenOf state = token := by
  rw [toJson_eq] at h
  obtain ⟨-, rfl, -⟩ := parseFields_written cut keys_untyped token.members_keys h
  exact token.tokenOf_members

theorem Contract.Shows.read {c : Contract} {token : SmartObjectToken} (h : c.Shows token)
    {state : JsonValue} (hstate : parseFields c.globalStateJson = .ok state) :
    tokenOf state = token := by
  rcases h with hjson | ⟨state', hstate', rfl⟩
  · rw [hjson] at hstate
    exact SmartObjectToken.tokenOf_read false hstate
  · cases hstate.symm.trans hstate'
    rfl

/-- A fresh instance holds what it can read of the state, or nothing. -/
theorem restored_cases (c : Contract) :
    (restoreState .fresh (getState c)).contract = .fresh ∨
      ∃ state, parseFields (untilNul c.globalStateJson) = .ok state ∧
        (restoreState .fresh (getState c)).contract.globalStateJson =
          untilNul c.globalStateJson := by
  have hdecode : decode (getState c) = untilNul c.globalStateJson := decode_encode _
  cases hparse : parseFields (untilNul c.globalStateJson) with
  | error msg =>
    left
    unfold restoreState
    split
    · rfl
    · dsimp only
      rw [hdecode, hparse]
  | ok state =>
    right
    have hread : parseFields (decode (getState c)) = .ok state := by
      rw [hdecode]
      exact hparse
    rw [restored_of_parse hread, hdecode]
    exact ⟨state, rfl, rfl⟩

/-- A text with a zero unit is not read, if it is read up to there. -/
theorem untilNul_of_read {json : Text} {v w : JsonValue} (h : parseFields json = .ok v)
    (hcut : parseFields (untilNul json) = .ok w) : untilNul json = json := by
  refine untilNul_eq_self fun hzero ↦ ?_
  obtain ⟨rest, hrest⟩ := exists_untilNul hzero
  have hread := (parseFields_eq_ok.mp h).1
  rw [hrest] at hread
  exact parse_append_error (parseFields_eq_ok.mp hcut).1 rest v hread

theorem fresh_covered : Contract.fresh.Covered := by
  refine ⟨tokenOf (.object []), .inr ⟨.object [], rfl, rfl⟩, ?_⟩
  decide

theorem Contract.Covered.restore {c : Contract} (h : c.Covered) :
    (restoreState .fresh (getState c)).contract.Covered := by
  obtain ⟨token, hshows, hle⟩ := h
  rcases restored_cases c with hfresh | ⟨state, hstate, hjson⟩
  · rw [hfresh]
    exact fresh_covered
  refine ⟨token, .inr ⟨state, by rw [hjson]; exact hstate, ?_⟩, hle⟩
  rcases hshows with htext | ⟨state', hstate', rfl⟩
  · rw [htext] at hstate
    exact SmartObjectToken.tokenOf_read true hstate
  rw [untilNul_of_read hstate' hstate] at hstate
  cases hstate.symm.trans hstate'
  rfl

theorem TokenCall.Made.covered {t : TokenCall} {c c' : Contract} (h : t.Made c c')
    (hconserves : t.Conserves) : c'.Covered :=
  ⟨t.after, .inl h.after, hconserves.1⟩

/-- The balance is within the supply when the call is made, if it was so before. -/
theorem TokenCall.Made.before_covered {t : TokenCall} {c c' : Contract} (h : t.Made c c')
    (hc : c.Covered) : t.before.balance ≤ t.before.localSupply := by
  obtain ⟨token, hshows, hle⟩ := hc
  obtain ⟨state, hstate, hbefore⟩ := h.before
  rw [← hbefore, hshows.read hstate]
  exact hle

/-- **Token conservation.**  Along a run the amounts are conserved exactly when every mint fits. -/
theorem conserved_iff {c c' : Contract} {calls : List TokenCall} (hc : c.Covered)
    (hrun : TokenRun c calls c') :
    (∀ t ∈ calls, t.Conserves) ↔ ∀ t ∈ calls, t.Fits := by
  -- while the calls conserve the amounts, the balance stays within the supply
  suffices hboth : ((∀ t ∈ calls, t.Conserves) ↔ ∀ t ∈ calls, t.Fits) ∧
      ((∀ t ∈ calls, t.Conserves) → c'.Covered) from hboth.1
  induction hrun with
  | start => exact ⟨by simp, fun _ ↦ hc⟩
  | @call calls t c₁ c₂ _ hmade ih =>
    obtain ⟨hiff, hcovered⟩ := ih
    simp only [List.forall_mem_append, List.forall_mem_singleton]
    refine ⟨?_, fun h ↦ hmade.covered h.2⟩
    rw [← hiff]
    refine and_congr_right fun hconserves ↦ ?_
    exact TokenCall.conserves_iff_fits hmade.moves (hmade.before_covered (hcovered hconserves))
  | restore _ ih => exact ⟨ih.1, fun h ↦ (ih.2 h).restore⟩

def demoIssued (balance localSupply : UInt64) : SmartObjectToken where
  name := []
  symbol := lit "T"
  decimals := 0
  localSupply
  balance
  owner := lit "a"

/-- An instance with the state of a token. -/
def demoState (token : SmartObjectToken) : Contract where
  globalStateJson := token.toJson
  contractType := lit "SOT"

theorem eq_demoState {c : Contract} {token : SmartObjectToken}
    (hjson : c.globalStateJson = token.toJson) (htype : c.contractType = lit "SOT") :
    c = demoState token := by
  unfold demoState
  rw [← hjson, ← htype]

/-- A call of the demo token for the amount `5`. -/
def demoCall (method : TokenMethod) (before after : SmartObjectToken) : TokenCall where
  method
  amount := 5
  before
  after

def demoCallArgs : Bytes := asBytes "\x7b\"to\":\"a\",\"amount\":5\x7d"

theorem demoIssued_read (balance localSupply : UInt64) :
    ∃ state, parseFields (demoState (demoIssued balance localSupply)).globalStateJson = .ok state ∧
      tokenOf state = demoIssued balance localSupply := by
  have hlegible : ∀ m ∈ (demoIssued balance localSupply).members, m.2.Legible := by
    rw [SmartObjectToken.members_legible]
    exact (by decide : Legible [] ∧ Legible (lit "T") ∧ Legible (lit "a"))
  refine ⟨_, parseFields_eq_ok.mpr ⟨?_, rfl⟩, SmartObjectToken.tokenOf_members _⟩
  change parse (demoIssued balance localSupply).toJson = _
  rw [SmartObjectToken.toJson_eq, parse_objectText_iff SmartObjectToken.keys_untyped
    (SmartObjectToken.members_keys _)]
  exact ⟨hlegible, rfl⟩

/-- A call of the demo token that succeeds and writes `after`. -/
theorem demoCall_made (m : TokenMethod) (method : Bytes) (balance localSupply : UInt64)
    (after : SmartObjectToken) (hmethod : readCString method 64 = m.text)
    (hreply : (call demoHost (demoState (demoIssued balance localSupply)) method
      demoCallArgs).toOption.any (fun reply ↦
        reply.code == 0 && reply.contract.globalStateJson == after.toJson &&
          reply.contract.contractType == lit "SOT") = true) :
    (demoCall m (demoIssued balance localSupply) after).Made
      (demoState (demoIssued balance localSupply)) (demoState after) := by
  have hargs : (parseFields (decodeArgs demoCallArgs)).toOption.any (amountOf · == 5) = true := by
    decide
  have hkind : kindOf (lit "SOT") = some .sot := by decide
  cases hcall : call demoHost (demoState (demoIssued balance localSupply)) method demoCallArgs with
  | error message =>
    rw [hcall] at hreply
    cases hreply
  | ok reply =>
    cases hfields : parseFields (decodeArgs demoCallArgs) with
    | error message =>
      rw [hfields] at hargs
      cases hargs
    | ok fields =>
      rw [hcall] at hreply
      rw [hfields] at hargs
      simp only [Option.any_some, Except.toOption, Bool.and_eq_true, beq_iff_eq] at hreply
      obtain ⟨⟨hcode, hjson⟩, htype⟩ := hreply
      exact ⟨hkind, ⟨demoHost, method, demoCallArgs, fields, reply, hcall, hcode,
        eq_demoState hjson htype,
        hmethod, hfields, beq_iff_eq.mp hargs⟩, demoIssued_read balance localSupply, rfl⟩

theorem demoState_covered {balance localSupply : UInt64} (hle : balance ≤ localSupply) :
    (demoState (demoIssued balance localSupply)).Covered :=
  ⟨demoIssued balance localSupply, .inl rfl, hle⟩

/-- A fresh instance takes the state of the token as it is. -/
theorem demoState_restored {token : SmartObjectToken}
    (h : ((restoreState .fresh (getState (demoState token))).contract.globalStateJson ==
        token.toJson &&
      (restoreState .fresh (getState (demoState token))).contract.contractType ==
        lit "SOT") = true) :
    (restoreState .fresh (getState (demoState token))).contract = demoState token := by
  simp only [Bool.and_eq_true, beq_iff_eq] at h
  exact eq_demoState h.1 h.2

/-- A mint on a token without a balance, a transfer, and a burn in a fresh instance. -/
def demoCalls : List TokenCall :=
  [demoCall .mint (demoIssued 0 95) (demoIssued 5 100),
    demoCall .transfer (demoIssued 5 100) (demoIssued 5 100),
    demoCall .burn (demoIssued 5 100) (demoIssued 0 95)]

theorem conserved_iff_run :
    TokenRun (demoState (demoIssued 0 95)) demoCalls (demoState (demoIssued 0 95)) ∧
      ∀ t ∈ demoCalls, t.Conserves := by
  have hmint := TokenRun.start.call (demoCall_made .mint (asBytes "mint") 0 95 (demoIssued 5 100)
    (by decide +kernel) (by decide +kernel))
  have htransfer := hmint.call (demoCall_made .transfer (asBytes "transfer") 5 100
    (demoIssued 5 100) (by decide +kernel) (by decide +kernel))
  have hrestored := htransfer.restore
  rw [demoState_restored (by decide +kernel)] at hrestored
  have hrun := hrestored.call (demoCall_made .burn (asBytes "burn") 5 100 (demoIssued 0 95)
    (by decide +kernel) (by decide +kernel))
  refine ⟨hrun, (conserved_iff (demoState_covered (by decide)) hrun).mpr ?_⟩
  unfold TokenCall.Fits
  decide +kernel

/-- A mint of `5` on a balance of `100` leaves a balance of `5`. -/
theorem mint_drops_balance : ∃ c c' calls, c.Covered ∧ TokenRun c calls c' ∧
    ¬ ∀ t ∈ calls, t.Conserves := by
  have hmade := demoCall_made .mint (asBytes "mint") 100 100 (demoIssued 5 105)
    (by decide +kernel) (by decide +kernel)
  refine ⟨_, _, _, demoState_covered (by decide), TokenRun.start.call hmade, fun h ↦ ?_⟩
  have hbalance := (h _ (List.mem_singleton.mpr rfl)).2.1
  revert hbalance
  decide

end UtxoVm.Contracts
