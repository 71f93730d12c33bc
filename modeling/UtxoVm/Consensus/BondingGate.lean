import UtxoVm.Types

/-!
# The bonding gate

A daemon that is started with bonding asks the L1 node for its softforks and does not start when
they are not active.  It looks for them at the top of the answer.
-/

namespace UtxoVm

/-! ## 1. The check -/

structure SoftforkStatus where
  csvActive : Bool
  segwitActive : Bool
  taprootActive : Bool
  disabledOpcodesActive : Bool
  deriving DecidableEq

/-- The member `active` of a softfork. -/
def softforkActive (sf : Json) : Bool := ((sf.get? "active").bind Json.asBool?).getD false

def opcodeForks : List String := ["disabled_opcodes", "disabledopcodes", "reactivated_opcodes"]

/-- One entry of the array `softforks`. -/
def readSoftfork (status : SoftforkStatus) (sf : Json) : SoftforkStatus :=
  let name := ((sf.get? "name").bind Json.asStr?).getD ""
  let active := softforkActive sf
  if name = "csv" then { status with csvActive := active }
  else if name = "segwit" then { status with segwitActive := active }
  else if name = "taproot" then { status with taprootActive := active }
  else if name ∈ opcodeForks then { status with disabledOpcodesActive := active }
  else status

/-- A member of the object `deployments`. -/
def deploymentActive (deployments : Json) (key : String) : Bool :=
  match deployments.get? key with
  | some deployment => softforkActive deployment
  | none => false

def reactivationHeight : UInt64 := 1155000

/-- What the array says. -/
def listedStatus (json : Json) : SoftforkStatus :=
  let inactive : SoftforkStatus := ⟨false, false, false, false⟩
  match (json.get? "softforks").bind Json.asArray? with
  | some softforks => softforks.foldl readSoftfork inactive
  | none => inactive

/-- What the array or the object `deployments` says. -/
def deployedStatus (json : Json) : SoftforkStatus :=
  let listed := listedStatus json
  match json.get? "deployments" with
  | some (.object fields) =>
      let deployments := Json.object fields
      { csvActive := listed.csvActive || deploymentActive deployments "csv"
        segwitActive := listed.segwitActive || deploymentActive deployments "segwit"
        taprootActive := listed.taprootActive || deploymentActive deployments "taproot"
        disabledOpcodesActive :=
          listed.disabledOpcodesActive || opcodeForks.any (deploymentActive deployments) }
  | _ => listed

/-- `query_softfork_status`, from the body of the answer on.  The height of the chain is a fallback
for the opcodes. -/
def querySoftforkStatus (json : Json) : SoftforkStatus :=
  let deployed := deployedStatus json
  if !deployed.disabledOpcodesActive then
    match (json.get? "blocks").bind Json.asU64? with
    | some height =>
        if reactivationHeight ≤ height then { deployed with disabledOpcodesActive := true }
        else deployed
    | none => deployed
  else deployed

def assertChainSupportsBonding (status : SoftforkStatus) : Except String Unit :=
  if !status.csvActive then
    .error ("Chain does not report CSV (BIP112) as active. " ++
      "Bonding requires CSV for relative timelocks. " ++
      "Activate CSV on the target chain before enabling bonding.")
  else if !status.taprootActive then
    .error ("Chain does not report Taproot (BIP341) as active. " ++
      "Bonding requires Taproot for P2TR script-tree spending. " ++
      "Activate Taproot on the target chain before enabling bonding.")
  else if !status.disabledOpcodesActive then
    .error ("Chain does not report disabled-opcode reactivation as active. " ++
      "The equivocation covenant uses OP_CAT, which is OP_SUCCESS " ++
      "(anyone-can-spend) before DisabledScriptReactivationHeight. " ++
      "On JKC mainnet this is h=1,155,000; testnet h=160,000; regtest 0. " ++
      "Do not start bonding until OP_CAT is re-enabled.")
  else .ok ()

/-- The check of `main` before anything is opened; `reply` is what the L1 node answers at the
URL. -/
def bondingGate (bondingEnabled : Bool) (jkcRpcUrl : Option String)
    (reply : String → Except String Json) : Except String Unit := do
  if bondingEnabled then
    match jkcRpcUrl with
    | none => throw ("Bonding is enabled (--bonding-enabled) but no JKC RPC URL provided. " ++
        "Set --jkc-rpc-url or JKC_RPC_URL env var to the JKC daemon JSON-RPC endpoint.")
    | some rpcUrl =>
        match reply rpcUrl with
        | .error _ => throw "Failed to query JKC chain capabilities"
        | .ok json =>
            match assertChainSupportsBonding (querySoftforkStatus json) with
            | .error _ => throw "Chain capability check failed — bonding disabled"
            | .ok () => return ()

/-! ## 2. When it opens -/

def softforkName (sf : Json) : String := ((sf.get? "name").bind Json.asStr?).getD ""

def listedSoftforks (json : Json) : List Json :=
  ((json.get? "softforks").bind Json.asArray?).getD []

/-- What the last softfork of one of the names in the array says. -/
def lastListed (names : List String) (softforks : List Json) : Option Bool :=
  ((softforks.filter fun sf ↦ softforkName sf ∈ names).getLast?).map softforkActive

/-- The answer reports a softfork of one of the names active, at its top. -/
def Reports (json : Json) (names : List String) : Prop :=
  lastListed names (listedSoftforks json) = some true ∨
    ∃ fields, json.get? "deployments" = some (.object fields) ∧
      ∃ name ∈ names, deploymentActive (.object fields) name = true

/-- A flag that the entries of some names set is what the last of them says. -/
theorem foldl_readSoftfork {flag : SoftforkStatus → Bool} {names : List String}
    (h : ∀ status sf, flag (readSoftfork status sf) =
      if softforkName sf ∈ names then softforkActive sf else flag status)
    (softforks : List Json) (status : SoftforkStatus) :
    flag (softforks.foldl readSoftfork status) =
      (lastListed names softforks).getD (flag status) := by
  induction softforks using List.reverseRecOn with
  | nil => rfl
  | append_singleton softforks sf ih =>
    rw [List.foldl_append]
    show flag (readSoftfork (softforks.foldl readSoftfork status) sf) = _
    unfold lastListed at ih ⊢
    rw [h, ih, List.filter_append]
    by_cases hname : softforkName sf ∈ names
    · rw [if_pos hname, List.filter_singleton]
      simp [hname]
    · rw [if_neg hname, List.filter_singleton]
      simp [hname]

theorem listedStatus_flag {flag : SoftforkStatus → Bool} {names : List String}
    (h : ∀ status sf, flag (readSoftfork status sf) =
      if softforkName sf ∈ names then softforkActive sf else flag status)
    (hinactive : flag ⟨false, false, false, false⟩ = false) (json : Json) :
    flag (listedStatus json) = true ↔ lastListed names (listedSoftforks json) = some true := by
  unfold listedStatus listedSoftforks
  cases (json.get? "softforks").bind Json.asArray? with
  | none =>
    dsimp only
    rw [hinactive]
    exact iff_of_false Bool.false_ne_true fun hnone ↦ by cases hnone
  | some softforks =>
    show flag (softforks.foldl readSoftfork _) = true ↔ lastListed names softforks = some true
    rw [foldl_readSoftfork h, hinactive]
    cases lastListed names softforks <;> simp

/-- A flag after both places were looked up. -/
theorem deployedStatus_flag {flag : SoftforkStatus → Bool} {names : List String}
    (h : ∀ status sf, flag (readSoftfork status sf) =
      if softforkName sf ∈ names then softforkActive sf else flag status)
    (hinactive : flag ⟨false, false, false, false⟩ = false)
    (hdeployed : ∀ json fields, json.get? "deployments" = some (.object fields) →
      flag (deployedStatus json) =
        (flag (listedStatus json) || names.any (deploymentActive (.object fields))))
    (json : Json) : flag (deployedStatus json) = true ↔ Reports json names := by
  unfold Reports
  rw [← listedStatus_flag h hinactive]
  by_cases hfields : ∃ fields, json.get? "deployments" = some (.object fields)
  · obtain ⟨fields, hfields⟩ := hfields
    rw [hdeployed json fields hfields, Bool.or_eq_true, List.any_eq_true]
    refine or_congr_right ⟨fun hany ↦ ⟨fields, hfields, hany⟩, ?_⟩
    rintro ⟨fields', hfields', hany⟩
    rw [hfields] at hfields'
    cases hfields'
    exact hany
  · -- no object of deployments
    have hlisted : deployedStatus json = listedStatus json := by
      unfold deployedStatus
      dsimp only
      split
      · rename_i fields hsome
        exact absurd ⟨fields, hsome⟩ hfields
      · rfl
    rw [hlisted]
    exact (or_iff_left fun hany ↦ hfields ⟨hany.choose, hany.choose_spec.1⟩).symm

theorem csvActive_iff (json : Json) :
    (deployedStatus json).csvActive = true ↔ Reports json ["csv"] := by
  apply deployedStatus_flag
  · intro status sf
    unfold readSoftfork softforkName opcodeForks
    grind
  · rfl
  · intro json fields hfields
    unfold deployedStatus
    rw [hfields]
    simp

theorem taprootActive_iff (json : Json) :
    (deployedStatus json).taprootActive = true ↔ Reports json ["taproot"] := by
  apply deployedStatus_flag
  · intro status sf
    unfold readSoftfork softforkName opcodeForks
    grind
  · rfl
  · intro json fields hfields
    unfold deployedStatus
    rw [hfields]
    simp

theorem opcodesActive_iff (json : Json) :
    (deployedStatus json).disabledOpcodesActive = true ↔ Reports json opcodeForks := by
  apply deployedStatus_flag
  · intro status sf
    unfold readSoftfork softforkName opcodeForks
    grind
  · rfl
  · intro json fields hfields
    unfold deployedStatus
    rw [hfields]

/-- The chain is past the height from which the opcodes are taken as active. -/
def PastReactivation (json : Json) : Prop :=
  ∃ height, (json.get? "blocks").bind Json.asU64? = some height ∧ reactivationHeight ≤ height

theorem querySoftforkStatus_flags (json : Json) :
    (querySoftforkStatus json).csvActive = (deployedStatus json).csvActive ∧
      (querySoftforkStatus json).taprootActive = (deployedStatus json).taprootActive ∧
      ((querySoftforkStatus json).disabledOpcodesActive = true ↔
        (deployedStatus json).disabledOpcodesActive = true ∨ PastReactivation json) := by
  unfold querySoftforkStatus PastReactivation
  dsimp only
  cases hactive : (deployedStatus json).disabledOpcodesActive with
  | true => simp [hactive]
  | false =>
    cases hblocks : (json.get? "blocks").bind Json.asU64? with
    | none => simp [hactive]
    | some height =>
      by_cases hheight : reactivationHeight ≤ height <;> simp [hactive, hheight]

theorem assertChainSupportsBonding_ok {status : SoftforkStatus} :
    assertChainSupportsBonding status = .ok () ↔ status.csvActive = true ∧
      status.taprootActive = true ∧ status.disabledOpcodesActive = true := by
  unfold assertChainSupportsBonding
  cases status.csvActive <;> cases status.taprootActive <;> cases status.disabledOpcodesActive <;>
    simp

/-- The answer is the envelope of JSON-RPC around a result. -/
def Enveloped (json : Json) : Prop :=
  ∃ fields, json = .object fields ∧ ∀ field ∈ fields, field.1 ∈ ["jsonrpc", "result", "error", "id"]

theorem Enveloped.get_none {json : Json} (h : Enveloped json) {key : String}
    (hkey : key ∉ ["jsonrpc", "result", "error", "id"]) : json.get? key = none := by
  obtain ⟨fields, rfl, hfields⟩ := h
  unfold Json.get?
  dsimp only
  rw [Option.map_eq_none_iff, List.find?_eq_none]
  intro field hfield heq
  rw [beq_iff_eq] at heq
  exact hkey (heq ▸ hfields field hfield)

/-- Inside the envelope nothing is found. -/
theorem Enveloped.not_reports {json : Json} (h : Enveloped json) (names : List String) :
    ¬ Reports json names := by
  rintro (hlisted | ⟨fields, hfields, -⟩)
  · unfold listedSoftforks at hlisted
    rw [h.get_none (by decide)] at hlisted
    cases hlisted
  · rw [h.get_none (by decide)] at hfields
    cases hfields

theorem bondingGate_enabled_iff {jkcRpcUrl : Option String} {reply : String → Except String Json} :
    bondingGate true jkcRpcUrl reply = .ok () ↔
      ∃ rpcUrl json, jkcRpcUrl = some rpcUrl ∧ reply rpcUrl = .ok json ∧ Reports json ["csv"] ∧
        Reports json ["taproot"] ∧ (Reports json opcodeForks ∨ PastReactivation json) := by
  unfold bondingGate
  rw [if_pos rfl]
  cases jkcRpcUrl with
  | none =>
    refine iff_of_false (fun h ↦ by cases h) ?_
    rintro ⟨rpcUrl, json, hurl, -⟩
    cases hurl
  | some rpcUrl =>
    dsimp only
    cases hreply : reply rpcUrl with
    | error text =>
      refine iff_of_false (fun h ↦ by cases h) ?_
      rintro ⟨rpcUrl', json, hurl, hjson, -⟩
      cases hurl
      cases hreply.symm.trans hjson
    | ok json =>
      dsimp only
      obtain ⟨hcsv, htaproot, hopcodes⟩ := querySoftforkStatus_flags json
      have hok : assertChainSupportsBonding (querySoftforkStatus json) = .ok () ↔
          Reports json ["csv"] ∧ Reports json ["taproot"] ∧
            (Reports json opcodeForks ∨ PastReactivation json) := by
        rw [assertChainSupportsBonding_ok, hcsv, htaproot, hopcodes, csvActive_iff,
          taprootActive_iff, opcodesActive_iff]
      cases hassert : assertChainSupportsBonding (querySoftforkStatus json) with
      | error text =>
        refine iff_of_false (fun h ↦ by cases h) ?_
        rintro ⟨rpcUrl', json', hurl, hjson, hreports⟩
        cases hurl
        cases hreply.symm.trans hjson
        cases hassert.symm.trans (hok.mpr hreports)
      | ok u =>
        exact iff_of_true rfl ⟨rpcUrl, json, rfl, hreply, hok.mp hassert⟩

/-- **When a daemon starts with bonding.**  The answer must report CSV, Taproot and the opcodes
active at its top, or the height of the chain in place of the opcodes; against an L1 node that
answers in the envelope of JSON-RPC it never starts. -/
theorem bondingGate_ok_iff (bondingEnabled : Bool) (jkcRpcUrl : Option String)
    (reply : String → Except String Json) :
    (bondingGate bondingEnabled jkcRpcUrl reply = .ok () ↔ (bondingEnabled = true →
      ∃ rpcUrl json, jkcRpcUrl = some rpcUrl ∧ reply rpcUrl = .ok json ∧ Reports json ["csv"] ∧
        Reports json ["taproot"] ∧ (Reports json opcodeForks ∨ PastReactivation json))) ∧
    ((∀ rpcUrl json, reply rpcUrl = .ok json → Enveloped json) → bondingEnabled = true →
      bondingGate bondingEnabled jkcRpcUrl reply ≠ .ok ()) := by
  have hiff : bondingGate bondingEnabled jkcRpcUrl reply = .ok () ↔ (bondingEnabled = true →
      ∃ rpcUrl json, jkcRpcUrl = some rpcUrl ∧ reply rpcUrl = .ok json ∧ Reports json ["csv"] ∧
        Reports json ["taproot"] ∧ (Reports json opcodeForks ∨ PastReactivation json)) := by
    cases bondingEnabled with
    | false => exact iff_of_true rfl fun h ↦ by cases h
    | true =>
      rw [bondingGate_enabled_iff]
      exact ⟨fun h _ ↦ h, fun h ↦ h rfl⟩
  refine ⟨hiff, fun henveloped henabled hok ↦ ?_⟩
  obtain ⟨rpcUrl, json, -, hjson, hcsv, -⟩ := hiff.mp hok henabled
  exact (henveloped rpcUrl json hjson).not_reports _ hcsv

def demoEnvelope : Json :=
  .object [("error", .null), ("id", .string "utxo-vm-startup"),
    ("result", .object [("blocks", .number (.posInt 1200000))])]

/-- A chain past all heights, in the envelope. -/
theorem bondingGate_enveloped :
    bondingGate true (some "http://127.0.0.1:9771") (fun _ ↦ .ok demoEnvelope) ≠ .ok () :=
  (bondingGate_ok_iff true (some "http://127.0.0.1:9771") fun _ ↦ .ok demoEnvelope).2
    (fun _ json hjson ↦ ⟨_, (Except.ok.inj hjson).symm, by decide⟩) rfl

end UtxoVm
