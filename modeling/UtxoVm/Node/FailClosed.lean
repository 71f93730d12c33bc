import UtxoVm.Consensus.Challenge
import UtxoVm.Node.CodeStore
import UtxoVm.Scanner.Update

/-!
# The daemon knows no validators

`ConsensusManager::new` starts without validators, and no code of the daemon registers one.  So every
check that asks for a quorum fails closed, in whatever way the daemon is used: no attestation is
accepted, its own included, no proof verifies, nothing is minted, no relay is verified, and the fraud
watch has nothing to report.
-/

namespace UtxoVm

open RustStd StateStore Prog Interleaving Rpc

/-! ## 1. A manager without validators -/

namespace ConsensusManager

variable (X : Crates) (quorum : Nat)

theorem addAttestation_new (attestation : StateAttestation) (now : Int) :
    addAttestation X (new quorum) attestation now = (new quorum, false) := by
  unfold addAttestation
  split
  · rfl
  · exact if_pos rfl

theorem buildQuorumResult_new (chain : String) (height : Nat) :
    (new quorum).buildQuorumResult X chain height = none := by
  unfold buildQuorumResult
  have hnone : Quorum.plurality (·.stateRoot) ((new quorum).getAttestations chain height) = none :=
    Quorum.plurality_eq_none.mpr rfl
  dsimp only
  rw [hnone]

theorem runFraudWatchPass_new (fwCfg : Option FraudWatchConfig)
    (trigger : Option StateAttestation) (known : List (String × Nat)) (now : Int) :
    runFraudWatchPass X (new quorum) fwCfg trigger known now = [] := by
  unfold runFraudWatchPass
  simp only [buildQuorumResult_new]
  simp [new]

theorem verifyProof_new (proof : CrossChainProof) :
    (CrossChainVerifier.verifyProof X (new quorum) proof).valid = false := by
  have hquorum : CrossChainVerifier.verifyQuorum (new quorum) proof = false := by
    unfold CrossChainVerifier.verifyQuorum
    dsimp only
    split
    · rfl
    · exact if_pos rfl
  unfold CrossChainVerifier.verifyProof
  rw [hquorum]
  rfl

theorem verifyRelay_new {relay relay' : StateRelay} {id : String} {now : Int}
    {record : RelayRecord}
    (h : StateRelay.verifyRelay X relay (new quorum) id now = .ok (relay', record)) :
    record.status = .failed := by
  unfold StateRelay.verifyRelay at h
  cases hrecord : relay.records id with
  | none =>
    rw [hrecord] at h
    cases h
  | some old =>
    rw [hrecord] at h
    have hpasses : StateRelay.passes X (new quorum) old.message = false := by
      unfold StateRelay.passes
      exact if_pos rfl
    simp only [hpasses, Bool.false_eq_true, if_false, Except.ok.injEq, Prod.mk.injEq] at h
    rw [← h.2]

end ConsensusManager

namespace Daemon

variable {X : Crates} {B : L1Blocks} {N : Node} {cfg : Config}

/-! ## 2. The invariant -/

/-- The statuses that need no validators. -/
def Unproven (status : BridgeStatus) : Prop := status = .locked ∨ status = .failed

structure Closed (a : AppState) : Prop where
  consensus : ∃ quorum, a.consensus = .new quorum
  stored : ∀ (id : String) (t : BridgeTransfer), a.store.bridgeTransfers[id]? = some t →
    Unproven t.status
  cached : ∀ (id : String) (t : BridgeTransfer), a.transfers[id]? = some t → Unproven t.status
  relays : ∀ (id : String) (r : RelayRecord), a.relays[id]? = some r → r.status ≠ .verified

variable {a a' : AppState}

/-- What the invariant speaks of. -/
theorem Closed.congr (h : Closed a) (hconsensus : a'.consensus = a.consensus)
    (hstored : a'.store.bridgeTransfers = a.store.bridgeTransfers)
    (hcached : a'.transfers = a.transfers) (hrelays : a'.relays = a.relays) : Closed a' where
  consensus := hconsensus ▸ h.consensus
  stored id t ht := h.stored id t (hstored ▸ ht)
  cached id t ht := h.cached id t (hcached ▸ ht)
  relays id r hr := h.relays id r (hrelays ▸ hr)

theorem get_insert_cases {ν : Type} {table : Table String ν} {k id : String} {v w : ν}
    (h : (table.insert k v)[id]? = some w) : w = v ∨ table[id]? = some w := by
  rw [Table.get_insert] at h
  split at h
  · cases h
    exact .inl rfl
  · exact .inr h

theorem Closed.bridge (h : Closed a) {b : BridgeManager}
    (hwrite : BridgeWrite Unproven a.bridge b) : Closed (a.setBridge b) := by
  cases hwrite with
  | none => exact h
  | object obj => exact h.congr rfl rfl rfl rfl
  | tree smt => exact h.congr rfl rfl rfl rfl
  | stored t ht =>
    refine ⟨h.consensus, fun id t' ht' ↦ ?_, h.cached, h.relays⟩
    rcases get_insert_cases ht' with rfl | hold
    · exact ht
    · exact h.stored id t' hold
  | cached t ht =>
    refine ⟨h.consensus, h.stored, fun id t' ht' ↦ ?_, h.relays⟩
    rcases get_insert_cases ht' with rfl | hold
    · exact ht
    · exact h.cached id t' hold
  | guarded objectId transferId => exact h.congr rfl rfl rfl rfl
  | noted objectId transferId => exact h.congr rfl rfl rfl rfl

theorem Closed.relay (h : Closed a) (id : String) {record : RelayRecord}
    (hrecord : record.status ≠ .verified) :
    Closed { a with relays := a.relays.insert id record } := by
  refine ⟨h.consensus, h.stored, h.cached, fun id' r hr ↦ ?_⟩
  rcases get_insert_cases hr with rfl | hold
  · exact hrecord
  · exact h.relays id' r hold

/-- The writes of requests that neither write the bridge nor the relay. -/
theorem Closed.write {r : Request} (h : Closed a) (hwrite : AppWrite X cfg r a a')
    (hbridge : ¬ BridgeRequest X cfg r) (hrelay : ¬ RelayRequest r) : Closed a' := by
  cases hwrite with
  | none => exact h
  | limiter limiter => exact h.congr rfl rfl rfl rfl
  | tree smt => exact h.congr rfl rfl rfl rfl
  | sent command _ => exact h.congr rfl rfl rfl rfl
  | put codeHash wasmBytes _ _ => exact h.congr rfl rfl rfl rfl
  | relay id record hr => exact absurd hr hrelay
  | bridge b hb _ => exact absurd hb hbridge

/-- A task adds its attestations to a manager that accepts none. -/
theorem Closed.task {call : Node.Call} {d : Daemon} {w : World} (h : Closed d.app)
    (hw : Node.CallWrite X call d.world w) : Closed (d.setWorld w).app := by
  obtain ⟨quorum, hquorum⟩ := h.consensus
  have hattested (attestation : StateAttestation) (now : Int) :
      (addAttestation X d.app.consensus attestation now).1 = d.app.consensus := by
    rw [hquorum, ConsensusManager.addAttestation_new]
  have hbridge := (callWrite_frame hw).1
  suffices hconsensus : w.consensus = d.app.consensus from
    h.congr hconsensus hbridge rfl rfl
  cases call with
  | pass env =>
    cases hw with
    | scan height s hs => rfl
    | rollback chain targetHeight logs handled => rfl
    | block key block => rfl
    | cursor key height => rfl
    | attested attestation now => exact hattested attestation now
    | record broadcasts handled => rfl
  | mempoolTx writes now tx =>
    obtain ⟨s, hs, rfl⟩ := hw
    rfl
  | listen attestation now =>
    obtain ⟨attestation, now, rfl⟩ := hw
    exact hattested attestation now
  | replaceChain v =>
    obtain ⟨v, rfl⟩ := hw
    rfl

/-- The cache that a restart fills holds transfers of the table. -/
theorem mem_of_new {s : StateStore} {id : String} {t : BridgeTransfer}
    (h : (BridgeManager.new s).transfers[id]? = some t) :
    ∃ id' : String, s.bridgeTransfers[id']? = some t := by
  have hfold (l : List BridgeTransfer) (m : Table String BridgeTransfer)
      (hm : (l.foldl (fun m t ↦ m.insert t.id t) m)[id]? = some t) :
      t ∈ l ∨ m[id]? = some t := by
    induction l generalizing m with
    | nil => exact .inr hm
    | cons u l ih =>
      rcases ih _ hm with hl | hinsert
      · exact .inl (List.mem_cons_of_mem _ hl)
      · rcases get_insert_cases hinsert with rfl | hold
        · exact .inl List.mem_cons_self
        · exact .inr hold
  rcases hfold _ ∅ h with hmem | hempty
  · obtain ⟨entry, hentry, rfl⟩ := List.mem_map.mp hmem
    exact ⟨entry.1, Std.ExtTreeMap.mem_toList_iff_getElem?_eq_some.mp hentry⟩
  · simp at hempty

theorem Closed.startup {store : StateStore} (quorum rateLimitRps : Nat) (sent : List P2pCommand)
    (h : ∀ (id : String) (t : BridgeTransfer), store.bridgeTransfers[id]? = some t →
      Unproven t.status) : Closed (startup quorum rateLimitRps sent store) where
  consensus := ⟨quorum, rfl⟩
  stored := h
  cached id t ht := by
    obtain ⟨id', hid'⟩ := mem_of_new ht
    exact h id' t hid'
  relays id r hr := by simp [Daemon.startup] at hr

/-! ## 3. The answers -/

/-- What a body can say when there are no validators. -/
def FailsClosed : Request → Body → Prop
  | .mint _ _, _ => False
  | .stateRootAt _, body => ∃ chain height blockHash root,
      body = .stateRootAt chain height blockHash root [] false
  | .slashingProofs, body => body = .slashingProofs []
  | .verifyRelay _, body => ∃ record, body = .relay record ∧ record.status = .failed
  | .latestRelay _, _ => False
  | .transfer _, body => ∃ t, body = .transfer t ∧ Unproven t.status
  | _, _ => True

/-- A part of a handler that neither writes the bridge nor the relay. -/
theorem under_part {α : Type} {p : RpcProg α} {r : Request} (hp : p.Steps (AppWrite X cfg r))
    (hbridge : ¬ BridgeRequest X cfg r) (hrelay : ¬ RelayRequest r) :
    p.Under Closed fun _ ↦ True :=
  Under.of_steps hp fun _ _ hwrite h ↦ h.write hwrite hbridge hrelay

theorem under_stateRootAt (X : Crates) (cfg : Config) (env : Env) (height : Nat) :
    (getStateRootAtHeight cfg env height).Under Closed
      (Answers (FailsClosed (.stateRootAt height))) := by
  unfold getStateRootAtHeight
  split
  · exact answers_refused
  have hread : (mapErr internal (accessed env.reads (getBlock cfg.chain height))).Steps
      (AppWrite X cfg (.stateRootAt height)) :=
    steps_mapErr (steps_accessed X cfg _ (Steps.read fun _ ↦ rfl) _)
  apply (under_part hread not_false not_false).bind
  · exact fun e _ ↦ answers_refused
  intro block _
  apply (Under.read (R := fun r ↦ r = .ok []) fun a ha ↦ ?_).bind
  · intro e he
    cases he
  · intro attestations hattestations
    cases hattestations
    cases block with
    | none => exact answers_refused
    | some b =>
      apply (Under.read (R := fun r ↦ r = .ok false) fun a ha ↦ ?_).bind
      · intro e he
        cases he
      · intro reached hreached
        cases hreached
        intro body hbody
        cases hbody
        exact ⟨_, _, _, _, rfl⟩
      · obtain ⟨quorum, hquorum⟩ := ha.consensus
        rw [hquorum]
        rfl
  · obtain ⟨quorum, hquorum⟩ := ha.consensus
    rw [hquorum]
    rfl

theorem under_verifyRelay (X : Crates) (env : Env) (id : String) :
    (verifyRelay X env id).Under Closed (Answers (FailsClosed (.verifyRelay id))) := by
  apply (Under.read (R := fun _ ↦ True) fun _ _ ↦ trivial).bind
  · exact fun e _ ↦ answers_refused
  intro record? _
  cases record? with
  | none => exact answers_refused
  | some record =>
    apply (Under.read (R := fun r ↦ ∃ quorum, r = .ok (.new quorum)) fun a ha ↦ ?_).bind
    · intro e he
      obtain ⟨quorum, he⟩ := he
      cases he
    · intro consensus hconsensus
      obtain ⟨quorum, hquorum⟩ := hconsensus
      cases hquorum
      split
      · exact answers_refused
      · rename_i relay record' hverify
        have hfailed := ConsensusManager.verifyRelay_new X quorum hverify
        apply (Under.modify (R := fun _ ↦ True) (fun a ha ↦ ?_) trivial).bind
        · exact fun e _ ↦ answers_refused
        · intro _ _ body hbody
          cases hbody
          exact ⟨record', rfl, hfailed⟩
        · exact ha.relay id (by rw [hfailed]; decide)
    · obtain ⟨quorum, hquorum⟩ := ha.consensus
      exact ⟨quorum, congrArg Except.ok hquorum⟩

theorem under_latestRelay (chain : String) :
    (getLatestRelay chain).Under Closed (Answers (FailsClosed (.latestRelay chain))) := by
  apply (Under.read (R := fun r ↦ r = .ok none) fun a ha ↦ ?_).bind
  · intro e he
    cases he
  · intro record? hrecord
    cases hrecord
    exact answers_refused
  · -- the search goes over the verified records, and there are none
    have hempty : (a.relays.toList.map (·.2)).filter (fun r ↦
        r.message.sourceChain == chain && r.status == .verified) = [] := by
      rw [List.filter_eq_nil_iff]
      intro r hr
      obtain ⟨entry, hentry, rfl⟩ := List.mem_map.mp hr
      have hne := ha.relays entry.1 entry.2
        (Std.ExtTreeMap.mem_toList_iff_getElem?_eq_some.mp hentry)
      simp [hne]
    unfold latestVerified
    rw [hempty]
    rfl

theorem under_transfer (id : String) :
    (getTransfer id).Under Closed (Answers (FailsClosed (.transfer id))) := by
  have hfound : (onBridge (bridgeTransfer id)).Under Closed fun r ↦
      ∀ t, r = .ok (some t) → Unproven t.status := by
    have hbridge : (bridgeTransfer id).Under (fun b ↦
        (∀ (id : String) (t : BridgeTransfer), b.store.bridgeTransfers[id]? = some t →
          Unproven t.status) ∧
        ∀ (id : String) (t : BridgeTransfer), b.transfers[id]? = some t → Unproven t.status)
        fun r ↦ ∀ t, r = .ok (some t) → Unproven t.status := by
      refine Under.bind (Under.read (R := fun r ↦ ∀ t, r = .ok (some t) → Unproven t.status)
        fun b hb t ht ↦ ?_) ?_ ?_
      · exact hb.2 id t (by simpa using ht)
      · intro e _ t ht
        cases ht
      · intro t? ht
        cases t? with
        | some t => exact ht
        | none =>
          -- not in the cache: the table decides
          intro b hb
          refine ⟨hb, fun t ht ↦ ?_⟩
          exact hb.1 id t (Except.ok.inj ht)
    exact hbridge.zoom (fun a ha ↦ ⟨ha.stored, ha.cached⟩) fun b a ha hb ↦
      ⟨ha.consensus, hb.1, hb.2, ha.relays⟩
  have hmapped : (mapErr internal (onBridge (bridgeTransfer id))).Under Closed fun r ↦
      ∀ t, r = .ok (some t) → Unproven t.status := by
    refine Under.bind (R := fun r ↦ ∀ t, r = .ok (.ok (some t)) → Unproven t.status)
      (Under.attempt (hfound.imp fun r hr t ht ↦ hr t (Except.ok.inj ht))) ?_ ?_
    · intro e _ t ht
      cases ht
    · intro result hresult
      rcases result with (e | _) | t?
      · intro t ht
        cases ht
      · intro t ht
        cases ht
      · intro t ht
        cases ht
        exact hresult t rfl
  apply hmapped.bind
  · exact fun e _ ↦ answers_refused
  intro t? ht
  cases t? with
  | none => exact answers_refused
  | some t =>
    intro body hbody
    cases hbody
    exact ⟨t, rfl, ht t rfl⟩

/-- An operation of the bridge that only writes unproven statuses. -/
theorem under_onBridge {α : Type} {p : BridgeProg α} (hp : p.Steps (BridgeWrite Unproven)) :
    (onBridge p).Under Closed fun _ ↦ True := by
  have hsteps : (onBridge p).Steps fun a a' ↦
      ∃ b, BridgeWrite Unproven a.bridge b ∧ a' = a.setBridge b :=
    hp.zoom fun b a hb ↦ ⟨b, hb, rfl⟩
  apply Under.of_steps hsteps
  rintro a _ ⟨b, hb, rfl⟩ ha
  exact ha.bridge hb

/-- Errors of operations are refusals. -/
theorem under_mapErr {α : Type} {I : AppState → Prop} {status : Error → StatusCode}
    {p : Prog AppState Exit α} (hp : p.Under I fun _ ↦ True) :
    (mapErr status p).Under I fun _ ↦ True := by
  refine Under.bind (R := fun _ ↦ True) (Under.attempt hp) (fun _ _ ↦ trivial) ?_
  intro result _
  rcases result with (e | _) | a
  · trivial
  · trivial
  · trivial

/-- A mint ends with an error. -/
theorem under_mintNow (call : MintCall) :
    (mintNow X call).Under Closed fun r ↦ ∃ e, r = .error e := by
  apply (under_onBridge (BridgeManager.steps_replayGuard call)).bind
  · exact fun e _ ↦ ⟨e, rfl⟩
  intro _ _
  apply (under_onBridge (Steps.modify fun _ ↦ .noted _ _)).bind
  · exact fun e _ ↦ ⟨e, rfl⟩
  intro _ _
  apply (Under.read (R := fun r ↦ ∃ quorum, r = .ok (.new quorum)) fun a ha ↦ ?_).bind
  · exact fun e _ ↦ ⟨e, rfl⟩
  · intro consensus hconsensus
    obtain ⟨quorum, hquorum⟩ := hconsensus
    cases hquorum
    let c : MintCall := { call with consensus := .new quorum }
    have hinvalid := ConsensusManager.verifyProof_new X quorum call.proof
    have hsteps : (BridgeManager.mintTransfer X c).Steps (BridgeWrite Unproven) :=
      BridgeManager.steps_mintTransfer X c (.inr rfl) fun hvalid ↦ by
        rw [show (CrossChainVerifier.verifyProof X c.consensus c.proof).valid = false from
          hinvalid] at hvalid
        cases hvalid
    have hyields : (BridgeManager.mintTransfer X c).Under (fun _ ↦ True)
        fun r ↦ ∃ e, r = .error e := by
      apply (Under.read (R := fun _ ↦ True) fun _ _ ↦ trivial).bind
      · exact fun e _ ↦ ⟨e, rfl⟩
      intro t? _
      cases t? with
      | none => exact ⟨_, rfl⟩
      | some t =>
        dsimp only
        split
        · exact ⟨_, rfl⟩
        · rw [show (CrossChainVerifier.verifyProof X c.consensus c.proof).valid = false from
            hinvalid]
          rw [if_pos (show (!false) = true from rfl)]
          -- the transfer is marked as failed, the object unlocked, and the error returned
          apply (Under.true _).bind
          · exact fun e _ ↦ ⟨e, rfl⟩
          intro _ _
          apply (Under.true _).bind
          · exact fun e _ ↦ ⟨e, rfl⟩
          exact fun _ _ ↦ ⟨_, rfl⟩
    have herror : (onBridge (BridgeManager.mintTransfer X c)).Under (fun _ ↦ True)
        fun r ↦ ∃ e, r = .error e := hyields.zoom (fun _ _ ↦ trivial) fun _ _ _ _ ↦ trivial
    exact ((under_onBridge hsteps).and herror fun _ _ ↦ trivial).imp fun _ hr ↦ hr.2
  · obtain ⟨quorum, hquorum⟩ := ha.consensus
    exact ⟨quorum, congrArg Except.ok hquorum⟩

/-- The handlers keep the invariant and fail closed. -/
theorem under_handle (X : Crates) (cfg : Config) (env : Env) (r : Request) :
    (handle X cfg env r).Under Closed (Answers (FailsClosed r)) := by
  have hauth (headers : Headers) {Q : Body → Prop} {f : Unit → RpcProg Body}
      (hf : ∀ u, (f u).Under Closed (Answers Q)) :
      ((Prog.ofExcept (verifyBridgeAuth X headers cfg.bridgeApiKey) : RpcProg Unit) >>= f).Under
        Closed (Answers Q) := by
    apply (Under.ofExcept (R := fun _ ↦ True) trivial).bind
    · exact fun e _ ↦ answers_refused
    · exact fun u _ ↦ hf u
  have hother {r : Request} (hbridge : ¬ BridgeRequest X cfg r) (hrelay : ¬ RelayRequest r)
      (hany : ∀ body, FailsClosed r body) :
      (handle X cfg env r).Under Closed (Answers (FailsClosed r)) :=
    (under_part (steps_handle X cfg env r) hbridge hrelay).imp fun _ _ body _ ↦ hany body
  cases r with
  | stateRootAt height => exact under_stateRootAt X cfg env height
  | verifyRelay id => exact under_verifyRelay X env id
  | latestRelay chain => exact under_latestRelay chain
  | transfer id => exact under_transfer id
  | slashingProofs =>
    apply (Under.read (R := fun r ↦ r = .ok []) fun a ha ↦ ?_).bind
    · intro e he
      cases he
    · intro proofs hproofs body hbody
      cases hproofs
      cases hbody
      rfl
    · obtain ⟨quorum, hquorum⟩ := ha.consensus
      rw [hquorum]
      rfl
  | lock headers call =>
    apply hauth
    intro _
    apply (under_mapErr (under_onBridge (BridgeManager.steps_lockAssets X (.inl rfl) call))).bind
    · exact fun e _ ↦ answers_refused
    · exact fun _ _ _ _ ↦ trivial
  | cancel headers call =>
    apply hauth
    intro _
    apply (under_mapErr
      (under_onBridge (BridgeManager.steps_cancelTransfer X (.inr rfl) call))).bind
    · exact fun e _ ↦ answers_refused
    · exact fun _ _ _ _ ↦ trivial
  | mint headers call =>
    apply hauth
    intro _
    have hmint : (mapErr internal (mintNow X call)).Under Closed fun r ↦ ∃ e, r = .error e := by
      refine Under.bind (R := fun r ↦ ∃ e, r = .ok (.error e))
        (Under.attempt ((under_mintNow call).imp fun r hr ↦ ?_)) (fun e _ ↦ ⟨e, rfl⟩) ?_
      · obtain ⟨e, rfl⟩ := hr
        exact ⟨e, rfl⟩
      · intro result hresult
        obtain ⟨e, he⟩ := hresult
        cases he
        cases e <;> exact ⟨_, rfl⟩
    apply hmint.bind
    · exact fun e _ ↦ answers_refused
    · intro transfer htransfer
      obtain ⟨e, he⟩ := htransfer
      cases he
  | createRelay sourceChain blockHeight destChain =>
    apply (Under.read (R := fun _ ↦ True) fun _ _ ↦ trivial).bind
    · exact fun e _ ↦ answers_refused
    intro store _
    apply (Under.read (R := fun _ ↦ True) fun _ _ ↦ trivial).bind
    · exact fun e _ ↦ answers_refused
    intro message _
    cases message with
    | error text => exact answers_refused
    | ok message =>
      apply (Under.modify (R := fun _ ↦ True) (fun a ha ↦ ?_) trivial).bind
      · exact fun e _ ↦ answers_refused
      · exact fun _ _ _ _ ↦ trivial
      · exact ha.relay _ fun hverified ↦ by cases hverified
  | _ => exact hother not_false not_false fun _ ↦ trivial

/-! ## 4. Runs -/

theorem closed_prog (call : Call) :
    (call.prog X B N cfg).Under (fun d ↦ Closed d.app) fun result ↦
      ∀ env arrival r, call = .request env arrival r → Answered (FailsClosed r) result := by
  cases call with
  | task call =>
    have hkeep : (Call.prog X B N cfg (.task call)).Under (fun d ↦ Closed d.app) fun _ ↦ True := by
      apply Under.of_steps (steps_prog X B N cfg (.task call))
      rintro d _ ⟨w, hw, rfl⟩ hd
      exact hd.task hw
    refine hkeep.imp fun result _ env arrival r h ↦ ?_
    cases h
  | request env arrival r =>
    have hserve : (respond (serve X cfg env arrival r)).Under Closed (Answered (FailsClosed r)) :=
      under_respond (under_serve (fun a limiter ha ↦ ha.congr rfl rfl rfl rfl)
        (under_handle X cfg env r))
    have hzoom : (Call.prog X B N cfg (.request env arrival r)).Under (fun d ↦ Closed d.app)
        (Answered (FailsClosed r)) := by
      unfold Call.prog
      exact hserve.zoom (fun _ ha ↦ ha) fun _ _ _ ha ↦ ha
    refine hzoom.imp fun result hresult env' arrival' r' h ↦ ?_
    cases h
    exact hresult

/-- **The daemon fails closed.**  In every state that a node reaches from its first start, under any
interleaving of its tasks and of requests, with any restarts: it has accepted no attestation and
registered no validator, its fraud watch builds nothing, no transfer is past `Locked` other than
`Failed`; and no answer says otherwise: no mint succeeds, no quorum is reported, no slashing proof is
listed, and no relay is verified. -/
theorem daemon_fails_closed (X : Crates) (B : L1Blocks) (N : Node) (cfg : Config)
    (quorum rateLimitRps : Nat) (v : L1Chain) (d : Daemon)
    (T : Pool Daemon Exit Outcome Thread Call)
    (h : Reachable (system X B N cfg) (firstStart X quorum rateLimitRps v) d T) :
    (∃ quorum', d.app.consensus = .new quorum') ∧
    (∀ fwCfg trigger known now,
      runFraudWatchPass X d.app.consensus fwCfg trigger known now = []) ∧
    (∀ (id : String) (t : BridgeTransfer),
      d.app.store.bridgeTransfers[id]? = some t ∨ d.app.transfers[id]? = some t →
      t.status = .locked ∨ t.status = .failed) ∧
    ∀ i env arrival r body,
      T i = some (.request env arrival r, .done (.answered (.ok body))) → FailsClosed r body := by
  have hinit : Closed (firstStart X quorum rateLimitRps v).app := by
    apply Closed.startup
    intro id t ht
    simp [StateStore.empty] at ht
  have hrestart (d d' : Daemon) (hd : Closed d.app) (hre : (system X B N cfg).restart d d') :
      Closed d'.app := by
    obtain ⟨quorum, rateLimitRps, rfl⟩ := hre
    exact Closed.startup quorum rateLimitRps _ hd.stored
  obtain ⟨hclosed, hthreads⟩ := h.under (fun _ _ _ call _ ↦ closed_prog call) hrestart hinit
  obtain ⟨quorum', hquorum⟩ := hclosed.consensus
  refine ⟨⟨quorum', hquorum⟩, fun fwCfg trigger known now ↦ ?_, fun id t ht ↦ ?_,
    fun i env arrival r body hi ↦ ?_⟩
  · rw [hquorum, ConsensusManager.runFraudWatchPass_new]
  · rcases ht with hstored | hcached
    · exact hclosed.stored id t hstored
    · exact hclosed.cached id t hcached
  · exact hthreads i _ _ hi env arrival r rfl body rfl

/-! An object goes to a key, whose holder locks it; no attestation is accepted, and the mint of the
transfer fails. -/

def demoKeyTransfer : Json := demoTransfer (hexEncode BridgeManager.demoOwnerKey)

/-- Crates that know the texts of two envelopes. -/
def demoKeyCrates : Crates :=
  { demoCrates with
    jsonFromSlice := fun text ↦
      [demoCreate, demoKeyTransfer].find? fun j ↦ text == asBytes j.compact }

/-- A transaction like `demoTransferTx`, with a text that is too long for a direct push. -/
def demoKeyTx : ElectrsTx :=
  { BlockProcessor.demoTransferTx with
    vout :=
      [{ value := 900
         scriptpubkey := hexEncode ([0x00, 0x63, 6] ++ asBytes "utxovm" ++ [1, 1, 16] ++
           asBytes "application/json" ++
           [0x4c, UInt8.ofNat (asBytes demoKeyTransfer.compact).length] ++
           asBytes demoKeyTransfer.compact ++ [0x68])
         scriptpubkeyHex := none }] }

def demoKeyLock : LockCall := BridgeManager.demoLock "JKC" BlockProcessor.demoObjectId "B" "p"

def demoKeyMint : MintCall :=
  { BridgeManager.demoFailingMint with
    transferId := BridgeManager.lockTransferId demoKeyLock
    proof := { BridgeManager.demoFailingMint.proof with objectId := BlockProcessor.demoObjectId } }

def demoClosingCalls : List (Thread × Call) :=
  [(.inl .mempool, .task (.mempoolTx {} 0 BlockProcessor.demoCreateTx)),
    (.inl .mempool, .task (.mempoolTx {} 0 demoKeyTx)),
    (.inl .listener, .task (.listen (demoAttestation 1 "b" "r") 0)),
    (.inr 0, .request {} demoArrival (.lock ⟨some "Bearer k"⟩ demoKeyLock)),
    (.inr 1, .request {} demoArrival (.mint ⟨some "Bearer k"⟩ demoKeyMint))]

def demoClosing : Daemon :=
  runCallsTo demoKeyCrates demoBlocks demoNode demoConfig 10
    (firstStart demoKeyCrates 1 100 (demoChain 1 1)) demoClosingCalls

def demoSlashingProg : Prog Daemon Exit Outcome :=
  Call.prog demoKeyCrates demoBlocks demoNode demoConfig (.request {} demoArrival .slashingProofs)

/-- An outcome that is an answer of the handler. -/
def Outcome.body? : Outcome → Option Body
  | .answered (.ok body) => some body
  | _ => none

theorem body?_eq_some {outcome : Outcome} {body : Body} (h : outcome.body? = some body) :
    outcome = .answered (.ok body) := by
  unfold Outcome.body? at h
  split at h
  · cases h
    rfl
  · cases h

/-- All calls end, the transfer is filed, and the last request is answered. -/
theorem demoClosing_runs :
    (endsWithin demoKeyCrates demoBlocks demoNode demoConfig 10
      (firstStart demoKeyCrates 1 100 (demoChain 1 1)) demoClosingCalls &&
    ((demoSlashingProg.after 2 demoClosing).result?.bind Outcome.body?).isSome &&
    ((demoSlashingProg.crash 2 demoClosing).app.store.bridgeTransfers[
      BridgeManager.lockTransferId demoKeyLock]?).isSome) = true := by
  decide +kernel

/-- The transfer is there, and has failed; then someone asks for the slashing proofs. -/
theorem failed_mint_closed : ∃ T t body,
    Reachable (system demoKeyCrates demoBlocks demoNode demoConfig)
      (firstStart demoKeyCrates 1 100 (demoChain 1 1)) (demoSlashingProg.crash 2 demoClosing) T ∧
    (∃ quorum', (demoSlashingProg.crash 2 demoClosing).app.consensus = .new quorum') ∧
    (demoSlashingProg.crash 2 demoClosing).app.store.bridgeTransfers[
      BridgeManager.lockTransferId demoKeyLock]? = some t ∧
    (t.status = .locked ∨ t.status = .failed) ∧
    T (.inr 2) = some (.request {} demoArrival .slashingProofs, .done (.answered (.ok body))) ∧
    body = .slashingProofs [] := by
  have hruns := demoClosing_runs
  rw [Bool.and_eq_true, Bool.and_eq_true] at hruns
  obtain ⟨⟨hends, hanswer⟩, hfiled⟩ := hruns
  have hclosing : Reachable (system demoKeyCrates demoBlocks demoNode demoConfig)
      (firstStart demoKeyCrates 1 100 (demoChain 1 1)) demoClosing fun _ ↦ none := by
    apply reachable_runCallsTo 10 demoClosingCalls .init
    · simp [demoClosingCalls, system, Node.Call.task]
    · exact hends
  obtain ⟨T, hreach, hself⟩ := reachable_request hclosing (n := 2) rfl {} demoArrival
    .slashingProofs 2
  have hprog : Call.prog demoKeyCrates demoBlocks demoNode demoConfig
      (.request {} demoArrival .slashingProofs) = demoSlashingProg := rfl
  rw [hprog] at hreach hself
  obtain ⟨body, hbody⟩ := Option.isSome_iff_exists.mp hanswer
  obtain ⟨outcome, hresult, houtcome⟩ := Option.bind_eq_some_iff.mp hbody
  have hdone : demoSlashingProg.after 2 demoClosing = .done (.answered (.ok body)) := by
    rw [Prog.eq_done hresult, body?_eq_some houtcome]
  obtain ⟨t, ht⟩ := Option.isSome_iff_exists.mp hfiled
  obtain ⟨hconsensus, -, hstatus, hanswers⟩ := daemon_fails_closed demoKeyCrates demoBlocks demoNode
    demoConfig 1 100 (demoChain 1 1) _ T hreach
  rw [hdone] at hself
  exact ⟨T, t, body, hreach, hconsensus, ht, hstatus _ t (.inl ht), hself,
    hanswers _ _ _ _ _ hself⟩

end Daemon

end UtxoVm
