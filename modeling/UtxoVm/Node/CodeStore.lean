import UtxoVm.Node.Daemon

/-!
# Code is what its hash says

Code reaches a node in deploys, from the DHT and from publishers.  Every way in checks the hash, and
so does every way out: whatever is answered, restarted or cut off, the node neither runs, nor serves,
nor publishes code under a hash that is not its own.
-/

namespace UtxoVm

open RustStd StateStore Prog Interleaving Rpc

namespace Daemon

/-- The code that the node stores and the code that it has published belong to their hashes. -/
structure CodeMatches (X : Crates) (a : AppState) : Prop where
  stored : ∀ codeHash wasmBytes, a.store.wasmBlobs[codeHash]? = some wasmBytes →
    wasmHash X wasmBytes = codeHash
  published : ∀ codeHash wasmBytes, P2pCommand.putContract codeHash wasmBytes ∈ a.sent →
    wasmHash X wasmBytes = codeHash

variable {X : Crates} {B : L1Blocks} {N : Node} {cfg : Config}

theorem CodeMatches.congr {a a' : AppState} (h : CodeMatches X a)
    (hstore : a'.store.wasmBlobs = a.store.wasmBlobs)
    (hsent : ∀ codeHash wasmBytes, P2pCommand.putContract codeHash wasmBytes ∈ a'.sent →
      P2pCommand.putContract codeHash wasmBytes ∈ a.sent) : CodeMatches X a' where
  stored codeHash wasmBytes hblob := h.stored codeHash wasmBytes (hstore ▸ hblob)
  published codeHash wasmBytes hput := h.published codeHash wasmBytes (hsent _ _ hput)

/-- Code that is stored is stored under its own hash. -/
theorem CodeMatches.scan {a : AppState} (h : CodeMatches X a) {height : Nat} {s : StateStore}
    (hs : ScanWrite X height a.store s) : CodeMatches X { a with store := s } := by
  cases hs with
  | none => exact h
  | object obj hobj => exact h.congr rfl fun _ _ hput ↦ hput
  | tree smt => exact h.congr rfl fun _ _ hput ↦ hput
  | undo undo hundo => exact h.congr rfl fun _ _ hput ↦ hput
  | transition trans => exact h.congr rfl fun _ _ hput ↦ hput
  | blob wasmBytes =>
    refine ⟨fun codeHash bytes hblob ↦ ?_, h.published⟩
    change (a.store.wasmBlobs.insert (wasmHash X wasmBytes) wasmBytes)[codeHash]? = _ at hblob
    rw [Table.get_insert] at hblob
    split at hblob
    · rename_i hhash
      cases hblob
      exact hhash.symm
    · exact h.stored codeHash bytes hblob

theorem CodeMatches.write {call : Call} {d d' : Daemon} (h : CodeMatches X d.app)
    (hwrite : Write X cfg call d d') : CodeMatches X d'.app := by
  cases call with
  | task call =>
    obtain ⟨w, hw, rfl⟩ := hwrite
    show CodeMatches X { d.app with store := w.store, consensus := w.consensus }
    -- the consensus manager does not matter
    suffices hstore : CodeMatches X { d.app with store := w.store } from
      hstore.congr rfl fun _ _ hput ↦ hput
    cases call with
    | pass env =>
      cases hw with
      | scan height s hs => exact h.scan hs
      | rollback chain targetHeight logs handled =>
        exact h.congr (undoAll_bridge chain targetHeight logs _).2.2 fun _ _ hput ↦ hput
      | block key block => exact h.congr rfl fun _ _ hput ↦ hput
      | cursor key height => exact h.congr rfl fun _ _ hput ↦ hput
      | attested attestation now => exact h
      | record broadcasts handled => exact h
    | mempoolTx writes now tx =>
      obtain ⟨s, hs, rfl⟩ := hw
      exact h.scan hs
    | listen attestation now =>
      obtain ⟨attestation, now, rfl⟩ := hw
      exact h
    | replaceChain v =>
      obtain ⟨v, rfl⟩ := hw
      exact h
  | request env arrival r =>
    obtain ⟨app, happ, rfl⟩ := hwrite
    show CodeMatches X app
    have hblobs := (appWrite_frame happ).2.2.2.2.1
    cases happ with
    | none => exact h
    | limiter limiter => exact h.congr rfl fun _ _ hput ↦ hput
    | tree smt => exact h.congr rfl fun _ _ hput ↦ hput
    | sent command hput =>
      refine ⟨h.stored, fun codeHash wasmBytes hmem ↦ ?_⟩
      rcases List.mem_append.mp hmem with hold | hnew
      · exact h.published codeHash wasmBytes hold
      · -- the new command is not a put
        rw [← List.mem_singleton.mp hnew] at hput
        cases hput
    | put codeHash wasmBytes _ hhash =>
      refine ⟨h.stored, fun codeHash' bytes hmem ↦ ?_⟩
      rcases List.mem_append.mp hmem with hold | hnew
      · exact h.published codeHash' bytes hold
      · cases List.mem_singleton.mp hnew
        exact hhash
    | relay id record _ => exact h.congr rfl fun _ _ hput ↦ hput
    | bridge b _ _ => exact h.congr hblobs fun _ _ hput ↦ hput

/-! ## What is served -/

/-- The body of a contract holds the answer of the DHT, checked against the hash. -/
def Served (X : Crates) (env : Env) : Request → Body → Prop
  | .getContract codeHash, body => ∃ wasm, env.dht = some wasm ∧ wasmHash X wasm = codeHash ∧
      body = .contract codeHash (hexEncode wasm)
  | _, _ => True

/-- A body, if there is one, satisfies `Q`. -/
def Answers {ε : Type} (Q : Body → Prop) (result : Except ε Body) : Prop :=
  ∀ body, result = .ok body → Q body

/-- The answer of a call. -/
def Answered (Q : Body → Prop) (result : Except Exit Outcome) : Prop :=
  ∀ body, result = .ok (.answered (.ok body)) → Q body

theorem answers_refused {Q : Body → Prop} {e : RpcExit} : Answers Q (.error e) := by
  intro body h
  cases h

theorem under_respond {I : AppState → Prop} {Q : Body → Prop} {p : RpcProg Body}
    (hp : p.Under I (Answers Q)) : (respond p).Under I (Answered Q) := by
  refine Under.bind (R := fun r ↦ ∀ body, r = .ok (.ok body) → Q body) (Under.attempt ?_) ?_ ?_
  · exact hp.imp fun r hr body h ↦ hr body (by cases h; rfl)
  · intro e _ body h
    cases h
  · intro result hresult
    rcases result with (⟨status, text⟩ | _) | body
    · intro body h
      cases h
    · intro body h
      cases h
    · intro body' h
      cases h
      exact hresult _ rfl

/-- The middleware refuses, or leaves the answer to the handler. -/
theorem under_serve {I : AppState → Prop} {Q : Body → Prop} {env : Env} {arrival : Arrival}
    {r : Request} (hlimiter : ∀ a limiter, I a → I { a with limiter })
    (hp : (handle X cfg env r).Under I (Answers Q)) :
    (serve X cfg env arrival r).Under I (Answers Q) := by
  refine Under.bind (R := fun _ ↦ True) (fun a ha ↦ ⟨hlimiter a _ ha, trivial⟩) ?_ ?_
  · exact fun e _ ↦ answers_refused
  · intro ok _
    cases ok with
    | true => exact hp
    | false => exact answers_refused

theorem served_getContract (X : Crates) (env : Env) (codeHash : String) :
    (getDhtContract X env codeHash).Under (fun _ ↦ True)
      (Answers (Served X env (.getContract codeHash))) := by
  apply (Under.true _).bind
  · exact fun e _ ↦ answers_refused
  intro _ _
  apply (Under.true _).bind
  · exact fun e _ ↦ answers_refused
  intro _ _
  -- what the DHT answers is checked before it is passed on
  cases hdht : env.dht with
  | none => exact answers_refused
  | some wasm =>
    dsimp only
    split
    · exact answers_refused
    · rename_i hhash
      intro body h
      cases h
      exact ⟨wasm, hdht, not_not.mp hhash, rfl⟩

theorem served_handle (X : Crates) (cfg : Config) (env : Env) (r : Request) :
    (handle X cfg env r).Under (fun _ ↦ True) (Answers (Served X env r)) := by
  cases r with
  | getContract codeHash => exact served_getContract X env codeHash
  | _ =>
    exact (Under.of_steps (steps_handle X cfg env _) fun _ _ _ _ ↦ trivial).imp
      fun _ _ _ _ ↦ trivial

theorem under_prog (call : Call) :
    (call.prog X B N cfg).Under (fun d ↦ CodeMatches X d.app) fun result ↦
      ∀ env arrival r, call = .request env arrival r → Answered (Served X env r) result := by
  have hkeep : (call.prog X B N cfg).Under (fun d ↦ CodeMatches X d.app) fun _ ↦ True :=
    Under.of_steps (steps_prog X B N cfg call) fun _ _ hwrite h ↦ h.write hwrite
  cases call with
  | task call => exact hkeep.imp fun result _ env arrival r h ↦ by cases h
  | request env arrival r =>
    have hserve : (respond (serve X cfg env arrival r)).Under (fun _ ↦ True)
        (Answered (Served X env r)) :=
      under_respond (under_serve (fun _ _ _ ↦ trivial) (served_handle X cfg env r))
    have hanswer : (Call.prog X B N cfg (.request env arrival r)).Under (fun _ ↦ True)
        (Answered (Served X env r)) := by
      unfold Call.prog
      exact hserve.zoom (fun _ _ ↦ trivial) fun _ _ _ _ ↦ trivial
    refine (hkeep.and hanswer fun _ _ ↦ trivial).imp fun result hresult env' arrival' r' h ↦ ?_
    cases h
    exact hresult.2

/-- **Code is content-addressed throughout.**  In every state that a node reaches from its first
start, whatever the DHT answers and wherever it is restarted: the code that a call of an object runs
has the hash that the object names, code that was published has the hash it was published under, and
so has the code in every answer. -/
theorem code_content_addressed (X : Crates) (B : L1Blocks) (N : Node) (cfg : Config)
    (quorum rateLimitRps : Nat) (v : L1Chain) (d : Daemon)
    (T : Pool Daemon Exit Outcome Thread Call)
    (h : Reachable (system X B N cfg) (firstStart X quorum rateLimitRps v) d T) :
    (∀ codeHash wasmBytes, codeHash ≠ "wasm_default" → codeHash ≠ "" →
      ((BlockProcessor.getWasmBytes codeHash).run d.app.store).2 = .ok wasmBytes →
      wasmHash X wasmBytes = codeHash) ∧
    (∀ codeHash wasmBytes, P2pCommand.putContract codeHash wasmBytes ∈ d.app.sent →
      wasmHash X wasmBytes = codeHash) ∧
    ∀ i env arrival codeHash body,
      T i = some (.request env arrival (.getContract codeHash), .done (.answered (.ok body))) →
      ∃ wasm, wasmHash X wasm = codeHash ∧ body = .contract codeHash (hexEncode wasm) := by
  have hinit : CodeMatches X (firstStart X quorum rateLimitRps v).app := by
    refine ⟨fun codeHash wasmBytes hblob ↦ ?_, fun codeHash wasmBytes hput ↦ ?_⟩
    · simp [firstStart, startup, StateStore.empty] at hblob
    · cases hput
  have hrestart (d d' : Daemon) (hd : CodeMatches X d.app)
      (hre : (system X B N cfg).restart d d') : CodeMatches X d'.app := by
    obtain ⟨quorum, rateLimitRps, rfl⟩ := hre
    exact hd.congr rfl fun _ _ hput ↦ hput
  obtain ⟨hcode, hthreads⟩ := h.under (fun _ _ _ call _ ↦ under_prog call) hrestart hinit
  refine ⟨fun codeHash wasmBytes hdefault hempty hrun ↦ ?_, hcode.published, ?_⟩
  · unfold BlockProcessor.getWasmBytes at hrun
    rw [if_neg (by simp [hdefault, hempty]), run_bind] at hrun
    change (andThen (d.app.store, .ok d.app.store.wasmBlobs[codeHash]?) _).2 = _ at hrun
    rw [andThen_ok] at hrun
    cases hblob : d.app.store.wasmBlobs[codeHash]? with
    | none =>
      rw [hblob] at hrun
      cases hrun
    | some bytes =>
      rw [hblob] at hrun
      cases hrun
      exact hcode.stored codeHash wasmBytes hblob
  · intro i env arrival codeHash body hi
    have hdone := hthreads i _ _ hi env arrival _ rfl
    obtain ⟨wasm, -, hhash, hbody⟩ := hdone body rfl
    exact ⟨wasm, hhash, hbody⟩

/-- A contract that the DHT has, asked for by its hash. -/
theorem served_contract_matches :
    ∃ T, Reachable (system demoCrates demoBlocks demoNode demoConfig) demoDaemon
        ((Call.prog demoCrates demoBlocks demoNode demoConfig (.request { dht := some [7] }
          demoArrival (.getContract (wasmHash demoCrates [7])))).crash 2 demoDaemon) T ∧
      ∃ wasm, wasmHash demoCrates wasm = wasmHash demoCrates [7] ∧
        Body.contract (wasmHash demoCrates [7]) (hexEncode [7]) =
          .contract (wasmHash demoCrates [7]) (hexEncode wasm) := by
  have hinit : Reachable (system demoCrates demoBlocks demoNode demoConfig) demoDaemon demoDaemon
      fun _ ↦ none := .init
  obtain ⟨T, hreach, hself⟩ := reachable_request hinit (n := 0) rfl { dht := some [7] } demoArrival
    (.getContract (wasmHash demoCrates [7])) 2
  have hdone : (Call.prog demoCrates demoBlocks demoNode demoConfig (.request { dht := some [7] }
      demoArrival (.getContract (wasmHash demoCrates [7])))).after 2 demoDaemon =
        .done (.answered (.ok (.contract (wasmHash demoCrates [7]) (hexEncode [7])))) := by
    rfl
  rw [hdone] at hself
  refine ⟨T, hreach, ?_⟩
  exact (code_content_addressed demoCrates demoBlocks demoNode demoConfig 1 100 (demoChain 1 1) _ T
    hreach).2.2 _ _ _ _ _ hself

end Daemon

end UtxoVm
