import UtxoVm.Consensus.AttestationRun
import UtxoVm.Node.SingleChain
import UtxoVm.Scanner.StoreRun

/-!
# Does an honest node equivocate?

The loop signs the root of every height that it handles, and nothing that it signed before is looked
at: after a rollback the same heights are signed again, with the roots of other blocks.  A node
whose loop never comes back to a height that it has attested broadcasts one root for each height,
and no two of its attestations make an equivocation proof.
-/

namespace UtxoVm

open RustStd StateStore BlockProcessor Prog Interleaving

/-! ## 1. One attestation for each height -/

/-- No proof can be built from two attestations that the node has broadcast. -/
def NeverEquivocates (X : Crates) (w : World) : Prop :=
  ∀ proof : EquivocationProof, proof.firstAttestation ∈ w.broadcasts →
    proof.secondAttestation ∈ w.broadcasts → verifyEquivocationProof X proof = false

/-- The node has broadcast no attestation for the height. -/
def Unattested (height : Nat) (w : World) : Prop :=
  ∀ a ∈ w.broadcasts, a.blockHeight ≠ height

/-- A step that fetches a block does so at a height that the node has not attested. -/
def FetchesUnattested (w w' : World) : Prop :=
  w'.handled.length = w.handled.length + 1 →
    ∀ b ∈ w'.handled.take 1, Unattested b.height w

/-- The attestations of the node are for different heights. -/
def AttestedOnce (w : World) : Prop := (w.broadcasts.map (·.blockHeight)).Nodup

instance (height : Nat) (w : World) : Decidable (Unattested height w) :=
  inferInstanceAs (Decidable (∀ a ∈ w.broadcasts, a.blockHeight ≠ height))

instance (w w' : World) : Decidable (FetchesUnattested w w') :=
  inferInstanceAs (Decidable (_ → ∀ b ∈ w'.handled.take 1, Unattested b.height w))

theorem AttestedOnce.neverEquivocates {X : Crates} {w : World} (h : AttestedOnce w) :
    NeverEquivocates X w := by
  intro proof hfirst hsecond
  rw [← Bool.not_eq_true, verifyEquivocationProof_iff]
  rintro ⟨-, ⟨-, -, hheight, hheight'⟩, hroots, -⟩
  have hsame : proof.firstAttestation = proof.secondAttestation :=
    List.inj_on_of_nodup_map h hfirst hsecond (hheight.trans hheight'.symm)
  exact hroots (congrArg _ hsame)

theorem AttestedOnce.broadcast {w : World} (h : AttestedOnce w) {a : StateAttestation}
    (hnew : Unattested a.blockHeight w) :
    AttestedOnce { w with broadcasts := w.broadcasts ++ [a] } := by
  unfold AttestedOnce
  rw [List.map_append, List.map_singleton, List.nodup_append_comm, List.singleton_append,
    List.nodup_cons]
  refine ⟨fun hmem ↦ ?_, h⟩
  obtain ⟨old, hold, heq⟩ := List.mem_map.mp hmem
  exact hnew old hold heq

namespace Node

/-! ## 2. The loop signs the heights that it fetches -/

def attestSetting : Setting World where
  inv := AttestedOnce
  allowed := FetchesUnattested

theorem ownView_broadcasts : OwnView (·.broadcasts) where
  tables _ _ _ := rfl
  consensus _ _ := rfl
  l1 _ _ := rfl

theorem invOf_broadcasts : InvOf attestSetting (·.broadcasts) := by
  intro w w' hview _ hw
  change (w'.broadcasts.map _).Nodup
  rw [show w'.broadcasts = w.broadcasts from hview]
  exact hw

theorem of_unattested (height : Nat) : Of (·.broadcasts) (Unattested height) := by
  intro w w' hview hw
  unfold Unattested
  rw [show w'.broadcasts = w.broadcasts from hview]
  exact hw

variable {α : Type}

theorem keeps_broadcasts_onStore (p : StoreProg α) : Keeps (·.broadcasts) (onStore p) := by
  have hall : Keeps (fun _ ↦ ()) p := by
    induction p with
    | done a => trivial
    | fail e => trivial
    | act upd next ih => exact fun s ↦ ⟨rfl, ih s⟩
  exact hall.zoom fun _ _ _ ↦ rfl

variable (X : Crates) (B : L1Blocks) (N : Node) (env : PassEnv)

theorem keeps_broadcasts_reorgCheck (last : Nat) :
    Keeps (·.broadcasts) (reorgCheck X N env last) := by
  have hundo (ancestor : Nat) : Keeps (·.broadcasts) (undoBlocks N env ancestor) := by
    rw [undoBlocks_eq]
    intro w
    dsimp only
    cases undoLogsAbove w.store N.chain ancestor with
    | error e => exact ⟨rfl, trivial⟩
    | ok logs => cases env.rollsBack <;> exact ⟨rfl, trivial⟩
  have hrollback (ancestor : Nat) : Keeps (·.broadcasts) (rollback X N env ancestor) :=
    (hundo ancestor).bind fun _ ↦ (keeps_broadcasts_onStore _).bind fun _ ↦ .pure _
  unfold reorgCheck
  split
  · exact .pure _
  refine (keeps_storedBlock N env last).bind fun local? ↦ ?_
  cases local? with
  | none => exact .pure _
  | some localBlock =>
    refine (Keeps.read _).bind fun l1Hash? ↦ ?_
    cases l1Hash? with
    | none => exact .pure _
    | some l1Hash =>
      dsimp only
      split
      · exact .pure _
      refine (keeps_backtrack N env _).bind fun ancestor? ↦ ?_
      cases ancestor? with
      | none => exact .pure _
      | some ancestor =>
        refine (keeps_caught (hrollback ancestor)).bind fun r ↦ ?_
        cases r <;> exact .pure _

/-- A program that gives nothing to gossip. -/
theorem holds_silent {P : World → Prop} {p : TaskProg α} (hp : Keeps (·.broadcasts) p)
    (hP : Of (·.broadcasts) P) :
    Holds attestSetting (ownContract (·.broadcasts) .sync) P p fun _ ↦ P :=
  holds_own invOf_broadcasts hp hP

theorem attests_fetchedHash (height : Nat) :
    Holds attestSetting (ownContract (·.broadcasts) .sync) (fun _ ↦ True)
      (fetchedHash env height) fun r w ↦ ∀ b, r = .ok (some b) → Unattested height w := by
  intro w hw _ hallowed
  dsimp only at hallowed ⊢
  cases hl1 : w.l1 height with
  | none =>
    refine ⟨hw, trivial, _, Of.true.stable, trivial, ?_⟩
    intro _ _ _ b hb
    split at hb <;> cases hb
  | some blockHash =>
    rw [hl1] at hallowed
    cases hanswered : env.fetchesHash height with
    | false =>
      refine ⟨hw, trivial, _, Of.true.stable, trivial, ?_⟩
      intro _ _ _ b hb
      cases hb
    | true =>
      rw [hanswered] at hallowed
      have hnew : Unattested height w := hallowed rfl _ (List.mem_singleton_self _)
      exact ⟨hw, trivial, _, (of_unattested height).stable, hnew, fun _ _ h _ _ ↦ h⟩

theorem attests_attest (height : Nat) (blockHash stateRoot : String) :
    Holds attestSetting (ownContract (·.broadcasts) .sync) (Unattested height)
      (attest X N env height blockHash stateRoot) fun _ _ ↦ True := by
  have hquiet : Holds attestSetting (ownContract (·.broadcasts) .sync) (Unattested height)
      (pure () : TaskProg Unit) fun _ _ ↦ True := .pure _ fun _ _ _ ↦ trivial
  unfold attest
  split
  · split
    · dsimp only
      -- the root is added to the manager, and then given to gossip
      refine Holds.bind (M := fun _ ↦ Unattested height) ?_ (fun _ _ _ _ ↦ trivial) fun _ ↦ ?_
      · exact holds_silent (.modify fun _ ↦ rfl) (of_unattested height)
      · exact .modify Of.true.stable fun w hw hnew _ ↦ ⟨hw.broadcast hnew, trivial, trivial⟩
    · exact hquiet
  · exact hquiet

theorem attests_syncBlock (height : Nat) :
    Holds attestSetting (ownContract (·.broadcasts) .sync) (fun _ ↦ True)
      (syncBlock X B N env height) fun _ _ ↦ True := by
  refine (attests_fetchedHash env height).bind (fun _ _ _ _ ↦ trivial) fun b? ↦ ?_
  cases b? with
  | none => exact .pure _ fun _ _ _ ↦ trivial
  | some blockHash =>
    have hnote (w : World) (tx : ElectrsTx) (r : Except Exit (Option String)) :
        (w.note tx r).broadcasts = w.broadcasts := by
      unfold World.note
      split <;> rfl
    refine Holds.pre ?_ fun w _ h ↦ h blockHash rfl
    refine (holds_silent (keeps_syncTxs X N env ownView_broadcasts.tables hnote height 0 _)
      (of_unattested height)).bind (fun _ _ _ _ ↦ trivial) fun _ ↦ ?_
    refine (holds_silent (keeps_broadcasts_onStore _) (of_unattested height)).bind
      (fun _ _ _ _ ↦ trivial) fun stateRoot ↦ ?_
    have hsaved : Keeps (·.broadcasts) (saveSynced N env height blockHash stateRoot) :=
      (keeps_caught (keeps_broadcasts_onStore _)).bind fun _ ↦
        (keeps_caught (keeps_broadcasts_onStore _)).bind fun _ ↦ .pure _
    refine (holds_silent hsaved (of_unattested height)).bind (fun _ _ _ _ ↦ trivial) fun _ ↦ ?_
    exact attests_attest X N env height blockHash stateRoot

theorem attests_catchUp (heights : List Nat) :
    Holds attestSetting (ownContract (·.broadcasts) .sync) (fun _ ↦ True)
      (catchUp X B N env heights) fun _ _ ↦ True := by
  induction heights with
  | nil => exact .pure _ fun _ _ h ↦ h
  | cons height rest ih =>
    exact (attests_syncBlock X B N env height).bind (fun _ _ _ h ↦ h) fun _ ↦ ih

theorem attests_pass :
    Holds attestSetting (ownContract (·.broadcasts) .sync) (fun _ ↦ True) (N.pass X B env)
      fun _ _ ↦ True := by
  have hend (reorg : Bool) : Holds attestSetting (ownContract (·.broadcasts) .sync)
      (fun _ ↦ True) (pure reorg : TaskProg Bool) fun _ _ ↦ True := .pure _ fun _ _ h ↦ h
  unfold pass
  cases env.tip with
  | none => exact hend false
  | some tip =>
    refine (holds_silent (keeps_lastSynced N env) .true).bind
      (fun _ _ _ h ↦ h) fun last ↦ ?_
    refine (holds_silent (keeps_broadcasts_reorgCheck X N env last) .true).bind
      (fun _ _ _ h ↦ h) fun check ↦ ?_
    cases check with
    | noReorg =>
      exact (attests_catchUp X B N env _).bind (fun _ _ _ h ↦ h) fun _ ↦ hend false
    | reorg ancestor? =>
      cases ancestor? with
      | none => exact hend true
      | some ancestor =>
        exact (attests_catchUp X B N env _).bind (fun _ _ _ h ↦ h) fun _ ↦ hend true

theorem attest_verified :
    Verified attestSetting (ownContract (·.broadcasts)) (tasks X B N FetchesUnattested) :=
  own_verified ownView_broadcasts invOf_broadcasts (fun _ _ hw ↦ hw) fun env ↦
    attests_pass X B N env

/-! ## 3. No equivocation -/

/-- **An honest node does not equivocate** in any run in which the loop fetches no block at a height
that the node has attested. -/
theorem never_equivocates {v : L1Chain} (consensus : ConsensusManager) {w : World}
    {T : Pool World Exit Bool Task Call}
    (h : Reachable (tasks X B N FetchesUnattested) (fresh X consensus v) w T) :
    NeverEquivocates X w := by
  have hfresh : AttestedOnce (fresh X consensus v) := List.nodup_nil
  exact ((attest_verified X B N).reachable hfresh h).1.neverEquivocates

end Node

/-! ## 4. Two runs of a validator -/

/-- Of the blocks of `demoBlocks`, block 5 creates an object. -/
def demoCreatingBlocks : L1Blocks where
  parent := demoBlocks.parent
  txs b := if b = demoHash 5 then [demoCreateTx] else []

def demoValidatorNode : Node := { demoNode with validatorKey := some (demoHash 7) }

def demoPass : TaskProg Bool :=
  demoValidatorNode.pass demoCrates demoCreatingBlocks { tip := some 2 }

/-- The first pass attests block 1 and block 2. -/
def demoAttested : World :=
  demoPass.crash 15 (Node.fresh demoCrates (ConsensusManager.new 1) (demoChain 1 2))

/-- L1 has replaced block 2, and the second pass has taken `n` of its steps. -/
def demoReplaced (n : Nat) : World := demoPass.crash n { demoAttested with l1 := demoChain 1 5 }

def demoSigned (blockHash : String) (tree : SparseMerkleTree) : StateAttestation :=
  signStateRoot demoCrates (List.replicate 32 7) [] "btc" 2 blockHash
    (hexEncode tree.root.2.toList) 0

theorem demoAttested_signed :
    demoAttested.broadcasts.drop 1 = [demoSigned (demoHash 2) demoEmptyTree] := by
  set_option maxRecDepth 8000 in
  exact rfl

section

-- a rollback sorts the undo records
unseal List.mergeSort

theorem demoReplaced_created : (demoReplaced 12).store =
    { (demoReplaced 11).store with smt := smtInsert demoCrates demoEmptyTree (demoObject 2) } := by
  set_option maxRecDepth 8000 in
  exact rfl

theorem demoReplaced_signed : (demoReplaced 18).broadcasts = demoAttested.broadcasts ++
    [demoSigned (demoHash 5) (smtInsert demoCrates demoEmptyTree (demoObject 2))] := by
  have hsigned : (demoReplaced 18).broadcasts = demoAttested.broadcasts ++
      [demoSigned (demoHash 5) (demoReplaced 12).store.smt] := by
    set_option maxRecDepth 8000 in
    exact rfl
  rw [hsigned, demoReplaced_created]

end

/-- The proof that the two attestations of height 2 make. -/
def demoOwnProof : EquivocationProof where
  chain := "btc"
  blockHeight := 2
  validatorPubkey := demoValidator 7
  firstAttestation := demoSigned (demoHash 2) demoEmptyTree
  secondAttestation := demoSigned (demoHash 5) (smtInsert demoCrates demoEmptyTree (demoObject 2))
  detectedAt := 0

theorem demoOwnProof_accepted : verifyEquivocationProof demoCrates demoOwnProof = true := by
  have hsigned (blockHash : String) (tree : SparseMerkleTree) :
      verifyAttestationSig demoCrates (demoValidator 7) (demoSigned blockHash tree) = true := by
    unfold verifyAttestationSig demoSigned demoValidator signStateRoot
    simp [hexDecode_hexEncode, demoCrates]
  exact verifyEquivocationProof_iff.mpr ⟨⟨rfl, rfl⟩, ⟨rfl, rfl, rfl, rfl⟩, demoRoot_ne 2,
    hsigned _ _, hsigned _ _⟩

theorem equivocates_after_reorg :
    ¬ ∀ (w : World) (T : Pool World Exit Bool Node.Task Node.Call),
      Reachable (Node.tasks demoCrates demoCreatingBlocks demoValidatorNode fun _ _ ↦ True)
        (Node.fresh demoCrates (ConsensusManager.new 1) (demoChain 1 2)) w T →
      NeverEquivocates demoCrates w := by
  intro hclaim
  have hchain : demoBlocks.IsChain (demoChain 1 5) :=
    demoChain_isChain (by decide +kernel) (by decide +kernel)
  let w₀ := Node.fresh demoCrates (ConsensusManager.new 1) (demoChain 1 2)
  have hend : (demoPass.after 15 w₀).result? = some false := by decide +kernel
  have hend' : (demoPass.after 18 { demoAttested with l1 := demoChain 1 5 }).result? =
      some true := by
    decide +kernel
  obtain ⟨T, hreach⟩ : ∃ T, Reachable
      (Node.tasks demoCrates demoCreatingBlocks demoValidatorNode fun _ _ ↦ True) w₀
      (demoReplaced 18) T :=
    Node.reachable_reorg hchain (fun _ _ ↦ trivial) hend rfl trivial (fun _ _ ↦ trivial) hend'
  have hfirst : demoOwnProof.firstAttestation ∈ demoAttested.broadcasts := by
    apply List.mem_of_mem_drop
    rw [demoAttested_signed]
    exact List.mem_singleton_self _
  have hboth : demoOwnProof.firstAttestation ∈ (demoReplaced 18).broadcasts ∧
      demoOwnProof.secondAttestation ∈ (demoReplaced 18).broadcasts := by
    rw [demoReplaced_signed]
    exact ⟨List.mem_append_left _ hfirst, List.mem_append_right _ (List.mem_singleton.mpr rfl)⟩
  have hrejected := hclaim _ T hreach demoOwnProof hboth.1 hboth.2
  rw [demoOwnProof_accepted] at hrejected
  cases hrejected

/-- The first pass attests two heights. -/
theorem never_equivocates_pass :
    demoAttested.broadcasts.length = 2 ∧ NeverEquivocates demoCrates demoAttested := by
  let w₀ := Node.fresh demoCrates (ConsensusManager.new 1) (demoChain 1 2)
  have hinit : Reachable
      (Node.tasks demoCrates demoCreatingBlocks demoValidatorNode FetchesUnattested) w₀ w₀
      fun _ ↦ none := .init
  obtain ⟨T, hreach⟩ : ∃ T, Reachable
      (Node.tasks demoCrates demoCreatingBlocks demoValidatorNode FetchesUnattested) w₀
      demoAttested T := by
    obtain ⟨T, hreach, -⟩ := Node.reachable_pass hinit rfl { tip := some 2 } 15
      (by decide +kernel) (show _ = some false by decide +kernel)
    exact ⟨T, hreach⟩
  exact ⟨by decide +kernel,
    Node.never_equivocates demoCrates demoCreatingBlocks demoValidatorNode _ hreach⟩

end UtxoVm
