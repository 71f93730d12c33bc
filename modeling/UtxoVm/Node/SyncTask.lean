import UtxoVm.Node.TaskFrames

/-!
# What the sync task alone writes

The other tasks write the objects, the consensus manager and the chain of L1.  An observation of
none of these changes in the sync task alone, and an invariant of it need only be shown for the
passes, as if they ran alone.
-/

namespace UtxoVm

open RustStd StateStore Prog Interleaving

namespace Node

variable {γ α : Type}

/-- Only the sync task changes what `f` observes. -/
structure OwnView (f : World → γ) : Prop where
  tables : SeesTables f
  consensus : ∀ w consensus, f { w with consensus } = f w
  l1 : ∀ w v, f { w with l1 := v } = f w

def ownContract (f : World → γ) : Task → Contract World
  | .sync => { rely := fun w w' ↦ f w' = f w, guar := fun _ _ ↦ True }
  | _ => { rely := fun _ _ ↦ True, guar := fun w w' ↦ f w' = f w }

/-- An action that is performed and does not change the observation keeps the invariant. -/
def InvOf (V : Setting World) (f : World → γ) : Prop :=
  ∀ w w', f w' = f w → V.allowed w w' → V.inv w → V.inv w'

/-- The assertion speaks of the observation. -/
def Of (f : World → γ) (P : World → Prop) : Prop := ∀ w w', f w' = f w → P w → P w'

variable {f : World → γ} {V : Setting World} {P Q : World → Prop}

theorem Of.true : Of f fun _ ↦ True := fun _ _ _ _ ↦ trivial

theorem Of.stable (hP : Of f P) : Stable V (ownContract f .sync) P :=
  fun w w' _ _ hrely ↦ hP w w' hrely

/-- Code of a pass that does not change the observation. -/
theorem holds_own (hinv : InvOf V f) {p : TaskProg α} (hp : Keeps f p) (hP : Of f P) :
    Holds V (ownContract f .sync) P p fun _ ↦ P := by
  refine .keeps_allowed hp hP.stable fun w w' hview hw hPw hallowed ↦ ?_
  exact ⟨hinv w w' hview hallowed hw, trivial, hP w w' hview hPw⟩

/-- An error that becomes a value. -/
theorem holds_caught {C : Contract World} {p : TaskProg α} (hp : Holds V C P p fun _ ↦ Q) :
    Holds V C P (caught p) fun _ ↦ Q := by
  refine (Holds.attempt (Q := fun _ ↦ Q) hp).bind (fun _ _ _ h ↦ h) fun r ↦ ?_
  rcases r with (e | _) | a
  · exact fun _ _ h ↦ h
  · exact fun _ _ h ↦ h
  · exact fun _ _ h ↦ h

theorem ownContract_guar {i : Task} (hi : i ≠ .sync) {w w' : World} (hview : f w' = f w) :
    (ownContract f i).guar w w' := by
  cases i with
  | sync => exact absurd rfl hi
  | mempool => exact hview
  | listener => exact hview
  | l1 => exact hview

theorem stable_ownTrue (i : Task) : Stable V (ownContract f i) fun _ ↦ True :=
  fun _ _ _ _ _ _ ↦ trivial

/-- Code of another task. -/
theorem holds_others (hinv : InvOf V f) {i : Task} (hi : i ≠ .sync) {p : TaskProg α}
    (hp : Keeps f p) :
    Holds V (ownContract f i) (fun _ ↦ True) p fun _ _ ↦ True := by
  refine .keeps_allowed hp (stable_ownTrue i) fun w w' hview hw _ hallowed ↦ ?_
  exact ⟨hinv w w' hview hallowed hw, ownContract_guar hi hview, trivial⟩

variable {X : Crates} {B : L1Blocks} {N : Node}

/-- **The passes are enough.**  An invariant of what the sync task alone writes is one of the whole
node. -/
theorem own_verified (hf : OwnView f) (hinv : InvOf V f)
    (hrestart : ∀ w consensus, V.inv w →
      V.inv { w with store := StateStore.open X w.store, consensus })
    (hpass : ∀ env, Holds V (ownContract f .sync) (fun _ ↦ True) (N.pass X B env)
      fun _ _ ↦ True) :
    Verified V (ownContract f) (tasks X B N V.allowed) where
  start w T i call _ hstart := by
    obtain ⟨rfl, -⟩ := hstart
    refine ⟨fun _ ↦ True, fun _ _ ↦ True, stable_ownTrue _, trivial, ?_⟩
    cases call with
    | pass env => exact hpass env
    | mempoolTx writes now tx =>
      have hprocess := keeps_caught (keeps_onStore hf.tables
        (N.processor.keeps_processTx X writes now tx 0))
      exact holds_others (i := .mempool) hinv nofun (hprocess.bind fun _ ↦ .pure _)
    | listen attestation now =>
      refine holds_others (i := .listener) hinv nofun (Keeps.bind ?_ fun _ ↦ .pure _)
      exact .modify fun w ↦ hf.consensus w _
    | replaceChain v =>
      refine holds_others (i := .l1) hinv nofun (Keeps.bind ?_ fun _ ↦ .pure _)
      exact .modify fun w ↦ hf.l1 w v
  compatible i j w w' hij hguar := by
    cases i with
    | sync =>
      cases j with
      | sync => exact absurd rfl hij
      | mempool => exact hguar
      | listener => exact hguar
      | l1 => exact hguar
    | mempool => trivial
    | listener => trivial
    | l1 => trivial
  allowed w T i call upd next hcan hi := hcan call upd next hi
  restart w w' hw hrestarted := by
    obtain ⟨consensus, rfl⟩ := hrestarted
    exact hrestart w consensus hw

end Node

end UtxoVm
