import Mathlib

/-!
# HashChain — chains of digests

A chain hashes an input, makes the next input from the digest, and so on, as a Merkle path does.
Chains that end in one digest have a step where their digests agree, and if they start apart and no
step joins them, the inputs of such a step collide.
-/

namespace HashChain

variable {ι δ : Type*} {digest : ι → δ} {steps steps' : List (δ → ι)} {x x' : ι}

/-- The inputs of a chain, from its first one on. -/
def inputs (digest : ι → δ) : List (δ → ι) → ι → List ι
  | [], x => [x]
  | step :: steps, x => x :: inputs digest steps (step (digest x))

/-- The last digest of a chain. -/
def result (digest : ι → δ) : List (δ → ι) → ι → δ
  | [], x => digest x
  | step :: steps, x => result digest steps (step (digest x))

/-- Once two digests agree, the rest of the chain is the same. -/
theorem result_eq_iff : result digest steps x = result digest steps x' ↔
    ∃ p ∈ (inputs digest steps x).zip (inputs digest steps x'), digest p.1 = digest p.2 := by
  induction steps generalizing x x' with
  | nil => simp [result, inputs]
  | cons step steps ih =>
    simp only [result, inputs, List.zip_cons_cons, List.exists_mem_cons_iff]
    rw [ih]
    constructor
    · exact .inr
    · rintro (heq | hrest)
      · rw [← ih, heq]
      · exact hrest

/-- Chains that start apart and end in one digest collide, unless a step makes one input from two
digests. -/
theorem exists_collision
    (hsteps : List.Forall₂ (fun step step' ↦ ∀ d d', step d = step' d' → d = d') steps steps')
    (hne : x ≠ x') (h : result digest steps x = result digest steps' x') :
    ∃ p ∈ (inputs digest steps x).zip (inputs digest steps' x'),
      p.1 ≠ p.2 ∧ digest p.1 = digest p.2 := by
  induction hsteps generalizing x x' with
  | nil => exact ⟨(x, x'), by simp [inputs], hne, h⟩
  | @cons step step' _ _ hstep _ ih =>
    simp only [inputs, List.zip_cons_cons, List.exists_mem_cons_iff]
    by_cases hdigest : digest x = digest x'
    · exact .inl ⟨hne, hdigest⟩
    · exact .inr (ih (fun heq ↦ hdigest (hstep _ _ heq)) h)

end HashChain
