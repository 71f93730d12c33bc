import Mathlib

/-!
# Checked — machine-level code that can fault

Code whose indices, slices and additions are checked, and whose loops run on fuel.  A run that
returns has taken no index out of range, has overflowed nowhere, and all its loops have ended.
-/

namespace Checked

inductive Fault where
  | outOfRange
  | overflow
  /-- A loop that is still going on. -/
  | outOfFuel
  deriving DecidableEq, Repr

abbrev Run (α : Type*) := Except Fault α

variable {α β σ : Type} {limit : Nat}

/-- `a + b` on integers below `limit`. -/
def add (limit a b : Nat) : Run Nat := if a + b < limit then .ok (a + b) else .error .overflow

/-- `xs[i]`. -/
def index (xs : List α) (i : Nat) : Run α :=
  match xs[i]? with
  | some a => .ok a
  | none => .error .outOfRange

/-- `&xs[start..stop]`. -/
def slice (xs : List α) (start stop : Nat) : Run (List α) :=
  if start ≤ stop ∧ stop ≤ xs.length then .ok ((xs.take stop).drop start)
  else .error .outOfRange

/-- A loop: every iteration ends with a new state, or with the result. -/
def loop (step : σ → Run (σ ⊕ α)) : Nat → σ → Run α
  | 0, _ => .error .outOfFuel
  | fuel + 1, s => do
      match ← step s with
      | .inl s' => loop step fuel s'
      | .inr a => pure a

/-! ## 1. Runs that return -/

/-- The run returns, and its result meets `Q`. -/
def Returns {ε : Type} (x : Except ε α) (Q : α → Prop) : Prop := ∃ a, x = .ok a ∧ Q a

section Rules

variable {ε : Type} {x : Except ε α} {f : α → Except ε β} {P Q : α → Prop}

theorem Returns.imp (h : Returns x P) (himp : ∀ a, P a → Q a) : Returns x Q := by
  obtain ⟨a, ha, hP⟩ := h
  exact ⟨a, ha, himp a hP⟩

@[simp] theorem returns_ok {a : α} : Returns (.ok a : Except ε α) Q ↔ Q a := by
  constructor
  · rintro ⟨_, ha, hQ⟩
    cases ha
    exact hQ
  · exact fun hQ ↦ ⟨a, rfl, hQ⟩

@[simp] theorem returns_pure {a : α} : Returns (pure a : Except ε α) Q ↔ Q a := returns_ok

@[simp] theorem returns_bind {R : β → Prop} :
    Returns (x >>= f) R ↔ Returns x fun a ↦ Returns (f a) R := by
  cases x with
  | ok a => exact (returns_ok (Q := fun a ↦ Returns (f a) R)).symm
  | error e =>
    constructor
    · rintro ⟨_, h, _⟩
      cases h
    · rintro ⟨_, h, _⟩
      cases h

end Rules

@[simp] theorem returns_add {a b : Nat} {Q : Nat → Prop} :
    Returns (add limit a b) Q ↔ a + b < limit ∧ Q (a + b) := by
  unfold add
  split
  · rename_i hlt
    rw [returns_ok]
    exact (and_iff_right hlt).symm
  · rename_i hge
    constructor
    · rintro ⟨_, h, _⟩
      cases h
    · exact fun h ↦ absurd h.1 hge

theorem returns_index {xs : List α} {i : Nat} {Q : α → Prop} (hi : i < xs.length)
    (hQ : ∀ a, xs[i]? = some a → Q a) : Returns (index xs i) Q := by
  unfold index
  rw [List.getElem?_eq_getElem hi]
  exact returns_ok.mpr (hQ _ (List.getElem?_eq_getElem hi))

theorem returns_slice {xs : List α} {start stop : Nat} {Q : List α → Prop} (hle : start ≤ stop)
    (hstop : stop ≤ xs.length) (hQ : Q ((xs.take stop).drop start)) :
    Returns (slice xs start stop) Q := by
  unfold slice
  rw [if_pos ⟨hle, hstop⟩]
  exact returns_ok.mpr hQ

/-- **A loop ends** when every iteration keeps the invariant and lowers the measure. -/
theorem Returns.loop {step : σ → Run (σ ⊕ α)} {I : σ → Prop} {μ : σ → Nat} {Q : α → Prop}
    (hstep : ∀ s, I s → Returns (step s) (Sum.elim (fun s' ↦ I s' ∧ μ s' < μ s) Q)) {fuel : Nat}
    {s : σ} (hs : I s) (hfuel : μ s < fuel) : Returns (loop step fuel s) Q := by
  induction fuel generalizing s with
  | zero => exact absurd hfuel (Nat.not_lt_zero _)
  | succ fuel ih =>
    unfold Checked.loop
    rw [returns_bind]
    refine (hstep s hs).imp fun r hr ↦ ?_
    cases r with
    | inl s' => exact ih hr.1 (by have hlt := hr.2; omega)
    | inr a => exact returns_pure.mpr hr

/-! ## 2. Checked and plain code -/

/-- What the checked code `x` returns is what the plain code `y` returns. -/
def Refines {ε : Type} (x : Run α) (y : Except ε α) : Prop := ∀ a, x = .ok a → y = .ok a

section Refinement

variable {ε : Type} {x : Run α} {y : Except ε α} {f : α → Run β} {g : α → Except ε β}

theorem Refines.ok (a : α) : Refines (.ok a) (.ok a : Except ε α) := by
  intro b h
  cases h
  rfl

theorem Refines.pure (a : α) : Refines (pure a) (pure a : Except ε α) := .ok a

theorem Refines.fault (e : Fault) : Refines (.error e) y := by
  intro a h
  cases h

theorem Refines.bind (h : Refines x y) (hnext : ∀ a, Refines (f a) (g a)) :
    Refines (x >>= f) (y >>= g) := by
  intro b hb
  cases x with
  | error e => cases hb
  | ok a =>
    rw [h a rfl]
    exact hnext a b hb

/-- A checked step that the plain code has no counterpart for. -/
theorem Refines.silent {z : Except ε β} (hnext : ∀ a, x = .ok a → Refines (f a) z) :
    Refines (x >>= f) z := by
  intro b hb
  cases x with
  | error e => cases hb
  | ok a => exact hnext a rfl b hb

theorem Refines.ite {c : Prop} [Decidable c] {x' : Run α} {y' : Except ε α} (h : Refines x y)
    (h' : Refines x' y') : Refines (if c then x else x') (if c then y else y') := by
  split
  · exact h
  · exact h'

theorem Refines.ite_bind {c : Prop} [Decidable c] {x' : Run α} {y y' : Except ε β}
    (h : Refines (x >>= f) y) (h' : Refines (x' >>= f) y') :
    Refines ((if c then x else x') >>= f) (if c then y else y') := by
  split
  · exact h
  · exact h'

theorem Refines.assoc {γ : Type} {h : β → Run γ} {z : Except ε γ}
    (hz : Refines (x >>= fun a ↦ f a >>= h) z) : Refines ((x >>= f) >>= h) z := by
  rwa [bind_assoc]

theorem Refines.add {a b : Nat} {f : Nat → Run β} {z : Except ε β}
    (hnext : Refines (f (a + b)) z) : Refines (add limit a b >>= f) z := by
  refine .silent fun n hn ↦ ?_
  unfold Checked.add at hn
  split at hn
  · cases hn
    exact hnext
  · cases hn

end Refinement

end Checked
