import Mathlib

/-!
# Apportion — a pool divided in proportion to weights, rounded down

Every weight has the floor of its exact share.  The floors leave a remainder that is smaller than
the number of weights, and that is zero just where every exact share is a whole number.
-/

namespace Apportion

/-- The shares of the weights, rounded down. -/
def floors (pool : Nat) (weights : List Nat) : List Nat :=
  weights.map fun w ↦ pool * w / weights.sum

def remainder (pool : Nat) (weights : List Nat) : Nat := pool - (floors pool weights).sum

variable {pool total : Nat} {weights : List Nat}

@[simp] theorem length_floors : (floors pool weights).length = weights.length := List.length_map _

/-- Division with remainder, summed over the weights. -/
theorem sum_div_mod (pool total : Nat) (weights : List Nat) :
    total * (weights.map fun w ↦ pool * w / total).sum +
      (weights.map fun w ↦ pool * w % total).sum = pool * weights.sum := by
  induction weights with
  | nil => rfl
  | cons w weights ih =>
    have hw := Nat.div_add_mod (pool * w) total
    simp only [List.map_cons, List.sum_cons, Nat.mul_add]
    omega

/-- What the floors leave, in units of a share. -/
theorem total_mul_remainder (hpos : 0 < weights.sum) :
    (floors pool weights).sum ≤ pool ∧ weights.sum * remainder pool weights =
      (weights.map fun w ↦ pool * w % weights.sum).sum := by
  have hsum : weights.sum * (floors pool weights).sum + _ = _ :=
    sum_div_mod pool weights.sum weights
  rw [Nat.mul_comm pool] at hsum
  have hle : (floors pool weights).sum ≤ pool :=
    Nat.le_of_mul_le_mul_left (by omega) hpos
  refine ⟨hle, ?_⟩
  unfold remainder
  rw [Nat.mul_sub]
  omega

/-- The floors do not exceed the pool. -/
theorem sum_floors_le (hpos : 0 < weights.sum) : (floors pool weights).sum ≤ pool :=
  (total_mul_remainder hpos).1

theorem sum_floors_add_remainder (hpos : 0 < weights.sum) :
    (floors pool weights).sum + remainder pool weights = pool :=
  Nat.add_sub_cancel' (sum_floors_le hpos)

/-- Less than one unit is lost to each weight. -/
theorem remainder_lt (hpos : 0 < weights.sum) : remainder pool weights < weights.length := by
  have hne : weights ≠ [] := by
    rintro rfl
    cases hpos
  have hlt : (weights.map fun w ↦ pool * w % weights.sum).sum <
      (weights.map fun _ ↦ weights.sum).sum := by
    apply List.sum_lt_sum_of_ne_nil hne
    intro w _
    exact Nat.mod_lt _ hpos
  rw [← (total_mul_remainder hpos).2, List.map_const', List.sum_replicate, smul_eq_mul,
    Nat.mul_comm weights.length] at hlt
  exact Nat.lt_of_mul_lt_mul_left hlt

/-- Nothing is left just where every share is a whole number. -/
theorem remainder_eq_zero_iff (hpos : 0 < weights.sum) :
    remainder pool weights = 0 ↔ ∀ w ∈ weights, weights.sum ∣ pool * w := by
  have hleft : weights.sum * remainder pool weights = _ := (total_mul_remainder hpos).2
  constructor
  · intro hzero w hw
    rw [hzero, Nat.mul_zero] at hleft
    have hmod := List.sum_eq_zero_iff.mp hleft.symm (pool * w % weights.sum)
      (List.mem_map_of_mem hw)
    exact Nat.dvd_of_mod_eq_zero hmod
  · intro hall
    have hmod : (weights.map fun w ↦ pool * w % weights.sum).sum = 0 := by
      apply List.sum_eq_zero_iff.mpr
      intro r hr
      obtain ⟨w, hw, rfl⟩ := List.mem_map.mp hr
      exact Nat.mod_eq_zero_of_dvd (hall w hw)
    rw [hmod] at hleft
    exact (Nat.mul_eq_zero.mp hleft).resolve_left hpos.ne'

/-- A sum of words that fits is the sum of their values. -/
theorem toNat_sum {l : List UInt64} (hfits : (l.map UInt64.toNat).sum < 2 ^ 64) :
    l.sum.toNat = (l.map UInt64.toNat).sum := by
  induction l with
  | nil => rfl
  | cons a l ih =>
    rw [List.map_cons, List.sum_cons] at hfits ⊢
    have htail := ih (by omega)
    rw [List.sum_cons, UInt64.toNat_add, htail, Nat.mod_eq_of_lt hfits]

end Apportion
