import Mathlib

/-!
# KeySort — lists sorted by a key

A stable sort by a key.  Where no two elements share a key, the sorted list is determined by the
elements: it does not depend on the order in which they were given.
-/

namespace KeySort

variable {α κ : Type} [LinearOrder κ] (key : α → κ) {l l' : List α}

theorem le_trans_key (a b c : α) (hab : decide (key a ≤ key b) = true)
    (hbc : decide (key b ≤ key c) = true) : decide (key a ≤ key c) = true := by
  rw [decide_eq_true_eq] at hab hbc ⊢
  exact hab.trans hbc

theorem le_total_key (a b : α) :
    (decide (key a ≤ key b) || decide (key b ≤ key a)) = true := by
  rw [Bool.or_eq_true, decide_eq_true_eq, decide_eq_true_eq]
  exact le_total (key a) (key b)

/-- The sorted list ascends in the key. -/
theorem pairwise_mergeSort (l : List α) :
    (l.mergeSort fun a b ↦ decide (key a ≤ key b)).Pairwise fun a b ↦ key a ≤ key b := by
  have hsorted := List.pairwise_mergeSort (le_trans_key key) (le_total_key key) l
  exact hsorted.imp fun hle ↦ of_decide_eq_true hle

/-- Elements without ties have one order in which their keys ascend. -/
theorem eq_of_perm (hperm : l.Perm l') (hties : ∀ a ∈ l, ∀ b ∈ l, key a = key b → a = b)
    (hsorted : l.Pairwise fun a b ↦ key a ≤ key b)
    (hsorted' : l'.Pairwise fun a b ↦ key a ≤ key b) : l = l' := by
  refine List.Perm.eq_of_pairwise ?_ hsorted hsorted' hperm
  intro a b ha hb hab hba
  exact hties a ha b (hperm.mem_iff.mpr hb) (le_antisymm hab hba)

/-- **The order does not matter** to the sort where there are no ties. -/
theorem mergeSort_eq_of_perm (hperm : l.Perm l')
    (hties : ∀ a ∈ l, ∀ b ∈ l, key a = key b → a = b) :
    (l.mergeSort fun a b ↦ decide (key a ≤ key b)) =
      l'.mergeSort fun a b ↦ decide (key a ≤ key b) := by
  apply eq_of_perm key
  · exact (List.mergeSort_perm l _).trans (hperm.trans (List.mergeSort_perm l' _).symm)
  · intro a ha b hb
    exact hties a (List.mem_mergeSort.mp ha) b (List.mem_mergeSort.mp hb)
  · exact pairwise_mergeSort key l
  · exact pairwise_mergeSort key l'

/-- The sort is stable: the elements of one key stay in their order. -/
theorem filter_mergeSort (k : κ) (l : List α) :
    (l.mergeSort fun a b ↦ decide (key a ≤ key b)).filter (fun a ↦ key a = k) =
      l.filter fun a ↦ key a = k := by
  have hties : (l.filter fun a ↦ key a = k).Pairwise
      fun a b ↦ decide (key a ≤ key b) = true := by
    apply List.pairwise_of_forall_mem_list
    intro a ha b hb
    have hka := of_decide_eq_true (List.mem_filter.mp ha).2
    have hkb := of_decide_eq_true (List.mem_filter.mp hb).2
    rw [hka, hkb]
    exact decide_eq_true (le_refl k)
  have hsub := List.sublist_mergeSort (le_trans_key key) (le_total_key key) hties
    List.filter_sublist
  have hfiltered := hsub.filter fun a ↦ decide (key a = k)
  simp only [List.filter_filter, Bool.and_self] at hfiltered
  -- nothing of that key is lost, so the sublist is all of it
  exact (hfiltered.eq_of_length ((List.mergeSort_perm l _).filter _).length_eq.symm).symm

end KeySort
