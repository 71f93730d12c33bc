import Mathlib

/-!
# Keyed — lists whose elements are found by a key

An element is found by the first match of its key, and replaced in place.  Where the keys are
distinct, the first match is the only one, and a replacement changes one summand of a sum.
-/

namespace Keyed

variable {α κ : Type} [DecidableEq κ] (key : α → κ)

def lookup (k : κ) (l : List α) : Option α := l.find? fun b ↦ key b = k

/-- Put `a` in the place of the first element with its key. -/
def replace (a : α) : List α → List α
  | [] => []
  | b :: l => if key b = key a then a :: l else b :: replace a l

variable {key} {k : κ} {l : List α} {a b : α}

theorem key_of_lookup (h : lookup key k l = some b) : key b = k := by
  simpa using List.find?_some h

theorem mem_of_lookup (h : lookup key k l = some b) : b ∈ l := List.mem_of_find?_eq_some h

theorem lookup_eq_none : lookup key k l = none ↔ ∀ b ∈ l, key b ≠ k := by
  unfold lookup
  simp

/-- With distinct keys every element is found. -/
theorem lookup_of_mem (hnodup : (l.map key).Nodup) (hb : b ∈ l) :
    lookup key (key b) l = some b := by
  cases h : lookup key (key b) l with
  | none => exact absurd rfl (lookup_eq_none.mp h b hb)
  | some c =>
    have hkey := key_of_lookup h
    rw [List.inj_on_of_nodup_map hnodup (mem_of_lookup h) hb hkey]

theorem lookup_append (l' : List α) :
    lookup key k (l ++ l') = (lookup key k l).or (lookup key k l') :=
  List.find?_append ..

/-! ## Replacing -/

theorem map_key_replace (a : α) (l : List α) : (replace key a l).map key = l.map key := by
  induction l with
  | nil => rfl
  | cons b l ih =>
    unfold replace
    split
    · rename_i hkey
      rw [List.map_cons, List.map_cons, hkey]
    · rw [List.map_cons, List.map_cons, ih]

theorem lookup_replace_self (h : lookup key (key a) l = some b) :
    lookup key (key a) (replace key a l) = some a := by
  induction l with
  | nil => cases h
  | cons c l ih =>
    unfold replace
    unfold lookup at ih h ⊢
    by_cases hkey : key c = key a
    · rw [if_pos hkey, List.find?_cons_of_pos (by simp)]
    · rw [List.find?_cons_of_neg (by simpa using hkey)] at h
      rw [if_neg hkey, List.find?_cons_of_neg (by simpa using hkey)]
      exact ih h

theorem lookup_replace_of_ne (hk : k ≠ key a) :
    lookup key k (replace key a l) = lookup key k l := by
  induction l with
  | nil => rfl
  | cons c l ih =>
    unfold replace
    unfold lookup at ih ⊢
    by_cases hkey : key c = key a
    · have hck : ¬ key c = k := fun h ↦ hk (h.symm.trans hkey)
      rw [if_pos hkey, List.find?_cons_of_neg (by simpa using hk.symm),
        List.find?_cons_of_neg (by simpa using hck)]
    · rw [if_neg hkey, List.find?_cons, List.find?_cons, ih]

/-- One summand changes. -/
theorem sum_replace (f : α → Nat) (h : lookup key (key a) l = some b) :
    ((replace key a l).map f).sum + f b = (l.map f).sum + f a := by
  induction l with
  | nil => cases h
  | cons c l ih =>
    unfold replace
    unfold lookup at ih h
    by_cases hkey : key c = key a
    · rw [List.find?_cons_of_pos (by simpa using hkey)] at h
      rw [if_pos hkey, ← Option.some.inj h, List.map_cons, List.map_cons, List.sum_cons,
        List.sum_cons]
      omega
    · rw [List.find?_cons_of_neg (by simpa using hkey)] at h
      have hsum := ih h
      rw [if_neg hkey, List.map_cons, List.map_cons, List.sum_cons, List.sum_cons]
      omega

@[simp] theorem length_replace (a : α) (l : List α) : (replace key a l).length = l.length := by
  have hkeys : ((replace key a l).map key).length = (l.map key).length :=
    congrArg List.length (map_key_replace a l)
  rwa [List.length_map, List.length_map] at hkeys

/-- An element that is selected was selected before, or has taken the place of one that was found:
the keys of the selected elements do not grow. -/
theorem map_key_filter_replace (p : α → Bool) (h : lookup key (key a) l = some b)
    (hp : p a = true → p b = true) :
    (((replace key a l).filter p).map key).Sublist ((l.filter p).map key) := by
  induction l with
  | nil => cases h
  | cons c l ih =>
    unfold replace
    unfold lookup at ih h
    by_cases hkey : key c = key a
    · rw [List.find?_cons_of_pos (by simpa using hkey)] at h
      cases h
      rw [if_pos hkey]
      by_cases ha : p a = true
      · rw [List.filter_cons_of_pos ha, List.filter_cons_of_pos (hp ha), List.map_cons,
          List.map_cons, hkey]
      · -- the element in whose place `a` stands may have been selected
        rw [List.filter_cons_of_neg ha]
        exact ((List.sublist_cons_self b l).filter p).map key
    · rw [List.find?_cons_of_neg (by simpa using hkey)] at h
      rw [if_neg hkey]
      by_cases hc : p c = true
      · rw [List.filter_cons_of_pos hc, List.filter_cons_of_pos hc, List.map_cons, List.map_cons]
        exact (ih h).cons_cons (key c)
      · rw [List.filter_cons_of_neg hc, List.filter_cons_of_neg hc]
        exact ih h

/-- A summand is no larger than the sum. -/
theorem le_sum_of_lookup (f : α → Nat) (h : lookup key k l = some b) : f b ≤ (l.map f).sum :=
  List.single_le_sum (fun _ _ ↦ Nat.zero_le _) _ (List.mem_map_of_mem (mem_of_lookup h))

end Keyed
