import Mathlib

/-!
# MerkleTree — the root of a list of digests, where an odd last one is hashed with itself

Two different lists may have one root: the last digest of an odd level counts twice.  They cannot
where the digests of each list are distinct, because a digest that stands twice on a level stands
twice on every level below.  The hash has to be ideal only on what is hashed for the two roots.
-/

namespace MerkleTree

variable {D β : Type} (node : D → D → D)

/-- What is hashed on one level: pairs, and an odd last digest with itself. -/
def pairs : List D → List (D × D)
  | [] => []
  | [a] => [(a, a)]
  | a :: b :: rest => (a, b) :: pairs rest

/-- The next level. -/
def level (l : List D) : List D := (pairs l).map fun p ↦ node p.1 p.2

theorem length_pairs (l : List D) : (pairs l).length = (l.length + 1) / 2 := by
  fun_induction pairs l with
  | case1 => simp
  | case2 => simp
  | case3 a b rest ih =>
    simp only [List.length_cons, ih]
    omega

theorem length_level (l : List D) : (level node l).length = (l.length + 1) / 2 :=
  (List.length_map _).trans (length_pairs l)

/-- The single digest that the levels end in. -/
def top (default : D) (l : List D) : D :=
  if l.length ≤ 1 then l.headD default else top default (level node l)
termination_by l.length
decreasing_by
  rw [length_level]
  omega

/-- All that is hashed on the way up. -/
def hashed (l : List D) : List (D × D) :=
  if l.length ≤ 1 then [] else pairs l ++ hashed (level node l)
termination_by l.length
decreasing_by
  rw [length_level]
  omega

/-- The hashes of leaves and of inner nodes are injective and never the same, on the leaves `B` and
the pairs `N`. -/
structure Ideal (leaf : β → D) (node : D → D → D) (B : Set β) (N : Set (D × D)) : Prop where
  leaf_inj : Set.InjOn leaf B
  node_inj : Set.InjOn (fun p : D × D ↦ node p.1 p.2) N
  disjoint : ∀ b ∈ B, ∀ p ∈ N, leaf b ≠ node p.1 p.2

variable {node} {l l' : List D} {a b : D} {h h' : Nat} {leaf : β → D} {B : Set β}
variable {N : Set (D × D)}

/-! ## 1. One level -/

theorem mem_of_mem_pairs (hp : (a, b) ∈ pairs l) : a ∈ l ∧ b ∈ l := by
  fun_induction pairs l with
  | case1 => cases hp
  | case2 c => simp_all
  | case3 c d rest ih =>
    rcases List.mem_cons.mp hp with heq | hp
    · cases heq
      simp
    · have hrest := ih hp
      simp [hrest]

/-- The left halves of the pairs are digests of the level, in order. -/
theorem map_fst_pairs (l : List D) : ((pairs l).map Prod.fst).Sublist l := by
  fun_induction pairs l with
  | case1 => exact List.Sublist.refl _
  | case2 c => exact List.Sublist.refl _
  | case3 c d rest ih => exact (ih.cons d).cons_cons c

theorem nodup_pairs (hl : l.Nodup) : (pairs l).Nodup :=
  ((map_fst_pairs l).nodup hl).of_map _

/-- Distinct digests can be read off the pairs: none of them is paired with itself before the
end. -/
theorem pairs_inj (hl : l.Nodup) (hl' : l'.Nodup) (heq : pairs l = pairs l') : l = l' := by
  fun_induction pairs l generalizing l' with
  | case1 =>
    rcases l' with _ | ⟨a, _ | ⟨b, rest⟩⟩
    · rfl
    · cases heq
    · cases heq
  | case2 c =>
    rcases l' with _ | ⟨a, _ | ⟨b, rest⟩⟩
    · cases heq
    · cases heq
      rfl
    · -- the last digest would stand twice
      obtain ⟨hpair, -⟩ := List.cons.inj heq
      cases hpair
      simp at hl'
  | case3 c d rest ih =>
    rcases l' with _ | ⟨a, _ | ⟨b, rest'⟩⟩
    · cases heq
    · obtain ⟨hpair, -⟩ := List.cons.inj heq
      cases hpair
      simp at hl
    · obtain ⟨hpair, hrest⟩ := List.cons.inj heq
      cases hpair
      rw [ih hl.of_cons.of_cons hl'.of_cons.of_cons hrest]

theorem map_injOn {α γ : Type} {f : α → γ} {S : Set α} (hf : Set.InjOn f S) {u v : List α}
    (hu : ∀ x ∈ u, x ∈ S) (hv : ∀ x ∈ v, x ∈ S) (heq : u.map f = v.map f) : u = v := by
  induction u generalizing v with
  | nil => exact (List.map_eq_nil_iff.mp heq.symm).symm
  | cons x u ih =>
    cases v with
    | nil => cases heq
    | cons y v =>
      rw [List.forall_mem_cons] at hu hv
      obtain ⟨hxy, hrest⟩ := List.cons.inj heq
      rw [hf hu.1 hv.1 hxy, ih hu.2 hv.2 hrest]

/-- A level of distinct digests leads to a level of distinct digests. -/
theorem nodup_level (hN : Set.InjOn (fun p : D × D ↦ node p.1 p.2) N) (hl : l.Nodup)
    (hpairs : ∀ p ∈ pairs l, p ∈ N) : (level node l).Nodup :=
  (nodup_pairs hl).map_on fun p hp q hq heq ↦ hN (hpairs p hp) (hpairs q hq) heq

theorem level_inj (hN : Set.InjOn (fun p : D × D ↦ node p.1 p.2) N) (hl : l.Nodup) (hl' : l'.Nodup)
    (hpairs : ∀ p ∈ pairs l, p ∈ N) (hpairs' : ∀ p ∈ pairs l', p ∈ N)
    (heq : level node l = level node l') : l = l' :=
  pairs_inj hl hl' (map_injOn hN hpairs hpairs' heq)

/-! ## 2. Heights -/

/-- The digest is that of a full tree of the given height. -/
inductive HasHeight (leaf : β → D) (node : D → D → D) (B : Set β) (N : Set (D × D)) :
    Nat → D → Prop
  | leaf {b : β} : b ∈ B → HasHeight leaf node B N 0 (leaf b)
  | node {h : Nat} {p : D × D} : p ∈ N → HasHeight leaf node B N h p.1 →
      HasHeight leaf node B N h p.2 → HasHeight leaf node B N (h + 1) (node p.1 p.2)

/-- A digest has one height only. -/
theorem HasHeight.unique (hideal : Ideal leaf node B N) (ha : HasHeight leaf node B N h a)
    (ha' : HasHeight leaf node B N h' a) : h = h' := by
  induction ha generalizing h' with
  | leaf hb =>
    generalize hd : leaf _ = d at ha'
    cases ha' with
    | leaf => rfl
    | node hp => exact absurd hd (hideal.disjoint _ hb _ hp)
  | @node h p hp _ _ ih =>
    generalize hd : node p.1 p.2 = d at ha'
    cases ha' with
    | leaf hb => exact absurd hd.symm (hideal.disjoint _ hb _ hp)
    | node hq hleft =>
      have hpair := hideal.node_inj hp hq hd
      rw [← hpair] at hleft
      rw [ih hleft]

/-- The digests of a level are one higher than those of the level below. -/
theorem height_level (hl : ∀ x ∈ l, HasHeight leaf node B N h x)
    (hpairs : ∀ p ∈ pairs l, p ∈ N) : ∀ x ∈ level node l, HasHeight leaf node B N (h + 1) x := by
  intro x hx
  obtain ⟨p, hp, rfl⟩ := List.mem_map.mp hx
  obtain ⟨hleft, hright⟩ := mem_of_mem_pairs hp
  exact .node (hpairs p hp) (hl _ hleft) (hl _ hright)

theorem level_ne_nil (hne : l ≠ []) : level node l ≠ [] := by
  intro hnil
  have hlen := length_level node l
  rw [hnil] at hlen
  have hpos := List.length_pos_iff.mpr hne
  simp only [List.length_nil] at hlen
  omega

variable {default : D}

/-- The top of more than one digest is higher than they are. -/
theorem height_top (default : D) (hne : l ≠ []) (hl : ∀ x ∈ l, HasHeight leaf node B N h x)
    (hhashed : ∀ p ∈ hashed node l, p ∈ N) :
    ∃ k, HasHeight leaf node B N (h + k) (top node default l) ∧ (1 < l.length ↔ 0 < k) := by
  fun_induction top node default l generalizing h with
  | case1 l hlen =>
    refine ⟨0, ?_, by omega⟩
    obtain ⟨a, rest, rfl⟩ := List.exists_cons_of_ne_nil hne
    exact hl a List.mem_cons_self
  | case2 l hlen ih =>
    rw [hashed, if_neg hlen, List.forall_mem_append] at hhashed
    obtain ⟨k, hk, -⟩ := ih (level_ne_nil hne) (height_level hl hhashed.1) hhashed.2
    refine ⟨k + 1, ?_, by omega⟩
    rwa [show h + (k + 1) = h + 1 + k by omega]

theorem top_single (a default : D) : top node default [a] = a := by
  have hlen : [a].length ≤ 1 := Nat.le_refl 1
  rw [top, if_pos hlen]
  rfl

theorem top_level (default : D) (hlen : ¬ l.length ≤ 1) :
    top node default l = top node default (level node l) := by
  conv_lhs => rw [top, if_neg hlen]

/-- The height of the root tells whether a list is a single digest. -/
theorem single_iff (hideal : Ideal leaf node B N) (hne : l ≠ []) (hne' : l' ≠ [])
    (hheight : ∀ x ∈ l, HasHeight leaf node B N h x)
    (hheight' : ∀ x ∈ l', HasHeight leaf node B N h x) (hhashed : ∀ p ∈ hashed node l, p ∈ N)
    (hhashed' : ∀ p ∈ hashed node l', p ∈ N)
    (heq : top node default l = top node default l') : 1 < l.length ↔ 1 < l'.length := by
  obtain ⟨k, hk, hlen⟩ := height_top default hne hheight hhashed
  obtain ⟨k', hk', hlen'⟩ := height_top default hne' hheight' hhashed'
  rw [heq] at hk
  have hsame := hk.unique hideal hk'
  omega

/-- **The root binds the list**, where the digests of each list are distinct. -/
theorem top_inj (hideal : Ideal leaf node B N) (hne : l ≠ []) (hne' : l' ≠ []) (hl : l.Nodup)
    (hl' : l'.Nodup) (hheight : ∀ x ∈ l, HasHeight leaf node B N h x)
    (hheight' : ∀ x ∈ l', HasHeight leaf node B N h x) (hhashed : ∀ p ∈ hashed node l, p ∈ N)
    (hhashed' : ∀ p ∈ hashed node l', p ∈ N)
    (heq : top node default l = top node default l') : l = l' := by
  induction hn : l.length using Nat.strong_induction_on generalizing h l l' with
  | h n ih =>
  have hsingle := single_iff hideal hne hne' hheight hheight' hhashed hhashed' heq
  by_cases hlen : l.length ≤ 1
  · have hlen' : l'.length ≤ 1 := by omega
    have hone : l.length = 1 := Nat.le_antisymm hlen (List.length_pos_iff.mpr hne)
    have hone' : l'.length = 1 := Nat.le_antisymm hlen' (List.length_pos_iff.mpr hne')
    obtain ⟨a, rfl⟩ := List.length_eq_one_iff.mp hone
    obtain ⟨a', rfl⟩ := List.length_eq_one_iff.mp hone'
    rw [top_single, top_single] at heq
    rw [heq]
  · have hlen' : ¬ l'.length ≤ 1 := by omega
    rw [hashed, if_neg hlen, List.forall_mem_append] at hhashed
    rw [hashed, if_neg hlen', List.forall_mem_append] at hhashed'
    rw [top_level default hlen, top_level default hlen'] at heq
    have hshorter : (level node l).length < n := by
      rw [length_level]
      omega
    apply level_inj hideal.node_inj hl hl' hhashed.1 hhashed'.1
    exact ih _ hshorter (level_ne_nil hne) (level_ne_nil hne')
      (nodup_level hideal.node_inj hl hhashed.1) (nodup_level hideal.node_inj hl' hhashed'.1)
      (height_level hheight hhashed.1) (height_level hheight' hhashed'.1) hhashed.2 hhashed'.2 heq
      rfl

end MerkleTree
