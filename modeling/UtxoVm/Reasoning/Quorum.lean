import Mathlib

/-!
# Quorum — counting votes, and quorums that overlap

Votes are a list, with a voter and a choice read off each element.  Every voter counts once, the
choice with the most votes wins, and two sets of voters that are large enough have voters in common.
-/

namespace Quorum

variable {α κ V : Type*}

/-! ## 1. The largest element -/

section Largest

variable [LinearOrder κ] {rank : α → κ} {l l' : List α} {a : α}

/-- The largest element, the last one if there are several. -/
def maxBy (rank : α → κ) : List α → Option α
  | [] => none
  | a :: l => some (l.foldl (fun b x ↦ if rank x < rank b then b else x) a)

theorem foldl_larger (rank : α → κ) (l : List α) (a : α) :
    let w := l.foldl (fun b x ↦ if rank x < rank b then b else x) a
    w ∈ a :: l ∧ ∀ b ∈ a :: l, rank b ≤ rank w := by
  induction l generalizing a with
  | nil => simp
  | cons x l ih =>
    rw [List.foldl_cons]
    dsimp only at ih ⊢
    split
    · rename_i hlt
      have h := ih a
      refine ⟨?_, fun b hb ↦ ?_⟩
      · rcases List.mem_cons.mp h.1 with heq | hmem
        · exact List.mem_cons.mpr (.inl heq)
        · exact List.mem_cons_of_mem _ (List.mem_cons_of_mem _ hmem)
      · have ha := h.2 a List.mem_cons_self
        rcases List.mem_cons.mp hb with rfl | hb
        · exact ha
        rcases List.mem_cons.mp hb with rfl | hb
        · exact hlt.le.trans ha
        · exact h.2 b (List.mem_cons_of_mem _ hb)
    · rename_i hle
      have h := ih x
      refine ⟨List.mem_cons_of_mem _ h.1, fun b hb ↦ ?_⟩
      rcases List.mem_cons.mp hb with rfl | hb
      · exact (not_lt.mp hle).trans (h.2 x List.mem_cons_self)
      · exact h.2 b hb

theorem maxBy_eq_none : maxBy rank l = none ↔ l = [] := by
  cases l <;> simp [maxBy]

theorem maxBy_spec (h : maxBy rank l = some a) : a ∈ l ∧ ∀ b ∈ l, rank b ≤ rank a := by
  cases l with
  | nil => cases h
  | cons x l =>
    have hw : l.foldl (fun b x ↦ if rank x < rank b then b else x) x = a := Option.some.inj h
    exact hw ▸ foldl_larger rank l x

/-- With distinct ranks there is one largest element. -/
theorem maxBy_eq_some_iff (hinj : ∀ a ∈ l, ∀ b ∈ l, rank a = rank b → a = b) :
    maxBy rank l = some a ↔ a ∈ l ∧ ∀ b ∈ l, rank b ≤ rank a := by
  constructor
  · exact maxBy_spec
  · intro ⟨hmem, hmax⟩
    cases hw : maxBy rank l with
    | none =>
      rw [maxBy_eq_none.mp hw] at hmem
      cases hmem
    | some w =>
      obtain ⟨hwmem, hwmax⟩ := maxBy_spec hw
      exact congrArg some (hinj w hwmem a hmem (le_antisymm (hmax w hwmem) (hwmax a hmem)))

end Largest

/-! ## 2. The choice with the most votes -/

section Plurality

variable [LinearOrder κ] {choice : α → κ} {l l' : List α} {k k' : κ} {g : List α}

/-- The votes for `k`. -/
def votesFor (choice : α → κ) (k : κ) (l : List α) : List α := l.filter fun a ↦ choice a = k

/-- The votes by choice. -/
def groups (choice : α → κ) (l : List α) : List (κ × List α) :=
  (l.map choice).dedup.map fun k ↦ (k, votesFor choice k l)

/-- The choice with the most votes, and its votes; of several the largest one. -/
def plurality (choice : α → κ) (l : List α) : Option (κ × List α) :=
  maxBy (fun group ↦ toLex (group.2.length, group.1)) (groups choice l)

theorem mem_votesFor {a : α} : a ∈ votesFor choice k l ↔ a ∈ l ∧ choice a = k := by
  simp [votesFor]

theorem length_votesFor : (votesFor choice k l).length = (l.map choice).count k := by
  rw [votesFor, ← List.countP_eq_length_filter, List.count, List.countP_map]
  exact List.countP_congr fun a _ ↦ by simp

theorem votesFor_perm (hperm : l.Perm l') (k : κ) :
    (votesFor choice k l).Perm (votesFor choice k l') := hperm.filter _

theorem mem_groups : (k, g) ∈ groups choice l ↔ k ∈ l.map choice ∧ g = votesFor choice k l := by
  simp only [groups, List.mem_map, List.mem_dedup, Prod.mk.injEq]
  constructor
  · rintro ⟨k, hk, rfl, rfl⟩
    exact ⟨hk, rfl⟩
  · intro ⟨hk, hg⟩
    exact ⟨k, hk, rfl, hg.symm⟩

/-- Groups of one rank are the same group, whatever the order in which they are listed. -/
theorem groups_rank_inj (choice : α → κ) (l : List α) : ∀ p ∈ groups choice l,
    ∀ q ∈ groups choice l, toLex (p.2.length, p.1) = toLex (q.2.length, q.1) → p = q := by
  intro ⟨k, g⟩ hp ⟨k', g'⟩ hq heq
  have hk : k = k' := congrArg (fun r ↦ (ofLex r).2) heq
  rw [(mem_groups.mp hp).2, (mem_groups.mp hq).2, hk]

theorem plurality_eq_none : plurality choice l = none ↔ l = [] := by
  rw [plurality, maxBy_eq_none, groups, List.map_eq_nil_iff]
  cases l with
  | nil => simp
  | cons a l =>
    have hmem : choice a ∈ ((a :: l).map choice).dedup := List.mem_dedup.mpr (by simp)
    simp only [reduceCtorEq, iff_false]
    exact List.ne_nil_of_mem hmem

theorem plurality_eq_some_iff : plurality choice l = some (k, g) ↔
    k ∈ l.map choice ∧ g = votesFor choice k l ∧ ∀ k' ∈ l.map choice,
      toLex ((votesFor choice k' l).length, k') ≤ toLex (g.length, k) := by
  rw [plurality, maxBy_eq_some_iff (groups_rank_inj choice l), mem_groups, and_assoc]
  refine and_congr_right fun _ ↦ and_congr_right fun _ ↦ ?_
  constructor
  · intro h k' hk'
    exact h (k', votesFor choice k' l) (mem_groups.mpr ⟨hk', rfl⟩)
  · intro h ⟨k', g'⟩ hg'
    rw [(mem_groups.mp hg').2]
    exact h k' (mem_groups.mp hg').1

theorem length_votesFor_pos : 0 < (votesFor choice k l).length ↔ k ∈ l.map choice := by
  rw [length_votesFor, List.count_pos_iff]

/-- The winner leads over every choice, also over those that nobody has made. -/
theorem plurality_leads (h : plurality choice l = some (k, g)) (k' : κ) :
    toLex ((votesFor choice k' l).length, k') ≤ toLex (g.length, k) := by
  obtain ⟨hmem, rfl, hmax⟩ := plurality_eq_some_iff.mp h
  by_cases hk' : k' ∈ l.map choice
  · exact hmax k' hk'
  · have hnone := Nat.eq_zero_of_not_pos (mt length_votesFor_pos.mp hk')
    rw [hnone]
    exact (Prod.Lex.toLex_lt_toLex.mpr (.inl (length_votesFor_pos.mpr hmem))).le

/-- A choice with a vote that leads over every choice wins. -/
theorem plurality_of_leads (hpos : 0 < (votesFor choice k l).length)
    (hleads : ∀ k', toLex ((votesFor choice k' l).length, k') ≤
      toLex ((votesFor choice k l).length, k)) :
    plurality choice l = some (k, votesFor choice k l) :=
  plurality_eq_some_iff.mpr ⟨length_votesFor_pos.mp hpos, rfl, fun k' _ ↦ hleads k'⟩

/-- No choice has more votes than the winner. -/
theorem plurality_most (h : plurality choice l = some (k, g)) (k' : κ) :
    (votesFor choice k' l).length ≤ g.length := by
  rcases Prod.Lex.toLex_le_toLex.mp (plurality_leads h k') with hlt | ⟨heq, -⟩
  · exact hlt.le
  · exact heq.le

/-- The winner does not depend on the order of the votes, and its votes are the same. -/
theorem plurality_perm (hperm : l.Perm l') (h : plurality choice l = some (k, g)) :
    ∃ g', plurality choice l' = some (k, g') ∧ g.Perm g' := by
  obtain ⟨hmem, rfl, hmax⟩ := plurality_eq_some_iff.mp h
  have hlength (k : κ) : (votesFor choice k l').length = (votesFor choice k l).length :=
    (votesFor_perm hperm k).length_eq.symm
  refine ⟨votesFor choice k l', plurality_eq_some_iff.mpr ⟨?_, rfl, ?_⟩, votesFor_perm hperm k⟩
  · exact (hperm.map choice).mem_iff.mp hmem
  · intro k' hk'
    rw [hlength, hlength]
    exact hmax k' ((hperm.map choice).mem_iff.mpr hk')

/-- Votes for different choices are different votes. -/
theorem votesFor_add_le (hne : k ≠ k') (l : List α) :
    (votesFor choice k l).length + (votesFor choice k' l).length ≤ l.length := by
  induction l with
  | nil => simp [votesFor]
  | cons a l ih =>
    simp only [votesFor, List.filter_cons, decide_eq_true_eq] at ih ⊢
    by_cases hk : choice a = k
    · rw [if_pos hk, if_neg (fun hk' ↦ hne (hk.symm.trans hk'))]
      simp only [List.length_cons]
      omega
    · rw [if_neg hk]
      split <;> simp only [List.length_cons] <;> omega

end Plurality

/-! ## 3. One vote for each voter -/

section Voters

variable [DecidableEq V] {passes : α → Bool} {voter : α → V} {seen : List V} {l : List α}
  {members : Finset V}

/-- The votes that count: of those that pass the check the first of each voter. -/
def firstVotes (passes : α → Bool) (voter : α → V) : List V → List α → List α
  | _, [] => []
  | seen, a :: l =>
      if passes a ∧ voter a ∉ seen then a :: firstVotes passes voter (voter a :: seen) l
      else firstVotes passes voter seen l

theorem mem_firstVotes {a : α} (h : a ∈ firstVotes passes voter seen l) :
    a ∈ l ∧ passes a ∧ voter a ∉ seen := by
  induction l generalizing seen with
  | nil => cases h
  | cons x l ih =>
    unfold firstVotes at h
    split at h
    · rename_i hx
      rcases List.mem_cons.mp h with rfl | h
      · exact ⟨List.mem_cons_self, hx⟩
      · obtain ⟨hmem, hpasses, hseen⟩ := ih h
        exact ⟨List.mem_cons_of_mem _ hmem, hpasses, fun hs ↦ hseen (List.mem_cons_of_mem _ hs)⟩
    · obtain ⟨hmem, hrest⟩ := ih h
      exact ⟨List.mem_cons_of_mem _ hmem, hrest⟩

theorem firstVotes_nodup : ((firstVotes passes voter seen l).map voter).Nodup := by
  induction l generalizing seen with
  | nil => simp [firstVotes]
  | cons x l ih =>
    unfold firstVotes
    split
    · rw [List.map_cons, List.nodup_cons]
      refine ⟨fun hmem ↦ ?_, ih⟩
      obtain ⟨a, ha, heq⟩ := List.mem_map.mp hmem
      exact (mem_firstVotes ha).2.2 (heq ▸ List.mem_cons_self)
    · exact ih

/-- Every voter with a vote that passes has one that counts. -/
theorem exists_firstVote {a : α} (hmem : a ∈ l) (hpasses : passes a) (hseen : voter a ∉ seen) :
    ∃ b ∈ firstVotes passes voter seen l, voter b = voter a := by
  induction l generalizing seen with
  | nil => cases hmem
  | cons x l ih =>
    unfold firstVotes
    by_cases hsame : voter x = voter a ∧ passes x
    · rw [if_pos ⟨hsame.2, hsame.1 ▸ hseen⟩]
      exact ⟨x, List.mem_cons_self, hsame.1⟩
    · have hrest : a ∈ l := by
        rcases List.mem_cons.mp hmem with rfl | h
        · exact absurd ⟨rfl, hpasses⟩ hsame
        · exact h
      split
      · rename_i hx
        by_cases hvoter : voter a = voter x
        · exact absurd ⟨hvoter.symm, hx.1⟩ hsame
        · obtain ⟨b, hb, heq⟩ := ih hrest (by simp [hvoter, hseen] : voter a ∉ voter x :: seen)
          exact ⟨b, List.mem_cons_of_mem _ hb, heq⟩
      · exact ih hrest hseen

/-- Votes of different members are no more than the members. -/
theorem length_le_card (hnodup : (l.map voter).Nodup) (hmem : ∀ a ∈ l, voter a ∈ members) :
    l.length ≤ members.card := by
  have hsubset : (l.map voter).toFinset ⊆ members := by
    intro v hv
    obtain ⟨a, ha, rfl⟩ := List.mem_map.mp (List.mem_toFinset.mp hv)
    exact hmem a ha
  calc
    l.length = (l.map voter).toFinset.card := by
      rw [List.toFinset_card_of_nodup hnodup, List.length_map]
    _ ≤ members.card := Finset.card_le_card hsubset

/-- Members that all vote are no more than the votes that count. -/
theorem card_le_firstVotes (h : ∀ v ∈ members, ∃ a ∈ l, passes a ∧ voter a = v) :
    members.card ≤ (firstVotes passes voter [] l).length := by
  have hsubset : members ⊆ ((firstVotes passes voter [] l).map voter).toFinset := by
    intro v hv
    obtain ⟨a, hmem, hpasses, rfl⟩ := h v hv
    obtain ⟨b, hb, heq⟩ := exists_firstVote hmem hpasses (List.not_mem_nil (a := voter a))
    exact List.mem_toFinset.mpr (List.mem_map.mpr ⟨b, hb, heq⟩)
  calc
    members.card ≤ ((firstVotes passes voter [] l).map voter).toFinset.card :=
      Finset.card_le_card hsubset
    _ ≤ (firstVotes passes voter [] l).length := by
      simpa using List.toFinset_card_le ((firstVotes passes voter [] l).map voter)

/-- Two sets of members have in common what they have together beyond the number of members. -/
theorem card_overlap {a b : Finset V} (ha : a ⊆ members) (hb : b ⊆ members) :
    a.card + b.card ≤ members.card + (a ∩ b).card := by
  rw [← Finset.card_union_add_card_inter]
  have hunion := Finset.card_le_card (Finset.union_subset ha hb)
  omega

end Voters

end Quorum
