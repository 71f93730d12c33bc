import UtxoVm.CoreVm.Fixture
import UtxoVm.Reasoning.KeySort

/-!
# When the root of a fixture depends on the order

The pairs are sorted by id with a stable sort, so that pairs of one id are hashed in the order in
which they came.
-/

namespace UtxoVm

open RustStd

/-- The id and the state fit their length prefixes. -/
structure EntrySized (entry : String × Bytes) : Prop where
  objectId : (asBytes entry.1).length < 2 ^ 32
  stateData : entry.2.length < 2 ^ 32

/-- What is hashed for the lists and for their permutations. -/
def fixturePreimages (states states' : List (String × Bytes)) : Set Bytes :=
  {b | ∃ l : List (String × Bytes), (l.Perm states ∨ l.Perm states') ∧ b = fixturePreimage l}

section

variable {states states' l l' : List (String × Bytes)}

/-! ## 1. The sort -/

theorem sortById_perm_self (states : List (String × Bytes)) : (sortById states).Perm states :=
  List.mergeSort_perm states _

/-- Without ties the order does not matter. -/
theorem sortById_eq_of_perm (hperm : l.Perm l')
    (hties : ∀ e ∈ l, ∀ e' ∈ l, e.1 = e'.1 → e = e') : sortById l = sortById l' :=
  KeySort.mergeSort_eq_of_perm Prod.fst hperm hties

/-- The sort is stable: the pairs of one id stay in their order. -/
theorem filter_sortById (objectId : String) (l : List (String × Bytes)) :
    (sortById l).filter (fun e ↦ e.1 = objectId) = l.filter (fun e ↦ e.1 = objectId) :=
  KeySort.filter_mergeSort Prod.fst objectId l

/-! ## 2. The bytes -/

theorem fixtureEntry_append_inj {e e' : String × Bytes} {u v : Bytes} (he : EntrySized e)
    (he' : EntrySized e') (heq : fixtureEntry e ++ u = fixtureEntry e' ++ v) : e = e' ∧ u = v := by
  unfold fixtureEntry at heq
  rw [List.append_assoc, List.append_assoc, List.append_assoc, List.append_assoc] at heq
  obtain ⟨hid, heq⟩ := lenPrefixed_append_inj he.objectId he'.objectId heq
  obtain ⟨hlengths, heq⟩ := List.append_inj heq (by simp)
  have hlen := beBytes_inj hlengths
  rw [show 256 ^ 4 = 2 ^ 32 by norm_num, Nat.mod_eq_of_lt he.stateData,
    Nat.mod_eq_of_lt he'.stateData] at hlen
  obtain ⟨hstate, hrest⟩ := List.append_inj heq hlen
  exact ⟨Prod.ext hid hstate, hrest⟩

theorem fixtureEntry_ne_nil (e : String × Bytes) : fixtureEntry e ≠ [] := by
  intro hnil
  have hlen := congrArg List.length hnil
  simp [fixtureEntry] at hlen

/-- No boundary between entries can be shifted. -/
theorem flatMap_fixtureEntry_inj (hl : ∀ e ∈ l, EntrySized e) (hl' : ∀ e ∈ l', EntrySized e)
    (heq : l.flatMap fixtureEntry = l'.flatMap fixtureEntry) : l = l' := by
  induction l generalizing l' with
  | nil =>
    cases l' with
    | nil => rfl
    | cons e' l' =>
      rw [List.flatMap_nil, List.flatMap_cons] at heq
      exact absurd (List.append_eq_nil_iff.mp heq.symm).1 (fixtureEntry_ne_nil e')
  | cons e l ih =>
    rw [List.forall_mem_cons] at hl
    cases l' with
    | nil =>
      rw [List.flatMap_nil, List.flatMap_cons] at heq
      exact absurd (List.append_eq_nil_iff.mp heq).1 (fixtureEntry_ne_nil e)
    | cons e' l' =>
      rw [List.forall_mem_cons] at hl'
      rw [List.flatMap_cons, List.flatMap_cons] at heq
      obtain ⟨rfl, hrest⟩ := fixtureEntry_append_inj hl.1 hl'.1 heq
      rw [ih hl.2 hl'.2 hrest]

theorem fixturePreimage_inj (hl : ∀ e ∈ l, EntrySized e) (hl' : ∀ e ∈ l', EntrySized e)
    (heq : fixturePreimage l = fixturePreimage l') : sortById l = sortById l' := by
  unfold fixturePreimage at heq
  apply flatMap_fixtureEntry_inj _ _ (List.append_cancel_left heq)
  · exact fun e he ↦ hl e ((sortById_perm_self l).mem_iff.mp he)
  · exact fun e he ↦ hl' e ((sortById_perm_self l').mem_iff.mp he)

variable {X : Crates}

theorem computeFixtureStateRoot_inj {B : Set Bytes} (hideal : Set.InjOn X.sha256 B)
    (hb : fixturePreimage l ∈ B) (hb' : fixturePreimage l' ∈ B)
    (hl : ∀ e ∈ l, EntrySized e) (hl' : ∀ e ∈ l', EntrySized e)
    (heq : computeFixtureStateRoot X l = computeFixtureStateRoot X l') :
    sortById l = sortById l' := by
  unfold computeFixtureStateRoot at heq
  have hdigest := Vector.toList_inj.mp (hexEncode_injective heq)
  exact fixturePreimage_inj hl hl' (hideal hb hb' hdigest)

/-- Two different pairs of one id can stand in either order, and the sort keeps it. -/
theorem exists_perm_sortById_ne {e e' : String × Bytes} (he : e ∈ l) (he' : e' ∈ l)
    (hid : e.1 = e'.1) (hne : e ≠ e') :
    ∃ u v : List (String × Bytes), u.Perm l ∧ v.Perm l ∧ sortById u ≠ sortById v := by
  have hrest := List.perm_cons_erase he
  have hmem : e' ∈ l.erase e := (List.mem_erase_of_ne (Ne.symm hne)).mpr he'
  have hrest' := List.perm_cons_erase hmem
  have hfirst : l.Perm (e :: e' :: (l.erase e).erase e') := hrest.trans (hrest'.cons e)
  refine ⟨_, _, hfirst.symm, (hfirst.trans (.swap e' e _)).symm, fun heq ↦ hne ?_⟩
  have hfilter := congrArg (List.filter fun a ↦ decide (a.1 = e.1)) heq
  rw [filter_sortById, filter_sortById, List.filter_cons_of_pos (by simp),
    List.filter_cons_of_pos (by simpa using hid.symm),
    List.filter_cons_of_pos (by simpa using hid.symm)] at hfilter
  exact (List.cons.inj hfilter).1

end

/-- **The root is over the multiset of the pairs, but for ties.**  Where the hash is ideal on what
is hashed, different multisets have different roots, and the root of a list does not depend on its
order, exactly if no two pairs of the list have one id and different states. -/
theorem fixture_root_order_iff (X : Crates) (states states' : List (String × Bytes))
    (hsized : ∀ e ∈ states ++ states', EntrySized e)
    (hideal : Set.InjOn X.sha256 (fixturePreimages states states')) :
    ((∀ l : List (String × Bytes), l.Perm states →
        computeFixtureStateRoot X l = computeFixtureStateRoot X states) ∧
      (¬ states'.Perm states →
        computeFixtureStateRoot X states' ≠ computeFixtureStateRoot X states)) ↔
      ∀ e ∈ states, ∀ e' ∈ states, e.1 = e'.1 → e = e' := by
  rw [List.forall_mem_append] at hsized
  have hmem : ∀ l : List (String × Bytes), l.Perm states →
      fixturePreimage l ∈ fixturePreimages states states' := fun l hl ↦ ⟨l, .inl hl, rfl⟩
  have hsizedPerm : ∀ l : List (String × Bytes), l.Perm states → ∀ e ∈ l, EntrySized e :=
    fun l hl e he ↦ hsized.1 e (hl.mem_iff.mp he)
  constructor
  · intro ⟨horder, _⟩ e he e' he' hid
    by_contra hne
    obtain ⟨u, v, hu, hv, hsort⟩ := exists_perm_sortById_ne he he' hid hne
    -- both orders have the root of the list
    have hroots := (horder u hu).trans (horder v hv).symm
    exact hsort (computeFixtureStateRoot_inj hideal (hmem u hu) (hmem v hv) (hsizedPerm u hu)
      (hsizedPerm v hv) hroots)
  · intro hties
    constructor
    · intro l hl
      have hsort := sortById_eq_of_perm hl.symm hties
      unfold computeFixtureStateRoot fixturePreimage
      rw [hsort]
    · intro hperm hroots
      have hsort := computeFixtureStateRoot_inj hideal ⟨states', .inr (.refl _), rfl⟩
        (hmem states (.refl _)) hsized.2 hsized.1 hroots
      apply hperm
      have hself := sortById_perm_self states'
      rw [hsort] at hself
      exact hself.symm.trans (sortById_perm_self states)

/-- A hash that tells one message from the others. -/
def demoTellingCrates (told : Bytes) : Crates :=
  { demoCrates with
    sha256 := fun message ↦
      if message = told then Vector.replicate 32 1 else Vector.replicate 32 2 }

theorem demoTellingCrates_injOn {told other : Bytes} {B : Set Bytes}
    (hB : ∀ b ∈ B, b = told ∨ b = other) : Set.InjOn (demoTellingCrates told).sha256 B := by
  intro b hb c hc heq
  by_cases htold : b = told <;> by_cases htold' : c = told
  · rw [htold, htold']
  · exact absurd heq (by simp [demoTellingCrates, htold, htold'])
  · exact absurd heq (by simp [demoTellingCrates, htold, htold'])
  · rw [(hB b hb).resolve_left htold, (hB c hc).resolve_left htold']

/-- The root over a hash that tells the empty list from the others. -/
def demoRootOf (states : List (String × Bytes)) : String :=
  computeFixtureStateRoot (demoTellingCrates (fixturePreimage [])) states

theorem fixture_root_order_demo :
    demoRootOf [("b", [2]), ("a", [1])] = demoRootOf [("a", [1]), ("b", [2])] ∧
      demoRootOf [] ≠ demoRootOf [("a", [1]), ("b", [2])] := by
  have hties : ∀ e ∈ [("a", [1]), ("b", [2])], ∀ e' ∈ [("a", [1]), ("b", [(2 : UInt8)])],
      e.1 = e'.1 → e = e' := by decide
  have hsized : ∀ e ∈ [("a", [1]), ("b", [2])] ++ [], EntrySized e := by
    have ha : EntrySized ("a", [1]) := by constructor <;> decide
    have hb : EntrySized ("b", [2]) := by constructor <;> decide
    simp [ha, hb]
  have hpreimages : ∀ b ∈ fixturePreimages [("a", [1]), ("b", [2])] [],
      b = fixturePreimage [] ∨ b = fixturePreimage [("a", [1]), ("b", [2])] := by
    rintro b ⟨l, hl | hl, rfl⟩
    · right
      unfold fixturePreimage
      rw [sortById_eq_of_perm hl.symm hties]
    · left
      rw [hl.eq_nil]
  obtain ⟨horder, hother⟩ := (fixture_root_order_iff (demoTellingCrates (fixturePreimage []))
    [("a", [1]), ("b", [2])] [] hsized (demoTellingCrates_injOn hpreimages)).mpr hties
  exact ⟨horder _ (.swap _ _ []), hother (by simp)⟩

/-- Two pairs of one id, which only a repeated deploy makes. -/
def demoTies : List (String × Bytes) := [("a", [1]), ("a", [2])]

theorem tied_order_changes_root :
    demoTies.reverse.Perm demoTies ∧
      Set.InjOn (demoTellingCrates (fixturePreimage demoTies)).sha256
        (fixturePreimages demoTies demoTies) ∧
      computeFixtureStateRoot (demoTellingCrates (fixturePreimage demoTies)) demoTies.reverse ≠
        computeFixtureStateRoot (demoTellingCrates (fixturePreimage demoTies)) demoTies := by
  have hpreimages : ∀ b ∈ fixturePreimages demoTies demoTies,
      b = fixturePreimage demoTies ∨ b = fixturePreimage demoTies.reverse := by
    rintro b ⟨l, hl, rfl⟩
    rw [or_self] at hl
    rcases List.perm_pair.mp hl with rfl | rfl
    · exact .inl rfl
    · exact .inr rfl
  have hideal := demoTellingCrates_injOn hpreimages
  have hsized : ∀ e ∈ demoTies, EntrySized e := by
    have hfirst : EntrySized ("a", [1]) := by constructor <;> decide
    have hsecond : EntrySized ("a", [2]) := by constructor <;> decide
    simp [demoTies, hfirst, hsecond]
  have hperm : demoTies.reverse.Perm demoTies := .swap _ _ []
  refine ⟨hperm, hideal, fun heq ↦ ?_⟩
  have hsort := computeFixtureStateRoot_inj hideal ⟨_, .inl hperm, rfl⟩ ⟨_, .inl (.refl _), rfl⟩
    (fun e he ↦ hsized e (hperm.mem_iff.mp he)) hsized heq
  have hfilter := congrArg (List.filter fun e ↦ decide (e.1 = "a")) hsort
  rw [filter_sortById, filter_sortById] at hfilter
  exact absurd hfilter (by decide)

end UtxoVm
