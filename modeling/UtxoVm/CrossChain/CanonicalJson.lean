import UtxoVm.CrossChain.Verifier
import UtxoVm.Reasoning.KeySort

/-!
# Canonical JSON (`canonicalize_json_value` on maps that keep the order of insertion)

With `preserve_order` the members of an object stand in the order in which they were inserted.  The
canonical form sorts them at every depth; two values have one canonical form exactly if they differ
in the order of members alone.
-/

namespace UtxoVm

namespace Json

/-! ## 1. The algorithm -/

/-- `Map::insert`: a key keeps its place, and a new key comes last. -/
def insertMember (key : String) (v : Json) : List (String × Json) → List (String × Json)
  | [] => [(key, v)]
  | (k, w) :: rest => if k = key then (k, v) :: rest else (k, w) :: insertMember key v rest

/-- The members, sorted by key, and inserted into a new map. -/
def sortMembers (members : List (String × Json)) : List (String × Json) :=
  (members.mergeSort fun a b ↦ decide (a.1 ≤ b.1)).foldl (fun obj m ↦ insertMember m.1 m.2 obj) []

mutual

def canonicalizeJsonValue : Json → Json
  | .object map => .object (sortMembers (canonicalizeMembers map))
  | .array arr => .array (canonicalizeElements arr)
  | other => other

def canonicalizeElements : List Json → List Json
  | [] => []
  | x :: xs => canonicalizeJsonValue x :: canonicalizeElements xs

def canonicalizeMembers : List (String × Json) → List (String × Json)
  | [] => []
  | (k, x) :: xs => (k, canonicalizeJsonValue x) :: canonicalizeMembers xs

end

mutual

/-- No object, at any depth, has two members with one key. -/
def DistinctKeys : Json → Prop
  | .object fields => (fields.map (·.1)).Nodup ∧ DistinctMembers fields
  | .array xs => DistinctElements xs
  | _ => True

def DistinctElements : List Json → Prop
  | [] => True
  | x :: xs => x.DistinctKeys ∧ DistinctElements xs

def DistinctMembers : List (String × Json) → Prop
  | [] => True
  | (_, x) :: xs => x.DistinctKeys ∧ DistinctMembers xs

end

/-- Equal up to the order of members: one reordering after the other, of some object at some
depth. -/
inductive Reordered : Json → Json → Prop
  | refl (v : Json) : Reordered v v
  | trans {u v w : Json} : Reordered u v → Reordered v w → Reordered u w
  | members {fields fields' : List (String × Json)} : fields.Perm fields' →
      Reordered (.object fields) (.object fields')
  | inArray {x y : Json} (before after : List Json) : Reordered x y →
      Reordered (.array (before ++ x :: after)) (.array (before ++ y :: after))
  | inObject {x y : Json} (key : String) (before after : List (String × Json)) : Reordered x y →
      Reordered (.object (before ++ (key, x) :: after)) (.object (before ++ (key, y) :: after))

variable {a b v : Json} {fields fields' : List (String × Json)} {xs : List Json} {key : String}

/-! ## 2. The definitions on lists -/

/-- Induction over a value, with the hypothesis for all elements and all members. -/
theorem induction_on {motive : Json → Prop} (v : Json)
    (hleaf : ∀ v, (∀ xs, v ≠ .array xs) → (∀ fields, v ≠ .object fields) → motive v)
    (harray : ∀ xs, (∀ x ∈ xs, motive x) → motive (.array xs))
    (hobject : ∀ fields : List (String × Json), (∀ m ∈ fields, motive m.2) →
      motive (.object fields)) : motive v := by
  refine @Json.rec motive (fun xs ↦ ∀ x ∈ xs, motive x) (fun fields ↦ ∀ m ∈ fields, motive m.2)
    (fun m ↦ motive m.2) ?_ ?_ ?_ ?_ harray hobject ?_ ?_ ?_ ?_ ?_ v
  · exact hleaf _ (by simp) (by simp)
  · exact fun b ↦ hleaf _ (by simp) (by simp)
  · exact fun n ↦ hleaf _ (by simp) (by simp)
  · exact fun s ↦ hleaf _ (by simp) (by simp)
  · simp
  · exact fun x xs hx hxs ↦ List.forall_mem_cons.mpr ⟨hx, hxs⟩
  · simp
  · exact fun m fields hm hfields ↦ List.forall_mem_cons.mpr ⟨hm, hfields⟩
  · exact fun k v hv ↦ hv

theorem canonicalizeElements_eq (xs : List Json) :
    canonicalizeElements xs = xs.map canonicalizeJsonValue := by
  induction xs with
  | nil => rfl
  | cons x xs ih =>
    unfold canonicalizeElements
    rw [ih, List.map_cons]

theorem canonicalizeMembers_eq (fields : List (String × Json)) :
    canonicalizeMembers fields = fields.map fun m ↦ (m.1, canonicalizeJsonValue m.2) := by
  induction fields with
  | nil => rfl
  | cons m fields ih =>
    unfold canonicalizeMembers
    rw [ih, List.map_cons]

theorem distinctElements_iff : DistinctElements xs ↔ ∀ x ∈ xs, x.DistinctKeys := by
  induction xs with
  | nil => simp [DistinctElements]
  | cons x xs ih =>
    unfold DistinctElements
    rw [ih, List.forall_mem_cons]

theorem distinctMembers_iff :
    DistinctMembers fields ↔ ∀ m ∈ fields, m.2.DistinctKeys := by
  induction fields with
  | nil => simp [DistinctMembers]
  | cons m fields ih =>
    unfold DistinctMembers
    rw [ih, List.forall_mem_cons]

theorem distinctKeys_array : (Json.array xs).DistinctKeys ↔ ∀ x ∈ xs, x.DistinctKeys :=
  distinctElements_iff

theorem distinctKeys_object : (Json.object fields).DistinctKeys ↔
    (fields.map (·.1)).Nodup ∧ ∀ m ∈ fields, m.2.DistinctKeys :=
  and_congr_right fun _ ↦ distinctMembers_iff

/-- Canonical members keep their keys. -/
theorem map_fst_canonicalizeMembers (fields : List (String × Json)) :
    (canonicalizeMembers fields).map (·.1) = fields.map (·.1) := by
  rw [canonicalizeMembers_eq, List.map_map]
  rfl

/-! ## 3. Sorted members -/

theorem insertMember_new (hnew : key ∉ fields.map (·.1)) (v : Json) :
    insertMember key v fields = fields ++ [(key, v)] := by
  induction fields with
  | nil => rfl
  | cons m fields ih =>
    obtain ⟨hne, hrest⟩ := not_or.mp (mt List.mem_cons.mpr hnew)
    unfold insertMember
    rw [if_neg (Ne.symm hne), ih hrest, List.cons_append]

/-- Members with distinct keys are inserted one after the other. -/
theorem foldl_insertMember (inserted : List (String × Json))
    (hdistinct : ((inserted ++ fields).map (·.1)).Nodup) :
    fields.foldl (fun obj m ↦ insertMember m.1 m.2 obj) inserted = inserted ++ fields := by
  induction fields generalizing inserted with
  | nil => rw [List.foldl_nil, List.append_nil]
  | cons m fields ih =>
    have hnew : m.1 ∉ inserted.map (·.1) := by
      rw [List.map_append, List.nodup_append] at hdistinct
      intro hmem
      exact hdistinct.2.2 m.1 hmem m.1 List.mem_cons_self rfl
    have hnext : inserted ++ m :: fields = inserted ++ [m] ++ fields := by simp
    rw [List.foldl_cons, insertMember_new hnew, hnext]
    rw [hnext] at hdistinct
    exact ih (inserted ++ [m]) hdistinct

theorem sortMembers_eq (hdistinct : (fields.map (·.1)).Nodup) :
    sortMembers fields = fields.mergeSort fun a b ↦ decide (a.1 ≤ b.1) := by
  have hsorted : ((fields.mergeSort fun a b ↦ decide (a.1 ≤ b.1)).map (·.1)).Nodup :=
    ((List.mergeSort_perm fields _).map _).nodup_iff.mpr hdistinct
  exact foldl_insertMember [] hsorted

/-- Members with distinct keys do not tie. -/
theorem members_ties (hdistinct : (fields.map (·.1)).Nodup) :
    ∀ m ∈ fields, ∀ m' ∈ fields, m.1 = m'.1 → m = m' :=
  fun _ hm _ hm' hkey ↦ List.inj_on_of_nodup_map hdistinct hm hm' hkey

theorem sortMembers_perm (hdistinct : (fields.map (·.1)).Nodup) :
    (sortMembers fields).Perm fields := by
  rw [sortMembers_eq hdistinct]
  exact List.mergeSort_perm fields _

theorem sortMembers_eq_of_perm (hperm : fields.Perm fields')
    (hdistinct : (fields.map (·.1)).Nodup) : sortMembers fields = sortMembers fields' := by
  rw [sortMembers_eq hdistinct, sortMembers_eq ((hperm.map _).nodup_iff.mp hdistinct)]
  exact KeySort.mergeSort_eq_of_perm Prod.fst hperm (members_ties hdistinct)

/-! ## 4. What a reordering keeps -/

theorem Reordered.symm (h : Reordered a b) : Reordered b a := by
  induction h with
  | refl v => exact .refl v
  | trans _ _ ih ih' => exact .trans ih' ih
  | members hperm => exact .members hperm.symm
  | inArray before after _ ih => exact .inArray before after ih
  | inObject key before after _ ih => exact .inObject key before after ih

/-- A reordering leaves the keys distinct, and the canonical form as it is. -/
theorem Reordered.canonical (h : Reordered a b) (hdistinct : a.DistinctKeys) :
    b.DistinctKeys ∧ canonicalizeJsonValue a = canonicalizeJsonValue b := by
  induction h with
  | refl v => exact ⟨hdistinct, rfl⟩
  | trans _ _ ih ih' =>
    obtain ⟨hdistinct', heq⟩ := ih hdistinct
    obtain ⟨hdistinct'', heq'⟩ := ih' hdistinct'
    exact ⟨hdistinct'', heq.trans heq'⟩
  | members hperm =>
    obtain ⟨hkeys, hvalues⟩ := distinctKeys_object.mp hdistinct
    constructor
    · apply distinctKeys_object.mpr
      exact ⟨(hperm.map _).nodup_iff.mp hkeys, fun m hm ↦ hvalues m (hperm.mem_iff.mpr hm)⟩
    · unfold canonicalizeJsonValue
      congr 1
      apply sortMembers_eq_of_perm
      · rw [canonicalizeMembers_eq, canonicalizeMembers_eq]
        exact hperm.map _
      · rwa [map_fst_canonicalizeMembers]
  | @inArray x y before after _ ih =>
    have helements := distinctKeys_array.mp hdistinct
    obtain ⟨hy, heq⟩ := ih (helements x (by simp))
    constructor
    · apply distinctKeys_array.mpr
      intro z hz
      rcases List.mem_append.mp hz with hbefore | hrest
      · exact helements z (List.mem_append_left _ hbefore)
      · rcases List.mem_cons.mp hrest with rfl | hafter
        · exact hy
        · exact helements z (List.mem_append_right _ (List.mem_cons_of_mem _ hafter))
    · unfold canonicalizeJsonValue
      rw [canonicalizeElements_eq, canonicalizeElements_eq, List.map_append, List.map_append,
        List.map_cons, List.map_cons, heq]
  | @inObject x y key before after _ ih =>
    obtain ⟨hkeys, hvalues⟩ := distinctKeys_object.mp hdistinct
    obtain ⟨hy, heq⟩ := ih (hvalues (key, x) (by simp))
    constructor
    · apply distinctKeys_object.mpr
      constructor
      · rwa [List.map_append, List.map_cons] at hkeys ⊢
      · intro m hm
        rcases List.mem_append.mp hm with hbefore | hrest
        · exact hvalues m (List.mem_append_left _ hbefore)
        · rcases List.mem_cons.mp hrest with rfl | hafter
          · exact hy
          · exact hvalues m (List.mem_append_right _ (List.mem_cons_of_mem _ hafter))
    · unfold canonicalizeJsonValue
      rw [canonicalizeMembers_eq, canonicalizeMembers_eq, List.map_append, List.map_append,
        List.map_cons, List.map_cons, heq]

/-! ## 5. Every value is a reordering of its canonical form -/

theorem reordered_elements {f : Json → Json} (hxs : ∀ x ∈ xs, Reordered x (f x))
    (before : List Json) :
    Reordered (.array (before ++ xs)) (.array (before ++ xs.map f)) := by
  induction xs generalizing before with
  | nil => exact .refl _
  | cons x xs ih =>
    obtain ⟨hx, hrest⟩ := List.forall_mem_cons.mp hxs
    have hnext := ih hrest (before ++ [f x])
    rw [List.append_assoc, List.append_assoc] at hnext
    exact .trans (.inArray before xs hx) hnext

theorem reordered_members {f : Json → Json} (hfields : ∀ m ∈ fields, Reordered m.2 (f m.2))
    (before : List (String × Json)) :
    Reordered (.object (before ++ fields))
      (.object (before ++ fields.map fun m ↦ (m.1, f m.2))) := by
  induction fields generalizing before with
  | nil => exact .refl _
  | cons m fields ih =>
    obtain ⟨hm, hrest⟩ := List.forall_mem_cons.mp hfields
    have hnext := ih hrest (before ++ [(m.1, f m.2)])
    rw [List.append_assoc, List.append_assoc] at hnext
    exact .trans (.inObject m.1 before fields hm) hnext

theorem reordered_canonicalize (v : Json) (hdistinct : v.DistinctKeys) :
    Reordered v (canonicalizeJsonValue v) := by
  induction v using induction_on with
  | hleaf v harray hobject =>
    cases v with
    | array xs => exact absurd rfl (harray xs)
    | object fields => exact absurd rfl (hobject fields)
    | null => exact .refl _
    | bool b => exact .refl _
    | number n => exact .refl _
    | string s => exact .refl _
  | harray xs ih =>
    have helements := distinctKeys_array.mp hdistinct
    unfold canonicalizeJsonValue
    rw [canonicalizeElements_eq]
    exact reordered_elements (fun x hx ↦ ih x hx (helements x hx)) []
  | hobject fields ih =>
    obtain ⟨hkeys, hvalues⟩ := distinctKeys_object.mp hdistinct
    -- first every member, then the order
    have hmembers : Reordered (.object fields) (.object (canonicalizeMembers fields)) := by
      rw [canonicalizeMembers_eq]
      exact reordered_members (fun m hm ↦ ih m hm (hvalues m hm)) []
    have hkeys' : ((canonicalizeMembers fields).map (·.1)).Nodup := by
      rwa [map_fst_canonicalizeMembers]
    unfold canonicalizeJsonValue
    exact .trans hmembers (.members (sortMembers_perm hkeys').symm)

/-- Two values are reorderings of each other exactly if they have one canonical form. -/
theorem canonicalizeJsonValue_eq_iff (ha : a.DistinctKeys) (hb : b.DistinctKeys) :
    canonicalizeJsonValue a = canonicalizeJsonValue b ↔ Reordered a b := by
  constructor
  · intro heq
    have hcanonical := reordered_canonicalize a ha
    rw [heq] at hcanonical
    exact .trans hcanonical (reordered_canonicalize b hb).symm
  · exact fun h ↦ (h.canonical ha).2

theorem canonicalizeJsonValue_idem (h : v.DistinctKeys) :
    canonicalizeJsonValue (canonicalizeJsonValue v) = canonicalizeJsonValue v :=
  ((reordered_canonicalize v h).canonical h).2.symm

/-! ## 6. The canonical form of the verifier -/

theorem insertField_perm (hnew : key ∉ fields.map (·.1)) (v : Json) :
    (insertField key v fields).Perm ((key, v) :: fields) := by
  induction fields with
  | nil => exact .refl _
  | cons m fields ih =>
    obtain ⟨hne, hrest⟩ := not_or.mp (mt List.mem_cons.mpr hnew)
    unfold insertField
    rw [if_neg hne]
    split
    · exact .refl _
    · exact ((ih hrest).cons m).trans (.swap _ _ _)

theorem pairwise_insertField (hnew : key ∉ fields.map (·.1))
    (hsorted : fields.Pairwise fun m m' ↦ m.1 ≤ m'.1) (v : Json) :
    (insertField key v fields).Pairwise fun m m' ↦ m.1 ≤ m'.1 := by
  induction fields with
  | nil => exact List.pairwise_singleton _ _
  | cons m fields ih =>
    obtain ⟨hne, hrest⟩ := not_or.mp (mt List.mem_cons.mpr hnew)
    obtain ⟨hleast, hfields⟩ := List.pairwise_cons.mp hsorted
    unfold insertField
    rw [if_neg hne]
    split
    · rename_i hlt
      refine List.pairwise_cons.mpr ⟨fun m' hm' ↦ ?_, hsorted⟩
      rcases List.mem_cons.mp hm' with rfl | hmem
      · exact le_of_lt hlt
      · exact (le_of_lt hlt).trans (hleast m' hmem)
    · rename_i hge
      refine List.pairwise_cons.mpr ⟨fun m' hm' ↦ ?_, ih hrest hfields⟩
      rcases List.mem_cons.mp ((insertField_perm hrest v).mem_iff.mp hm') with rfl | hmem
      · exact not_lt.mp hge
      · exact hleast m' hmem

/-- The members that `canonicalize` inserts one by one into a sorted list. -/
theorem canonicalizeFields_sorted (hkeys : (fields.map (·.1)).Nodup) :
    (canonicalizeFields fields).Perm (fields.map fun m ↦ (m.1, m.2.canonicalize)) ∧
      (canonicalizeFields fields).Pairwise fun m m' ↦ m.1 ≤ m'.1 := by
  induction fields with
  | nil => exact ⟨.refl _, .nil⟩
  | cons m fields ih =>
    obtain ⟨hnew, hrest⟩ := List.nodup_cons.mp hkeys
    obtain ⟨hperm, hsorted⟩ := ih hrest
    have hnew' : m.1 ∉ (canonicalizeFields fields).map (·.1) := by
      rw [(hperm.map _).mem_iff, List.map_map]
      exact hnew
    unfold canonicalizeFields
    exact ⟨(insertField_perm hnew' _).trans (hperm.cons _), pairwise_insertField hnew' hsorted _⟩

theorem canonicalizeList_eq (xs : List Json) : canonicalizeList xs = xs.map canonicalize := by
  induction xs with
  | nil => rfl
  | cons x xs ih =>
    unfold canonicalizeList
    rw [ih, List.map_cons]

/-- The two definitions of the canonical form agree. -/
theorem canonicalize_eq (v : Json) (hdistinct : v.DistinctKeys) :
    v.canonicalize = canonicalizeJsonValue v := by
  induction v using induction_on with
  | hleaf v harray hobject =>
    cases v with
    | array xs => exact absurd rfl (harray xs)
    | object fields => exact absurd rfl (hobject fields)
    | null => rfl
    | bool b => rfl
    | number n => rfl
    | string s => rfl
  | harray xs ih =>
    have helements := distinctKeys_array.mp hdistinct
    unfold canonicalize canonicalizeJsonValue
    rw [canonicalizeList_eq, canonicalizeElements_eq]
    congr 1
    exact List.map_congr_left fun x hx ↦ ih x hx (helements x hx)
  | hobject fields ih =>
    obtain ⟨hkeys, hvalues⟩ := distinctKeys_object.mp hdistinct
    obtain ⟨hperm, hsorted⟩ := canonicalizeFields_sorted hkeys
    have hmembers : (fields.map fun m ↦ (m.1, m.2.canonicalize)) = canonicalizeMembers fields := by
      rw [canonicalizeMembers_eq]
      exact List.map_congr_left fun m hm ↦ by rw [ih m hm (hvalues m hm)]
    rw [hmembers] at hperm
    have hkeys' : ((canonicalizeMembers fields).map (·.1)).Nodup := by
      rwa [map_fst_canonicalizeMembers]
    unfold canonicalize canonicalizeJsonValue
    congr 1
    rw [sortMembers_eq hkeys']
    -- both are the same members in ascending order
    apply KeySort.eq_of_perm Prod.fst
    · exact hperm.trans (List.mergeSort_perm _ _).symm
    · exact members_ties ((hperm.map _).nodup_iff.mpr hkeys')
    · exact hsorted
    · exact KeySort.pairwise_mergeSort Prod.fst _

end Json

open Json CrossChainVerifier

/-- **Canonical bytes.**  With a serialiser that does not confuse the `values` (all values, for an
injective one), two values have one canonical text exactly if they are equal up to the order of
members; the canonical form is its own canonical form; and the text is the one of the sorted
members. -/
theorem canonicalJsonToVec_eq_iff (X : Crates) (values : Set Json)
    (hserial : Set.InjOn X.jsonToVec values) (a b : Json) (ha : a.DistinctKeys)
    (hb : b.DistinctKeys) (hamem : canonicalizeJsonValue a ∈ values)
    (hbmem : canonicalizeJsonValue b ∈ values) :
    (canonicalJsonToVec X a = canonicalJsonToVec X b ↔ Reordered a b) ∧
      canonicalizeJsonValue (canonicalizeJsonValue a) = canonicalizeJsonValue a ∧
      canonicalJsonToVec X a = X.jsonToVec (canonicalizeJsonValue a) := by
  unfold canonicalJsonToVec
  rw [canonicalize_eq a ha, canonicalize_eq b hb, hserial.eq_iff hamem hbmem]
  exact ⟨canonicalizeJsonValue_eq_iff ha hb, canonicalizeJsonValue_idem ha, rfl⟩

/-! An object in an object, its members in two orders, and another object with the same keys. -/

def demoMember (n : UInt64) : Json := .number (.posInt n)

def demoOuter (inner : List (String × Json)) : Json :=
  .object [("outer", .object inner), ("x", demoMember 0)]

def demoInOrder : Json := demoOuter [("b", demoMember 1), ("a", demoMember 2)]

def demoOutOfOrder : Json :=
  .object [("x", demoMember 0), ("outer", .object [("a", demoMember 2), ("b", demoMember 1)])]

def demoOtherMember : Json := demoOuter [("b", demoMember 1), ("a", demoMember 99)]

theorem demo_reordered : Reordered demoInOrder demoOutOfOrder :=
  .trans (.inObject "outer" [] [("x", demoMember 0)] (.members (.swap _ _ _)))
    (.members (.swap _ _ _))

theorem demo_distinctKeys {inner : List (String × Json)}
    (hkeys : (inner.map (·.1)).Nodup) (hleaves : ∀ m ∈ inner, m.2.DistinctKeys) :
    (demoOuter inner).DistinctKeys := by
  have houter : ["outer", "x"].Nodup := by decide
  refine distinctKeys_object.mpr ⟨houter, ?_⟩
  rw [List.forall_mem_cons, List.forall_mem_cons]
  exact ⟨distinctKeys_object.mpr ⟨hkeys, hleaves⟩, trivial, by simp⟩

theorem canonicalJsonToVec_demo :
    canonicalJsonToVec demoCrates demoInOrder = canonicalJsonToVec demoCrates demoOutOfOrder ∧
      ¬ Reordered demoInOrder demoOtherMember := by
  have hleaves (m n : UInt64) :
      ∀ e ∈ [("b", demoMember m), ("a", demoMember n)], e.2.DistinctKeys := by
    rw [List.forall_mem_cons, List.forall_mem_cons]
    exact ⟨trivial, trivial, by simp⟩
  have hdistinct : demoInOrder.DistinctKeys := demo_distinctKeys (by decide) (hleaves 1 2)
  have hdistinct' : demoOtherMember.DistinctKeys := demo_distinctKeys (by decide) (hleaves 1 99)
  obtain ⟨hdistinct'', hsame⟩ := demo_reordered.canonical hdistinct
  have htexts : demoCrates.jsonToVec (canonicalizeJsonValue demoInOrder) ≠
      demoCrates.jsonToVec (canonicalizeJsonValue demoOtherMember) := by
    rw [← canonicalize_eq _ hdistinct, ← canonicalize_eq _ hdistinct']
    decide +kernel
  have hserial : Set.InjOn demoCrates.jsonToVec
      {canonicalizeJsonValue demoInOrder, canonicalizeJsonValue demoOtherMember} := by
    rintro u (rfl | rfl) v (rfl | rfl) htext
    · rfl
    · exact absurd htext htexts
    · exact absurd htext.symm htexts
    · rfl
  constructor
  · have hiff := canonicalJsonToVec_eq_iff demoCrates _ hserial demoInOrder demoOutOfOrder hdistinct
      hdistinct'' (.inl rfl) (.inl hsame.symm)
    exact hiff.1.mpr demo_reordered
  · have hiff := canonicalJsonToVec_eq_iff demoCrates _ hserial demoInOrder demoOtherMember
      hdistinct hdistinct' (.inl rfl) (.inr rfl)
    rw [← hiff.1, hiff.2.2]
    intro htext
    apply htexts
    rw [htext]
    exact congrArg demoCrates.jsonToVec (canonicalize_eq demoOtherMember hdistinct')

end UtxoVm
