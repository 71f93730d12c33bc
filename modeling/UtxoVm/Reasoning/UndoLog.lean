import UtxoVm.Reasoning.RustStd

/-!
# UndoLog — restoring a map by replaying undo records

A map changes key by key, and before each change a record with the value to go back to is written
into a journal.  Records carry a height and sit in numbered slots; they are replayed by descending
height and, within one height, by ascending slot.  Only the record of a key that is replayed last
decides what the key is restored to, which gives the invariant `Restores` and the condition `Safe`
under which writing a record keeps it.
-/

namespace UndoLog

variable {K V : Type*}

/-- A record: undoing it sets `key` back to `prev`. -/
structure Entry (K V : Type*) where
  height : ℕ
  key : K
  prev : Option V

/-- The journal: slots, each with at most one record. -/
abbrev Journal (K V : Type*) := ℕ → Option (Entry K V)

/-- The record `e'` in slot `i'` is replayed after the record `e` in slot `i`. -/
def Later (i' : ℕ) (e' : Entry K V) (i : ℕ) (e : Entry K V) : Prop :=
  e'.height < e.height ∨ e'.height = e.height ∧ i < i'

theorem Later.irrefl (i : ℕ) (e : Entry K V) : ¬ Later i e i e := by
  unfold Later
  omega

theorem Later.trans {i j l : ℕ} {a b c : Entry K V} (h : Later i a j b) (h' : Later j b l c) :
    Later i a l c := by
  unfold Later at *
  omega

/-! ## 1. Replay -/

section Replay

variable [DecidableEq K]

/-- Undo a list of records, first to last. -/
def replay (cur : K → Option V) (records : List (ℕ × Entry K V)) : K → Option V :=
  records.foldl (fun m r ↦ Function.update m r.2.key r.2.prev) cur

@[simp] theorem replay_nil (cur : K → Option V) : replay cur [] = cur := rfl

@[simp] theorem replay_cons (cur : K → Option V) (r : ℕ × Entry K V) (rs : List (ℕ × Entry K V)) :
    replay cur (r :: rs) = replay (Function.update cur r.2.key r.2.prev) rs := rfl

theorem replay_append (cur : K → Option V) (rs rs' : List (ℕ × Entry K V)) :
    replay cur (rs ++ rs') = replay (replay cur rs) rs' := List.foldl_append ..

theorem replay_untouched {cur : K → Option V} {records : List (ℕ × Entry K V)} {k : K}
    (h : ∀ r ∈ records, r.2.key ≠ k) : replay cur records k = cur k := by
  induction records generalizing cur with
  | nil => rfl
  | cons r rs ih =>
    rw [replay_cons, ih fun r' hr' ↦ h r' (List.mem_cons_of_mem _ hr')]
    exact Function.update_of_ne (h r List.mem_cons_self).symm _ _

/-- In a sorted list, the record of a key that no other record of the key follows decides. -/
theorem replay_of_last {cur : K → Option V} {records : List (ℕ × Entry K V)}
    (hsorted : records.Pairwise fun a b ↦ Later b.1 b.2 a.1 a.2) {r : ℕ × Entry K V}
    (hr : r ∈ records) (hlast : ∀ r' ∈ records, r'.2.key = r.2.key → ¬ Later r'.1 r'.2 r.1 r.2) :
    replay cur records r.2.key = r.2.prev := by
  obtain ⟨before, after, rfl⟩ := List.append_of_mem hr
  have hafter : ∀ r' ∈ after, r'.2.key ≠ r.2.key := by
    intro r' hr' hkey
    have hlater := (List.pairwise_cons.mp (List.pairwise_append.mp hsorted).2.1).1 r' hr'
    exact hlast r' (by simp [hr']) hkey hlater
  rw [replay_append, replay_cons, replay_untouched hafter]
  exact Function.update_self ..

end Replay

/-! ## 2. The invariant -/

/-- The record of key `k` that is replayed last holds the old value. -/
def Decided (old : K → Option V) (journal : Journal K V) (k : K) : Prop :=
  ∃ i e, journal i = some e ∧ e.key = k ∧ e.prev = old k ∧
    ∀ i' e', journal i' = some e' → e'.key = k → ¬ Later i' e' i e

/-- Replaying the journal on `cur` gives `old`. -/
def Restores (old cur : K → Option V) (journal : Journal K V) : Prop :=
  ∀ k, (∀ i e, journal i = some e → e.key ≠ k) ∧ cur k = old k ∨ Decided old journal k

theorem Restores.refl (old : K → Option V) : Restores old old (fun _ ↦ none : Journal K V) :=
  fun _ ↦ .inl ⟨fun _ _ h ↦ (by cases h), rfl⟩

theorem Restores.replay [DecidableEq K] {old cur : K → Option V} {journal : Journal K V}
    (h : Restores old cur journal) {records : List (ℕ × Entry K V)}
    (hmem : ∀ i e, (i, e) ∈ records ↔ journal i = some e)
    (hsorted : records.Pairwise fun a b ↦ Later b.1 b.2 a.1 a.2) :
    UndoLog.replay cur records = old := by
  funext k
  rcases h k with ⟨hnone, hcur⟩ | ⟨i, e, hslot, hkey, hprev, hlast⟩
  · rw [replay_untouched fun r hr ↦ hnone r.1 r.2 ((hmem _ _).mp hr), hcur]
  · have hreplay : UndoLog.replay cur records e.key = e.prev :=
      replay_of_last hsorted ((hmem i e).mpr hslot) fun r' hr' hk ↦
        hlast r'.1 r'.2 ((hmem _ _).mp hr') (hk.trans hkey)
    rw [← hkey, hreplay, hprev, hkey]

/-- Writing `e` into slot `i` loses nothing: a record already in the slot has the same key and
height, and `e` holds the old value of its key unless a later-replayed record makes it
irrelevant. -/
structure Safe (old : K → Option V) (journal : Journal K V) (i : ℕ) (e : Entry K V) : Prop where
  slot : ∀ w, journal i = some w → w.key = e.key ∧ w.height = e.height
  value : e.prev = old e.key ∨
    ∃ i' e', i' ≠ i ∧ journal i' = some e' ∧ e'.key = e.key ∧ Later i' e' i e

private theorem decided_of_ne {old : K → Option V} {journal : Journal K V} {i : ℕ} {e : Entry K V}
    {k : K} (hslot : ∀ w, journal i = some w → w.key = e.key ∧ w.height = e.height)
    (hk : k ≠ e.key) (h : Decided old journal k) :
    Decided old (Function.update journal i (some e)) k := by
  obtain ⟨i₀, e₀, h₀, hkey, hprev, hlast⟩ := h
  have hne : i₀ ≠ i := by
    rintro rfl
    exact hk (hkey ▸ (hslot e₀ h₀).1)
  refine ⟨i₀, e₀, by rwa [Function.update_of_ne hne], hkey, hprev, fun i' e' h' hkey' ↦ ?_⟩
  by_cases hi : i' = i
  · subst hi
    rw [Function.update_self] at h'
    cases h'
    exact absurd hkey'.symm hk
  · rw [Function.update_of_ne hi] at h'
    exact hlast i' e' h' hkey'

/-- **One step.**  Writing a safe record for a key, and then changing the key in any way. -/
theorem Restores.write {old cur cur' : K → Option V} {journal : Journal K V} {i : ℕ}
    {e : Entry K V} (h : Restores old cur journal) (hsafe : Safe old journal i e)
    (hcur : ∀ k, k ≠ e.key → cur' k = cur k) :
    Restores old cur' (Function.update journal i (some e)) := by
  intro k
  by_cases hk : k = e.key
  swap
  · rcases h k with ⟨hnone, hold⟩ | hdecided
    · refine .inl ⟨fun i' e' h' ↦ ?_, (hcur k hk).trans hold⟩
      by_cases hi : i' = i
      · subst hi
        rw [Function.update_self] at h'
        cases h'
        exact fun hkey ↦ hk hkey.symm
      · rw [Function.update_of_ne hi] at h'
        exact hnone i' e' h'
    · exact .inr (decided_of_ne hsafe.slot hk hdecided)
  subst hk
  right
  -- if no record of the key is replayed after `e`, then `e` itself decides
  have hnew (hlast : ∀ i' e', i' ≠ i → journal i' = some e' → e'.key = e.key → ¬ Later i' e' i e) :
      Decided old (Function.update journal i (some e)) e.key := by
    have hprev : e.prev = old e.key := by
      rcases hsafe.value with hprev | ⟨i', e', hne, h', hkey, hlater⟩
      · exact hprev
      · exact absurd hlater (hlast i' e' hne h' hkey)
    refine ⟨i, e, Function.update_self .., rfl, hprev, fun i' e' h' hkey ↦ ?_⟩
    by_cases hi : i' = i
    · subst hi
      rw [Function.update_self] at h'
      cases h'
      exact Later.irrefl _ _
    · rw [Function.update_of_ne hi] at h'
      exact hlast i' e' hi h' hkey
  rcases h e.key with ⟨hnone, -⟩ | ⟨i₀, e₀, h₀, hkey₀, hprev₀, hlast₀⟩
  · exact hnew fun i' e' _ h' hkey ↦ absurd hkey (hnone i' e' h')
  by_cases hi₀ : i₀ = i
  · -- the deciding record is overwritten by one that is replayed at the same point
    subst hi₀
    have hheight := (hsafe.slot e₀ h₀).2
    refine hnew fun i' e' _ h' hkey hlater ↦ hlast₀ i' e' h' hkey ?_
    unfold Later at hlater ⊢
    omega
  by_cases hlater₀ : Later i e i₀ e₀
  · refine hnew fun i' e' _ h' hkey hlater ↦ ?_
    exact hlast₀ i' e' h' hkey (hlater.trans hlater₀)
  · refine ⟨i₀, e₀, by rwa [Function.update_of_ne hi₀], hkey₀, hprev₀, fun i' e' h' hkey ↦ ?_⟩
    by_cases hi : i' = i
    · subst hi
      rw [Function.update_self] at h'
      cases h'
      exact hlater₀
    · rw [Function.update_of_ne hi] at h'
      exact hlast₀ i' e' h' hkey

/-! ## 3. The replay order -/

end UndoLog
