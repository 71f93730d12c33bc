import UtxoVm.Reasoning.Interleaving

/-!
# Invariance — one invariant for all threads

The plainest ways to verify a pool of programs.  Say once what a single action of each call can do
(`Steps`): whatever changes in a run is then the work of a call that may change it.  Or name an
invariant that every action keeps, whatever the other threads have done in between (`Under`): every
result is then one that the invariant allows.
-/

namespace Prog

variable {σ τ ε δ α β : Type}

/-! ## 1. What the actions do -/

/-- Every action is a step of `R`, in whatever state it is performed. -/
def Steps (R : σ → σ → Prop) : Prog σ ε α → Prop
  | done _ => True
  | fail _ => True
  | act upd next => ∀ s, R s (upd s) ∧ Steps R (next s)

variable {R R' : σ → σ → Prop}

theorem Steps.mono {p : Prog σ ε α} (h : Steps R p) (hR : ∀ s s', R s s' → R' s s') :
    Steps R' p := by
  induction p with
  | done a => trivial
  | fail e => trivial
  | act upd next ih => exact fun s ↦ ⟨hR _ _ (h s).1, ih s (h s).2⟩

theorem Steps.pure (a : α) : Steps R (pure a : Prog σ ε α) := trivial

theorem Steps.fail (e : ε) : Steps R (fail e : Prog σ ε α) := trivial

theorem Steps.ofExcept (r : Except ε α) : Steps R (ofExcept r : Prog σ ε α) := by
  cases r <;> trivial

theorem Steps.bind {p : Prog σ ε α} {f : α → Prog σ ε β} (hp : Steps R p)
    (hf : ∀ a, Steps R (f a)) : Steps R (p >>= f) := by
  induction p with
  | done a => exact hf a
  | fail e => trivial
  | act upd next ih => exact fun s ↦ ⟨(hp s).1, ih s (hp s).2⟩

theorem Steps.attempt {p : Prog σ ε α} (h : Steps R p) :
    Steps R (attempt p : Prog σ δ (Except ε α)) := by
  induction p with
  | done a => trivial
  | fail e => trivial
  | act upd next ih => exact fun s ↦ ⟨(h s).1, ih s (h s).2⟩

/-- Reading is a step that changes nothing. -/
theorem Steps.read {g : σ → α} (hR : ∀ s, R s s) : Steps R (read g : Prog σ ε α) :=
  fun s ↦ ⟨hR s, trivial⟩

theorem Steps.modify {g : σ → σ} (h : ∀ s, R s (g s)) : Steps R (modify g : Prog σ ε Unit) :=
  fun s ↦ ⟨h s, trivial⟩

theorem Steps.zoom {S : τ → τ → Prop} {get : τ → σ} {set : σ → τ → τ} {p : Prog σ ε α}
    (h : Steps R p) (hS : ∀ s t, R (get t) s → S t (set s t)) : Steps S (zoom get set p) := by
  induction p with
  | done a => trivial
  | fail e => trivial
  | act upd next ih => exact fun t ↦ ⟨hS _ t (h (get t)).1, ih _ (h (get t)).2⟩

/-! ## 2. What the actions keep -/

variable {I : σ → Prop} {R R' : Except ε α → Prop}

/-- Run in states with `I` only, the program keeps `I` and ends with a result in `R`. -/
def Under (I : σ → Prop) (R : Except ε α → Prop) : Prog σ ε α → Prop
  | done a => R (.ok a)
  | fail e => R (.error e)
  | act upd next => ∀ s, I s → I (upd s) ∧ Under I R (next s)

theorem Under.imp {p : Prog σ ε α} (h : Under I R p) (hR : ∀ r, R r → R' r) : Under I R' p := by
  induction p with
  | done a => exact hR _ h
  | fail e => exact hR _ h
  | act upd next ih => exact fun s hs ↦ ⟨(h s hs).1, ih s (h s hs).2⟩

theorem Under.true (p : Prog σ ε α) : Under (fun _ ↦ True) (fun _ ↦ True) p := by
  induction p with
  | done a => trivial
  | fail e => trivial
  | act upd next ih => exact fun s _ ↦ ⟨trivial, ih s⟩

theorem Under.pure {a : α} (h : R (.ok a)) : Under I R (pure a : Prog σ ε α) := h

theorem Under.fail {e : ε} (h : R (.error e)) : Under I R (fail e : Prog σ ε α) := h

theorem Under.ofExcept {r : Except ε α} (h : R r) : Under I R (ofExcept r : Prog σ ε α) := by
  cases r <;> exact h

/-- Sequencing: an error of the first part is the result of the whole. -/
theorem Under.bind {p : Prog σ ε α} {f : α → Prog σ ε β} {R' : Except ε β → Prop}
    (hp : Under I R p) (herr : ∀ e, R (.error e) → R' (.error e))
    (hf : ∀ a, R (.ok a) → Under I R' (f a)) : Under I R' (p >>= f) := by
  induction p with
  | done a => exact hf a hp
  | fail e => exact herr e hp
  | act upd next ih => exact fun s hs ↦ ⟨(hp s hs).1, ih s (hp s hs).2⟩

theorem Under.attempt {p : Prog σ ε α} {R : Except δ (Except ε α) → Prop}
    (h : Under I (fun r ↦ R (.ok r)) p) :
    Under I R (attempt p : Prog σ δ (Except ε α)) := by
  induction p with
  | done a => exact h
  | fail e => exact h
  | act upd next ih => exact fun s hs ↦ ⟨(h s hs).1, ih s (h s hs).2⟩

theorem Under.read {g : σ → α} (h : ∀ s, I s → R (.ok (g s))) :
    Under I R (read g : Prog σ ε α) := fun s hs ↦ ⟨hs, h s hs⟩

theorem Under.modify {g : σ → σ} {R : Except ε Unit → Prop} (h : ∀ s, I s → I (g s))
    (hR : R (.ok ())) : Under I R (modify g : Prog σ ε Unit) := fun s hs ↦ ⟨h s hs, hR⟩

/-- A program whose every action keeps the invariant. -/
theorem Under.of_steps {S : σ → σ → Prop} {p : Prog σ ε α} (hp : Steps S p)
    (hI : ∀ s s', S s s' → I s → I s') : Under I (fun _ ↦ True) p := by
  induction p with
  | done a => trivial
  | fail e => trivial
  | act upd next ih => exact fun s hs ↦ ⟨hI s _ (hp s).1 hs, ih s (hp s).2⟩

/-- Two invariants, of which the first is the stronger one. -/
theorem Under.and {I' : σ → Prop} {p : Prog σ ε α} (h : Under I R p) (h' : Under I' R' p)
    (hI : ∀ s, I s → I' s) : Under I (fun r ↦ R r ∧ R' r) p := by
  induction p with
  | done a => exact ⟨h, h'⟩
  | fail e => exact ⟨h, h'⟩
  | act upd next ih => exact fun s hs ↦ ⟨(h s hs).1, ih s (h s hs).2 (h' s (hI s hs)).2⟩

/-- A program on a component. -/
theorem Under.zoom {J : τ → Prop} {get : τ → σ} {set : σ → τ → τ} {p : Prog σ ε α}
    (hp : Under I R p) (hJ : ∀ t, J t → I (get t)) (hI : ∀ s t, J t → I s → J (set s t)) :
    Under J R (zoom get set p) := by
  induction p with
  | done a => exact hp
  | fail e => exact hp
  | act upd next ih =>
    intro t ht
    have hstep := hp (get t) (hJ t ht)
    exact ⟨hI _ t ht hstep.1, ih _ hstep.2⟩

end Prog

namespace Interleaving

open Prog

variable {σ ε α ι κ : Type} [DecidableEq ι] {S : System σ ε α ι κ} {s₀ s s' : σ}
  {T T' : Pool σ ε α ι κ}

/-- A property of every thread, after a step that changes one of them. -/
private theorem forall_update {Φ : κ → Prog σ ε α → Prop} {i : ι}
    {t? : Option (κ × Prog σ ε α)} (hT : ∀ j k p, T j = some (k, p) → Φ k p)
    (hi : ∀ k p, t? = some (k, p) → Φ k p) :
    ∀ j k p, Function.update T i t? j = some (k, p) → Φ k p := by
  intro j k p hj
  by_cases hji : j = i
  · rw [hji, Function.update_self] at hj
    exact hi k p hj
  · rw [Function.update_of_ne hji] at hj
    exact hT j k p hj

/-- **Invariant rule.**  If the program of every call keeps the invariant, it holds at every point
that is reached, and every result is one that the call promises. -/
theorem Reachable.under {I : σ → Prop} {R : κ → Except ε α → Prop}
    (hprog : ∀ s T i k, S.canStart s T i k → (S.prog k).Under I (R k))
    (hrestart : ∀ s s', I s → S.restart s s' → I s') (hinit : I s₀)
    (h : Reachable S s₀ s T) : I s ∧ ∀ i k p, T i = some (k, p) → p.Under I (R k) := by
  induction h with
  | init =>
    refine ⟨hinit, fun i k p hi ↦ ?_⟩
    cases hi
  | step _ hstep ih =>
    obtain ⟨hs, hT⟩ := ih
    cases hstep with
    | start _ hcan =>
      refine ⟨hs, forall_update hT fun k p hk ↦ ?_⟩
      cases hk
      exact hprog _ _ _ _ hcan
    | act hi _ =>
      -- the action keeps the invariant, and so will the rest of its program
      have hact := hT _ _ _ hi _ hs
      refine ⟨hact.1, forall_update hT fun k p hk ↦ ?_⟩
      cases hk
      exact hact.2
    | returned _ => exact ⟨hs, forall_update hT fun k p hk ↦ by cases hk⟩
    | failed _ => exact ⟨hs, forall_update hT fun k p hk ↦ by cases hk⟩
    | restart hre => exact ⟨hrestart _ _ hs hre, fun i k p hi ↦ by cases hi⟩

/-- What is left of a call does what the call may do. -/
theorem Reachable.steps {R : κ → σ → σ → Prop} (hprog : ∀ k, (S.prog k).Steps (R k))
    (h : Reachable S s₀ s T) : ∀ i k p, T i = some (k, p) → p.Steps (R k) := by
  induction h with
  | init =>
    intro i k p hi
    cases hi
  | step _ hstep ih =>
    cases hstep with
    | start _ _ =>
      refine forall_update ih fun k p hk ↦ ?_
      cases hk
      exact hprog _
    | act hi _ =>
      refine forall_update ih fun k p hk ↦ ?_
      cases hk
      exact (ih _ _ _ hi _).2
    | returned _ => exact forall_update ih fun k p hk ↦ by cases hk
    | failed _ => exact forall_update ih fun k p hk ↦ by cases hk
    | restart _ =>
      intro i k p hi
      cases hi

/-- **Attribution.**  A step that changes the state is a restart that drops all threads, or the action
of one thread, which may change it so. -/
theorem Reachable.attributed {R : κ → σ → σ → Prop} (hprog : ∀ k, (S.prog k).Steps (R k))
    (h : Reachable S s₀ s T) (hstep : Step S s T s' T') :
    s' = s ∨ (S.restart s s' ∧ T' = fun _ ↦ none) ∨
      ∃ i k, ActsIn s T s' T' i k ∧ R k s s' := by
  cases hstep with
  | start _ _ => exact .inl rfl
  | @act _ _ _ upd next hi _ =>
    exact .inr (.inr ⟨_, _, ⟨upd, next, hi, rfl, rfl⟩, (h.steps hprog _ _ _ hi _).1⟩)
  | returned _ => exact .inl rfl
  | failed _ => exact .inl rfl
  | restart hre => exact .inr (.inl ⟨hre, rfl⟩)

end Interleaving
