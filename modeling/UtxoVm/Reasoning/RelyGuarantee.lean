import UtxoVm.Reasoning.Invariance

/-!
# RelyGuarantee — local assertions of programs that run at the same time

A thread is verified on its own: an assertion is kept from each of its actions to the next one, and
it must survive every step that the thread *relies* on the others to make.  In return the actions of
the thread are steps that it *guarantees*.  An invariant `inv` of the state is assumed before every
step and shown again after it.
-/

namespace Interleaving

variable {σ ε α β ι κ γ : Type}

/-- The steps that a thread expects of the others, and the steps that it makes itself. -/
structure Contract (σ : Type) where
  rely : σ → σ → Prop
  guar : σ → σ → Prop

/-- What holds of every state (`inv`), and of every action that is performed (`allowed`). -/
structure Setting (σ : Type) where
  inv : σ → Prop
  allowed : σ → σ → Prop

variable (V : Setting σ) (C : Contract σ)

/-- The others do not invalidate the assertion. -/
def Stable (P : σ → Prop) : Prop := ∀ s s', V.inv s → V.inv s' → C.rely s s' → P s → P s'

/-- The program, run from states with `P` among threads that keep to the contract, keeps to it
itself, and ends in states with `Q`. -/
def Holds : (σ → Prop) → Prog σ ε α → (Except ε α → σ → Prop) → Prop
  | P, .done a, Q => ∀ s, V.inv s → P s → Q (.ok a) s
  | P, .fail e, Q => ∀ s, V.inv s → P s → Q (.error e) s
  | P, .act upd next, Q => ∀ s, V.inv s → P s → V.allowed s (upd s) →
      V.inv (upd s) ∧ C.guar s (upd s) ∧ ∃ R, Stable V C R ∧ R (upd s) ∧ Holds R (next s) Q

/-! ## 1. Rules for programs -/

variable {V C} {P P' : σ → Prop} {p : Prog σ ε α} {Q Q' : Except ε α → σ → Prop}

theorem Holds.pre (h : Holds V C P p Q) (hpre : ∀ s, V.inv s → P' s → P s) :
    Holds V C P' p Q := by
  cases p with
  | done a => exact fun s hs hP ↦ h s hs (hpre s hs hP)
  | fail e => exact fun s hs hP ↦ h s hs (hpre s hs hP)
  | act upd next => exact fun s hs hP ↦ h s hs (hpre s hs hP)

theorem Holds.post (h : Holds V C P p Q) (hpost : ∀ r s, V.inv s → Q r s → Q' r s) :
    Holds V C P p Q' := by
  induction p generalizing P with
  | done a => exact fun s hs hP ↦ hpost _ s hs (h s hs hP)
  | fail e => exact fun s hs hP ↦ hpost _ s hs (h s hs hP)
  | act upd next ih =>
    intro s hs hP hallowed
    obtain ⟨hinv, hguar, R, hstable, hR, hnext⟩ := h s hs hP hallowed
    exact ⟨hinv, hguar, R, hstable, hR, ih s hnext⟩

/-- A precondition that no state meets. -/
theorem Holds.absurd (h : ∀ s, V.inv s → ¬ P s) : Holds V C P p Q := by
  cases p with
  | done a => exact fun s hs hP ↦ (h s hs hP).elim
  | fail e => exact fun s hs hP ↦ (h s hs hP).elim
  | act upd next => exact fun s hs hP ↦ (h s hs hP).elim

/-- A fact that does not depend on the state may be taken out of the precondition. -/
theorem Holds.of_fact {φ : Prop} (hfact : ∀ s, V.inv s → P s → φ)
    (h : φ → Holds V C P p Q) : Holds V C P p Q := by
  by_cases hφ : φ
  · exact h hφ
  · exact .absurd fun s hs hP ↦ hφ (hfact s hs hP)

theorem Holds.pure (a : α) (h : ∀ s, V.inv s → P s → Q (.ok a) s) :
    Holds V C P (pure a) Q := h

theorem Holds.bind {f : α → Prog σ ε β} {Q : Except ε β → σ → Prop} {M : Except ε α → σ → Prop}
    (hp : Holds V C P p M) (herr : ∀ e s, V.inv s → M (.error e) s → Q (.error e) s)
    (hf : ∀ a, Holds V C (M (.ok a)) (f a) Q) : Holds V C P (p >>= f) Q := by
  induction p generalizing P with
  | done a => exact (hf a).pre hp
  | fail e => exact fun s hs hP ↦ herr e s hs (hp s hs hP)
  | act upd next ih =>
    intro s hs hP hallowed
    obtain ⟨hinv, hguar, R, hstable, hR, hnext⟩ := hp s hs hP hallowed
    exact ⟨hinv, hguar, R, hstable, hR, ih s hnext⟩

theorem Holds.attempt {Q : Except ε (Except ε α) → σ → Prop}
    (h : Holds V C P p fun r s ↦ Q (.ok r) s) : Holds V C P (Prog.attempt p : Prog σ ε _) Q := by
  induction p generalizing P with
  | done a => exact h
  | fail e => exact h
  | act upd next ih =>
    intro s hs hP hallowed
    obtain ⟨hinv, hguar, R, hstable, hR, hnext⟩ := h s hs hP hallowed
    exact ⟨hinv, hguar, R, hstable, hR, ih s hnext⟩

/-- One action. -/
theorem Holds.act {upd : σ → σ} {next : σ → Prog σ ε α}
    (h : ∀ s, V.inv s → P s → V.allowed s (upd s) → V.inv (upd s) ∧ C.guar s (upd s) ∧
      ∃ R, Stable V C R ∧ R (upd s) ∧ Holds V C R (next s) Q) : Holds V C P (.act upd next) Q := h

theorem Holds.modify {g : σ → σ} {Q : σ → Prop} (hstable : Stable V C Q)
    (h : ∀ s, V.inv s → P s → V.allowed s (g s) →
      V.inv (g s) ∧ C.guar s (g s) ∧ Q (g s)) :
    Holds V C P (Prog.modify g : Prog σ ε Unit) fun _ ↦ Q := by
  intro s hs hP hallowed
  obtain ⟨hinv, hguar, hQ⟩ := h s hs hP hallowed
  exact ⟨hinv, hguar, Q, hstable, hQ, fun s' _ hQ' ↦ hQ'⟩

/-- **Frame rule.**  A program that does not change the observation `f` keeps what depends on `f`
alone, and on the actions that are performed. -/
theorem Holds.keeps_allowed {f : σ → γ} (hp : Prog.Keeps f p) (hstable : Stable V C P)
    (hstep : ∀ s s', f s' = f s → V.inv s → P s → V.allowed s s' →
      V.inv s' ∧ C.guar s s' ∧ P s') : Holds V C P p fun _ ↦ P := by
  induction p with
  | done a => exact fun s _ hP ↦ hP
  | fail e => exact fun s _ hP ↦ hP
  | act upd next ih =>
    intro s hs hP hallowed
    obtain ⟨hinv, hguar, hP'⟩ := hstep s (upd s) (hp s).1 hs hP hallowed
    exact ⟨hinv, hguar, P, hstable, hP', ih s (hp s).2⟩

theorem Holds.keeps {f : σ → γ} (hp : Prog.Keeps f p) (hstable : Stable V C P)
    (hstep : ∀ s s', f s' = f s → V.inv s → P s → V.inv s' ∧ C.guar s s' ∧ P s') :
    Holds V C P p fun _ ↦ P :=
  .keeps_allowed hp hstable fun s s' hview hs hP _ ↦ hstep s s' hview hs hP

/-- What the program returns, whatever it meets. -/
theorem Holds.yields {R : Except ε α → Prop} (hp : Holds V C P p Q) (hR : Prog.Yields R p) :
    Holds V C P p fun r s ↦ R r ∧ Q r s := by
  induction p generalizing P with
  | done a => exact fun s hs hP ↦ ⟨hR, hp s hs hP⟩
  | fail e => exact fun s hs hP ↦ ⟨hR, hp s hs hP⟩
  | act upd next ih =>
    intro s hs hP hallowed
    obtain ⟨hinv, hguar, R', hstable, hR', hnext⟩ := hp s hs hP hallowed
    exact ⟨hinv, hguar, R', hstable, hR', ih s hnext (hR s)⟩

theorem Holds.exists {δ : Type} {P : δ → σ → Prop} (h : ∀ d, Holds V C (P d) p Q) :
    Holds V C (fun s ↦ ∃ d, P d s) p Q := by
  cases p with
  | done a => exact fun s hs ⟨d, hP⟩ ↦ h d s hs hP
  | fail e => exact fun s hs ⟨d, hP⟩ ↦ h d s hs hP
  | act upd next => exact fun s hs ⟨d, hP⟩ ↦ h d s hs hP

/-! ## 2. What a program makes of an observation -/

/-- A run of the program, perhaps stopped before its end, takes the observation `f` from one value
to another, while nobody else changes what `f` observes. -/
inductive Transforms (f : σ → γ) : Prog σ ε α → γ → γ → Prop
  | stop (p : Prog σ ε α) (v : γ) : Transforms f p v v
  | act {upd : σ → σ} {next : σ → Prog σ ε α} {v : γ} (s : σ) :
      Transforms f (next s) (f (upd s)) v → Transforms f (.act upd next) (f s) v

/-- A program on a component makes of it what it does alone. -/
theorem Transforms.of_zoom {τ : Type} {f : σ → γ} {get : τ → σ} {set : σ → τ → τ}
    (hget : ∀ s t, get (set s t) = s) {p : Prog σ ε α} {v v' : γ}
    (h : Transforms (fun t ↦ f (get t)) (p.zoom get set) v v') : Transforms f p v v' := by
  induction p generalizing v with
  | done a =>
    cases h
    exact .stop _ _
  | fail e =>
    cases h
    exact .stop _ _
  | act upd next ih =>
    cases h with
    | stop => exact .stop _ _
    | act t h =>
      rw [hget] at h
      exact .act (get t) (ih (get t) h)

/-- **Trace rule.**  What holds of every value that the program can give to the observation, holds
of the observation after each of its actions. -/
theorem Holds.transforms {f : σ → γ} {R : σ → σ → Prop} {I : γ → Prop} (hp : p.Steps R)
    (hP : Stable V C P)
    (hf : ∀ s s', V.inv s → V.inv s' → C.rely s s' → P s → f s' = f s)
    (hstep : ∀ s s', R s s' → V.inv s → P s → V.allowed s s' → I (f s') →
      V.inv s' ∧ C.guar s s' ∧ P s') :
    Holds V C (fun s ↦ P s ∧ ∀ v, Transforms f p (f s) v → I v) p fun _ ↦ P := by
  induction p with
  | done a => exact fun s _ h ↦ h.1
  | fail e => exact fun s _ h ↦ h.1
  | act upd next ih =>
    intro s hs ⟨hPs, hI⟩ hallowed
    obtain ⟨hinv, hguar, hP'⟩ :=
      hstep s (upd s) (hp s).1 hs hPs hallowed (hI _ (.act s (.stop _ _)))
    -- the trace goes on from what the others leave, and they leave what `f` observes
    refine ⟨hinv, hguar, _, ?_, ⟨hP', fun v hv ↦ hI v (.act s hv)⟩, ih s (hp s).2⟩
    intro t t' ht ht' hrely h
    refine ⟨hP t t' ht ht' hrely h.1, ?_⟩
    rw [hf t t' ht ht' hrely h.1]
    exact h.2

/-! ## 3. The rule for runs -/

variable [DecidableEq ι] (V) (K : ι → Contract σ)

/-- The obligations of a system whose threads are verified one by one. -/
structure Verified (S : System σ ε α ι κ) : Prop where
  start : ∀ s T i k, V.inv s → S.canStart s T i k →
    ∃ P Q, Stable V (K i) P ∧ P s ∧ Holds V (K i) P (S.prog k) Q
  compatible : ∀ i j s s', i ≠ j → (K j).guar s s' → (K i).rely s s'
  allowed : ∀ s T i k upd next, S.canAct s T i → T i = some (k, .act upd next) →
    V.allowed s (upd s)
  restart : ∀ s s', V.inv s → S.restart s s' → V.inv s'

/-- Every thread that is under way has a local assertion that holds now and carries its rest. -/
def Annotated (s : σ) (T : Pool σ ε α ι κ) : Prop :=
  ∀ i k p, T i = some (k, p) → ∃ P Q, Stable V (K i) P ∧ P s ∧ Holds V (K i) P p Q

variable {V K} {S : System σ ε α ι κ}

theorem Annotated.update {s s' : σ} {T : Pool σ ε α ι κ} (h : Annotated V K s T) (i : ι)
    {t? : Option (κ × Prog σ ε α)} (hs : V.inv s) (hs' : V.inv s')
    (hothers : ∀ j, j ≠ i → s' = s ∨ (K j).rely s s')
    (hself : ∀ k p, t? = some (k, p) →
      ∃ P Q, Stable V (K i) P ∧ P s' ∧ Holds V (K i) P p Q) :
    Annotated V K s' (Function.update T i t?) := by
  intro j k p hj
  by_cases hji : j = i
  · cases hji
    rw [Function.update_self] at hj
    exact hself k p hj
  · rw [Function.update_of_ne hji] at hj
    obtain ⟨P, Q, hstable, hP, hp⟩ := h j k p hj
    refine ⟨P, Q, hstable, ?_, hp⟩
    rcases hothers j hji with rfl | hrely
    · exact hP
    · exact hstable s s' hs hs' hrely hP

/-- What one action of a thread does in an annotated pool. -/
theorem Verified.act (hv : Verified V K S) {s : σ} {T : Pool σ ε α ι κ} (hs : V.inv s)
    (hT : Annotated V K s T) {i : ι} {k : κ} {upd : σ → σ} {next : σ → Prog σ ε α}
    (hi : T i = some (k, .act upd next)) (hcan : S.canAct s T i) :
    V.inv (upd s) ∧ (K i).guar s (upd s) ∧
      Annotated V K (upd s) (Function.update T i (some (k, next s))) := by
  obtain ⟨P, Q, _, hP, hp⟩ := hT i k _ hi
  obtain ⟨hinv, hguar, R, hstable, hR, hnext⟩ :=
    hp s hs hP (hv.allowed s T i k upd next hcan hi)
  refine ⟨hinv, hguar, hT.update i hs hinv (fun j hj ↦ .inr (hv.compatible j i s _ hj hguar)) ?_⟩
  intro k' p' heq
  cases heq
  exact ⟨R, Q, hstable, hR, hnext⟩

/-- **Rely/guarantee rule.**  The invariant holds in every state that a verified system reaches, and
every thread stands at one of its assertions. -/
theorem Verified.reachable (hv : Verified V K S) {s₀ s : σ} {T : Pool σ ε α ι κ}
    (hs₀ : V.inv s₀) (h : Reachable S s₀ s T) : V.inv s ∧ Annotated V K s T := by
  induction h with
  | init => exact ⟨hs₀, fun i k p hi ↦ by cases hi⟩
  | step _ hstep ih =>
    obtain ⟨hs, hT⟩ := ih
    cases hstep with
    | start hfree hcan =>
      refine ⟨hs, hT.update _ hs hs (fun _ _ ↦ .inl rfl) fun k p heq ↦ ?_⟩
      cases heq
      exact hv.start _ _ _ _ hs hcan
    | act hi hcan =>
      obtain ⟨hinv, _, hT'⟩ := hv.act hs hT hi hcan
      exact ⟨hinv, hT'⟩
    | returned hi => exact ⟨hs, hT.update _ hs hs (fun _ _ ↦ .inl rfl) fun _ _ heq ↦ by cases heq⟩
    | failed hi => exact ⟨hs, hT.update _ hs hs (fun _ _ ↦ .inl rfl) fun _ _ heq ↦ by cases heq⟩
    | restart hre => exact ⟨hv.restart _ _ hs hre, fun i k p hi ↦ by cases hi⟩

end Interleaving
