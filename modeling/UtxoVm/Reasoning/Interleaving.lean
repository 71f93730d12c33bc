import UtxoVm.Reasoning.Prog

/-!
# Interleaving — programs that run at the same time

A pool of programs shares one state; one atomic action of one program is one step.  Invariants are
proved with an outline: every program that is under way stands at a *stage* of its call, and the
invariant speaks of the state and of the stages of all threads.
-/

namespace Interleaving

variable {σ ε α ι κ φ : Type}

/-- The programs under way, by thread, each with the call that it runs. -/
abbrev Pool (σ ε α ι κ : Type) := ι → Option (κ × Prog σ ε α)

/-- The program of each call, and when it may start, perform its next action, or be cut off by a
restart. -/
structure System (σ ε α ι κ : Type) where
  prog : κ → Prog σ ε α
  canStart : σ → Pool σ ε α ι κ → ι → κ → Prop
  canAct : σ → Pool σ ε α ι κ → ι → Prop
  restart : σ → σ → Prop

/-- The stages that the threads have reached. -/
abbrev Stages (ι κ φ : Type) := ι → Option (κ × φ)

/-- Every thread stands at its stage: the rest of its program is one that the stage allows. -/
def Matches (at' : κ → φ → Prog σ ε α → Prop) (T : Pool σ ε α ι κ) (G : Stages ι κ φ) : Prop :=
  ∀ i, Option.Rel (fun t g ↦ t.1 = g.1 ∧ at' t.1 g.2 t.2) (T i) (G i)

variable {at' : κ → φ → Prog σ ε α → Prop} {T : Pool σ ε α ι κ} {G : Stages ι κ φ}

theorem Matches.empty : Matches at' (fun _ ↦ none : Pool σ ε α ι κ) (fun _ ↦ none) :=
  fun _ ↦ .none

/-- The stage of a thread that is under way. -/
theorem Matches.stage (h : Matches at' T G) {i : ι} {k : κ} {prog : Prog σ ε α}
    (hi : T i = some (k, prog)) : ∃ p, G i = some (k, p) ∧ at' k p prog := by
  have hrel := h i
  rw [hi] at hrel
  generalize hg : G i = g? at hrel
  cases hrel with
  | some hstage =>
    rename_i g
    obtain ⟨hk, hat⟩ := hstage
    refine ⟨g.2, ?_, hat⟩
    rw [show k = g.1 from hk]

/-- No call under way, no stage. -/
theorem Matches.stages_none (h : Matches at' (fun _ ↦ none : Pool σ ε α ι κ) G) (i : ι) :
    G i = none := by
  have hrel := h i
  generalize G i = g? at hrel
  cases hrel
  rfl

variable [DecidableEq ι]

/-- One step of one thread, or a restart that drops all threads. -/
inductive Step (S : System σ ε α ι κ) : σ → Pool σ ε α ι κ → σ → Pool σ ε α ι κ → Prop
  | start {s : σ} {T : Pool σ ε α ι κ} {i : ι} {k : κ} : T i = none → S.canStart s T i k →
      Step S s T s (Function.update T i (some (k, S.prog k)))
  | act {s : σ} {T : Pool σ ε α ι κ} {i : ι} {k : κ} {upd : σ → σ} {next : σ → Prog σ ε α} :
      T i = some (k, .act upd next) → S.canAct s T i →
      Step S s T (upd s) (Function.update T i (some (k, next s)))
  | returned {s : σ} {T : Pool σ ε α ι κ} {i : ι} {k : κ} {a : α} : T i = some (k, .done a) →
      Step S s T s (Function.update T i none)
  | failed {s : σ} {T : Pool σ ε α ι κ} {i : ι} {k : κ} {e : ε} : T i = some (k, .fail e) →
      Step S s T s (Function.update T i none)
  | restart {s s' : σ} {T : Pool σ ε α ι κ} : S.restart s s' → Step S s T s' fun _ ↦ none

/-- The step from one point to the other is an action of the thread `i` in its call `k`. -/
def ActsIn (s : σ) (T : Pool σ ε α ι κ) (s' : σ) (T' : Pool σ ε α ι κ) (i : ι) (k : κ) : Prop :=
  ∃ upd next, T i = some (k, .act upd next) ∧ s' = upd s ∧
    T' = Function.update T i (some (k, next s))

/-- What is reached from the state `s₀` with no call under way. -/
inductive Reachable (S : System σ ε α ι κ) (s₀ : σ) : σ → Pool σ ε α ι κ → Prop
  | init : Reachable S s₀ s₀ fun _ ↦ none
  | step {s s' : σ} {T T' : Pool σ ε α ι κ} : Reachable S s₀ s T → Step S s T s' T' →
      Reachable S s₀ s' T'

/-- A pool in which no thread is under way is the empty one. -/
theorem Reachable.of_idle {S : System σ ε α ι κ} {s₀ s : σ} {T : Pool σ ε α ι κ}
    (h : Reachable S s₀ s T) (hidle : ∀ i, T i = none) : Reachable S s₀ s fun _ ↦ none := by
  have hT : T = fun _ ↦ none := funext hidle
  rwa [hT] at h

/-- The action that comes next leads to the next state of the run. -/
theorem crash_succ {p : Prog σ ε α} {n : Nat} {s : σ} {upd : σ → σ} {next : σ → Prog σ ε α}
    (h : p.after n s = .act upd next) : p.crash (n + 1) s = upd (p.crash n s) := by
  induction n generalizing p s with
  | zero =>
    cases h
    rfl
  | succ n ih =>
    cases p with
    | done a => cases h
    | fail e => cases h
    | act upd' next' => exact ih (p := next' s) h

/-- A state that changes once more has one more action before it. -/
theorem exists_act_of_crash_ne {p : Prog σ ε α} {n : Nat} {s : σ}
    (h : p.crash (n + 1) s ≠ p.crash n s) :
    ∃ (upd : σ → σ) (next : σ → Prog σ ε α), p.after n s = .act upd next := by
  induction n generalizing p s with
  | zero =>
    cases p with
    | done a => exact absurd rfl h
    | fail e => exact absurd rfl h
    | act upd next => exact ⟨upd, next, rfl⟩
  | succ n ih =>
    cases p with
    | done a => exact absurd rfl h
    | fail e => exact absurd rfl h
    | act upd next => exact ih (p := next s) h

/-- One thread performs `n` actions. -/
theorem Reachable.acts {S : System σ ε α ι κ} {s₀ s : σ} {T : Pool σ ε α ι κ} {i : ι} {k : κ}
    {p : Prog σ ε α} (h : Reachable S s₀ s T) (hi : T i = some (k, p)) (n : Nat)
    (hcan : ∀ m < n, ∀ T' : Pool σ ε α ι κ, T' i = some (k, p.after m s) →
      S.canAct (p.crash m s) T' i) :
    ∃ T', Reachable S s₀ (p.crash n s) T' ∧ T' i = some (k, p.after n s) ∧
      ∀ j, j ≠ i → T' j = T j := by
  induction n generalizing p s T with
  | zero => exact ⟨T, h, hi, fun _ _ ↦ rfl⟩
  | succ n ih =>
    cases p with
    | done a => exact ⟨T, h, hi, fun _ _ ↦ rfl⟩
    | fail e => exact ⟨T, h, hi, fun _ _ ↦ rfl⟩
    | act upd next =>
      have hstep := Reachable.step h (.act hi (hcan 0 (by omega) T hi))
      obtain ⟨T', hreach, hself, hothers⟩ := ih hstep (Function.update_self ..) fun m hm T' hT' ↦
        hcan (m + 1) (by omega) T' hT'
      refine ⟨T', hreach, hself, fun j hj ↦ ?_⟩
      rw [hothers j hj, Function.update_of_ne hj]

/-- One thread runs a whole call, in `n` actions. -/
theorem Reachable.call {S : System σ ε α ι κ} {s₀ s : σ} {T : Pool σ ε α ι κ} {i : ι} {k : κ}
    (h : Reachable S s₀ s T) (hi : T i = none) (hstart : S.canStart s T i k) (n : Nat)
    (hcan : ∀ m < n, ∀ T' : Pool σ ε α ι κ, T' i = some (k, (S.prog k).after m s) →
      S.canAct ((S.prog k).crash m s) T' i)
    {a : α} (hend : ((S.prog k).after n s).result? = some a) :
    ∃ T', Reachable S s₀ ((S.prog k).crash n s) T' ∧ T' i = none ∧ ∀ j, j ≠ i → T' j = T j := by
  have hbegin := Reachable.step h (.start hi hstart)
  obtain ⟨T', hreach, hself, hothers⟩ := hbegin.acts (Function.update_self ..) n hcan
  rw [Prog.eq_done hend] at hself
  refine ⟨_, hreach.step (.returned hself), Function.update_self .., fun j hj ↦ ?_⟩
  rw [Function.update_of_ne hj, hothers j hj, Function.update_of_ne hj]

/-- The proof obligations of an outline. -/
structure Outline (S : System σ ε α ι κ) (at' : κ → φ → Prog σ ε α → Prop)
    (Inv : σ → Stages ι κ φ → Prop) : Prop where
  start : ∀ s T G i k, Matches at' T G → Inv s G → T i = none → S.canStart s T i k →
    ∃ p, at' k p (S.prog k) ∧ Inv s (Function.update G i (some (k, p)))
  act : ∀ s T G i k p upd next, Matches at' T G → Inv s G → G i = some (k, p) →
    T i = some (k, .act upd next) → at' k p (.act upd next) → S.canAct s T i →
    ∃ p', at' k p' (next s) ∧ Inv (upd s) (Function.update G i (some (k, p')))
  returned : ∀ s G i k p a, Inv s G → G i = some (k, p) → at' k p (.done a) →
    Inv s (Function.update G i none)
  failed : ∀ s G i k p e, Inv s G → G i = some (k, p) → at' k p (.fail e) →
    Inv s (Function.update G i none)
  restart : ∀ s s' G, Inv s G → S.restart s s' → Inv s' fun _ ↦ none

variable {S : System σ ε α ι κ} {Inv : σ → Stages ι κ φ → Prop}

theorem Matches.update (h : Matches at' T G) (i : ι) {t? : Option (κ × Prog σ ε α)}
    {g? : Option (κ × φ)} (hi : Option.Rel (fun t g ↦ t.1 = g.1 ∧ at' t.1 g.2 t.2) t? g?) :
    Matches at' (Function.update T i t?) (Function.update G i g?) := by
  intro j
  by_cases hj : j = i
  · rw [hj, Function.update_self, Function.update_self]
    exact hi
  · rw [Function.update_of_ne hj, Function.update_of_ne hj]
    exact h j

/-- **Outline rule.**  The invariant of an outline holds at every reachable point. -/
theorem Reachable.outline (ho : Outline S at' Inv) {s₀ s : σ} (hinit : Inv s₀ fun _ ↦ none)
    (h : Reachable S s₀ s T) : ∃ G, Matches at' T G ∧ Inv s G := by
  induction h with
  | init => exact ⟨_, .empty, hinit⟩
  | step _ hstep ih =>
    obtain ⟨G, hmatch, hinv⟩ := ih
    cases hstep with
    | start hfree hcan =>
      obtain ⟨p, hat, hinv'⟩ := ho.start _ _ _ _ _ hmatch hinv hfree hcan
      exact ⟨_, hmatch.update _ (.some ⟨rfl, hat⟩), hinv'⟩
    | act hi hcan =>
      obtain ⟨p, hp, hat⟩ := hmatch.stage hi
      obtain ⟨p', hat', hinv'⟩ := ho.act _ _ _ _ _ _ _ _ hmatch hinv hp hi hat hcan
      exact ⟨_, hmatch.update _ (.some ⟨rfl, hat'⟩), hinv'⟩
    | returned hi =>
      obtain ⟨p, hp, hat⟩ := hmatch.stage hi
      exact ⟨_, hmatch.update _ .none, ho.returned _ _ _ _ _ _ hinv hp hat⟩
    | failed hi =>
      obtain ⟨p, hp, hat⟩ := hmatch.stage hi
      exact ⟨_, hmatch.update _ .none, ho.failed _ _ _ _ _ _ hinv hp hat⟩
    | restart hre => exact ⟨_, .empty, ho.restart _ _ _ hinv hre⟩

end Interleaving
