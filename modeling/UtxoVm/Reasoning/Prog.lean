import Mathlib

/-!
# Prog — programs made of atomic steps on a shared state

A `Prog σ ε α` is a program that runs one atomic action after another on a state of type `σ` and
ends with a value or an error.  One program has three readings: run to its end (`run`), stopped
after some of its actions (`crash`), and interleaved with other programs (`Interleaving`).
-/

/-- `act upd next` is one atomic action: the state `s` becomes `upd s`, and the program continues
as `next s` with what it has read. -/
inductive Prog (σ ε α : Type) where
  | done (a : α)
  | fail (e : ε)
  | act (upd : σ → σ) (next : σ → Prog σ ε α)

namespace Prog

variable {σ τ ε δ α β γ : Type}

def bind : Prog σ ε α → (α → Prog σ ε β) → Prog σ ε β
  | done a, f => f a
  | fail e, _ => fail e
  | act upd next, f => act upd fun s ↦ bind (next s) f

instance : Monad (Prog σ ε) where
  pure := done
  bind := bind

theorem bind_bind (p : Prog σ ε α) (f : α → Prog σ ε β) (g : β → Prog σ ε γ) :
    p >>= f >>= g = p >>= fun a ↦ f a >>= g := by
  induction p with
  | done a => rfl
  | fail e => rfl
  | act upd next ih =>
    show act upd _ = act upd _
    congr 1
    exact funext ih

/-- Handle the error of a program: the caller gets it as a value. -/
def attempt : Prog σ ε α → Prog σ δ (Except ε α)
  | done a => done (.ok a)
  | fail e => done (.error e)
  | act upd next => act upd fun s ↦ attempt (next s)

/-- Run a program on one component of a larger state. -/
def zoom (get : τ → σ) (set : σ → τ → τ) : Prog σ ε α → Prog τ ε α
  | done a => done a
  | fail e => fail e
  | act upd next => act (fun t ↦ set (upd (get t)) t) fun t ↦ zoom get set (next (get t))

def ofExcept : Except ε α → Prog σ ε α
  | .ok a => done a
  | .error e => fail e

def read (f : σ → α) : Prog σ ε α := act id fun s ↦ done (f s)

def modify (f : σ → σ) : Prog σ ε Unit := act f fun _ ↦ done ()

theorem zoom_bind (get : τ → σ) (set : σ → τ → τ) (p : Prog σ ε α) (f : α → Prog σ ε β) :
    zoom get set (p >>= f) = zoom get set p >>= fun a ↦ zoom get set (f a) := by
  induction p with
  | done a => rfl
  | fail e => rfl
  | act upd next ih =>
    show act _ _ = act _ _
    congr 1
    exact funext fun t ↦ ih (get t)

theorem zoom_attempt (get : τ → σ) (set : σ → τ → τ) (p : Prog σ ε α) :
    zoom get set (attempt p : Prog σ δ (Except ε α)) = attempt (zoom get set p) := by
  induction p with
  | done a => rfl
  | fail e => rfl
  | act upd next ih =>
    show act _ _ = act _ _
    congr 1
    exact funext fun t ↦ ih (get t)

/-! ## 1. Sequential runs -/

/-- The final state and result of a program that runs alone. -/
def run : Prog σ ε α → σ → σ × Except ε α
  | done a, s => (s, .ok a)
  | fail e, s => (s, .error e)
  | act upd next, s => run (next s) (upd s)

@[simp] theorem run_done (a : α) (s : σ) : run (done a : Prog σ ε α) s = (s, .ok a) := rfl

@[simp] theorem run_pure (a : α) (s : σ) : run (pure a : Prog σ ε α) s = (s, .ok a) := rfl

@[simp] theorem run_fail (e : ε) (s : σ) : run (fail e : Prog σ ε α) s = (s, .error e) := rfl

@[simp] theorem run_act (upd : σ → σ) (next : σ → Prog σ ε α) (s : σ) :
    run (act upd next) s = run (next s) (upd s) := rfl

@[simp] theorem run_read (f : σ → α) (s : σ) : run (read f : Prog σ ε α) s = (s, .ok (f s)) := rfl

@[simp] theorem run_modify (f : σ → σ) (s : σ) :
    run (modify f : Prog σ ε Unit) s = (f s, .ok ()) := rfl

@[simp] theorem run_ofExcept (r : Except ε α) (s : σ) :
    run (ofExcept r : Prog σ ε α) s = (s, r) := by
  cases r <;> rfl

/-- The result of `p`, handed to what follows. -/
def andThen (r : σ × Except ε α) (f : α → Prog σ ε β) : σ × Except ε β :=
  match r with
  | (s, .ok a) => run (f a) s
  | (s, .error e) => (s, .error e)

@[simp] theorem andThen_ok (s : σ) (a : α) (f : α → Prog σ ε β) :
    andThen (s, .ok a) f = run (f a) s := rfl

@[simp] theorem andThen_error (s : σ) (e : ε) (f : α → Prog σ ε β) :
    andThen (s, .error e) f = (s, .error e) := rfl

@[simp] theorem run_bind (p : Prog σ ε α) (f : α → Prog σ ε β) (s : σ) :
    run (p >>= f) s = andThen (run p s) f := by
  induction p generalizing s with
  | done a => rfl
  | fail e => rfl
  | act upd next ih => exact ih s (upd s)

@[simp] theorem run_attempt (p : Prog σ ε α) (s : σ) :
    run (attempt p : Prog σ δ (Except ε α)) s = ((run p s).1, .ok (run p s).2) := by
  induction p generalizing s with
  | done a => rfl
  | fail e => rfl
  | act upd next ih => exact ih s (upd s)

/-- A program on a component acts on that component alone, when `get` and `set` are a lens. -/
theorem run_zoom {get : τ → σ} {set : σ → τ → τ} (hget : ∀ s t, get (set s t) = s)
    (hset : ∀ s s' t, set s (set s' t) = set s t) (hself : ∀ t, set (get t) t = t)
    (p : Prog σ ε α) (t : τ) :
    run (zoom get set p) t = (set (run p (get t)).1 t, (run p (get t)).2) := by
  induction p generalizing t with
  | done a => simp [zoom, hself]
  | fail e => simp [zoom, hself]
  | act upd next ih =>
    show run (zoom get set (next (get t))) (set (upd (get t)) t) = _
    rw [ih, hget, hset]
    rfl

/-! ## 2. Crashes -/

/-- The state in which a program is stopped after at most `n` of its actions. -/
def crash : Nat → Prog σ ε α → σ → σ
  | 0, _, s => s
  | _ + 1, done _, s => s
  | _ + 1, fail _, s => s
  | n + 1, act upd next, s => crash n (next s) (upd s)

/-- What is left of the program after at most `n` of its actions. -/
def after : Nat → Prog σ ε α → σ → Prog σ ε α
  | 0, p, _ => p
  | _ + 1, done a, _ => done a
  | _ + 1, fail e, _ => fail e
  | n + 1, act upd next, s => after n (next s) (upd s)

/-- The value of a program that has returned. -/
def result? : Prog σ ε α → Option α
  | done a => some a
  | _ => none

theorem eq_done {p : Prog σ ε α} {a : α} (h : p.result? = some a) : p = done a := by
  cases p with
  | done b => exact congrArg done (Option.some.inj h)
  | fail e => cases h
  | act upd next => cases h

/-- `I` holds in every state that the program passes through, its first and last included. -/
def Always (I : σ → Prop) : Prog σ ε α → σ → Prop
  | done _, s => I s
  | fail _, s => I s
  | act upd next, s => I s ∧ Always I (next s) (upd s)

theorem Always.start {I : σ → Prop} {p : Prog σ ε α} {s : σ} (h : Always I p s) : I s := by
  cases p with
  | done a => exact h
  | fail e => exact h
  | act upd next => exact h.1

/-- Stopping anywhere is covered. -/
theorem Always.crash {I : σ → Prop} {p : Prog σ ε α} {s : σ} (h : Always I p s) (n : Nat) :
    I (p.crash n s) := by
  induction n generalizing p s with
  | zero => exact h.start
  | succ n ih =>
    cases p with
    | done a => exact h
    | fail e => exact h
    | act upd next => exact ih h.2

theorem Always.run {I : σ → Prop} {p : Prog σ ε α} {s : σ} (h : Always I p s) : I (p.run s).1 := by
  induction p generalizing s with
  | done a => exact h
  | fail e => exact h
  | act upd next ih => exact ih s h.2

/-- Sequencing: the rest of the program starts where the first part ended. -/
theorem Always.bind {I : σ → Prop} {p : Prog σ ε α} {f : α → Prog σ ε β} {s : σ}
    (hp : Always I p s) (hf : ∀ s' a, p.run s = (s', .ok a) → Always I (f a) s') :
    Always I (p >>= f) s := by
  induction p generalizing s with
  | done a => exact hf s a rfl
  | fail e => exact hp
  | act upd next ih => exact ⟨hp.1, ih s hp.2 hf⟩

/-- Every action of the program, when it runs alone, is a step of `R`. -/
def Stepwise (R : σ → σ → Prop) : Prog σ ε α → σ → Prop
  | done _, _ => True
  | fail _, _ => True
  | act upd next, s => R s (upd s) ∧ Stepwise R (next s) (upd s)

theorem Stepwise.bind {R : σ → σ → Prop} {p : Prog σ ε α} {f : α → Prog σ ε β} {s : σ}
    (hp : Stepwise R p s) (hf : ∀ s' a, p.run s = (s', .ok a) → Stepwise R (f a) s') :
    Stepwise R (p >>= f) s := by
  induction p generalizing s with
  | done a => exact hf s a rfl
  | fail e => trivial
  | act upd next ih => exact ⟨hp.1, ih s hp.2 hf⟩

theorem Stepwise.after {R : σ → σ → Prop} {p : Prog σ ε α} {s : σ} (h : Stepwise R p s) (n : Nat)
    {upd : σ → σ} {next : σ → Prog σ ε α} (hn : p.after n s = act upd next) :
    R (p.crash n s) (upd (p.crash n s)) := by
  induction n generalizing p s with
  | zero =>
    change p = act upd next at hn
    rw [hn] at h
    exact h.1
  | succ n ih =>
    cases p with
    | done a => cases hn
    | fail e => cases hn
    | act upd' next' => exact ih h.2 hn

/-! ## 3. Frames -/

/-- No action of the program changes the observation `f`. -/
def Keeps (f : σ → γ) : Prog σ ε α → Prop
  | done _ => True
  | fail _ => True
  | act upd next => ∀ s, f (upd s) = f s ∧ Keeps f (next s)

variable {f : σ → γ}

theorem Keeps.pure (a : α) : Keeps f (pure a : Prog σ ε α) := trivial

theorem Keeps.bind {p : Prog σ ε α} {k : α → Prog σ ε β} (hp : Keeps f p)
    (hk : ∀ a, Keeps f (k a)) : Keeps f (p >>= k) := by
  induction p with
  | done a => exact hk a
  | fail e => trivial
  | act upd next ih => exact fun s ↦ ⟨(hp s).1, ih s (hp s).2⟩

theorem Keeps.attempt {p : Prog σ ε α} (hp : Keeps f p) :
    Keeps f (attempt p : Prog σ δ (Except ε α)) := by
  induction p with
  | done a => trivial
  | fail e => trivial
  | act upd next ih => exact fun s ↦ ⟨(hp s).1, ih s (hp s).2⟩

theorem Keeps.ofExcept (r : Except ε α) : Keeps f (ofExcept r : Prog σ ε α) := by
  cases r <;> trivial

theorem Keeps.read (g : σ → α) : Keeps f (read g : Prog σ ε α) := fun _ ↦ ⟨rfl, trivial⟩

theorem Keeps.modify {g : σ → σ} (hg : ∀ s, f (g s) = f s) : Keeps f (modify g : Prog σ ε Unit) :=
  fun s ↦ ⟨hg s, trivial⟩

/-- A program on a component keeps whatever it keeps there, and all that lies outside. -/
theorem Keeps.zoom {ω : Type} {f : τ → γ} {get : τ → σ} {set : σ → τ → τ} {p : Prog σ ε α}
    {g : σ → ω}
    (hp : Keeps g p) (hfg : ∀ s t, g s = g (get t) → f (set s t) = f t) :
    Keeps f (zoom get set p) := by
  induction p with
  | done a => trivial
  | fail e => trivial
  | act upd next ih => exact fun t ↦ ⟨hfg _ t (hp (get t)).1, ih _ (hp (get t)).2⟩

/-- **Frame rule.** -/
theorem Keeps.run {p : Prog σ ε α} (hp : Keeps f p) (s : σ) : f (p.run s).1 = f s := by
  induction p generalizing s with
  | done a => rfl
  | fail e => rfl
  | act upd next ih => exact (ih s (hp s).2 (upd s)).trans (hp s).1

theorem Keeps.stepwise {R : σ → σ → Prop} {p : Prog σ ε α} (hp : Keeps f p)
    (hR : ∀ s s', f s' = f s → R s s') (s : σ) : Stepwise R p s := by
  induction p generalizing s with
  | done a => trivial
  | fail e => trivial
  | act upd next ih => exact ⟨hR s _ (hp s).1, ih s (hp s).2 (upd s)⟩

/-! ## 4. Invariants -/

/-- Run alone from a state with `I`, the program ends in a state with `I`, and a value that it
returns satisfies `Q`. -/
def Ensures (I : σ → Prop) (p : Prog σ ε α) (Q : α → Prop) : Prop :=
  ∀ s, I s → I (p.run s).1 ∧ ∀ a, (p.run s).2 = .ok a → Q a

variable {I : σ → Prop} {Q Q' : α → Prop} {p : Prog σ ε α}

theorem Ensures.pure {a : α} (ha : Q a) : Ensures I (pure a : Prog σ ε α) Q := by
  refine fun s hs ↦ ⟨hs, fun b hb ↦ ?_⟩
  cases hb
  exact ha

theorem Ensures.fail (e : ε) : Ensures I (fail e : Prog σ ε α) Q :=
  fun _ hs ↦ ⟨hs, fun _ ha ↦ by cases ha⟩

theorem Ensures.imp (h : Ensures I p Q) (hQ : ∀ a, Q a → Q' a) : Ensures I p Q' :=
  fun s hs ↦ ⟨(h s hs).1, fun a ha ↦ hQ a ((h s hs).2 a ha)⟩

theorem Ensures.bind {k : α → Prog σ ε β} {R : β → Prop} (hp : Ensures I p Q)
    (hk : ∀ a, Q a → Ensures I (k a) R) : Ensures I (p >>= k) R := by
  intro s hs
  obtain ⟨hs', hQ⟩ := hp s hs
  rw [run_bind]
  generalize p.run s = r at hs' hQ
  obtain ⟨s', e | a⟩ := r
  · exact ⟨hs', fun _ hb ↦ by cases hb⟩
  · exact hk a (hQ a rfl) s' hs'

theorem Ensures.attempt (hp : Ensures I p Q) :
    Ensures I (attempt p : Prog σ δ (Except ε α)) fun r ↦ ∀ a, r = .ok a → Q a := by
  intro s hs
  rw [run_attempt]
  refine ⟨(hp s hs).1, fun r hr a ha ↦ ?_⟩
  cases hr
  exact (hp s hs).2 a ha

theorem Ensures.ofExcept {r : Except ε α} (hr : ∀ a, r = .ok a → Q a) :
    Ensures I (ofExcept r : Prog σ ε α) Q := by
  intro s hs
  rw [run_ofExcept]
  exact ⟨hs, hr⟩

theorem Ensures.read {g : σ → α} (hg : ∀ s, I s → Q (g s)) :
    Ensures I (read g : Prog σ ε α) Q := by
  refine fun s hs ↦ ⟨hs, fun a ha ↦ ?_⟩
  cases ha
  exact hg s hs

theorem Ensures.modify {g : σ → σ} (hg : ∀ s, I s → I (g s)) :
    Ensures I (modify g : Prog σ ε Unit) fun _ ↦ True :=
  fun s hs ↦ ⟨hg s hs, fun _ _ ↦ trivial⟩

/-- A program on a component. -/
theorem Ensures.zoom {J : τ → Prop} {get : τ → σ} {set : σ → τ → τ}
    (hget : ∀ s t, get (set s t) = s)
    (hset : ∀ s s' t, set s (set s' t) = set s t) (hself : ∀ t, set (get t) t = t)
    (hJ : ∀ t, J t → I (get t)) (hI : ∀ s t, I s → J t → J (set s t)) (hp : Ensures I p Q) :
    Ensures J (zoom get set p) Q := by
  intro t ht
  rw [run_zoom hget hset hself]
  obtain ⟨hs, hQ⟩ := hp (get t) (hJ t ht)
  exact ⟨hI _ t hs ht, hQ⟩

/-! ## 5. Results under interference -/

/-- Whatever the states are that the program meets, what it returns satisfies `Q`. -/
def Yields (Q : Except ε α → Prop) : Prog σ ε α → Prop
  | done a => Q (.ok a)
  | fail e => Q (.error e)
  | act _ next => ∀ s, Yields Q (next s)

theorem Yields.zoom {get : τ → σ} {set : σ → τ → τ} {p : Prog σ ε α} {Q : Except ε α → Prop}
    (hp : p.Yields Q) : (zoom get set p).Yields Q := by
  induction p with
  | done a => exact hp
  | fail e => exact hp
  | act upd next ih => exact fun t ↦ ih _ (hp _)

/-- The program has ended. -/
def Ended : Prog σ ε α → Prop
  | act _ _ => False
  | _ => True

/-- The program performs one action at most. -/
def Once : Prog σ ε α → Prop
  | act _ next => ∀ s, (next s).Ended
  | _ => True

theorem Ended.bind {p : Prog σ ε α} {k : α → Prog σ ε β} (hp : Ended p) (hk : ∀ a, Ended (k a)) :
    Ended (p >>= k) := by
  cases p with
  | done a => exact hk a
  | fail e => trivial
  | act upd next => exact hp.elim

theorem Once.attempt {p : Prog σ ε α} (hp : Once p) :
    Once (attempt p : Prog σ δ (Except ε α)) := by
  cases p with
  | done a => trivial
  | fail e => trivial
  | act upd next =>
    intro s
    have hs := hp s
    show Ended (Prog.attempt (next s))
    cases hnext : next s with
    | done a => trivial
    | fail e => trivial
    | act upd' next' =>
      rw [hnext] at hs
      exact hs.elim

theorem Once.bind {p : Prog σ ε α} {k : α → Prog σ ε β} (hp : Once p) (hk : ∀ a, Ended (k a)) :
    Once (p >>= k) := by
  cases p with
  | done a =>
    have ha := hk a
    show Once (k a)
    cases hka : k a with
    | done b => trivial
    | fail e => trivial
    | act upd next =>
      rw [hka] at ha
      exact ha.elim
  | fail e => trivial
  | act upd next => exact fun s ↦ (hp s).bind hk

/-- A program that looks at the state once returns what it returns when it runs alone in some
state. -/
theorem Once.yields {p : Prog σ ε α} (hp : Once p) (s₀ : σ) :
    p.Yields fun r ↦ ∃ s, (p.run s).2 = r := by
  cases p with
  | done a => exact ⟨s₀, rfl⟩
  | fail e => exact ⟨s₀, rfl⟩
  | act upd next =>
    intro s
    have hs := hp s
    cases hnext : next s with
    | done a => exact ⟨s, by rw [run_act, hnext, run_done]⟩
    | fail e => exact ⟨s, by rw [run_act, hnext, run_fail]⟩
    | act upd' next' =>
      rw [hnext] at hs
      exact hs.elim

/-! ## 6. Ghost state -/

/-- The program `p` does to the part `get` of its state what `p'` does, action by action, and
returns the same: all else that it changes is ghost state. -/
def Erases (get : τ → σ) : Prog τ ε α → Prog σ ε α → Prop
  | done a, done a' => a = a'
  | fail e, fail e' => e = e'
  | act upd next, act upd' next' =>
      ∀ t, get (upd t) = upd' (get t) ∧ Erases get (next t) (next' (get t))
  | _, _ => False

theorem Erases.pure {get : τ → σ} (a : α) : Erases get (pure a : Prog τ ε α) (pure a) := rfl

theorem Erases.fail {get : τ → σ} (e : ε) : Erases get (fail e : Prog τ ε α) (fail e) := rfl

theorem Erases.bind {get : τ → σ} {p : Prog τ ε α} {p' : Prog σ ε α} {f : α → Prog τ ε β}
    {f' : α → Prog σ ε β} (hp : Erases get p p') (hf : ∀ a, Erases get (f a) (f' a)) :
    Erases get (p >>= f) (p' >>= f') := by
  induction p generalizing p' with
  | done a =>
    cases p' with
    | done a' =>
      cases (show a = a' from hp)
      exact hf a
    | fail e' => exact hp.elim
    | act upd' next' => exact hp.elim
  | fail e =>
    cases p' with
    | done a' => exact hp.elim
    | fail e' => exact hp
    | act upd' next' => exact hp.elim
  | act upd next ih =>
    cases p' with
    | done a' => exact hp.elim
    | fail e' => exact hp.elim
    | act upd' next' => exact fun t ↦ ⟨(hp t).1, ih t (hp t).2⟩

theorem Erases.zoom {get : τ → σ} {set : σ → τ → τ} (hget : ∀ s t, get (set s t) = s)
    (p : Prog σ ε α) : Erases get (zoom get set p) p := by
  induction p with
  | done a => rfl
  | fail e => rfl
  | act upd next ih => exact fun t ↦ ⟨hget _ t, ih _⟩

/-- Ghost state changes nothing about a run. -/
theorem Erases.run {get : τ → σ} {p : Prog τ ε α} {p' : Prog σ ε α} (h : Erases get p p') (t : τ) :
    p'.run (get t) = (get (p.run t).1, (p.run t).2) := by
  induction p generalizing p' t with
  | done a =>
    cases p' with
    | done a' =>
      cases (show a = a' from h)
      rfl
    | fail e' => exact h.elim
    | act upd' next' => exact h.elim
  | fail e =>
    cases p' with
    | done a' => exact h.elim
    | fail e' =>
      cases (show e = e' from h)
      rfl
    | act upd' next' => exact h.elim
  | act upd next ih =>
    cases p' with
    | done a' => exact h.elim
    | fail e' => exact h.elim
    | act upd' next' =>
      obtain ⟨hupd, hnext⟩ := h t
      rw [run_act, run_act, ← hupd]
      exact ih t hnext (upd t)

end Prog
