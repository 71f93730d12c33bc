import UtxoVm.Reasoning.Prog

/-!
# Schedule — a family of programs, each of which runs once

The programs of a family share one state, and a schedule says whose action comes next.  What is
left of a program tells whether it has ended, and with what.
-/

namespace Prog

variable {σ ε α ι : Type}

/-- The next action; a program that has ended does nothing. -/
def advance : Prog σ ε α → σ → σ × Prog σ ε α
  | done a, s => (s, done a)
  | fail e, s => (s, fail e)
  | act upd next, s => (upd s, next s)

theorem Yields.advance {Q : Except ε α → Prop} {p : Prog σ ε α} (hp : p.Yields Q) (s : σ) :
    (p.advance s).2.Yields Q := by
  cases p with
  | done a => exact hp
  | fail e => exact hp
  | act upd next => exact hp s

theorem Yields.of_ended {Q : Except ε α → Prop} {p : Prog σ ε α} (hp : p.Yields Q)
    (hend : p.Ended) : (∃ a, p = done a ∧ Q (.ok a)) ∨ ∃ e, p = fail e ∧ Q (.error e) := by
  cases p with
  | done a => exact .inl ⟨a, rfl, hp⟩
  | fail e => exact .inr ⟨e, rfl, hp⟩
  | act upd next => exact hend.elim

instance (p : Prog σ ε α) : Decidable p.Ended :=
  match p with
  | done _ => isTrue trivial
  | fail _ => isTrue trivial
  | act _ _ => isFalse id

/-- The shared state, and what is left of each program. -/
structure Family (σ ε α ι : Type) where
  state : σ
  left : ι → Prog σ ε α

namespace Family

variable [DecidableEq ι] {w : Family σ ε α ι} {i j : ι}

/-- One action of the program `i`. -/
def step (w : Family σ ε α ι) (i : ι) : Family σ ε α ι where
  state := ((w.left i).advance w.state).1
  left := Function.update w.left i ((w.left i).advance w.state).2

def runSchedule (w : Family σ ε α ι) (schedule : List ι) : Family σ ε α ι := schedule.foldl step w

/-- All programs have ended. -/
def AllEnded (w : Family σ ε α ι) : Prop := ∀ i, (w.left i).Ended

instance [Fintype ι] : Decidable w.AllEnded := inferInstanceAs (Decidable (∀ i, (w.left i).Ended))

@[simp] theorem step_left_self : (w.step i).left i = ((w.left i).advance w.state).2 :=
  Function.update_self ..

@[simp] theorem step_left_ne (h : j ≠ i) : (w.step i).left j = w.left j :=
  Function.update_of_ne h ..

@[simp] theorem runSchedule_nil : w.runSchedule [] = w := rfl

@[simp] theorem runSchedule_cons (rest : List ι) :
    w.runSchedule (i :: rest) = (w.step i).runSchedule rest := rfl

/-- What holds at first and is kept by every action holds at the end. -/
theorem runSchedule_induction {I : Family σ ε α ι → Prop} (hw : I w)
    (hstep : ∀ w i, I w → I (w.step i)) (schedule : List ι) : I (w.runSchedule schedule) := by
  induction schedule generalizing w with
  | nil => exact hw
  | cons i rest ih => exact ih (hstep w i hw)

/-- What a program returns whatever it meets, it returns under every schedule. -/
theorem yields_runSchedule {Q : Except ε α → Prop} (h : (w.left i).Yields Q) (schedule : List ι) :
    ((w.runSchedule schedule).left i).Yields Q := by
  refine runSchedule_induction (I := fun w ↦ (w.left i).Yields Q) h (fun w j hw ↦ ?_) schedule
  by_cases hij : i = j
  · subst hij
    rw [step_left_self]
    exact hw.advance w.state
  · rw [step_left_ne hij]
    exact hw

end Family

end Prog
