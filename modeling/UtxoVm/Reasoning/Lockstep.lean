import UtxoVm.Reasoning.Prog

/-!
# Lockstep — two runs side by side

A relation between states that two programs keep when each runs alone: from related states they end
in related states, with the same result.  The rules follow the programs, as those of a relational
Hoare logic.
-/

namespace Prog

variable {σ τ ε δ α β : Type}

/-- Two runs have ended in related states, with the same result. -/
def EndAlike (R : σ → σ → Prop) (r r' : σ × Except ε α) : Prop := R r.1 r'.1 ∧ r.2 = r'.2

def Lockstep (R : σ → σ → Prop) (p q : Prog σ ε α) : Prop :=
  ∀ s t, R s t → EndAlike R (p.run s) (q.run t)

variable {R : σ → σ → Prop} {p q : Prog σ ε α}

/-- What follows need only be compared from the states that were reached. -/
theorem EndAlike.andThen {r r' : σ × Except ε α} (h : EndAlike R r r') {f g : α → Prog σ ε β}
    (hf : ∀ a, R r.1 r'.1 → EndAlike R ((f a).run r.1) ((g a).run r'.1)) :
    EndAlike R (andThen r f) (andThen r' g) := by
  obtain ⟨s, e | a⟩ := r
  · obtain ⟨t, _⟩ := r'
    obtain ⟨hstates, hresults⟩ := h
    cases hresults
    exact ⟨hstates, rfl⟩
  · obtain ⟨t, _⟩ := r'
    obtain ⟨hstates, hresults⟩ := h
    cases hresults
    exact hf a hstates

theorem Lockstep.pure (a : α) : Lockstep R (pure a : Prog σ ε α) (pure a) :=
  fun _ _ h ↦ ⟨h, rfl⟩

theorem Lockstep.fail (e : ε) : Lockstep R (fail e : Prog σ ε α) (fail e) :=
  fun _ _ h ↦ ⟨h, rfl⟩

theorem Lockstep.bind {f g : α → Prog σ ε β} (hp : Lockstep R p q)
    (hf : ∀ a, Lockstep R (f a) (g a)) : Lockstep R (p >>= f) (q >>= g) := by
  intro s t h
  rw [run_bind, run_bind]
  exact (hp s t h).andThen fun a ↦ hf a _ _

theorem Lockstep.attempt (hp : Lockstep R p q) :
    Lockstep R (attempt p : Prog σ δ (Except ε α)) (attempt q) := by
  intro s t h
  obtain ⟨hstates, hresults⟩ := hp s t h
  rw [run_attempt, run_attempt, hresults]
  exact ⟨hstates, rfl⟩

theorem Lockstep.ofExcept (r : Except ε α) :
    Lockstep R (ofExcept r : Prog σ ε α) (ofExcept r) := by
  intro s t h
  rw [run_ofExcept, run_ofExcept]
  exact ⟨h, rfl⟩

theorem Lockstep.read {f g : σ → α} (h : ∀ s t, R s t → f s = g t) :
    Lockstep R (read f : Prog σ ε α) (read g) := by
  intro s t hst
  rw [run_read, run_read, h s t hst]
  exact ⟨hst, rfl⟩

theorem Lockstep.modify {f g : σ → σ} (h : ∀ s t, R s t → R (f s) (g t)) :
    Lockstep R (modify f : Prog σ ε Unit) (modify g) :=
  fun s t hst ↦ ⟨h s t hst, rfl⟩

/-- Programs on a component of two states whose components are related. -/
theorem Lockstep.zoom {get : τ → σ} {set : σ → τ → τ} (hget : ∀ s t, get (set s t) = s)
    (hset : ∀ s s' t, set s (set s' t) = set s t) (hself : ∀ t, set (get t) t = t)
    (hp : Lockstep R p q) :
    Lockstep (fun t t' ↦ R (get t) (get t')) (zoom get set p) (zoom get set q) := by
  intro t t' h
  obtain ⟨hstates, hresults⟩ := hp _ _ h
  rw [run_zoom hget hset hself, run_zoom hget hset hself]
  refine ⟨?_, hresults⟩
  show R (get (set _ t)) (get (set _ t'))
  rw [hget, hget]
  exact hstates

end Prog
