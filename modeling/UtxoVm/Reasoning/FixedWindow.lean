import Mathlib

/-!
# FixedWindow — a counter that starts afresh

A request opens a new window when the old one is over, and is otherwise admitted while the window
has room.  Two windows may lie side by side in a short interval, so the counter admits up to twice
its maximum there: the bound below counts the windows that an interval meets.
-/

namespace FixedWindow

/-- The start of the window, and how many requests it has admitted. -/
structure Window where
  start : Nat
  count : Nat
  deriving DecidableEq, Repr

variable (width max : Nat)

/-- One request, and whether it is admitted; a counter without a window opens an empty one. -/
def step (w? : Option Window) (now : Nat) : Window × Bool :=
  let w := w?.getD ⟨now, 0⟩
  if width ≤ now - w.start then (⟨now, 1⟩, true)
  else if w.count < max then (⟨w.start, w.count + 1⟩, true)
  else (w, false)

/-- The times of the requests that are admitted. -/
def admitted : Option Window → List Nat → List Nat
  | _, [] => []
  | w?, now :: rest =>
      let (w, ok) := step width max w? now
      if ok then now :: admitted (some w) rest else admitted (some w) rest

/-- What one window can admit: a new window admits its first request in any case. -/
def capacity : Nat := Nat.max 1 max

theorem mem_of_mem_admitted {w? : Option Window} {times : List Nat} {t : Nat}
    (h : t ∈ admitted width max w? times) : t ∈ times := by
  induction times generalizing w? with
  | nil => cases h
  | cons now rest ih =>
    unfold admitted at h
    dsimp only at h
    split at h
    · rcases List.mem_cons.mp h with rfl | hrest
      · exact List.mem_cons_self
      · exact List.mem_cons_of_mem _ (ih hrest)
    · exact List.mem_cons_of_mem _ (ih h)

/-- A request that comes when the window is over is admitted. -/
theorem step_of_over {w : Window} {now : Nat} (h : width ≤ now - w.start) :
    step width max (some w) now = (⟨now, 1⟩, true) := by
  unfold step
  exact if_pos h

/-- The admitted requests before `stop`. -/
def before (stop : Nat) (w? : Option Window) (times : List Nat) : Nat :=
  ((admitted width max w? times).filter (· < stop)).length

variable {width max}

theorem before_eq_zero {stop : Nat} {w? : Option Window} {times : List Nat}
    (h : ∀ t ∈ times, stop ≤ t) : before width max stop w? times = 0 := by
  unfold before
  rw [List.length_eq_zero_iff, List.filter_eq_nil_iff]
  intro t ht
  have := h t (mem_of_mem_admitted width max ht)
  simp only [decide_eq_true_eq]
  omega

theorem before_cons_admitted {stop now : Nat} {w? : Option Window} {w : Window} {rest : List Nat}
    (hstep : step width max w? now = (w, true)) (hnow : now < stop) :
    before width max stop w? (now :: rest) = before width max stop (some w) rest + 1 := by
  unfold before
  conv_lhs => unfold admitted
  rw [hstep]
  simp [hnow]

theorem before_cons_refused {stop now : Nat} {w? : Option Window} {w : Window} {rest : List Nat}
    (hstep : step width max w? now = (w, false)) :
    before width max stop w? (now :: rest) = before width max stop (some w) rest := by
  unfold before
  conv_lhs => unfold admitted
  rw [hstep]
  simp

/-- What a window and its successors admit before `stop`: the successors start at least a width
apart. -/
theorem before_le {stop : Nat} {w : Window} {times : List Nat} (hwidth : 0 < width)
    (hcount : w.count ≤ capacity max) (hfrom : ∀ t ∈ times, w.start ≤ t)
    (hsorted : times.Pairwise (· ≤ ·)) :
    before width max stop (some w) times ≤
      capacity max - w.count + capacity max * ((stop - w.start - 1) / width) := by
  induction times generalizing w with
  | nil => exact Nat.zero_le _
  | cons now rest ih =>
    obtain ⟨hlater, hrest⟩ := List.pairwise_cons.mp hsorted
    have hstart : w.start ≤ now := hfrom now List.mem_cons_self
    have hfrom' : ∀ t ∈ rest, w.start ≤ t := fun t ht ↦ hfrom t (List.mem_cons_of_mem _ ht)
    by_cases hstop : stop ≤ now
    · -- nothing of the list lies before the end
      rw [before_eq_zero]
      · exact Nat.zero_le _
      · intro t ht
        rcases List.mem_cons.mp ht with rfl | ht
        · exact hstop
        · exact hstop.trans (hlater t ht)
    by_cases hover : width ≤ now - w.start
    · -- a new window: it and its successors fit into one width less
      rw [before_cons_admitted (step_of_over width max hover) (by omega)]
      have hone : 1 ≤ capacity max := Nat.le_max_left ..
      have hnext := ih (w := ⟨now, 1⟩) hone hlater hrest
      have hdiv : (stop - now - 1) / width + 1 ≤ (stop - w.start - 1) / width := by
        rw [← Nat.add_div_right _ hwidth]
        apply Nat.div_le_div_right
        omega
      have hmul := Nat.mul_le_mul_left (capacity max) hdiv
      rw [Nat.mul_add, Nat.mul_one] at hmul
      dsimp only at hnext
      omega
    by_cases hroom : w.count < max
    · -- one more in this window
      have hstep : step width max (some w) now = (⟨w.start, w.count + 1⟩, true) := by
        unfold step
        simp only [Option.getD_some]
        rw [if_neg hover, if_pos hroom]
      rw [before_cons_admitted hstep (by omega)]
      have hmax : max ≤ capacity max := Nat.le_max_right ..
      have hnext := ih (w := ⟨w.start, w.count + 1⟩) (by dsimp only; omega) hfrom' hrest
      dsimp only at hnext
      omega
    · have hstep : step width max (some w) now = (w, false) := by
        unfold step
        simp only [Option.getD_some]
        rw [if_neg hover, if_neg hroom]
      rw [before_cons_refused hstep]
      exact ih hcount hfrom' hrest

/-- The admitted requests of an interval of length `len`. -/
def within (width max begin len : Nat) (w? : Option Window) (times : List Nat) : Nat :=
  ((admitted width max w? times).filter fun t ↦ begin ≤ t ∧ t < begin + len).length

/-- The state after a request belongs to it or to an earlier one, and is not overfull. -/
theorem step_window {w? : Option Window} {now : Nat} (hcount : ∀ w ∈ w?, w.count ≤ capacity max)
    (hstart : ∀ w ∈ w?, w.start ≤ now) :
    (step width max w? now).1.count ≤ capacity max ∧ (step width max w? now).1.start ≤ now := by
  have hone : 1 ≤ capacity max := Nat.le_max_left ..
  have hmax : max ≤ capacity max := Nat.le_max_right ..
  have hw : (w?.getD ⟨now, 0⟩).count ≤ capacity max ∧ (w?.getD ⟨now, 0⟩).start ≤ now := by
    cases w? with
    | none => exact ⟨Nat.zero_le _, le_refl _⟩
    | some w => exact ⟨hcount w rfl, hstart w rfl⟩
  unfold step
  dsimp only
  split
  · exact ⟨hone, le_refl _⟩
  · split
    · refine ⟨?_, hw.2⟩
      dsimp only
      omega
    · exact hw

/-- From the first request of an interval on, the interval meets `⌈len / width⌉ + 1` windows. -/
theorem before_le_of_first {begin len now : Nat} {w? : Option Window} {rest : List Nat}
    (hwidth : 0 < width) (hcount : ∀ w ∈ w?, w.count ≤ capacity max)
    (hstart : ∀ w ∈ w?, w.start ≤ now) (hbegin : begin ≤ now) (hlen : now < begin + len)
    (hsorted : (now :: rest).Pairwise (· ≤ ·)) :
    before width max (begin + len) w? (now :: rest) ≤
      ((len + width - 1) / width + 1) * capacity max := by
  have hone : 1 ≤ capacity max := Nat.le_max_left ..
  have hlater := (List.pairwise_cons.mp hsorted).1
  -- it is enough to look at the window that is open at the first request
  suffices hopen : ∀ w : Window, w.count ≤ capacity max → w.start ≤ now →
      now < w.start + width → before width max (begin + len) (some w) (now :: rest) ≤
        ((len + width - 1) / width + 1) * capacity max by
    have hfresh : before width max (begin + len) (some ⟨now, 0⟩) (now :: rest) ≤
        ((len + width - 1) / width + 1) * capacity max := by
      apply hopen
      · exact Nat.zero_le _
      · exact le_refl _
      · dsimp only
        omega
    cases w? with
    | none => exact hfresh
    | some w =>
      by_cases hover : width ≤ now - w.start
      · -- the window is over: the request opens one of its own
        rw [before_cons_admitted (step_of_over width max hover) (by omega)]
        have hnext : before width max (begin + len) (some ⟨now, 1⟩) rest ≤ _ :=
          before_le hwidth hone hlater (List.pairwise_cons.mp hsorted).2
        have hdiv : (begin + len - now - 1) / width ≤ (len + width - 1) / width :=
          Nat.div_le_div_right (by omega)
        have hmul := Nat.mul_le_mul_left (capacity max) hdiv
        rw [Nat.add_mul, Nat.one_mul, Nat.mul_comm _ (capacity max)]
        dsimp only at hnext
        omega
      · exact hopen w (hcount w rfl) (hstart w rfl) (by omega)
  intro w hwcount hwstart hwopen
  have hfrom : ∀ t ∈ now :: rest, w.start ≤ t := by
    intro t ht
    rcases List.mem_cons.mp ht with rfl | ht
    · exact hwstart
    · exact hwstart.trans (hlater t ht)
  have hbound : before width max (begin + len) (some w) (now :: rest) ≤ _ :=
    before_le hwidth hwcount hfrom hsorted
  have hdiv : (begin + len - w.start - 1) / width ≤ (len + width - 1) / width :=
    Nat.div_le_div_right (by omega)
  have hmul := Nat.mul_le_mul_left (capacity max) hdiv
  rw [Nat.add_mul, Nat.one_mul, Nat.mul_comm _ (capacity max)]
  omega

/-- **Bound for any interval.**  Whatever the requests are, an interval of length `len` has at most
`⌈len / width⌉ + 1` times the capacity of a window. -/
theorem within_le {begin len : Nat} {w? : Option Window} {times : List Nat} (hwidth : 0 < width)
    (hcount : ∀ w ∈ w?, w.count ≤ capacity max) (hstart : ∀ w ∈ w?, ∀ t ∈ times, w.start ≤ t)
    (hsorted : times.Pairwise (· ≤ ·)) :
    within width max begin len w? times ≤ ((len + width - 1) / width + 1) * capacity max := by
  induction times generalizing w? with
  | nil => exact Nat.zero_le _
  | cons now rest ih =>
    obtain ⟨hlater, hrest⟩ := List.pairwise_cons.mp hsorted
    by_cases hin : begin ≤ now ∧ now < begin + len
    · -- the first request of the interval
      have hfirst := before_le_of_first hwidth hcount
        (fun w hw ↦ hstart w hw now List.mem_cons_self) hin.1 hin.2 hsorted
      refine le_trans ?_ hfirst
      unfold within before
      apply List.Sublist.length_le
      apply List.monotone_filter_right
      intro t ht
      simp only [decide_eq_true_eq] at ht ⊢
      exact ht.2
    · -- it lies outside: the rest decides
      have hskip : within width max begin len w? (now :: rest) =
          within width max begin len (some (step width max w? now).1) rest := by
        unfold within
        conv_lhs => unfold admitted
        dsimp only
        split
        · rw [List.filter_cons_of_neg (by simpa using hin)]
        · rfl
      rw [hskip]
      obtain ⟨hcount', hstart'⟩ : (step width max w? now).1.count ≤ capacity max ∧
          (step width max w? now).1.start ≤ now :=
        step_window hcount fun w hw ↦ hstart w hw now List.mem_cons_self
      apply ih
      · intro w hw
        cases hw
        exact hcount'
      · intro w hw t ht
        cases hw
        exact hstart'.trans (hlater t ht)
      · exact hrest

end FixedWindow
