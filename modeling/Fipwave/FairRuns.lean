import Fipwave.TransitionRun

/-!
# Endless runs under a fair schedule

A schedule chooses one action for every moment. What is enabled forever is
taken at some time if the schedule is fair to it. A phase that lasts until it
is left, enables an action all the while and is left when the action is taken,
is left at some time.
-/

namespace Fipwave.FairRuns

open TransitionRun

variable {σ α : Type*} (step : σ → α → σ) (s : σ) (schedule : ℕ → α)

/-- The state at a moment. -/
def stateAt : ℕ → σ
  | 0 => s
  | n + 1 => step (stateAt n) (schedule n)

/-- The state at a moment is the state after the actions before it. -/
theorem stateAt_eq_run (n : ℕ) :
    stateAt step s schedule n = run step s ((List.range n).map schedule) := by
  induction n with
  | zero => rfl
  | succ n ih =>
    rw [List.range_succ, List.map_append, run_append, ← ih]
    rfl

/-- What every step keeps holds at every moment. -/
theorem stateAt_invariant {I : σ → Prop} (hs : I s) (keep : ∀ s a, I s → I (step s a)) (n : ℕ) :
    I (stateAt step s schedule n) := by
  rw [stateAt_eq_run]
  exact invariant step keep hs _

variable {step s schedule}

/-- What every step from some moment on keeps holds from then on. -/
theorem stateAt_of_le {P : σ → Prop} {m n : ℕ} (hle : m ≤ n)
    (keep : ∀ k, m ≤ k → P (stateAt step s schedule k) → P (stateAt step s schedule (k + 1)))
    (h : P (stateAt step s schedule m)) : P (stateAt step s schedule n) := by
  induction n, hle using Nat.le_induction with
  | base => exact h
  | succ n hle ih => exact keep n hle ih

variable (step s schedule) in
/-- What is enabled from some moment on is taken at some moment after. -/
def FairTo (enabled : σ → Prop) (taken : α → Prop) : Prop :=
  ∀ n, (∀ m, n ≤ m → enabled (stateAt step s schedule m)) → ∃ m, n ≤ m ∧ taken (schedule m)

/-- A phase that enables an action until it is left, and is left by the action, is left. -/
theorem FairTo.leave {enabled : σ → Prop} {taken : α → Prop}
    (hfair : FairTo step s schedule enabled taken) {P Q : σ → Prop} {n : ℕ}
    (stay : ∀ m, n ≤ m → P (stateAt step s schedule m) →
      P (stateAt step s schedule (m + 1)) ∨ Q (stateAt step s schedule (m + 1)))
    (henabled : ∀ t, P t → enabled t) (htaken : ∀ t a, P t → taken a → Q (step t a))
    (h : P (stateAt step s schedule n)) : ∃ m, n ≤ m ∧ Q (stateAt step s schedule m) := by
  by_contra hnever
  have hnot : ∀ m, n ≤ m → ¬Q (stateAt step s schedule m) := fun m hm hQ => hnever ⟨m, hm, hQ⟩
  have hphase : ∀ m, n ≤ m → P (stateAt step s schedule m) := by
    intro m hm
    refine stateAt_of_le hm (fun k hk hP => ?_) h
    rcases stay k hk hP with hP | hQ
    · exact hP
    · exact absurd hQ (hnot (k + 1) (by omega))
  obtain ⟨m, hm, haction⟩ := hfair n (fun m hm => henabled _ (hphase m hm))
  exact hnot (m + 1) (by omega) (htaken _ _ (hphase m hm) haction)

end Fipwave.FairRuns
