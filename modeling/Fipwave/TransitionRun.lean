import Mathlib.Tactic

/-!
# Runs of a deterministic machine under chosen actions

A machine answers every action with its next state; nondeterminism is the
choice of the action list. Conditions on a run are conditions on each action
in the state it meets. The invariant rules reduce a statement about every
state of every run to its first state and to one step.
-/

namespace Fipwave.TransitionRun

variable {σ α : Type*} (step : σ → α → σ)

/-- The state after a list of actions. -/
def run (s : σ) (actions : List α) : σ := actions.foldl step s

@[simp] theorem run_nil (s : σ) : run step s [] = s := rfl

@[simp] theorem run_cons (s : σ) (a : α) (actions : List α) :
    run step s (a :: actions) = run step (step s a) actions := rfl

theorem run_append (s : σ) (first second : List α) :
    run step s (first ++ second) = run step (run step s first) second := by
  simp [run, List.foldl_append]

/-- Every action of the run meets the condition in the state it is taken in. -/
def Along (C : σ → α → Prop) : σ → List α → Prop
  | _, [] => True
  | s, a :: actions => C s a ∧ Along C (step s a) actions

instance decidableAlong {C : σ → α → Prop} [∀ s a, Decidable (C s a)] :
    (s : σ) → (actions : List α) → Decidable (Along step C s actions)
  | _, [] => isTrue trivial
  | s, a :: actions =>
    match ‹∀ s a, Decidable (C s a)› s a, decidableAlong (step s a) actions with
    | isTrue first, isTrue rest => isTrue ⟨first, rest⟩
    | isFalse first, _ => isFalse (fun h => first h.1)
    | _, isFalse rest => isFalse (fun h => rest h.2)

/-- A condition along two parts is one along each. -/
theorem along_append {C : σ → α → Prop} {s : σ} {first second : List α} :
    Along step C s (first ++ second) ↔
      Along step C s first ∧ Along step C (run step s first) second := by
  induction first generalizing s with
  | nil => simp [Along]
  | cons a first ih => simp [Along, ih, and_assoc]

/-- A condition holds along a run exactly if every action meets it in the state before it. -/
theorem along_iff {C : σ → α → Prop} {s : σ} {actions : List α} :
    Along step C s actions ↔
      ∀ front a back, actions = front ++ a :: back → C (run step s front) a := by
  induction actions generalizing s with
  | nil => exact iff_of_true trivial (fun front a back h => by simp at h)
  | cons first rest ih =>
    constructor
    · rintro ⟨hfirst, hrest⟩ front a back hsplit
      cases front with
      | nil =>
        have hhead : first = a := (List.cons.inj hsplit).1
        rwa [hhead] at hfirst
      | cons b front =>
        obtain ⟨rfl, htail⟩ := List.cons.inj hsplit
        exact ih.mp hrest front a back htail
    · intro h
      refine ⟨h [] first rest rfl, ih.mpr (fun front a back hsplit => ?_)⟩
      exact h (first :: front) a back (by rw [hsplit, List.cons_append])

/-- Nothing is asked of any step. -/
theorem along_true (s : σ) (actions : List α) : Along step (fun _ _ => True) s actions := by
  induction actions generalizing s with
  | nil => trivial
  | cons a actions ih => exact ⟨trivial, ih _⟩

/-- Two conditions along a run are asked for together. -/
theorem along_and {C D : σ → α → Prop} {s : σ} {actions : List α} :
    Along step (fun s a => C s a ∧ D s a) s actions ↔
      Along step C s actions ∧ Along step D s actions := by
  induction actions generalizing s with
  | nil => simp [Along]
  | cons a actions ih =>
    simp only [Along, ih]
    tauto

/-- Conditions that agree where an invariant holds agree along every run. -/
theorem along_congr {C D : σ → α → Prop} {I : σ → Prop} (keep : ∀ s a, I s → I (step s a))
    (same : ∀ s a, I s → (C s a ↔ D s a)) {s : σ} (hs : I s) (actions : List α) :
    Along step C s actions ↔ Along step D s actions := by
  induction actions generalizing s with
  | nil => exact Iff.rfl
  | cons a actions ih => exact and_congr (same s a hs) (ih (keep s a hs))

/-- What holds at the start and is kept by every admissible step holds at the
end of every admissible run. -/
theorem invariant_along {C : σ → α → Prop} {I : σ → Prop}
    (keep : ∀ s a, C s a → I s → I (step s a)) {s : σ} {actions : List α}
    (hs : I s) (hc : Along step C s actions) : I (run step s actions) := by
  induction actions generalizing s with
  | nil => exact hs
  | cons a actions ih => exact ih (keep s a hc.1 hs) hc.2

/-- The unconditional form of the invariant rule. -/
theorem invariant {I : σ → Prop} (keep : ∀ s a, I s → I (step s a)) {s : σ}
    (hs : I s) (actions : List α) : I (run step s actions) := by
  induction actions generalizing s with
  | nil => exact hs
  | cons a actions ih => exact ih (keep s a hs)

/-- Stamps that lie between the marks of the states around them increase along a run. -/
theorem stamps_increasing {τ : Type*} [Preorder τ] {C : σ → α → Prop} {mark : σ → τ}
    {stamp : α → Option τ} (hmark : ∀ s a, C s a → mark s ≤ mark (step s a))
    (hstamp : ∀ s a x, C s a → stamp a = some x → mark s ≤ x ∧ x < mark (step s a))
    {s : σ} {actions : List α} (hc : Along step C s actions) :
    (actions.filterMap stamp).Pairwise (· < ·) ∧ ∀ x ∈ actions.filterMap stamp, mark s ≤ x := by
  induction actions generalizing s with
  | nil => exact ⟨List.Pairwise.nil, nofun⟩
  | cons a actions ih =>
    obtain ⟨hrest, hlater⟩ := ih hc.2
    have hmarked := hmark s a hc.1
    cases hstamped : stamp a with
    | none =>
      rw [List.filterMap_cons_none hstamped]
      exact ⟨hrest, fun x hx => hmarked.trans (hlater x hx)⟩
    | some x =>
      obtain ⟨hfrom, hbelow⟩ := hstamp s a x hc.1 hstamped
      rw [List.filterMap_cons_some hstamped]
      refine ⟨List.pairwise_cons.mpr ⟨fun y hy => hbelow.trans_le (hlater y hy), hrest⟩, ?_⟩
      intro y hy
      rcases List.mem_cons.mp hy with rfl | hy
      · exact hfrom
      · exact hmarked.trans (hlater y hy)

end Fipwave.TransitionRun
