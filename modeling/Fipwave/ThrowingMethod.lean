import Mathlib.Tactic

/-!
# Methods that may throw after changing their object

An object-oriented method mutates its receiver and may throw half way; the
mutations made before the exception stay. An outcome therefore keeps the
object on both exits. The rules below reason about the object left behind
without asking first whether the method returned.
-/

namespace Fipwave.ThrowingMethod

/-- An exception together with the object as the throwing statement left it. -/
structure Fault (σ : Type) where
  /-- Text carried by the exception. -/
  message : String
  /-- The object after every mutation made before the exception. -/
  state : σ

variable {σ : Type}

/-- The object left behind on either exit. -/
def left : Except (Fault σ) σ → σ
  | .ok s => s
  | .error f => f.state

@[simp] theorem left_ok (s : σ) : left (.ok s) = s := rfl

@[simp] theorem left_pure (s : σ) : left (pure s) = s := rfl

@[simp] theorem left_error (f : Fault σ) : left (.error f) = f.state := rfl

@[simp] theorem ok_bind {α β ε : Type} (a : α) (g : α → Except ε β) :
    (Except.ok a >>= g) = g a := rfl

@[simp] theorem error_bind {α β ε : Type} (f : ε) (g : α → Except ε β) :
    (Except.error f >>= g) = .error f := rfl

/-- A property of the object left behind survives sequencing when the first
part establishes it on its throwing exit and hands the second part an object
from which the second part establishes it. -/
theorem left_bind {P : σ → Prop} {x : Except (Fault σ) σ} {g : σ → Except (Fault σ) σ}
    (hthrow : ∀ f, x = .error f → P f.state)
    (hreturn : ∀ s, x = .ok s → P (left (g s))) : P (left (x >>= g)) := by
  cases hx : x with
  | error f => simpa using hthrow f hx
  | ok s => simpa using hreturn s hx

/-- A sequence that returns is a first part that returns and a second part that does. -/
theorem bind_ok {α β ε : Type} {x : Except ε α} {g : α → Except ε β} {b : β}
    (h : (x >>= g) = .ok b) : ∃ a, x = .ok a ∧ g a = .ok b := by
  cases x with
  | error e => cases h
  | ok a => exact ⟨a, rfl, h⟩

/-- A first part without a result returns with what follows it. -/
theorem bind_unit_ok_iff {α ε : Type} {x : Except ε Unit} {rest : Except ε α} {value : α} :
    (x >>= fun _ => rest) = .ok value ↔ x = .ok () ∧ rest = .ok value := by
  cases x with
  | error e => simp only [error_bind, reduceCtorEq, false_and]
  | ok a => simp only [ok_bind, true_and]

/-- A loop that returns passed every element. -/
theorem forM_ok {α ε : Type} {f : α → Except ε Unit} {items : List α}
    (h : items.forM f = .ok ()) : ∀ item ∈ items, f item = .ok () := by
  induction items with
  | nil => simp
  | cons head items ih =>
    obtain ⟨_, hhead, hrest⟩ := bind_ok h
    intro item hitem
    rcases List.mem_cons.mp hitem with rfl | hitem
    · exact hhead
    · exact ih hrest item hitem

end Fipwave.ThrowingMethod
