import Mathlib.Algebra.Order.Group.Defs
import Mathlib.Data.Finset.Card
import Mathlib.Tactic

/-!
# At most so many in every window of time

Events have a time. They are limited when no window of a given width contains
more of them than a bound. Adding an event that is not earlier than the others
keeps them limited if there is room in the window that ends with it.
-/

namespace Fipwave.WindowLimit

variable {ι τ : Type*} [AddCommGroup τ] [LinearOrder τ] (time : ι → τ) (width : τ) (limit : ℕ)

/-- Events of a window. -/
def within (start : τ) (events : Finset ι) : Finset ι :=
  events.filter (fun i => start ≤ time i ∧ time i ≤ start + width)

/-- No window contains more events than the bound. -/
def Limited (events : Finset ι) : Prop := ∀ start, (within time width start events).card ≤ limit

variable {time width limit} {events : Finset ι}

/-- The empty set keeps every limit. -/
theorem limited_empty : Limited time width limit (∅ : Finset ι) := by
  intro start
  have hnone : within time width start (∅ : Finset ι) = ∅ := Finset.filter_empty _
  rw [hnone, Finset.card_empty]
  exact Nat.zero_le limit

/-- Fewer events are limited, too. -/
theorem Limited.mono {fewer : Finset ι} (h : Limited time width limit events)
    (hsubset : fewer ⊆ events) : Limited time width limit fewer := by
  intro start
  have hwithin : within time width start fewer ⊆ within time width start events :=
    Finset.filter_subset_filter _ hsubset
  exact (Finset.card_le_card hwithin).trans (h start)

/-- Only the times of the events matter. -/
theorem Limited.congr {other : ι → τ} (h : Limited time width limit events)
    (hsame : ∀ i ∈ events, other i = time i) : Limited other width limit events := by
  intro start
  have hwithin : within other width start events = within time width start events := by
    refine Finset.filter_congr (fun i hi => ?_)
    rw [hsame i hi]
  rw [hwithin]
  exact h start

/-- A last event for which there is room keeps the events limited. -/
theorem Limited.insert [IsOrderedAddMonoid τ] [DecidableEq ι] {new : ι}
    (h : Limited time width limit events)
    (hroom : (events.filter (fun i => time new - width ≤ time i)).card < limit) :
    Limited time width limit (insert new events) := by
  intro start
  unfold within
  rw [Finset.filter_insert]
  by_cases hnew : start ≤ time new ∧ time new ≤ start + width
  · rw [if_pos hnew]
    have hrecent : events.filter (fun i => start ≤ time i ∧ time i ≤ start + width) ⊆
        events.filter (fun i => time new - width ≤ time i) := by
      intro i hi
      rw [Finset.mem_filter] at hi ⊢
      have hbegin : time new - width ≤ start := sub_le_iff_le_add.mpr hnew.2
      exact ⟨hi.1, hbegin.trans hi.2.1⟩
    have hcount := Finset.card_le_card hrecent
    have hinsert := Finset.card_insert_le new
      (events.filter (fun i => start ≤ time i ∧ time i ≤ start + width))
    omega
  · rw [if_neg hnew]
    exact h start

/-- Two windows that end now contain at most twice as many events. -/
theorem Limited.card_recent_le [DecidableEq ι] {now : τ} (h : Limited time width limit events)
    (hlast : ∀ i ∈ events, time i ≤ now) :
    (events.filter (fun i => now - (width + width) ≤ time i)).card ≤ limit + limit := by
  have hcover : events.filter (fun i => now - (width + width) ≤ time i) ⊆
      within time width (now - (width + width)) events ∪
        within time width (now - width) events := by
    intro i hi
    rw [Finset.mem_filter] at hi
    rw [Finset.mem_union]
    have hmiddle : now - (width + width) + width = now - width := by abel
    have hend : now - width + width = now := sub_add_cancel now width
    rcases le_total (time i) (now - width) with hearly | hlate
    · left
      refine Finset.mem_filter.mpr ⟨hi.1, hi.2, ?_⟩
      rw [hmiddle]
      exact hearly
    · right
      refine Finset.mem_filter.mpr ⟨hi.1, hlate, ?_⟩
      rw [hend]
      exact hlast i hi.1
  have hunion := Finset.card_union_le (within time width (now - (width + width)) events)
    (within time width (now - width) events)
  have hcount := Finset.card_le_card hcover
  have hfirst := h (now - (width + width))
  have hsecond := h (now - width)
  omega

end Fipwave.WindowLimit
