import Mathlib.Tactic

/-!
# Spans of consecutive rows and what they cover

A span has a first row and a number of rows. Spans whose sizes add up to the
height cover every row once exactly if no two of them share a row; spans that
follow each other without a gap are such spans.
-/

namespace Fipwave.SpanTiling

section Coverage

variable {α : Type} (first size : α → ℕ)

/-- A span covers the rows from its first one on. -/
def Covers (span : α) (row : ℕ) : Prop := first span ≤ row ∧ row < first span + size span

instance (span : α) (row : ℕ) : Decidable (Covers first size span row) :=
  inferInstanceAs (Decidable (_ ∧ _))

/-- How many spans cover a row. -/
def coverage (spans : List α) (row : ℕ) : ℕ :=
  spans.countP (fun span => Covers first size span row)

/-- One of two spans ends before the other begins. -/
def Apart (left right : α) : Prop :=
  first left + size left ≤ first right ∨ first right + size right ≤ first left

instance (left right : α) : Decidable (Apart first size left right) :=
  inferInstanceAs (Decidable (_ ∨ _))

variable {first size}

theorem Apart.symm {left right : α} (h : Apart first size left right) :
    Apart first size right left := Or.symm h

/-- Spans with rows are apart exactly if they share none. -/
theorem apart_iff {left right : α} (hleft : 0 < size left) (hright : 0 < size right) :
    Apart first size left right ↔
      ∀ row, ¬(Covers first size left row ∧ Covers first size right row) := by
  unfold Apart Covers
  constructor
  · intro h row
    omega
  · intro h
    by_contra hboth
    have hleftRow := h (first left)
    have hrightRow := h (first right)
    omega

theorem coverage_cons (span : α) (spans : List α) (row : ℕ) :
    coverage first size (span :: spans) row =
      coverage first size spans row + if Covers first size span row then 1 else 0 := by
  unfold coverage
  rw [List.countP_cons]
  simp only [decide_eq_true_eq]

/-- A span covers as many rows as it has. -/
theorem sum_covers {span : α} {height : ℕ} (h : first span + size span ≤ height) :
    (∑ row ∈ Finset.range height, if Covers first size span row then 1 else 0) = size span := by
  have hrows : (Finset.range height).filter (fun row => Covers first size span row) =
      Finset.Ico (first span) (first span + size span) := by
    ext row
    rw [Finset.mem_filter, Finset.mem_range, Finset.mem_Ico]
    unfold Covers
    omega
  rw [← Finset.card_filter, hrows, Nat.card_Ico]
  omega

/-- Rows are covered as often as the spans have rows. -/
theorem sum_coverage {spans : List α} {height : ℕ}
    (h : ∀ span ∈ spans, first span + size span ≤ height) :
    ∑ row ∈ Finset.range height, coverage first size spans row = (spans.map size).sum := by
  induction spans with
  | nil => simp [coverage]
  | cons span spans ih =>
    have hspan := h span List.mem_cons_self
    have hrest := ih (fun other hmem => h other (List.mem_cons_of_mem _ hmem))
    simp only [coverage_cons]
    rw [Finset.sum_add_distrib, hrest, sum_covers hspan, List.map_cons, List.sum_cons]
    omega

/-- Spans that are pairwise apart cover no row twice. -/
theorem coverage_le_one {spans : List α} (h : spans.Pairwise (Apart first size)) (row : ℕ) :
    coverage first size spans row ≤ 1 := by
  induction spans with
  | nil => simp [coverage]
  | cons span spans ih =>
    rw [List.pairwise_cons] at h
    rw [coverage_cons]
    by_cases hcovers : Covers first size span row
    · have hnone : coverage first size spans row = 0 := by
        unfold coverage
        rw [List.countP_eq_zero]
        intro other hmem hother
        have hother := of_decide_eq_true hother
        have hapart := h.1 other hmem
        unfold Apart at hapart
        unfold Covers at hcovers hother
        omega
      rw [hnone, if_pos hcovers]
    · rw [if_neg hcovers]
      exact ih h.2

/-- Spans that cover no row twice are pairwise apart. -/
theorem pairwise_of_coverage_le_one {spans : List α} (hsize : ∀ span ∈ spans, 0 < size span)
    (h : ∀ span ∈ spans, ∀ row, Covers first size span row → coverage first size spans row ≤ 1) :
    spans.Pairwise (Apart first size) := by
  induction spans with
  | nil => exact List.Pairwise.nil
  | cons span spans ih =>
    rw [List.pairwise_cons]
    constructor
    · intro other hmem
      rw [apart_iff (hsize span List.mem_cons_self) (hsize other (List.mem_cons_of_mem _ hmem))]
      rintro row ⟨hspan, hother⟩
      have honce := h span List.mem_cons_self row hspan
      rw [coverage_cons, if_pos hspan] at honce
      have hpositive : 0 < coverage first size spans row := by
        unfold coverage
        rw [List.countP_pos_iff]
        exact ⟨other, hmem, decide_eq_true hother⟩
      omega
    · refine ih (fun other hmem => hsize other (List.mem_cons_of_mem _ hmem)) ?_
      intro other hmem row hother
      have honce := h other (List.mem_cons_of_mem _ hmem) row hother
      rw [coverage_cons] at honce
      omega

/-- Spans within the height whose sizes add up to it cover every row once exactly if no two of
them share a row. -/
theorem coverage_eq_one_iff {spans : List α} {height : ℕ}
    (hsize : ∀ span ∈ spans, 0 < size span)
    (hbound : ∀ span ∈ spans, first span + size span ≤ height)
    (hsum : (spans.map size).sum = height) :
    (∀ row < height, coverage first size spans row = 1) ↔
      spans.Pairwise (Apart first size) := by
  constructor
  · intro honce
    refine pairwise_of_coverage_le_one hsize ?_
    intro span hmem row hcovers
    have hrow : row < height := by
      have hspan := hbound span hmem
      unfold Covers at hcovers
      omega
    exact (honce row hrow).le
  · intro hapart row hrow
    have hle := coverage_le_one hapart
    have htotal : ∑ row ∈ Finset.range height, coverage first size spans row =
        ∑ _row ∈ Finset.range height, 1 := by
      rw [sum_coverage hbound, hsum]
      simp
    exact (Finset.sum_eq_sum_iff_of_le (fun other _ => hle other)).mp htotal row
      (Finset.mem_range.mpr hrow)

variable (first size)

/-- Spans that follow each other without a gap. -/
def Tiles : ℕ → List α → ℕ → Prop
  | row, [], finish => row = finish
  | row, span :: rest, finish =>
    first span = row ∧ 0 < size span ∧ Tiles (row + size span) rest finish

variable {first size}

/-- A tiling does not end before it starts. -/
theorem Tiles.start_le {start finish : ℕ} {spans : List α}
    (h : Tiles first size start spans finish) : start ≤ finish := by
  induction spans generalizing start with
  | nil => exact le_of_eq h
  | cons span spans ih =>
    have hrest := ih h.2.2
    omega

/-- The spans of a tiling have rows and lie within it. -/
theorem Tiles.within {start finish : ℕ} {spans : List α} (h : Tiles first size start spans finish) :
    ∀ span ∈ spans, start ≤ first span ∧ 0 < size span ∧ first span + size span ≤ finish := by
  induction spans generalizing start with
  | nil =>
    intro span hmem
    cases hmem
  | cons span spans ih =>
    obtain ⟨hfirst, hsize, hrest⟩ := h
    intro other hmem
    rcases List.mem_cons.mp hmem with rfl | hmem
    · have hle := hrest.start_le
      omega
    · have hother := ih hrest other hmem
      omega

/-- The spans of a tiling come in the order of their first rows. -/
theorem Tiles.sorted {start finish : ℕ} {spans : List α} (h : Tiles first size start spans finish) :
    spans.Pairwise (fun left right => first left < first right) := by
  induction spans generalizing start with
  | nil => exact List.Pairwise.nil
  | cons span spans ih =>
    obtain ⟨hfirst, hsize, hrest⟩ := h
    rw [List.pairwise_cons]
    refine ⟨?_, ih hrest⟩
    intro other hmem
    have hother := hrest.within other hmem
    omega

/-- A span of a tiling is known by its first row. -/
theorem Tiles.eq_of_first {start finish : ℕ} {spans : List α}
    (h : Tiles first size start spans finish) :
    ∀ left ∈ spans, ∀ right ∈ spans, first left = first right → left = right := by
  have hnodup : (spans.map first).Nodup := by
    unfold List.Nodup
    rw [List.pairwise_map]
    exact h.sorted.imp (fun hlt => hlt.ne)
  intro left hleft right hright heq
  exact List.inj_on_of_nodup_map hnodup hleft hright heq

/-- The sizes of a tiling add up to its rows. -/
theorem Tiles.sum_size {start finish : ℕ} {spans : List α}
    (h : Tiles first size start spans finish) : start + (spans.map size).sum = finish := by
  induction spans generalizing start with
  | nil => exact h
  | cons span spans ih =>
    have hrest := ih h.2.2
    rw [List.map_cons, List.sum_cons]
    omega

/-- A tiling goes on with a span that begins where it ends. -/
theorem Tiles.concat {start finish : ℕ} {spans : List α} {span : α}
    (h : Tiles first size start spans finish) (hfirst : first span = finish)
    (hsize : 0 < size span) : Tiles first size start (spans ++ [span]) (finish + size span) := by
  induction spans generalizing start with
  | nil =>
    have hstart : start = finish := h
    rw [hstart]
    exact ⟨hfirst, hsize, rfl⟩
  | cons other spans ih => exact ⟨h.1, h.2.1, ih h.2.2⟩

end Coverage

end Fipwave.SpanTiling
