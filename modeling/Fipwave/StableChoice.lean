import Mathlib.Tactic

/-!
# The first element of a stable sort

A comparator answers with the sign of a difference. Consistent comparators
compose lexicographically, and a stable sort by one puts first the position
that comes before every other one: by its value, and among equal values by
its place in the list.
-/

namespace Fipwave.StableChoice

section Comparators

variable {α : Type}

/-- A comparator whose sign is that of a total preorder. -/
structure Consistent (compare : α → α → ℚ) : Prop where
  /-- Exchanging the arguments exchanges the sign. -/
  swap : ∀ x y, compare x y ≤ 0 ↔ 0 ≤ compare y x
  /-- The order is transitive. -/
  trans : ∀ x y z, compare x y ≤ 0 → compare y z ≤ 0 → compare x z ≤ 0

/-- The second comparator decides where the first one finds no difference. -/
def thenBy (first second : α → α → ℚ) (x y : α) : ℚ :=
  if first x y ≠ 0 then first x y else second x y

variable {first second : α → α → ℚ}

/-- Of two elements one comes first, or neither does. -/
theorem Consistent.total (h : Consistent first) (x y : α) : first x y ≤ 0 ∨ first y x ≤ 0 := by
  rcases le_total (first x y) 0 with hle | hge
  · exact .inl hle
  · exact .inr ((h.swap y x).mpr hge)

/-- A difference of keys is consistent. -/
theorem consistent_sub (key : α → ℚ) : Consistent (fun x y => key x - key y) := by
  constructor
  · intro x y
    constructor <;> intro h <;> linarith
  · intro x y z hxy hyz
    linarith

/-- Indifference is symmetric. -/
theorem Consistent.eq_zero (h : Consistent first) {x y : α} (hxy : first x y = 0) :
    first y x = 0 := by
  have hle := (h.swap y x).mpr hxy.ge
  have hge := (h.swap x y).mp hxy.le
  exact le_antisymm hle hge

/-- A strict difference is not undone by what follows it. -/
theorem Consistent.lt_of_lt_of_le (h : Consistent first) {x y z : α} (hxy : first x y < 0)
    (hyz : first y z ≤ 0) : first x z < 0 := by
  refine lt_of_le_of_ne (h.trans x y z hxy.le hyz) fun hzero => ?_
  have hback := h.trans y z x hyz (h.eq_zero hzero).le
  exact absurd ((h.swap y x).mp hback) (not_le.mpr hxy)

theorem Consistent.lt_of_le_of_lt (h : Consistent first) {x y z : α} (hxy : first x y ≤ 0)
    (hyz : first y z < 0) : first x z < 0 := by
  refine lt_of_le_of_ne (h.trans x y z hxy hyz.le) fun hzero => ?_
  have hback := h.trans z x y (h.eq_zero hzero).le hxy
  exact absurd ((h.swap z y).mp hback) (not_le.mpr hyz)

/-- When the composed comparator does not put the second argument first. -/
theorem thenBy_le_iff (x y : α) :
    thenBy first second x y ≤ 0 ↔ first x y < 0 ∨ first x y = 0 ∧ second x y ≤ 0 := by
  unfold thenBy
  by_cases hzero : first x y = 0
  · simp [hzero]
  · rw [if_pos hzero]
    simp [hzero, lt_iff_le_and_ne]

/-- The second order decides where the first is indifferent. -/
theorem thenBy_ge_iff (x y : α) :
    0 ≤ thenBy first second x y ↔ 0 < first x y ∨ first x y = 0 ∧ 0 ≤ second x y := by
  unfold thenBy
  by_cases hzero : first x y = 0
  · simp [hzero]
  · rw [if_pos hzero]
    simp [hzero, lt_iff_le_and_ne, eq_comm]

/-- Consistent comparators compose. -/
theorem Consistent.thenBy (hfirst : Consistent first) (hsecond : Consistent second) :
    Consistent (thenBy first second) := by
  constructor
  · intro x y
    have hzero : first x y = 0 ↔ first y x = 0 := ⟨hfirst.eq_zero, hfirst.eq_zero⟩
    have hside : first x y < 0 ↔ 0 < first y x := by
      rw [← not_le, ← not_le, hfirst.swap y x]
    rw [thenBy_le_iff, thenBy_ge_iff, hsecond.swap x y, hzero, hside]
  · intro x y z hxy hyz
    rw [thenBy_le_iff] at hxy hyz ⊢
    rcases hxy with hxy | ⟨hxy, hxy'⟩
    · rcases hyz with hyz | ⟨hyz, -⟩
      · exact .inl (hfirst.lt_of_lt_of_le hxy hyz.le)
      · exact .inl (hfirst.lt_of_lt_of_le hxy hyz.le)
    · rcases hyz with hyz | ⟨hyz, hyz'⟩
      · exact .inl (hfirst.lt_of_le_of_lt hxy.le hyz)
      · refine .inr ⟨?_, hsecond.trans x y z hxy' hyz'⟩
        have hle := hfirst.trans x y z hxy.le hyz.le
        have hge := hfirst.trans z y x (hfirst.eq_zero hyz).le (hfirst.eq_zero hxy).le
        exact le_antisymm hle ((hfirst.swap z x).mp hge)

end Comparators

section Choice

variable {α : Type} (r : α → α → Prop) (place : α → ℕ)

/-- The first item comes before the second in a stable sort of items given by place. -/
def Before (x y : α) : Prop := r x y ∧ (place x < place y ∨ ¬r y x)

/-- The item is of the set and comes before every other one of it. -/
def Leads (items : α → Prop) (x : α) : Prop :=
  items x ∧ ∀ y, items y → y ≠ x → Before r place x y

variable {r place}

/-- No two elements come before each other. -/
theorem before_asymm {x y : α} (h : Before r place x y) : ¬Before r place y x := by
  rintro ⟨hback, hlt | hnot⟩
  · rcases h.2 with hlt' | hnot
    · omega
    · exact hnot hback
  · exact hnot h.1

/-- At most one item leads. -/
theorem leads_unique {items : α → Prop} {x y : α} (hx : Leads r place items x)
    (hy : Leads r place items y) : x = y := by
  by_contra hne
  exact before_asymm (hx.2 y hy.1 (Ne.symm hne)) (hy.2 x hx.1 hne)

/-- An item that leads a set leads the smaller sets it is in. -/
theorem leads_of_subset {larger smaller : α → Prop} {x : α} (h : Leads r place larger x)
    (hsub : ∀ y, smaller y → larger y) (hx : smaller x) : Leads r place smaller x :=
  ⟨hx, fun y hy hne => h.2 y (hsub y hy) hne⟩

variable [DecidableRel r]

/-- What stands first after an insertion is the new item or the one that stood first. -/
theorem head_orderedInsert (x : α) (items : List α) :
    (items.orderedInsert r x).head? =
      some (match items.head? with
        | none => x
        | some y => if r x y then x else y) := by
  cases items with
  | nil => rfl
  | cons y items =>
    rw [List.orderedInsert_cons]
    split <;> simp_all

/-- A stable sort of items given by place puts the leading one first. -/
theorem head_insertionSort (htotal : ∀ x y, r x y ∨ r y x)
    (htrans : ∀ x y z, r x y → r y z → r x z) {items : List α}
    (hplaced : items.Pairwise (fun x y => place x < place y)) (hne : items ≠ []) :
    ∃ x, Leads r place (· ∈ items) x ∧ (items.insertionSort r).head? = some x := by
  induction items with
  | nil => exact absurd rfl hne
  | cons p items ih =>
    rw [List.insertionSort_cons, head_orderedInsert]
    obtain ⟨hfirst, hrest⟩ := List.pairwise_cons.mp hplaced
    by_cases hempty : items = []
    · subst hempty
      exact ⟨p, ⟨List.mem_singleton_self p, fun y hy hyp => absurd (List.mem_singleton.mp hy) hyp⟩,
        rfl⟩
    · obtain ⟨x, hleads, hhead⟩ := ih hrest hempty
      rw [hhead]
      dsimp only
      by_cases hle : r p x
      · refine ⟨p, ⟨List.mem_cons_self, ?_⟩, by rw [if_pos hle]⟩
        intro y hy hyp
        have hmem := (List.mem_cons.mp hy).resolve_left hyp
        refine ⟨?_, .inl (hfirst y hmem)⟩
        by_cases hyx : y = x
        · exact hyx ▸ hle
        · exact htrans _ _ _ hle (hleads.2 y hmem hyx).1
      · refine ⟨x, ⟨List.mem_cons_of_mem _ hleads.1, ?_⟩, by rw [if_neg hle]⟩
        intro y hy hyx
        rcases List.mem_cons.mp hy with rfl | hmem
        · exact ⟨(htotal _ _).resolve_left hle, .inr hle⟩
        · exact hleads.2 y hmem hyx

/-- An item stands first after a stable sort exactly when it leads. -/
theorem head_insertionSort_iff (htotal : ∀ x y, r x y ∨ r y x)
    (htrans : ∀ x y z, r x y → r y z → r x z) {items : List α}
    (hplaced : items.Pairwise (fun x y => place x < place y)) (x : α) :
    (items.insertionSort r).head? = some x ↔ Leads r place (· ∈ items) x := by
  by_cases hempty : items = []
  · subst hempty
    simp [Leads]
  · obtain ⟨first, hleads, hhead⟩ := head_insertionSort htotal htrans hplaced hempty
    rw [hhead, Option.some.injEq]
    constructor
    · rintro rfl
      exact hleads
    · exact leads_unique hleads

end Choice

end Fipwave.StableChoice
