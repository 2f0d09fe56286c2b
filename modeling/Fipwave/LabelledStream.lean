import Mathlib.Tactic

/-!
# Streams whose labels come in groups

A stream grows at its end, and some of its elements carry a label. It is
serial if the elements of one label stand together and different labels come
in a given order. A reader takes the elements in their order, may miss some
and may be given the last one again. It meets the labels in their order, and
a label that it has left never comes to it again.
-/

namespace Fipwave.LabelledStream

variable {α ι : Type*} (label : α → Option ι)

/-- The element at a position carries a label. -/
def At (l : List α) (i : ℕ) (p : ι) : Prop := ∃ a, l[i]? = some a ∧ label a = some p

/-- Elements of one label stand together, and different labels come in an order. -/
structure Serial (before : ι → ι → Prop) (l : List α) : Prop where
  /-- No label stands between elements of another one. -/
  together : ∀ i j k p q, i < j → j < k → At label l i p → At label l j q → At label l k p → q = p
  /-- Different labels are in order. -/
  ordered : ∀ i j p q, i < j → At label l i p → At label l j q → p ≠ q → before p q

/-- No other label comes after the label. -/
def Last (l : List α) (p : ι) : Prop :=
  ∀ i j q, i < j → At label l i p → At label l j q → q = p

/-- A reader up to a position has met the label. -/
def Met (l : List α) (position : ℕ) (p : ι) : Prop := ∃ i < position, At label l i p

/-- A reader up to a position has met the label and another one after it. -/
def Left (l : List α) (position : ℕ) (p : ι) : Prop :=
  ∃ i j q, i < j ∧ j < position ∧ At label l i p ∧ At label l j q ∧ q ≠ p

variable {label} {before : ι → ι → Prop} {l r : List α} {p q : ι} {i position : ℕ}

/-- A position of the stream carries one label. -/
theorem At.unique (hp : At label l i p) (hq : At label l i q) : p = q := by
  obtain ⟨a, ha, hlabel⟩ := hp
  obtain ⟨b, hb, hother⟩ := hq
  have hsame : a = b := Option.some.inj (ha.symm.trans hb)
  rw [hsame] at hlabel
  exact Option.some.inj (hlabel.symm.trans hother)

/-- A label at a position belongs to an element of the stream. -/
theorem At.mem (h : At label l i p) : ∃ a ∈ l, label a = some p := by
  obtain ⟨a, ha, hlabel⟩ := h
  exact ⟨a, List.mem_of_getElem? ha, hlabel⟩

/-- What is added behind changes no position. -/
theorem At.append (h : At label l i p) (r : List α) : At label (l ++ r) i p := by
  obtain ⟨a, ha, hlabel⟩ := h
  have hlt : i < l.length := (List.getElem?_eq_some_iff.mp ha).1
  exact ⟨a, by rw [List.getElem?_append_left hlt, ha], hlabel⟩

/-- A label of a longer stream is one of the stream before or of what was added. -/
theorem at_append (h : At label (l ++ r) i p) :
    At label l i p ∨ l.length ≤ i ∧ ∃ a ∈ r, label a = some p := by
  obtain ⟨a, ha, hlabel⟩ := h
  by_cases hlt : i < l.length
  · rw [List.getElem?_append_left hlt] at ha
    exact .inl ⟨a, ha, hlabel⟩
  · have hle : l.length ≤ i := by omega
    rw [List.getElem?_append_right hle] at ha
    exact .inr ⟨hle, a, List.mem_of_getElem? ha, hlabel⟩

theorem At.lt_length (h : At label l i p) : i < l.length := by
  obtain ⟨a, ha, -⟩ := h
  exact (List.getElem?_eq_some_iff.mp ha).1

/-- A label before another position of a longer stream is one of the stream before, or both are
of what was added. -/
theorem at_append_lt {j : ℕ} (hlt : i < j) (hp : At label (l ++ r) i p)
    (hq : At label (l ++ r) j q) :
    (At label l i p ∧ At label l j q) ∨ (At label l i p ∧ ∃ a ∈ r, label a = some q) ∨
      ((∃ a ∈ r, label a = some p) ∧ ∃ a ∈ r, label a = some q) := by
  rcases at_append hp with hp | ⟨hi, hp⟩
  · rcases at_append hq with hq | ⟨-, hq⟩
    · exact .inl ⟨hp, hq⟩
    · exact .inr (.inl ⟨hp, hq⟩)
  · rcases at_append hq with hq | ⟨-, hq⟩
    · have hj := hq.lt_length
      omega
    · exact .inr (.inr ⟨hp, hq⟩)

/-- The empty stream is serial. -/
theorem Serial.nil : Serial label before ([] : List α) := by
  constructor
  · intro i j k p q _ _ h
    exact absurd h.lt_length (by simp)
  · intro i j p q _ h
    exact absurd h.lt_length (by simp)

/-- The order may allow more. -/
theorem Serial.mono {after : ι → ι → Prop} (h : Serial label before l)
    (hweaker : ∀ p q, before p q → after p q) : Serial label after l :=
  ⟨h.together, fun i j p q hlt hp hq hne => hweaker p q (h.ordered i j p q hlt hp hq hne)⟩

/-- Elements without a label change nothing. -/
theorem Serial.append_plain (h : Serial label before l) (hr : ∀ a ∈ r, label a = none) :
    Serial label before (l ++ r) := by
  have hback : ∀ {i p}, At label (l ++ r) i p → At label l i p := by
    intro i p hp
    rcases at_append hp with hp | ⟨-, a, ha, hlabel⟩
    · exact hp
    · rw [hr a ha] at hlabel
      cases hlabel
  constructor
  · intro i j k p q hij hjk hi hj hk
    exact h.together i j k p q hij hjk (hback hi) (hback hj) (hback hk)
  · intro i j p q hij hi hj hne
    exact h.ordered i j p q hij (hback hi) (hback hj) hne

/-- Unlabelled elements leave the last label the last. -/
theorem Last.append_plain (h : Last label l p) (hr : ∀ a ∈ r, label a = none) :
    Last label (l ++ r) p := by
  intro i j q hij hi hj
  rcases at_append_lt hij hi hj with ⟨hi, hj⟩ | ⟨-, a, ha, hlabel⟩ | ⟨-, a, ha, hlabel⟩
  · exact h i j q hij hi hj
  · rw [hr a ha] at hlabel
    cases hlabel
  · rw [hr a ha] at hlabel
    cases hlabel

/-- A label that is not there may come. -/
theorem last_of_absent (h : ∀ i, ¬At label l i p) : Last label l p :=
  fun i _ _ _ hi _ => absurd hi (h i)

/-- More elements of the label that no other one comes after. -/
theorem Last.append (h : Last label l p) (hr : ∀ a ∈ r, ∀ q, label a = some q → q = p) :
    Last label (l ++ r) p := by
  intro i j q hij hi hj
  rcases at_append_lt hij hi hj with ⟨hi, hj⟩ | ⟨-, a, ha, hlabel⟩ | ⟨-, a, ha, hlabel⟩
  · exact h i j q hij hi hj
  · exact hr a ha q hlabel
  · exact hr a ha q hlabel

/-- A stream stays serial if elements of a label are added that no other one comes after and all
others come before. -/
theorem Serial.append (h : Serial label before l) (hlast : Last label l p)
    (hr : ∀ a ∈ r, ∀ q, label a = some q → q = p)
    (hbefore : ∀ i q, At label l i q → q ≠ p → before q p) : Serial label before (l ++ r) := by
  constructor
  · intro i j k q q' hij hjk hi hj hk
    rcases at_append_lt hjk hj hk with ⟨hj, hk⟩ | ⟨hj, a, ha, hlabel⟩ | ⟨⟨a, ha, hlabel⟩, b, hb, hother⟩
    · rcases at_append_lt hij hi (hj.append r) with ⟨hi, -⟩ | ⟨hi, -⟩ | ⟨-, a, ha, hlabel⟩
      · exact h.together i j k q q' hij hjk hi hj hk
      · exact h.together i j k q q' hij hjk hi hj hk
      · rcases at_append hi with hi | ⟨hle, -⟩
        · exact h.together i j k q q' hij hjk hi hj hk
        · have hlt := hj.lt_length
          omega
    · have hsame : q = p := hr a ha q hlabel
      rcases at_append hi with hi | ⟨hle, -⟩
      · rw [hsame] at hi ⊢
        exact hlast i j q' hij hi hj
      · have hlt := hj.lt_length
        omega
    · exact (hr a ha q' hlabel).trans (hr b hb q hother).symm
  · intro i j q q' hij hi hj hne
    rcases at_append_lt hij hi hj with ⟨hi, hj⟩ | ⟨hi, a, ha, hlabel⟩ | ⟨⟨a, ha, hlabel⟩, b, hb, hother⟩
    · exact h.ordered i j q q' hij hi hj hne
    · rw [hr a ha q' hlabel] at hne ⊢
      exact hbefore i q hi hne
    · exact absurd ((hr a ha q hlabel).trans (hr b hb q' hother).symm) hne

section Reader

/-- A label met stays met when the stream grows. -/
theorem Met.append (h : Met label l position p) (r : List α) : Met label (l ++ r) position p := by
  obtain ⟨i, hi, hp⟩ := h
  exact ⟨i, hi, hp.append r⟩

/-- A label met before a position is met before every later one. -/
theorem Met.later {next : ℕ} (h : Met label l position p) (hle : position ≤ next) :
    Met label l next p := by
  obtain ⟨i, hi, hp⟩ := h
  exact ⟨i, by omega, hp⟩

/-- A label left behind stays so when the stream grows. -/
theorem Left.append (h : Left label l position p) (r : List α) :
    Left label (l ++ r) position p := by
  obtain ⟨i, j, q, hij, hj, hp, hq, hne⟩ := h
  exact ⟨i, j, q, hij, hj, hp.append r, hq.append r, hne⟩

/-- A label left behind at a position is left behind at every later one. -/
theorem Left.later {next : ℕ} (h : Left label l position p) (hle : position ≤ next) :
    Left label l next p := by
  obtain ⟨i, j, q, hij, hj, hp, hq, hne⟩ := h
  exact ⟨i, j, q, hij, by omega, hp, hq, hne⟩

/-- A label that the reader has met is met no more, once another one is at the last position. -/
theorem Met.left (h : Met label l (i + 1) p) (hq : At label l i q) (hne : q ≠ p) :
    Left label l (i + 1) p := by
  obtain ⟨k, hk, hp⟩ := h
  have hki : k ≠ i := by
    rintro rfl
    exact hne (hq.unique hp)
  exact ⟨k, i, q, by omega, by omega, hp, hq, hne⟩

/-- What the reader is given last is no label that it has left. -/
theorem Left.not_at (h : Serial label before l) (hleft : Left label l (i + 1) p) :
    ¬At label l i p := by
  intro hp
  obtain ⟨k, j, q, hkj, hj, hk, hq, hne⟩ := hleft
  by_cases hji : j = i
  · rw [hji] at hq
    exact hne (hq.unique hp)
  · exact hne (h.together k j i p q hkj (by omega) hk hq hp)

/-- What the reader has met comes before what it is given last. -/
theorem Met.precedes (h : Serial label before l) (hmet : Met label l (i + 1) p)
    (hq : At label l i q) (hne : p ≠ q) : before p q := by
  obtain ⟨k, hk, hp⟩ := hmet
  have hki : k ≠ i := by
    rintro rfl
    exact hne (hp.unique hq)
  exact h.ordered k i p q (by omega) hp hq hne

end Reader

end Fipwave.LabelledStream
