import Mathlib.Data.List.Basic
import Mathlib.Data.Set.Defs

/-!
# Patterns with groups

A pattern is tried at every position of a text, and at one position its
choices are tried in their order, the longer repetition first. What it finds
is a reading in the declarative sense. A pattern whose parts tell by their
first letter where they begin has at most one reading at a position, and then
the search finds the first position that has one.
-/

namespace Fipwave.TextPatterns

section Patterns

/-- Patterns over an alphabet. -/
inductive Pattern (α : Type*) where
  /-- Nothing. -/
  | empty
  /-- One letter of a class. -/
  | letter (accepts : α → Bool)
  /-- Letters of a class, as many as possible. -/
  | letters (accepts : α → Bool)
  /-- Two patterns, one after the other. -/
  | chain (first second : Pattern α)
  /-- The first pattern, or else the second. -/
  | either (first second : Pattern α)
  /-- A numbered group. -/
  | group (index : ℕ) (inner : Pattern α)

/-- Groups that were found, the latest first. -/
abbrev Groups (α : Type*) := List (ℕ × List α)

variable {α : Type*}

/-- What remains after the letters of a class, the longest run of them first. -/
def remainders (accepts : α → Bool) : List α → List (List α)
  | [] => [[]]
  | x :: rest => if accepts x then remainders accepts rest ++ [x :: rest] else [x :: rest]

/-- Try a pattern at the start of a text: what remains and the groups, in the order of the
choices. -/
def run : Pattern α → List α → Groups α → List (List α × Groups α)
  | .empty, text, groups => [(text, groups)]
  | .letter accepts, text, groups =>
    match text with
    | [] => []
    | x :: rest => if accepts x then [(rest, groups)] else []
  | .letters accepts, text, groups => (remainders accepts text).map (fun rest => (rest, groups))
  | .chain first second, text, groups =>
    (run first text groups).flatMap (fun result => run second result.1 result.2)
  | .either first second, text, groups => run first text groups ++ run second text groups
  | .group index inner, text, groups =>
    (run inner text groups).map (fun result =>
      (result.1, (index, text.take (text.length - result.1.length)) :: result.2))

/-- Search a text: the groups of the first choice at the first position that has one. -/
def exec (pattern : Pattern α) : List α → Option (Groups α)
  | [] => (run pattern [] []).head?.map Prod.snd
  | x :: rest =>
    match run pattern (x :: rest) [] with
    | [] => exec pattern rest
    | result :: _ => some result.2

/-- A fixed word. -/
def word [DecidableEq α] : List α → Pattern α
  | [] => .empty
  | x :: rest => .chain (.letter (fun y => y = x)) (word rest)

/-- One letter of a class or more. -/
def atLeastOne (accepts : α → Bool) : Pattern α := .chain (.letter accepts) (.letters accepts)

/-- The pattern or nothing. -/
def optional (pattern : Pattern α) : Pattern α := .either pattern .empty

/-- Patterns one after the other. -/
def sequence : List (Pattern α) → Pattern α
  | [] => .empty
  | first :: rest => .chain first (sequence rest)

end Patterns

section Meaning

variable {α : Type*}

/-- The pattern reads a text up to a remainder, with these groups. -/
def Reads : Pattern α → List α → List α → Groups α → Prop
  | .empty, text, rest, groups => text = rest ∧ groups = []
  | .letter accepts, text, rest, groups => (∃ x, accepts x = true ∧ text = x :: rest) ∧ groups = []
  | .letters accepts, text, rest, groups =>
    (∃ found, (∀ x ∈ found, accepts x = true) ∧ text = found ++ rest) ∧ groups = []
  | .chain first second, text, rest, groups =>
    ∃ middle before after, Reads first text middle before ∧ Reads second middle rest after ∧
      groups = after ++ before
  | .either first second, text, rest, groups =>
    Reads first text rest groups ∨ Reads second text rest groups
  | .group index inner, text, rest, groups =>
    ∃ found before, text = found ++ rest ∧ Reads inner text rest before ∧
      groups = (index, found) :: before

/-- The text starts with one the pattern reads. -/
def StartsWith (pattern : Pattern α) (text : List α) (groups : Groups α) : Prop :=
  ∃ rest, Reads pattern text rest groups

/-- A reading at the first position of a text that has one. -/
def First {β : Type*} (reading : List α → β → Prop) (text : List α) (value : β) : Prop :=
  ∃ before after, text = before ++ after ∧ reading after value ∧
    ∀ earlier later, text = earlier ++ later → earlier.length < before.length →
      ∀ other, ¬ reading later other

/-- The remainders are what follows runs of letters of the class, by induction on the text. -/
theorem mem_remainders {accepts : α → Bool} {text rest : List α} :
    rest ∈ remainders accepts text ↔
      ∃ found, text = found ++ rest ∧ ∀ x ∈ found, accepts x = true := by
  induction text with
  | nil =>
    constructor
    · intro h
      have hrest : rest = [] := by simpa [remainders] using h
      exact ⟨[], by simp [hrest], by simp⟩
    · rintro ⟨found, htext, -⟩
      have hrest : rest = [] := (List.append_eq_nil_iff.mp htext.symm).2
      simp [remainders, hrest]
  | cons x tail ih =>
    have hwhole : rest = x :: tail →
        ∃ found, x :: tail = found ++ rest ∧ ∀ y ∈ found, accepts y = true := by
      intro h
      exact ⟨[], by simp [h], by simp⟩
    by_cases hx : accepts x = true
    · have hstep : remainders accepts (x :: tail) = remainders accepts tail ++ [x :: tail] := by
        simp [remainders, hx]
      rw [hstep, List.mem_append, List.mem_singleton, ih]
      constructor
      · rintro (⟨found, htail, hall⟩ | h)
        · refine ⟨x :: found, by simp [htail], ?_⟩
          intro y hy
          rcases List.mem_cons.mp hy with rfl | hy
          · exact hx
          · exact hall y hy
        · exact hwhole h
      · rintro ⟨found, htext, hall⟩
        cases found with
        | nil => exact Or.inr htext.symm
        | cons y found =>
          have htail : tail = found ++ rest := (List.cons.inj htext).2
          exact Or.inl ⟨found, htail, fun z hz => hall z (List.mem_cons_of_mem y hz)⟩
    · have hstep : remainders accepts (x :: tail) = [x :: tail] := by
        simp [remainders, hx]
      rw [hstep, List.mem_singleton]
      constructor
      · exact hwhole
      · rintro ⟨found, htext, hall⟩
        cases found with
        | nil => exact htext.symm
        | cons y found =>
          have hhead : x = y := (List.cons.inj htext).1
          exact absurd (hall x (by simp [hhead])) hx

/-- What is read is a first part of the text. -/
theorem Reads.split {pattern : Pattern α} {text rest : List α} {groups : Groups α}
    (h : Reads pattern text rest groups) : ∃ found, text = found ++ rest := by
  induction pattern generalizing text rest groups with
  | empty => exact ⟨[], h.1⟩
  | letter accepts =>
    obtain ⟨⟨x, -, htext⟩, -⟩ := h
    exact ⟨[x], htext⟩
  | letters accepts =>
    obtain ⟨⟨found, -, htext⟩, -⟩ := h
    exact ⟨found, htext⟩
  | chain first second ihFirst ihSecond =>
    obtain ⟨middle, before, after, hfirst, hsecond, -⟩ := h
    obtain ⟨left, htext⟩ := ihFirst hfirst
    obtain ⟨right, hmiddle⟩ := ihSecond hsecond
    exact ⟨left ++ right, by rw [htext, hmiddle, List.append_assoc]⟩
  | either first second ihFirst ihSecond =>
    cases h with
    | inl h => exact ihFirst h
    | inr h => exact ihSecond h
  | group index inner ih =>
    obtain ⟨found, -, htext, -, -⟩ := h
    exact ⟨found, htext⟩

/-- A run finds exactly what the pattern reads at the start of the text, by induction on the pattern
for every text and every groups read so far. -/
theorem mem_run {pattern : Pattern α} {text rest : List α} {groups result : Groups α} :
    (rest, result) ∈ run pattern text groups ↔
      ∃ more, Reads pattern text rest more ∧ result = more ++ groups := by
  induction pattern generalizing text rest groups result with
  | empty =>
    constructor
    · intro h
      have hpair : rest = text ∧ result = groups := by simpa [run] using h
      exact ⟨[], ⟨hpair.1.symm, rfl⟩, hpair.2⟩
    · rintro ⟨more, ⟨htext, hmore⟩, hresult⟩
      simp [run, htext, hresult, hmore]
  | letter accepts =>
    constructor
    · intro h
      cases text with
      | nil => simp [run] at h
      | cons x tail =>
        have hpair : accepts x = true ∧ rest = tail ∧ result = groups := by
          simpa [run] using h
        exact ⟨[], ⟨⟨x, hpair.1, by rw [hpair.2.1]⟩, rfl⟩, hpair.2.2⟩
    · rintro ⟨more, ⟨⟨x, hx, htext⟩, hmore⟩, hresult⟩
      simp [run, htext, hx, hresult, hmore]
  | letters accepts =>
    have hrun : (rest, result) ∈ run (.letters accepts) text groups ↔
        rest ∈ remainders accepts text ∧ result = groups := by
      simp [run, eq_comm]
    rw [hrun, mem_remainders]
    constructor
    · rintro ⟨⟨found, htext, hall⟩, hresult⟩
      exact ⟨[], ⟨⟨found, hall, htext⟩, rfl⟩, hresult⟩
    · rintro ⟨more, ⟨⟨found, hall, htext⟩, hmore⟩, hresult⟩
      exact ⟨⟨found, htext, hall⟩, by rw [hresult, hmore, List.nil_append]⟩
  | chain first second ihFirst ihSecond =>
    constructor
    · intro h
      obtain ⟨⟨middle, between⟩, hfirst, hsecond⟩ := List.mem_flatMap.mp h
      obtain ⟨before, hbefore, hbetween⟩ := ihFirst.mp hfirst
      obtain ⟨after, hafter, (hresult : result = after ++ between)⟩ := ihSecond.mp hsecond
      refine ⟨after ++ before, ⟨middle, before, after, hbefore, hafter, rfl⟩, ?_⟩
      rw [hresult, hbetween, List.append_assoc]
    · rintro ⟨more, ⟨middle, before, after, hbefore, hafter, rfl⟩, hresult⟩
      refine List.mem_flatMap.mpr ⟨(middle, before ++ groups), ?_, ?_⟩
      · exact ihFirst.mpr ⟨before, hbefore, rfl⟩
      · exact ihSecond.mpr ⟨after, hafter, by rw [hresult, List.append_assoc]⟩
  | either first second ihFirst ihSecond =>
    have hrun : (rest, result) ∈ run (.either first second) text groups ↔
        (rest, result) ∈ run first text groups ∨ (rest, result) ∈ run second text groups := by
      simp [run]
    rw [hrun, ihFirst, ihSecond]
    constructor
    · rintro (⟨more, h, hresult⟩ | ⟨more, h, hresult⟩)
      · exact ⟨more, Or.inl h, hresult⟩
      · exact ⟨more, Or.inr h, hresult⟩
    · rintro ⟨more, h | h, hresult⟩
      · exact Or.inl ⟨more, h, hresult⟩
      · exact Or.inr ⟨more, h, hresult⟩
  | group index inner ih =>
    have htake : ∀ found remaining : List α, text = found ++ remaining →
        text.take (text.length - remaining.length) = found := by
      intro found remaining htext
      simp [htext]
    constructor
    · intro h
      obtain ⟨⟨remaining, between⟩, hinner, hpair⟩ := List.mem_map.mp h
      obtain ⟨before, hbefore, hbetween⟩ := ih.mp hinner
      obtain ⟨found, htext⟩ := hbefore.split
      have hrest : remaining = rest := congrArg Prod.fst hpair
      have hresult : (index, text.take (text.length - remaining.length)) :: between = result :=
        congrArg Prod.snd hpair
      subst hrest
      refine ⟨(index, found) :: before, ⟨found, before, htext, hbefore, rfl⟩, ?_⟩
      rw [← hresult, htake found remaining htext, hbetween, List.cons_append]
    · rintro ⟨more, ⟨found, before, htext, hbefore, rfl⟩, hresult⟩
      refine List.mem_map.mpr ⟨(rest, before ++ groups), ?_, ?_⟩
      · exact ih.mpr ⟨before, hbefore, rfl⟩
      · rw [htake found rest htext, hresult, List.cons_append]

end Meaning

section Readings

variable {α : Type*} {accepts : α → Bool} {text rest : List α} {groups : Groups α}

/-- A word reads itself. -/
theorem reads_word [DecidableEq α] {letters : List α} :
    Reads (word letters) text rest groups ↔ text = letters ++ rest ∧ groups = [] := by
  induction letters generalizing text groups with
  | nil => simp [word, Reads]
  | cons x tail ih =>
    constructor
    · rintro ⟨middle, before, after, ⟨⟨y, hy, htext⟩, hbefore⟩, hafter, hgroups⟩
      obtain ⟨hmiddle, hnone⟩ := ih.mp hafter
      have hyx : y = x := by simpa using hy
      exact ⟨by rw [htext, hyx, hmiddle, List.cons_append], by rw [hgroups, hbefore, hnone]; rfl⟩
    · rintro ⟨htext, hgroups⟩
      exact ⟨tail ++ rest, [], [], ⟨⟨x, by simp, htext⟩, rfl⟩, ih.mpr ⟨rfl, rfl⟩, hgroups⟩

/-- One letter or more are read when there is one. -/
theorem reads_atLeastOne : Reads (atLeastOne accepts) text rest groups ↔
    (∃ found, found ≠ [] ∧ (∀ x ∈ found, accepts x = true) ∧ text = found ++ rest) ∧
      groups = [] := by
  constructor
  · rintro ⟨middle, before, after, ⟨⟨x, hx, htext⟩, hbefore⟩, ⟨⟨found, hall, hmiddle⟩, hafter⟩,
      hgroups⟩
    refine ⟨⟨x :: found, by simp, ?_, by rw [htext, hmiddle, List.cons_append]⟩,
      by rw [hgroups, hbefore, hafter]; rfl⟩
    intro y hy
    rcases List.mem_cons.mp hy with rfl | hy
    · exact hx
    · exact hall y hy
  · rintro ⟨⟨found, hsome, hall, htext⟩, hgroups⟩
    obtain ⟨x, more, rfl⟩ := List.exists_cons_of_ne_nil hsome
    exact ⟨more ++ rest, [], [], ⟨⟨x, hall x (by simp), htext⟩, rfl⟩,
      ⟨⟨more, fun y hy => hall y (List.mem_cons_of_mem x hy), rfl⟩, rfl⟩, hgroups⟩

/-- The pattern has no groups and reads the texts of a language. -/
def Spells (pattern : Pattern α) (language : List α → Prop) : Prop :=
  ∀ text rest groups, Reads pattern text rest groups ↔
    (∃ found, language found ∧ text = found ++ rest) ∧ groups = []

/-- Nothing spells the empty text. -/
theorem spells_empty : Spells (.empty : Pattern α) (fun found => found = []) := by
  intro text rest groups
  simp [Reads]

/-- A word spells itself. -/
theorem spells_word [DecidableEq α] {letters : List α} :
    Spells (word letters) (fun found => found = letters) := by
  intro text rest groups
  rw [reads_word]
  simp

/-- A letter spells itself. -/
theorem spells_letter :
    Spells (.letter accepts) (fun found => ∃ x, accepts x = true ∧ found = [x]) := by
  intro text rest groups
  constructor
  · rintro ⟨⟨x, hx, htext⟩, hgroups⟩
    exact ⟨⟨[x], ⟨x, hx, rfl⟩, htext⟩, hgroups⟩
  · rintro ⟨⟨found, ⟨x, hx, rfl⟩, htext⟩, hgroups⟩
    exact ⟨⟨x, hx, htext⟩, hgroups⟩

/-- Letters spell the runs of their class. -/
theorem spells_letters :
    Spells (.letters accepts) (fun found => ∀ x ∈ found, accepts x = true) :=
  fun _ _ _ => Iff.rfl

/-- One letter or more spell the runs that are not empty. -/
theorem spells_atLeastOne :
    Spells (atLeastOne accepts) (fun found => found ≠ [] ∧ ∀ x ∈ found, accepts x = true) := by
  intro text rest groups
  rw [reads_atLeastOne]
  simp only [and_assoc]

/-- An option spells its text or nothing. -/
theorem spells_optional {pattern : Pattern α} {language : List α → Prop}
    (h : Spells pattern language) :
    Spells (optional pattern) (fun found => language found ∨ found = []) := by
  intro text rest groups
  constructor
  · rintro (hfound | hnone)
    · obtain ⟨⟨found, hlanguage, htext⟩, hgroups⟩ := (h text rest groups).mp hfound
      exact ⟨⟨found, Or.inl hlanguage, htext⟩, hgroups⟩
    · exact ⟨⟨[], Or.inr rfl, hnone.1⟩, hnone.2⟩
  · rintro ⟨⟨found, hlanguage | rfl, htext⟩, hgroups⟩
    · exact Or.inl ((h text rest groups).mpr ⟨⟨found, hlanguage, htext⟩, hgroups⟩)
    · exact Or.inr ⟨htext, hgroups⟩

variable {first second : Pattern α} {language following : List α → Prop}

/-- A pattern without groups and then another one. -/
theorem reads_spells_chain (h : Spells first language) :
    Reads (.chain first second) text rest groups ↔
      ∃ found middle, language found ∧ text = found ++ middle ∧
        Reads second middle rest groups := by
  constructor
  · rintro ⟨middle, before, after, hfirst, hsecond, hgroups⟩
    obtain ⟨⟨found, hlanguage, htext⟩, hbefore⟩ := (h text middle before).mp hfirst
    rw [hbefore, List.append_nil] at hgroups
    exact ⟨found, middle, hlanguage, htext, by rwa [hgroups]⟩
  · rintro ⟨found, middle, hlanguage, htext, hsecond⟩
    exact ⟨middle, [], groups, (h text middle []).mpr ⟨⟨found, hlanguage, htext⟩, rfl⟩, hsecond,
      (List.append_nil groups).symm⟩

/-- A group and then another pattern reads the text of the group and the rest. -/
theorem reads_group_chain {index : ℕ} (h : Spells first language) :
    Reads (.chain (.group index first) second) text rest groups ↔
      ∃ found middle more, language found ∧ text = found ++ middle ∧
        Reads second middle rest more ∧ groups = more ++ [(index, found)] := by
  constructor
  · rintro ⟨middle, before, after, ⟨found, inner, htext, hinner, hbefore⟩, hsecond, hgroups⟩
    obtain ⟨⟨other, hlanguage, hother⟩, hnone⟩ := (h text middle inner).mp hinner
    have hfound : found = other := List.append_cancel_right (htext.symm.trans hother)
    rw [hbefore, hnone] at hgroups
    exact ⟨found, middle, after, by rwa [hfound], htext, hsecond, hgroups⟩
  · rintro ⟨found, middle, more, hlanguage, htext, hsecond, hgroups⟩
    exact ⟨middle, [(index, found)], more,
      ⟨found, [], htext, (h text middle []).mpr ⟨⟨found, hlanguage, htext⟩, rfl⟩, rfl⟩, hsecond,
      hgroups⟩

/-- Two patterns without groups spell the texts of one after the texts of the other. -/
theorem spells_chain (hfirst : Spells first language) (hsecond : Spells second following) :
    Spells (.chain first second) (fun found =>
      ∃ left right, language left ∧ following right ∧ found = left ++ right) := by
  intro text rest groups
  rw [reads_spells_chain hfirst]
  constructor
  · rintro ⟨left, middle, hleft, htext, hright⟩
    obtain ⟨⟨right, hfollowing, hmiddle⟩, hgroups⟩ := (hsecond middle rest groups).mp hright
    exact ⟨⟨left ++ right, ⟨left, right, hleft, hfollowing, rfl⟩,
      by rw [htext, hmiddle, List.append_assoc]⟩, hgroups⟩
  · rintro ⟨⟨found, ⟨left, right, hleft, hfollowing, rfl⟩, htext⟩, hgroups⟩
    exact ⟨left, right ++ rest, hleft, by rw [htext, List.append_assoc],
      (hsecond _ rest groups).mpr ⟨⟨right, hfollowing, rfl⟩, hgroups⟩⟩

/-- Nothing at the end of a sequence. -/
theorem reads_sequence_nil :
    Reads (sequence ([] : List (Pattern α))) text rest groups ↔ text = rest ∧ groups = [] :=
  Iff.rfl

/-- The text begins with a letter of a class. -/
def Begins (accepts : α → Bool) (text : List α) : Prop :=
  ∃ x rest, text = x :: rest ∧ accepts x = true

/-- A text before such a text: what the pattern reads begins with a letter of a class. -/
def Leads (pattern : Pattern α) (next : List α → Prop) (accepts : α → Bool) : Prop :=
  ∀ text rest groups, Reads pattern text rest groups → next rest → Begins accepts text

/-- Among the readings that are followed by such a text there is at most one. -/
def Settled (pattern : Pattern α) (next : List α → Prop) : Prop :=
  ∀ text rest other groups more, Reads pattern text rest groups → next rest →
    Reads pattern text other more → next other → rest = other ∧ groups = more

/-- Runs of a class that end outside of it end at the same place. -/
theorem run_unique {left right first second : List α} {outside : α → Bool}
    (hdisjoint : ∀ x, outside x = true → accepts x = false)
    (hleft : ∀ x ∈ left, accepts x = true) (hright : ∀ x ∈ right, accepts x = true)
    (hfirst : Begins outside first) (hsecond : Begins outside second)
    (h : left ++ first = right ++ second) : first = second := by
  induction left generalizing right with
  | nil =>
    obtain ⟨x, tail, rfl, hx⟩ := hfirst
    cases right with
    | nil => exact h
    | cons y right =>
      have hhead : x = y := (List.cons.inj h).1
      have hin := hright x (by simp [hhead])
      rw [hdisjoint x hx] at hin
      exact absurd hin (by simp)
  | cons y left ih =>
    cases right with
    | nil =>
      obtain ⟨x, tail, rfl, hx⟩ := hsecond
      have hhead : y = x := (List.cons.inj h).1
      have hin := hleft x (by simp [hhead])
      rw [hdisjoint x hx] at hin
      exact absurd hin (by simp)
    | cons z right =>
      exact ih (fun x hx => hleft x (List.mem_cons_of_mem y hx))
        (fun x hx => hright x (List.mem_cons_of_mem z hx)) (List.cons.inj h).2

end Readings

section Rules

variable {α : Type*} {first second : Pattern α} {next between : List α → Prop}
variable {accepts outside : α → Bool}

/-- A letter outside of a class is apart from it. -/
theorem apart_letter [DecidableEq α] {a : α} (h : accepts a = false) :
    ∀ x, decide (x = a) = true → accepts x = false := by
  intro x hx
  have hxa : x = a := by simpa using hx
  rwa [hxa]

/-- Two classes apart from another one are together apart from it. -/
theorem apart_or {other : α → Bool} (hfirst : ∀ x, outside x = true → accepts x = false)
    (hsecond : ∀ x, other x = true → accepts x = false) :
    ∀ x, (outside x || other x) = true → accepts x = false := by
  intro x hx
  cases hcase : outside x with
  | true => exact hfirst x hcase
  | false =>
    rw [hcase, Bool.false_or] at hx
    exact hsecond x hx

/-- A letter leads with its class. -/
theorem leads_letter : Leads (.letter accepts) next accepts := by
  rintro text rest groups ⟨⟨x, hx, htext⟩, -⟩ -
  exact ⟨x, rest, htext, hx⟩

/-- Letters lead with their class or with what follows. -/
theorem leads_letters :
    Leads (.letters accepts) (Begins outside) (fun x => accepts x || outside x) := by
  rintro text rest groups ⟨⟨found, hall, htext⟩, -⟩ ⟨y, tail, hrest, hy⟩
  cases found with
  | nil => exact ⟨y, tail, by rw [htext, hrest, List.nil_append], by simp [hy]⟩
  | cons x found => exact ⟨x, found ++ rest, htext, by simp [hall x (by simp)]⟩

/-- A word leads with its first letter. -/
theorem leads_word [DecidableEq α] {x : α} {letters : List α} :
    Leads (word (x :: letters)) next (fun y => y = x) := by
  intro text rest groups h _
  exact ⟨x, letters ++ rest, (reads_word.mp h).1, by simp⟩

/-- Nothing leads with what follows. -/
theorem leads_empty : Leads .empty (Begins outside) outside := by
  rintro text rest groups ⟨htext, -⟩ hnext
  rwa [htext]

/-- A chain leads with its first part. -/
theorem leads_chain (hfirst : Leads first between accepts)
    (hbetween : ∀ text rest groups, Reads second text rest groups → next rest → between text) :
    Leads (.chain first second) next accepts := by
  rintro text rest groups ⟨middle, before, after, hbefore, hafter, -⟩ hnext
  exact hfirst text middle before hbefore (hbetween middle rest after hafter hnext)

/-- A choice leads with one of its parts. -/
theorem leads_either (hfirst : Leads first next accepts) (hsecond : Leads second next outside) :
    Leads (.either first second) next (fun x => accepts x || outside x) := by
  intro text rest groups h hnext
  cases h with
  | inl h =>
    obtain ⟨x, tail, htext, hx⟩ := hfirst text rest groups h hnext
    exact ⟨x, tail, htext, by simp [hx]⟩
  | inr h =>
    obtain ⟨x, tail, htext, hx⟩ := hsecond text rest groups h hnext
    exact ⟨x, tail, htext, by simp [hx]⟩

/-- A group leads with what is in it. -/
theorem leads_group {index : ℕ} (h : Leads first next accepts) :
    Leads (.group index first) next accepts := by
  rintro text rest groups ⟨found, before, -, hinner, -⟩ hnext
  exact h text rest before hinner hnext

/-- Nothing has one reading. -/
theorem settled_empty : Settled (.empty : Pattern α) next := by
  rintro text rest other groups more ⟨hrest, hgroups⟩ - ⟨hother, hmore⟩ -
  exact ⟨hrest.symm.trans hother, hgroups.trans hmore.symm⟩

/-- A letter has one reading. -/
theorem settled_letter : Settled (.letter accepts) next := by
  rintro text rest other groups more ⟨⟨x, -, htext⟩, hgroups⟩ - ⟨⟨y, -, hother⟩, hmore⟩ -
  exact ⟨(List.cons.inj (htext.symm.trans hother)).2, hgroups.trans hmore.symm⟩

/-- Letters followed by one outside of their class have one reading. -/
theorem settled_letters (hdisjoint : ∀ x, outside x = true → accepts x = false) :
    Settled (.letters accepts) (Begins outside) := by
  rintro text rest other groups more ⟨⟨found, hfound, htext⟩, hgroups⟩ hrest
    ⟨⟨last, hlast, hother⟩, hmore⟩ hnext
  exact ⟨run_unique hdisjoint hfound hlast hrest hnext (htext.symm.trans hother),
    hgroups.trans hmore.symm⟩

/-- A word has one reading. -/
theorem settled_word [DecidableEq α] {letters : List α} : Settled (word letters) next := by
  intro text rest other groups more h _ hmore _
  obtain ⟨htext, hgroups⟩ := reads_word.mp h
  obtain ⟨hother, hnone⟩ := reads_word.mp hmore
  exact ⟨List.append_cancel_left (htext.symm.trans hother), hgroups.trans hnone.symm⟩

/-- A chain has one reading when its parts have. -/
theorem settled_chain (hfirst : Settled first between) (hsecond : Settled second next)
    (hbetween : ∀ text rest groups, Reads second text rest groups → next rest → between text) :
    Settled (.chain first second) next := by
  rintro text rest other groups more ⟨middle, before, after, hbefore, hafter, hgroups⟩ hrest
    ⟨centre, earlier, later, hearlier, hlater, hmore⟩ hother
  obtain ⟨hmiddle, hleft⟩ := hfirst text middle centre before earlier hbefore
    (hbetween middle rest after hafter hrest) hearlier
    (hbetween centre other later hlater hother)
  subst hmiddle
  obtain ⟨hend, hright⟩ := hsecond middle rest other after later hafter hrest hlater hother
  exact ⟨hend, by rw [hgroups, hmore, hleft, hright]⟩

/-- A choice has one reading when its parts have and lead with different letters. -/
theorem settled_either (hfirst : Settled first next) (hsecond : Settled second next)
    (hleads : Leads first next accepts) (hother : Leads second next outside)
    (hdisjoint : ∀ x, outside x = true → accepts x = false) :
    Settled (.either first second) next := by
  have hapart : ∀ text rest last groups more, Reads first text rest groups → next rest →
      Reads second text last more → next last → False := by
    intro text rest last groups more h hrest hmore hlast
    obtain ⟨x, tail, htext, hx⟩ := hleads text rest groups h hrest
    obtain ⟨y, remains, hsame, hy⟩ := hother text last more hmore hlast
    have hxy : x = y := (List.cons.inj (htext.symm.trans hsame)).1
    rw [hxy, hdisjoint y hy] at hx
    exact absurd hx (by simp)
  intro text rest last groups more h hrest hmore hlast
  cases h with
  | inl h =>
    cases hmore with
    | inl hmore => exact hfirst text rest last groups more h hrest hmore hlast
    | inr hmore => exact absurd (hapart text rest last groups more h hrest hmore hlast) id
  | inr h =>
    cases hmore with
    | inl hmore => exact absurd (hapart text last rest more groups hmore hlast h hrest) id
    | inr hmore => exact hsecond text rest last groups more h hrest hmore hlast

/-- A group has one reading when what is in it has. -/
theorem settled_group {index : ℕ} (h : Settled first next) :
    Settled (.group index first) next := by
  rintro text rest other groups more ⟨found, before, htext, hinner, hgroups⟩ hrest
    ⟨last, earlier, hsame, hsecond, hmore⟩ hother
  obtain ⟨hend, hbefore⟩ := h text rest other before earlier hinner hrest hsecond hother
  subst hend
  have hfound : found = last := List.append_cancel_right (htext.symm.trans hsame)
  exact ⟨rfl, by rw [hgroups, hmore, hfound, hbefore]⟩

/-- One letter or more lead with their class. -/
theorem leads_atLeastOne : Leads (atLeastOne accepts) next accepts :=
  leads_chain leads_letter (fun _ _ _ _ _ => trivial)

/-- What is after a word has one reading when the word with it has. -/
theorem settled_word_chain [DecidableEq α] {letters : List α} (h : Settled first next) :
    Settled (.chain (word letters) first) next :=
  settled_chain settled_word h (fun _ _ _ _ _ => trivial)

/-- One letter or more followed by one outside of their class have one reading. -/
theorem settled_atLeastOne (hdisjoint : ∀ x, outside x = true → accepts x = false) :
    Settled (atLeastOne accepts) (Begins outside) :=
  settled_chain settled_letter (settled_letters hdisjoint) (fun _ _ _ _ _ => trivial)

end Rules

section Search

variable {α β : Type*} {reading : List α → β → Prop}

/-- The only position of an empty text is its start. -/
theorem first_nil {value : β} : First reading [] value ↔ reading [] value := by
  constructor
  · rintro ⟨before, after, htext, hvalue, -⟩
    have hafter : after = [] := (List.append_eq_nil_iff.mp htext.symm).2
    rwa [hafter] at hvalue
  · intro h
    refine ⟨[], [], rfl, h, ?_⟩
    intro earlier later _ hlength
    simp at hlength

/-- The first position is the start, or it is one of the rest. -/
theorem first_cons {x : α} {rest : List α} {value : β} :
    First reading (x :: rest) value ↔
      reading (x :: rest) value ∨
        (∀ other, ¬ reading (x :: rest) other) ∧ First reading rest value := by
  constructor
  · rintro ⟨before, after, htext, hvalue, hearlier⟩
    cases before with
    | nil =>
      rw [htext]
      exact Or.inl hvalue
    | cons y before =>
      have hrest : rest = before ++ after := (List.cons.inj htext).2
      refine Or.inr ⟨hearlier [] (x :: rest) rfl (by simp), before, after, hrest, hvalue, ?_⟩
      intro earlier later hsplit hlength
      exact hearlier (x :: earlier) later (by simp [hsplit]) (by simpa using hlength)
  · rintro (hvalue | ⟨hstart, before, after, hrest, hvalue, hearlier⟩)
    · refine ⟨[], x :: rest, rfl, hvalue, ?_⟩
      intro earlier later _ hlength
      simp at hlength
    · refine ⟨x :: before, after, by simp [hrest], hvalue, ?_⟩
      intro earlier later hsplit hlength
      cases earlier with
      | nil =>
        have hlater : x :: rest = later := hsplit
        rw [← hlater]
        exact hstart
      | cons y earlier =>
        have htail : rest = earlier ++ later := (List.cons.inj hsplit).2
        exact hearlier earlier later htail (by simpa using hlength)

/-- The first of readings whose values are translated. -/
theorem first_image {γ : Type*} {image : List α → γ → Prop} {translate : β → γ}
    (h : ∀ text value, image text value ↔
      ∃ source, reading text source ∧ value = translate source) {text : List α} {value : γ} :
    First image text value ↔ ∃ source, First reading text source ∧ value = translate source := by
  have hnone : ∀ later, (∀ other, ¬ image later other) ↔ ∀ source, ¬ reading later source := by
    intro later
    constructor
    · intro hall source hsource
      exact hall (translate source) ((h later _).mpr ⟨source, hsource, rfl⟩)
    · intro hall other hother
      obtain ⟨source, hsource, -⟩ := (h later other).mp hother
      exact hall source hsource
  constructor
  · rintro ⟨before, after, htext, hvalue, hearlier⟩
    obtain ⟨source, hsource, htranslate⟩ := (h after value).mp hvalue
    exact ⟨source, ⟨before, after, htext, hsource, fun earlier later hsplit hlength =>
      (hnone later).mp (hearlier earlier later hsplit hlength)⟩, htranslate⟩
  · rintro ⟨source, ⟨before, after, htext, hsource, hearlier⟩, htranslate⟩
    exact ⟨before, after, htext, (h after value).mpr ⟨source, hsource, htranslate⟩,
      fun earlier later hsplit hlength =>
        (hnone later).mpr (hearlier earlier later hsplit hlength)⟩

variable {pattern : Pattern α}

/-- A text starts with what a pattern reads when a run finds it. -/
theorem startsWith_iff {text : List α} {groups : Groups α} :
    StartsWith pattern text groups ↔ ∃ rest, (rest, groups) ∈ run pattern text [] := by
  have hstep : ∀ rest, (rest, groups) ∈ run pattern text [] ↔ Reads pattern text rest groups := by
    intro rest
    rw [mem_run]
    simp
  simp only [StartsWith, hstep]

/-- A search of a pattern with one reading finds the first reading of a text, by induction on the
text: it is at the start, or in the rest. -/
theorem exec_eq_some_iff (hsettled : Settled pattern (fun _ => True)) {text : List α}
    {groups : Groups α} :
    exec pattern text = some groups ↔ First (StartsWith pattern) text groups := by
  have hunique : ∀ text groups other, StartsWith pattern text groups →
      StartsWith pattern text other → groups = other := by
    rintro text groups other ⟨rest, hgroups⟩ ⟨last, hother⟩
    exact (hsettled text rest last groups other hgroups trivial hother trivial).2
  induction text with
  | nil =>
    rw [first_nil, startsWith_iff]
    cases hrun : run pattern [] [] with
    | nil => simp [exec, hrun]
    | cons result more =>
      have hresult : StartsWith pattern [] result.2 :=
        startsWith_iff.mpr ⟨result.1, by simp [hrun]⟩
      have hexec : exec pattern [] = some result.2 := by simp [exec, hrun]
      rw [hexec, Option.some_inj, ← hrun, ← startsWith_iff]
      constructor
      · intro h
        rwa [← h]
      · exact hunique [] result.2 groups hresult
  | cons x rest ih =>
    rw [first_cons]
    cases hrun : run pattern (x :: rest) [] with
    | nil =>
      have hnone : ∀ other, ¬ StartsWith pattern (x :: rest) other := by
        intro other h
        obtain ⟨remaining, hmem⟩ := startsWith_iff.mp h
        simp [hrun] at hmem
      have hexec : exec pattern (x :: rest) = exec pattern rest := by simp [exec, hrun]
      constructor
      · intro h
        exact Or.inr ⟨hnone, ih.mp (hexec.symm.trans h)⟩
      · rintro (h | ⟨-, h⟩)
        · exact absurd h (hnone groups)
        · exact hexec.trans (ih.mpr h)
    | cons result more =>
      have hresult : StartsWith pattern (x :: rest) result.2 :=
        startsWith_iff.mpr ⟨result.1, by simp [hrun]⟩
      have hexec : exec pattern (x :: rest) = some result.2 := by simp [exec, hrun]
      rw [hexec, Option.some_inj]
      constructor
      · intro h
        rw [← h]
        exact Or.inl hresult
      · rintro (h | ⟨hnone, -⟩)
        · exact hunique (x :: rest) result.2 groups hresult h
        · exact absurd hresult (hnone result.2)

/-- A search that tells its first reading finds nothing or the only first reading. -/
theorem exec_cases {translate : β → Groups α} (hinjective : Function.Injective translate)
    {text : List α} (h : ∀ groups, exec pattern text = some groups ↔
      ∃ value, First reading text value ∧ groups = translate value) :
    (exec pattern text = none ∧ ∀ value, ¬ First reading text value) ∨
      ∃ value, exec pattern text = some (translate value) ∧
        ∀ other, First reading text other ↔ other = value := by
  cases hexec : exec pattern text with
  | none =>
    refine Or.inl ⟨rfl, ?_⟩
    intro value hvalue
    have hsome := (h (translate value)).mpr ⟨value, hvalue, rfl⟩
    rw [hexec] at hsome
    exact absurd hsome (by simp)
  | some groups =>
    obtain ⟨value, hvalue, hgroups⟩ := (h groups).mp hexec
    refine Or.inr ⟨value, by rw [hgroups], ?_⟩
    intro other
    constructor
    · intro hother
      have hsome := (h (translate other)).mpr ⟨other, hother, rfl⟩
      rw [hexec, hgroups] at hsome
      exact (hinjective (Option.some.inj hsome)).symm
    · rintro rfl
      exact hvalue

end Search

end Fipwave.TextPatterns
