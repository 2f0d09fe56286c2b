import Fipwave.EvidenceRecords

/-!
# Receive sessions and digests of the session before

A receiver after a reset is compared with a fresh one for the new session. The
digests of the session before go on after the reset; their continuations set
the flag of the first completed case and remove their key from the map. As
long as they find the flag set and no case under their key, the receiver is in
every respect the fresh one.
-/

namespace Fipwave.EvidenceIsolation

open QualificationSession QuietEvidence EvidenceRecords TransitionRun

variable {options : EvidenceOptions} {e s f : QuietReceiverEvidence}

/-- A fresh receiver; only its names and numbers go on from the other one. -/
def fresh (e : QuietReceiverEvidence) (session : ReceiverSession) : QuietReceiverEvidence :=
  { session, nextCase := e.nextCase, nextDigest := e.nextDigest, arrived := e.arrived }

/-- The receiver shows what the fresh one shows; what began before the marks is left out. -/
structure SameView (caseMark digestMark : ℕ) (former : List ReceiveCaseEvidence)
    (s f : QuietReceiverEvidence) : Prop where
  /-- The same session. -/
  session : s.session = f.session
  /-- The same measurements. -/
  metrics : s.metrics = f.metrics
  /-- The same flag for the next record. -/
  completedCase : s.completedCase = f.completedCase
  /-- The same map. -/
  parts : s.parts = f.parts
  /-- The same cases. -/
  cases : ∀ name, caseMark ≤ name → s.cases name = f.cases name
  /-- The cases in the map are new. -/
  newParts : ∀ entry ∈ f.parts, caseMark ≤ entry.2
  /-- The same names. -/
  nextCase : s.nextCase = f.nextCase ∧ caseMark ≤ f.nextCase
  /-- The same digests. -/
  pending : f.pending = s.pending.filter (fun digest => digestMark ≤ digest.number)
  /-- The cases they are of are new. -/
  newPending : ∀ digest ∈ f.pending, caseMark ≤ digest.caseName
  /-- The same numbers. -/
  nextDigest : s.nextDigest = f.nextDigest ∧ digestMark ≤ f.nextDigest
  /-- The same arrivals. -/
  arrived : s.arrived = f.arrived
  /-- The same complete records. -/
  completions : f.completions = s.completions.filter (fun record => digestMark ≤ record.number)
  /-- The same incomplete records, after those given up before. -/
  incomplete : s.incomplete = former ++ f.incomplete

/-- A digest from before the mark finds a completed case and nothing under its key. -/
def Harmless (digestMark : ℕ) (s : QuietReceiverEvidence) : EvidenceEvent → Prop
  | .digest number => number < digestMark → ∀ digest ∈ s.pending, digest.number = number →
      s.completedCase = true ∧ ∀ entry ∈ s.parts, entry.1 ≠ digest.fragment.key
  | _ => True

section View

variable {caseMark digestMark : ℕ} {former : List ReceiveCaseEvidence}

/-- What is shown of the current session is the same in both. -/
theorem SameView.currentCases_eq (h : SameView caseMark digestMark former s f) :
    currentCases s = currentCases f := by
  unfold currentCases
  rw [h.parts]
  refine List.filterMap_congr (fun entry hmem => ?_)
  exact h.cases entry.2 (h.newParts entry hmem)

/-- A fuller queue is noted in both alike. -/
theorem SameView.updateHighWater (h : SameView caseMark digestMark former s f)
    (current : PartialCase) (nowMs : ℚ) :
    SameView caseMark digestMark former (updateHighWater current nowMs s)
      (updateHighWater current nowMs f) := by
  have hcases := h.currentCases_eq
  refine ⟨h.session, ?_, h.completedCase, h.parts, h.cases, h.newParts, h.nextCase, h.pending,
    h.newPending, h.nextDigest, h.arrived, h.completions, h.incomplete⟩
  unfold QuietEvidence.updateHighWater
  dsimp only
  rw [hcases, h.metrics]

/-- A break in the samples is noted in both alike. -/
theorem SameView.discontinuity (h : SameView caseMark digestMark former s f) :
    SameView caseMark digestMark former (discontinuity s) (discontinuity f) := by
  refine ⟨h.session, ?_, h.completedCase, h.parts, h.cases, h.newParts, h.nextCase, h.pending,
    h.newPending, h.nextDigest, h.arrived, h.completions, h.incomplete⟩
  unfold QuietEvidence.discontinuity
  dsimp only
  rw [h.metrics]

/-- A case with a name after the reset is put down in both alike. -/
theorem SameView.putCase (h : SameView caseMark digestMark former s f) (arrival name : ℕ)
    {nextCase : ℕ} (fragment : QuietFragment) (before : PartialCase) {parts : List (CaseKey × ℕ)}
    (hname : caseMark ≤ nextCase) (hparts : ∀ entry ∈ parts, caseMark ≤ entry.2) :
    SameView caseMark digestMark former (putCase arrival name fragment before parts nextCase s)
      (putCase arrival name fragment before parts nextCase f) := by
  refine ⟨h.session, h.metrics, h.completedCase, rfl, ?_, hparts, ⟨rfl, hname⟩, h.pending,
    h.newPending, h.nextDigest, h.arrived, h.completions, h.incomplete⟩
  intro other hother
  change Function.update s.cases name _ other = Function.update f.cases name _ other
  by_cases hsame : other = name
  · rw [hsame, Function.update_self, Function.update_self]
  · rw [Function.update_of_ne hsame, Function.update_of_ne hsame]
    exact h.cases other hother

/-- A digest of a case after the reset begins in both alike. -/
theorem SameView.startDigest (h : SameView caseMark digestMark former s f) {name : ℕ}
    (current : PartialCase) (fragment : QuietFragment) (expected : CorpusEntry) (nowMs : ℚ)
    (hname : caseMark ≤ name) :
    SameView caseMark digestMark former (startDigest name current fragment expected nowMs s)
      (startDigest name current fragment expected nowMs f) := by
  obtain ⟨hnumber, hmark⟩ := h.nextDigest
  refine ⟨h.session, h.metrics, h.completedCase, h.parts, h.cases, h.newParts, h.nextCase, ?_, ?_,
    ⟨?_, ?_⟩, h.arrived, h.completions, h.incomplete⟩
  · unfold QuietEvidence.startDigest
    dsimp only
    rw [List.filter_append, ← h.pending, hnumber]
    simp [hmark]
  · intro digest hmem
    rcases List.mem_append.mp hmem with hmem | hmem
    · exact h.newPending digest hmem
    · rw [List.mem_singleton.mp hmem]
      exact hname
  · exact congrArg (· + 1) hnumber
  · exact Nat.le_succ_of_le hmark

/-- Both receivers collect a fragment alike. Only cases from before the mark differ, and no part of
the map names one of those. -/
theorem SameView.collect (h : SameView caseMark digestMark former s f) (arrival : ℕ)
    (fragment : QuietFragment) (expected : CorpusEntry) (nowMs : ℚ) :
    SameView caseMark digestMark former (collect arrival fragment expected nowMs s)
      (collect arrival fragment expected nowMs f) := by
  have hfound : (do
      let caseName ← lookup fragment.key s.parts
      let current ← s.cases caseName
      return (caseName, current)) = (do
      let caseName ← lookup fragment.key f.parts
      let current ← f.cases caseName
      return (caseName, current)) := by
    rw [h.parts]
    cases hlookup : lookup fragment.key f.parts with
    | none => rfl
    | some name =>
      have hname : caseMark ≤ name := h.newParts _ (mem_of_lookup hlookup)
      simp only [Option.bind_eq_bind, Option.bind_some, h.cases name hname]
  have hold : ∀ found, (do
      let caseName ← lookup fragment.key f.parts
      let current ← f.cases caseName
      return (caseName, current)) = some found → caseMark ≤ found.1 := by
    intro found heq
    obtain ⟨name, hlookup, heq⟩ := Option.bind_eq_some_iff.mp heq
    obtain ⟨current, -, heq⟩ := Option.bind_eq_some_iff.mp heq
    cases heq
    exact h.newParts _ (mem_of_lookup hlookup)
  obtain ⟨hnext, hmark⟩ := h.nextCase
  unfold QuietEvidence.collect
  rw [hfound, hnext, h.parts]
  generalize (do
      let caseName ← lookup fragment.key f.parts
      let current ← f.cases caseName
      return (caseName, current) : Option (ℕ × PartialCase)) = found at hold
  have hparts : ∀ entry ∈ f.parts ++ [(fragment.key, f.nextCase)], caseMark ≤ entry.2 := by
    intro entry hmem
    rcases List.mem_append.mp hmem with hmem | hmem
    · exact h.newParts entry hmem
    · rw [List.mem_singleton.mp hmem]
      exact hmark
  cases found with
  | none =>
    dsimp only [Option.getD_none]
    simp only [if_true]
    split
    · exact h.discontinuity
    · have hput := (h.putCase arrival f.nextCase fragment ⟨fragment, [], 0, nowMs, []⟩
        (Nat.le_succ_of_le hmark) hparts).updateHighWater
          (addFragment arrival fragment ⟨fragment, [], 0, nowMs, []⟩) nowMs
      split
      · exact hput
      · exact hput.startDigest _ fragment expected nowMs hmark
  | some found =>
    have hname := hold found rfl
    simp only [Option.getD_some, reduceCtorEq, if_false]
    split
    · exact h.discontinuity
    · have hput := (h.putCase arrival found.1 fragment found.2 hmark
        h.newParts).updateHighWater (addFragment arrival fragment found.2) nowMs
      split
      · exact hput
      · exact hput.startDigest _ fragment expected nowMs hname

/-- A fragment after the reset is taken or refused in both alike. -/
theorem SameView.accept (h : SameView caseMark digestMark former s f) (options : EvidenceOptions)
    (raw : List UInt8) (nowMs : ℚ) :
    SameView caseMark digestMark former (accept options raw nowMs s)
      (accept options raw nowMs f) := by
  have harrived : SameView caseMark digestMark former { s with arrived := s.arrived + 1 }
      { f with arrived := f.arrived + 1 } :=
    ⟨h.session, h.metrics, h.completedCase, h.parts, h.cases, h.newParts, h.nextCase, h.pending,
      h.newPending, h.nextDigest, congrArg (· + 1) h.arrived, h.completions, h.incomplete⟩
  have hsession := h.session
  have harrival := h.arrived
  unfold QuietEvidence.accept
  dsimp only
  split
  · exact harrived
  · next fragment _ =>
    have hexpected : isExpected s.session fragment = isExpected f.session fragment := by
      rw [hsession]
    rw [hexpected]
    split
    · exact harrived
    · split
      · exact harrived.discontinuity
      · next expected _ =>
        split
        · exact harrived.discontinuity
        · have hcollect := harrived.collect f.arrived fragment expected nowMs
          have hsame : ∀ e : QuietReceiverEvidence,
              QuietEvidence.collect s.arrived fragment expected nowMs e =
                QuietEvidence.collect f.arrived fragment expected nowMs e := by
            intro e
            rw [harrival]
          rw [hsame]
          exact hcollect

/-- A digest of the new session is there in both receivers alike: the digests from before the mark
have smaller numbers. -/
theorem SameView.newDigest (h : SameView caseMark digestMark former s f) (options : EvidenceOptions)
    {number : ℕ} (hnumber : digestMark ≤ number) :
    SameView caseMark digestMark former (completeDigest options number s)
      (completeDigest options number f) := by
  have hfind : s.pending.find? (fun digest => digest.number = number) =
      f.pending.find? (fun digest => digest.number = number) := by
    rw [h.pending, List.find?_filter]
    congr 1
    funext digest
    by_cases hsame : digest.number = number
    · simp [hsame, hnumber]
    · simp [hsame]
  unfold completeDigest
  rw [hfind]
  cases hdigest : f.pending.find? (fun digest => digest.number = number) with
  | none => exact h
  | some digest =>
    have hname : caseMark ≤ digest.caseName :=
      h.newPending digest (List.mem_of_find?_eq_some hdigest)
    dsimp only
    rw [h.cases digest.caseName hname]
    cases hcase : f.cases digest.caseName with
    | none => exact h
    | some current =>
      have hevidence : completeEvidence options digest current s =
          completeEvidence options digest current f := by
        unfold completeEvidence
        rw [h.session, h.completedCase]
      dsimp only
      refine ⟨h.session, h.metrics, rfl, ?_, h.cases, ?_, h.nextCase, ?_, ?_, h.nextDigest,
        h.arrived, ?_, h.incomplete⟩
      · rw [h.parts]
      · intro entry hmem
        exact h.newParts entry (List.mem_filter.mp hmem).1
      · change f.pending.filter _ = _
        rw [h.pending, List.filter_filter, List.filter_filter]
        refine List.filter_congr (fun other _ => ?_)
        exact Bool.and_comm _ _
      · intro other hmem
        exact h.newPending other (List.mem_filter.mp hmem).1
      · rw [List.filter_append, ← h.completions, hevidence]
        simp [hnumber]

/-- A digest from before the mark that is harmless shows nothing. The fresh receiver has no such
digest; in the other it sets a flag that is set and frees a key that is free. -/
theorem SameView.oldDigest (h : SameView caseMark digestMark former s f) (options : EvidenceOptions)
    {number : ℕ} (hnumber : number < digestMark)
    (hharmless : Harmless digestMark s (.digest number)) :
    SameView caseMark digestMark former (completeDigest options number s)
      (completeDigest options number f) := by
  have hnew : completeDigest options number f = f := by
    have hnone : f.pending.find? (fun digest => digest.number = number) = none := by
      rw [List.find?_eq_none]
      intro digest hmem
      rw [h.pending] at hmem
      have hmark := (List.mem_filter.mp hmem).2
      simp only [decide_eq_true_eq] at hmark ⊢
      omega
    unfold completeDigest
    rw [hnone]
  rw [hnew]
  unfold completeDigest
  cases hdigest : s.pending.find? (fun digest => digest.number = number) with
  | none => exact h
  | some digest =>
    have hmem := List.mem_of_find?_eq_some hdigest
    have hsame : digest.number = number := by simpa using List.find?_some hdigest
    obtain ⟨hcompleted, hkeys⟩ := hharmless hnumber digest hmem hsame
    dsimp only
    cases s.cases digest.caseName with
    | none => exact h
    | some current =>
      have hparts : s.parts.filter (fun entry => entry.1 ≠ digest.fragment.key) = s.parts := by
        rw [List.filter_eq_self]
        intro entry hentry
        simpa using hkeys entry hentry
      dsimp only
      rw [hparts]
      refine ⟨h.session, h.metrics, ?_, h.parts, h.cases, h.newParts, h.nextCase, ?_,
        h.newPending, h.nextDigest, h.arrived, ?_, h.incomplete⟩
      · rw [← h.completedCase, hcompleted]
      · rw [h.pending, List.filter_filter]
        refine List.filter_congr (fun other _ => ?_)
        by_cases hother : other.number = number
        · simp [hother, hnumber]
        · simp [hother]
      · rw [List.filter_append, ← h.completions]
        simp [hnumber]

/-- What is held back is shown in both alike. -/
theorem SameView.flush (h : SameView caseMark digestMark former s f) (nowMs : ℚ) :
    SameView caseMark digestMark former (flush nowMs s) (flush nowMs f) := by
  have hcases := h.currentCases_eq
  have hfold : ∀ (held : List PartialCase) {s f : QuietReceiverEvidence},
      SameView caseMark digestMark former s f → SameView caseMark digestMark former
        (held.foldl (fun e current => QuietEvidence.updateHighWater current nowMs e) s)
        (held.foldl (fun e current => QuietEvidence.updateHighWater current nowMs e) f) := by
    intro held
    induction held with
    | nil => exact id
    | cons current held ih => exact fun hview => ih (hview.updateHighWater current nowMs)
  have hmeasured := hfold (currentCases f) h
  unfold QuietEvidence.flush
  rw [hcases]
  have hformer := h.incomplete
  refine ⟨hmeasured.session, hmeasured.metrics, hmeasured.completedCase, rfl, hmeasured.cases, ?_,
    hmeasured.nextCase, hmeasured.pending, hmeasured.newPending, hmeasured.nextDigest,
    hmeasured.arrived, hmeasured.completions, ?_⟩
  · intro entry hmem
    cases hmem
  · dsimp only
    rw [hformer, h.session, List.append_assoc]

/-- One more reset has the same view again. -/
theorem SameView.reset (h : SameView caseMark digestMark former s f) (session : ReceiverSession)
    (nowMs : ℚ) : SameView caseMark digestMark former (reset session nowMs s)
      (reset session nowMs f) := by
  have hflushed := h.flush nowMs
  exact ⟨rfl, rfl, rfl, hflushed.parts, hflushed.cases, hflushed.newParts, hflushed.nextCase,
    hflushed.pending, hflushed.newPending, hflushed.nextDigest, hflushed.arrived,
    hflushed.completions, hflushed.incomplete⟩

/-- Every event keeps the receivers alike if what began before the mark is harmless. -/
theorem SameView.step (h : SameView caseMark digestMark former s f) (options : EvidenceOptions)
    (event : EvidenceEvent) (hharmless : Harmless digestMark s event) :
    SameView caseMark digestMark former (step options s event) (step options f event) := by
  cases event with
  | accept raw nowMs => exact h.accept options raw nowMs
  | digest number =>
    rcases Nat.lt_or_ge number digestMark with hold | hnew
    · exact h.oldDigest options hold hharmless
    · exact h.newDigest options hnew
  | flush nowMs => exact h.flush nowMs
  | reset session nowMs => exact h.reset session nowMs

/-- Both views are the same after every run in which older digests end without a case of the
session. -/
theorem sameView_run (options : EvidenceOptions) (events : List EvidenceEvent)
    (h : SameView caseMark digestMark former s f)
    (hharmless : Along (QuietEvidence.step options) (Harmless digestMark) s events) :
    SameView caseMark digestMark former (run (QuietEvidence.step options) s events)
      (run (QuietEvidence.step options) f events) := by
  induction events generalizing s f with
  | nil => exact h
  | cons event events ih => exact ih (h.step options event hharmless.1) hharmless.2

end View

/-- Digests, records and cases are numbered below the next number. -/
def Numbered (e : QuietReceiverEvidence) : Prop :=
  (∀ digest ∈ e.pending, digest.number < e.nextDigest) ∧
    (∀ record ∈ e.completions, record.number < e.nextDigest) ∧
    ∀ name, e.nextCase ≤ name → e.cases name = none

/-- A case that is put down has a name below the next one. -/
theorem numbered_putCase (h : Numbered e) (arrival : ℕ) {name nextCase : ℕ}
    (fragment : QuietFragment) (before : PartialCase) (parts : List (CaseKey × ℕ))
    (hname : name < nextCase) (hnext : e.nextCase ≤ nextCase) :
    Numbered (putCase arrival name fragment before parts nextCase e) := by
  refine ⟨h.1, h.2.1, fun other hother => ?_⟩
  change nextCase ≤ other at hother
  change Function.update e.cases name _ other = none
  have hne : other ≠ name := by omega
  rw [Function.update_of_ne hne]
  exact h.2.2 other (hnext.trans hother)

/-- A digest is begun for a case that has a name. -/
theorem numbered_startDigest (h : Numbered e) (name : ℕ) (current : PartialCase)
    (fragment : QuietFragment) (expected : CorpusEntry) (nowMs : ℚ) :
    Numbered (startDigest name current fragment expected nowMs e) := by
  refine ⟨fun digest hmem => ?_, fun record hmem => Nat.lt_succ_of_lt (h.2.1 record hmem), h.2.2⟩
  change digest.number < e.nextDigest + 1
  rcases List.mem_append.mp hmem with hmem | hmem
  · exact Nat.lt_succ_of_lt (h.1 digest hmem)
  · rw [List.mem_singleton.mp hmem]
    exact Nat.lt_succ_self e.nextDigest

/-- A fragment that is collected keeps all names below the next one. -/
theorem numbered_collect (h : Numbered e) (arrival : ℕ) (fragment : QuietFragment)
    (expected : CorpusEntry) (nowMs : ℚ) :
    Numbered (collect arrival fragment expected nowMs e) := by
  have hold : ∀ found, (do
      let caseName ← lookup fragment.key e.parts
      let current ← e.cases caseName
      return (caseName, current)) = some found → found.1 < e.nextCase := by
    intro found heq
    obtain ⟨name, -, heq⟩ := Option.bind_eq_some_iff.mp heq
    obtain ⟨current, hcase, heq⟩ := Option.bind_eq_some_iff.mp heq
    cases heq
    by_contra hlt
    have hnone := h.2.2 name (Nat.le_of_not_lt hlt)
    rw [hnone] at hcase
    cases hcase
  unfold collect
  generalize (do
      let caseName ← lookup fragment.key e.parts
      let current ← e.cases caseName
      return (caseName, current) : Option (ℕ × PartialCase)) = found at hold
  cases found with
  | none =>
    have hput := numbered_putCase h arrival fragment ⟨fragment, [], 0, nowMs, []⟩
      (e.parts ++ [(fragment.key, e.nextCase)]) (Nat.lt_succ_self e.nextCase) (Nat.le_succ _)
    dsimp only [Option.getD_none]
    simp only [if_true]
    split
    · exact h
    · split
      · exact hput
      · exact numbered_startDigest hput _ _ fragment expected nowMs
  | some found =>
    have hput := numbered_putCase h arrival fragment found.2 e.parts (hold found rfl) le_rfl
    simp only [Option.getD_some, reduceCtorEq, if_false]
    split
    · exact h
    · split
      · exact hput
      · exact numbered_startDigest hput _ _ fragment expected nowMs

/-- Showing what was held back names nothing. -/
theorem numbered_flush (h : Numbered e) (nowMs : ℚ) : Numbered (flush nowMs e) := by
  unfold flush
  obtain ⟨metrics, hmeasured⟩ := foldl_updateHighWater nowMs (currentCases e) e
  rw [hmeasured]
  exact h

/-- Every event keeps all names below the next one. -/
theorem numbered_step (options : EvidenceOptions) (e : QuietReceiverEvidence)
    (event : EvidenceEvent) (h : Numbered e) : Numbered (step options e event) := by
  cases event with
  | accept raw nowMs =>
    change Numbered (accept options raw nowMs e)
    rcases accept_cases options raw nowMs e with ⟨fragment, expected, -, haccept⟩ |
      ⟨-, haccept | haccept⟩
    · have harrived : Numbered { e with arrived := e.arrived + 1 } := h
      rw [haccept]
      exact numbered_collect harrived e.arrived fragment expected nowMs
    · rw [haccept]
      exact h
    · rw [haccept]
      exact h
  | digest number =>
    change Numbered (completeDigest options number e)
    unfold completeDigest
    split
    · exact h
    · next digest hfind =>
      have hnumber : digest.number = number := by simpa using List.find?_some hfind
      have hlt := h.1 digest (List.mem_of_find?_eq_some hfind)
      split
      · exact h
      · refine ⟨fun other hmem => h.1 other (List.mem_filter.mp hmem).1, fun record hmem => ?_,
          h.2.2⟩
        rcases List.mem_append.mp hmem with hmem | hmem
        · exact h.2.1 record hmem
        · rw [List.mem_singleton.mp hmem]
          change number < e.nextDigest
          omega
  | flush nowMs => exact numbered_flush h nowMs
  | reset session nowMs => exact numbered_flush h nowMs

/-- A receiver that was just reset shows what a fresh one shows. -/
theorem sameView_reset (h : Numbered e) (session : ReceiverSession) (nowMs : ℚ) :
    SameView e.nextCase e.nextDigest (reset session nowMs e).incomplete (reset session nowMs e)
      (fresh e session) := by
  have hflush : ∃ metrics, reset session nowMs e = { e with
      parts := []
      incomplete := e.incomplete ++ (currentCases e).map (incompleteEvidence e.session nowMs)
      session
      metrics
      completedCase := false } ∧ metrics = {} := by
    unfold reset flush
    obtain ⟨metrics, hmeasured⟩ := foldl_updateHighWater nowMs (currentCases e) e
    rw [hmeasured]
    exact ⟨{}, rfl, rfl⟩
  obtain ⟨metrics, heq, rfl⟩ := hflush
  rw [heq]
  refine ⟨rfl, rfl, rfl, rfl, fun name hname => ?_, ?_, ⟨rfl, le_rfl⟩, ?_, ?_, ⟨rfl, le_rfl⟩, rfl,
    ?_, ?_⟩
  · exact h.2.2 name hname
  · intro entry hmem
    cases hmem
  · have hnone : e.pending.filter (fun digest => e.nextDigest ≤ digest.number) = [] := by
      rw [List.filter_eq_nil_iff]
      intro digest hmem
      have hlt := h.1 digest hmem
      simpa using hlt
    exact hnone.symm
  · intro digest hmem
    cases hmem
  · have hnone : e.completions.filter (fun record => e.nextDigest ≤ record.number) = [] := by
      rw [List.filter_eq_nil_iff]
      intro record hmem
      have hlt := h.2.1 record hmem
      simpa using hlt
    exact hnone.symm
  · exact (List.append_nil _).symm

/-- So does every run. -/
theorem numbered_run (options : EvidenceOptions) (session : ReceiverSession)
    (events : List EvidenceEvent) : Numbered (run (step options) { session } events) := by
  have hstart : Numbered { session } := by
    refine ⟨fun digest hmem => ?_, fun record hmem => ?_, fun name _ => rfl⟩
    · cases hmem
    · cases hmem
  exact invariant (step options) (numbered_step options) hstart events

/-- After a reset the receiver shows in every later state what a fresh one shows, if each digest
of the session before that is there later finds the flag set and its key free. -/
theorem isolated_after_reset (options : EvidenceOptions) (first session : ReceiverSession)
    (before after : List EvidenceEvent) (nowMs : ℚ) {e : QuietReceiverEvidence}
    (he : e = run (step options) { session := first } before)
    (hharmless : Along (step options) (Harmless e.nextDigest) (reset session nowMs e) after) :
    SameView e.nextCase e.nextDigest (reset session nowMs e).incomplete
      (run (step options) (reset session nowMs e) after)
      (run (step options) (fresh e session) after) := by
  have hnumbered : Numbered e := by
    rw [he]
    exact numbered_run options first before
  exact sameView_run options after (sameView_reset hnumbered session nowMs) hharmless

/-- A bench receiver with the digest of a session before under way. -/
def benchUnderway : QuietReceiverEvidence :=
  run (step benchEvidence) { session := benchSession 1 } [.accept (benchFragment 1) 0]

/-- A digest that is there only after a case of the new session is completed shows nothing. -/
theorem isolated_after_reset_bench :
    SameView benchUnderway.nextCase benchUnderway.nextDigest
      (reset (benchSession 2) 1 benchUnderway).incomplete
      (run (step benchEvidence) (reset (benchSession 2) 1 benchUnderway)
        [.accept (benchFragment 2) 2, .digest 1, .digest 0])
      (run (step benchEvidence) (fresh benchUnderway (benchSession 2))
        [.accept (benchFragment 2) 2, .digest 1, .digest 0]) := by
  refine isolated_after_reset benchEvidence (benchSession 1) (benchSession 2)
    [.accept (benchFragment 1) 0] [.accept (benchFragment 2) 2, .digest 1, .digest 0] 1 rfl
    ⟨trivial, ?_, ?_, trivial⟩
  · intro hold
    have hmark : benchUnderway.nextDigest = 1 := by decide +kernel
    rw [hmark] at hold
    exact absurd hold (Nat.lt_irrefl 1)
  · intro _ digest _ _
    have hcompleted : (run (step benchEvidence) (reset (benchSession 2) 1 benchUnderway)
        [.accept (benchFragment 2) 2, .digest 1]).completedCase = true := by decide +kernel
    have hparts : (run (step benchEvidence) (reset (benchSession 2) 1 benchUnderway)
        [.accept (benchFragment 2) 2, .digest 1]).parts = [] := by decide +kernel
    refine ⟨hcompleted, fun entry hmem => ?_⟩
    change entry ∈ (run (step benchEvidence) (reset (benchSession 2) 1 benchUnderway)
        [.accept (benchFragment 2) 2, .digest 1]).parts at hmem
    rw [hparts] at hmem
    cases hmem

/-- A digest of the session before that is there first takes the flag of the new session. -/
theorem not_isolated_after_reset :
    ¬∀ (options : EvidenceOptions) (first session : ReceiverSession)
      (before after : List EvidenceEvent) (nowMs : ℚ) (e : QuietReceiverEvidence),
      e = run (step options) { session := first } before →
      SameView e.nextCase e.nextDigest (reset session nowMs e).incomplete
        (run (step options) (reset session nowMs e) after)
        (run (step options) (fresh e session) after) := by
  intro h
  have hview := h benchEvidence (benchSession 1) (benchSession 2) [.accept (benchFragment 1) 0]
    [.digest 0, .accept (benchFragment 2) 2, .digest 1] 1 benchUnderway rfl
  have hrecords := congrArg
    (fun records : List Completion => records.map (·.evidence.coldAcquired)) hview.completions
  revert hrecords
  decide +kernel

end Fipwave.EvidenceIsolation
