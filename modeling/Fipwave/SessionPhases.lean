import Fipwave.QualificationSession

/-!
# Phases of a qualification session

A session is idle, under way, or over. It is over under the Quiet fallback,
after its failure, and when the last completion is acknowledged. Looking at
the clock only moves the largest elapsed time. Every method of a session
either looks at the clock, falls back, or makes the one change it is for;
falling back needs a session under way and leaves one that is over.
-/

namespace Fipwave.QualificationSession

/-- The codec and the stage belong together. -/
structure WellFormed (c : CyrinxQualificationSession) : Prop where
  /-- Idle codec, idle stage. -/
  idle : c.codec = .idle ↔ c.stage = .idle
  /-- Quiet codec, quiet stage. -/
  quiet : c.codec = .quiet ↔ c.stage = .quiet
  /-- No codec, no stage. -/
  unqualified : c.codec = .unqualified ↔ c.stage = .unqualified
  /-- A session under Cyrinx has started. -/
  started : c.codec = .cyrinx → c.startedAtMs ≠ none
  /-- A session under Cyrinx has not fallen back. -/
  available : c.codec = .cyrinx → c.fallbackReason = none
  /-- An idle session has not fallen back. -/
  unused : c.codec = .idle → c.fallbackReason = none
  /-- Completions belong to Cyrinx. -/
  pending : c.pendingCompletionReason ≠ none → c.codec = .cyrinx
  /-- The deadline belongs to the start. -/
  deadline : c.deadlineAtMs = c.startedAtMs.map (· + cyrinxDeadlineMs)

/-- The session is over. -/
def Over (c : CyrinxQualificationSession) : Prop :=
  c.codec = .quiet ∨ c.codec = .unqualified ∨
    (c.codec = .cyrinx ∧ c.stage = .complete ∧ c.pendingCompletionReason = none)

/-- The session is under way although an elapsed time past its deadline was seen: whoever looks
next finds it expired, whatever the clock says. -/
def overdue (c : CyrinxQualificationSession) : Bool :=
  c.codec = .cyrinx && (!terminal c || revocableComplete c) &&
    c.lastElapsedMs.any (· ≥ cyrinxDeadlineMs)

/-- A time before the deadline of a session that has started. -/
def InTime (nowMs : ℕ) (c : CyrinxQualificationSession) : Prop :=
  ∀ startedAtMs, c.startedAtMs = some startedAtMs → nowMs < startedAtMs + cyrinxDeadlineMs

/-- Only the largest elapsed time differs. -/
def Looked (c c' : CyrinxQualificationSession) : Prop :=
  c' = { c with lastElapsedMs := c'.lastElapsedMs }

/-- The session fell back to Quiet. -/
structure Fell (c c' : CyrinxQualificationSession) : Prop where
  /-- Cyrinx was in force. -/
  cyrinx : c.codec = .cyrinx
  /-- The session was not over. -/
  underWay : ¬Over c
  /-- What was changed. -/
  fallen : c' = { c with
    fallbackReason := c'.fallbackReason
    fallbackState := .activated
    codec := .quiet
    stage := .quiet
    accepted := none
    pendingCompletionReason := none
    lastElapsedMs := c'.lastElapsedMs
    terminalElapsedMs := c'.terminalElapsedMs }

variable {c c' : CyrinxQualificationSession} {nowMs : ℕ}

theorem Looked.refl (c : CyrinxQualificationSession) : Looked c c := rfl

/-- A session that was not started is well formed. -/
theorem wellFormed_idle : WellFormed {} := by
  constructor <;> decide

@[simp] theorem terminal_iff : terminal c = true ↔
    c.stage = .complete ∨ c.stage = .quiet ∨ c.stage = .unqualified := by
  simp [terminal, or_assoc]

/-- A Cyrinx session under way is well formed if it has a start, the deadline that belongs to it and
no reason to have fallen back. -/
theorem wellFormed_of_cyrinx (hcodec : c.codec = .cyrinx) (hidle : c.stage ≠ .idle)
    (hquiet : c.stage ≠ .quiet) (hunqualified : c.stage ≠ .unqualified)
    (hstarted : c.startedAtMs ≠ none) (hreason : c.fallbackReason = none)
    (hdeadline : c.deadlineAtMs = c.startedAtMs.map (· + cyrinxDeadlineMs)) : WellFormed c where
  idle := by simp [hcodec, hidle]
  quiet := by simp [hcodec, hquiet]
  unqualified := by simp [hcodec, hunqualified]
  started := fun _ => hstarted
  available := fun _ => hreason
  unused := fun _ => hreason
  pending := fun _ => hcodec
  deadline := hdeadline

/-- A session under Cyrinx that has come to an end is complete. -/
theorem WellFormed.complete (h : WellFormed c) (hcodec : c.codec = .cyrinx)
    (hterminal : terminal c = true) : c.stage = .complete := by
  rcases terminal_iff.mp hterminal with hstage | hstage | hstage
  · exact hstage
  · rw [← h.quiet, hcodec] at hstage
    cases hstage
  · rw [← h.unqualified, hcodec] at hstage
    cases hstage

/-- A method under Cyrinx that is not barred by its end is under way. -/
theorem not_over_of_open (hcodec : c.codec = .cyrinx)
    (hopen : ¬(terminal c = true ∧ (!revocableComplete c) = true)) : ¬Over c := by
  rintro (hquiet | hnone | ⟨-, hstage, hpending⟩)
  · rw [hcodec] at hquiet
    cases hquiet
  · rw [hcodec] at hnone
    cases hnone
  · exact hopen ⟨terminal_iff.mpr (.inl hstage), by simp [revocableComplete, hpending]⟩

theorem Looked.codec (h : Looked c c') : c'.codec = c.codec := by rw [h]

theorem Looked.startedAtMs (h : Looked c c') : c'.startedAtMs = c.startedAtMs := by rw [h]

theorem Looked.deadlineAtMs (h : Looked c c') : c'.deadlineAtMs = c.deadlineAtMs := by rw [h]

/-- A look at the clock changes no more than the elapsed time, so it gives no reason to fall
back. -/
theorem Looked.fallbackReason (h : Looked c c') : c'.fallbackReason = c.fallbackReason := by
  rw [h]

theorem Looked.fallbackState (h : Looked c c') : c'.fallbackState = c.fallbackState := by rw [h]

/-- A look at the clock does not end a session. -/
theorem Looked.over (h : Looked c c') : Over c' ↔ Over c := by
  rw [h]
  exact Iff.rfl

/-- A look at the clock keeps a session well formed. -/
theorem Looked.wellFormed (h : Looked c c') (hw : WellFormed c) : WellFormed c' := by
  rw [h]
  exact ⟨hw.idle, hw.quiet, hw.unqualified, hw.started, hw.available, hw.unused, hw.pending,
    hw.deadline⟩

/-- A session that falls back after a look at the clock falls back. -/
theorem Looked.fell {c'' : CyrinxQualificationSession} (h : Looked c c') (hf : Fell c' c'') :
    Fell c c'' := by
  refine ⟨?_, fun hover => hf.underWay (h.over.mpr hover), ?_⟩
  · have hcodec := hf.cyrinx
    rw [h] at hcodec
    exact hcodec
  · have hfallen := hf.fallen
    rw [h] at hfallen
    exact hfallen

/-- After a fallback nothing is under way any more. -/
theorem Fell.over (h : Fell c c') : Over c' := by
  left
  rw [h.fallen]

/-- A session that has fallen back has the reason for it and its stage. -/
theorem Fell.wellFormed (h : Fell c c') (hw : WellFormed c) : WellFormed c' := by
  have hdeadline := hw.deadline
  rw [h.fallen]
  constructor <;> simp [hdeadline]

theorem looked_elapsed (startedAtMs nowMs : ℕ) (c : CyrinxQualificationSession) :
    Looked c (elapsed startedAtMs nowMs c).2 := rfl

/-- Activation falls back, or does nothing. -/
theorem activate_cases (reason : CyrinxFallbackReason) (nowMs : ℕ)
    (c : CyrinxQualificationSession) :
    (activate reason nowMs c).1 = true ∧ Fell c (activate reason nowMs c).2 ∨
      (activate reason nowMs c) = (false, c) := by
  unfold activate
  split
  · exact .inr rfl
  · split
    · exact .inr rfl
    · next hfree =>
      left
      rw [not_or, not_or] at hfree
      have hcodec := not_not.mp hfree.2.2
      exact ⟨rfl, hcodec, not_over_of_open hcodec hfree.2.1, rfl⟩

/-- The answer of a step that falls back or looks at the clock. -/
def FallsOrLooks (c : CyrinxQualificationSession) (r : Bool × CyrinxQualificationSession) : Prop :=
  r.1 = true ∧ Fell c r.2 ∨ r.1 = false ∧ Looked c r.2

/-- Activating a fallback makes a session fall back that has not done so yet. -/
theorem fallsOrLooks_activate (reason : CyrinxFallbackReason) (h : Looked c c') :
    FallsOrLooks c (activate reason nowMs c') := by
  rcases activate_cases reason nowMs c' with ⟨hanswer, hfell⟩ | hsame
  · exact .inl ⟨hanswer, h.fell hfell⟩
  · rw [hsame]
    exact .inr ⟨rfl, h⟩

/-- A session that is asked about its deadline falls back or keeps the time of the question. -/
theorem fallsOrLooks_expire (nowMs : ℕ) (c : CyrinxQualificationSession) :
    FallsOrLooks c (expire nowMs c) := by
  unfold expire
  split
  · next startedAtMs _ _ _ =>
    split
    · exact .inr ⟨rfl, .refl c⟩
    · dsimp only
      split
      · exact .inr ⟨rfl, looked_elapsed startedAtMs nowMs c⟩
      · exact fallsOrLooks_activate _ (looked_elapsed startedAtMs nowMs c)
  · exact .inr ⟨rfl, .refl c⟩

/-- A session is made to expire, unless it is over. -/
theorem fallsOrLooks_forceDeadlineExpiry (nowMs : ℕ) (c : CyrinxQualificationSession) :
    FallsOrLooks c (forceDeadlineExpiry nowMs c) := by
  unfold forceDeadlineExpiry
  split
  · exact .inr ⟨rfl, .refl c⟩
  · exact fallsOrLooks_activate _ (.refl c)

/-- The session falls back for the reason given, unless it is over. -/
theorem fallsOrLooks_activateFallback (reason : CyrinxFallbackReason) (nowMs : ℕ)
    (c : CyrinxQualificationSession) : FallsOrLooks c (activateFallback reason nowMs c) := by
  unfold activateFallback
  split
  · exact .inr ⟨rfl, .refl c⟩
  · next startedAtMs _ =>
    split
    · exact .inr ⟨rfl, .refl c⟩
    · dsimp only
      split
      · exact fallsOrLooks_activate _ (looked_elapsed startedAtMs nowMs c)
      · exact fallsOrLooks_activate _ (looked_elapsed startedAtMs nowMs c)

/-- A time before the deadline finds a session expired only if it is overdue. -/
theorem expire_inTime (hw : WellFormed c) (htime : InTime nowMs c) (hdue : overdue c = false) :
    (expire nowMs c).1 = false := by
  unfold expire
  split
  · next startedAtMs deadlineAtMs hstarted hdeadline =>
    split
    · rfl
    · next hopen =>
      rw [not_or, not_not] at hopen
      have hlast : c.lastElapsedMs.getD 0 < cyrinxDeadlineMs := by
        cases hlast : c.lastElapsedMs with
        | none => decide
        | some last =>
          have hunder : (!terminal c || revocableComplete c) = true := by
            simpa only [Bool.or_eq_true, Bool.not_eq_true', Bool.eq_false_iff, ne_eq, not_and_or,
              not_not] using hopen.1
          simpa [overdue, hopen.2, hunder, hlast] using hdue
      have hbefore := htime startedAtMs hstarted
      have hsame := hw.deadline
      rw [hdeadline, hstarted, Option.map_some, Option.some.injEq] at hsame
      dsimp only [elapsed]
      rw [if_pos ⟨by omega, by omega⟩]
  · rfl

/-- Activation under way falls back. -/
theorem activate_underWay (reason : CyrinxFallbackReason) (nowMs : ℕ) (h : WellFormed c)
    (hcodec : c.codec = .cyrinx) (hover : ¬Over c) :
    (activate reason nowMs c).1 = true := by
  obtain ⟨startedAtMs, hstarted⟩ := Option.ne_none_iff_exists'.mp (h.started hcodec)
  have hopen : ¬(terminal c = true ∧ (!revocableComplete c) = true) := by
    rintro ⟨hterminal, hfinal⟩
    have hstage := h.complete hcodec hterminal
    refine hover (.inr (.inr ⟨hcodec, hstage, ?_⟩))
    simpa [revocableComplete, hstage] using hfinal
  unfold activate
  rw [hstarted]
  dsimp only
  rw [if_neg]
  rw [not_or, not_or, not_not, not_not]
  exact ⟨h.available hcodec, hopen, hcodec⟩

/-- A session under way that is not found expired is looked at before its deadline. -/
theorem inTime_of_expire (h : WellFormed c) (hcodec : c.codec = .cyrinx) (hover : ¬Over c)
    (hexpire : (expire nowMs c).1 = false) : InTime nowMs c := by
  intro startedAtMs hstarted
  have hdeadline := h.deadline
  rw [hstarted, Option.map_some] at hdeadline
  by_contra hlate
  have hexpired : (expire nowMs c).1 = true := by
    unfold expire
    rw [hstarted, hdeadline]
    dsimp only
    rw [if_neg, if_neg (fun hsooner => hlate hsooner.1)]
    · exact activate_underWay _ _ ((looked_elapsed startedAtMs nowMs c).wellFormed h) hcodec
        (fun ho => hover ((looked_elapsed startedAtMs nowMs c).over.mp ho))
    · rintro (⟨hterminal, hfinal⟩ | hother)
      · exact hover (.inr (.inr ⟨hcodec, h.complete hcodec hterminal, by
          simpa [revocableComplete, h.complete hcodec hterminal] using hfinal⟩))
      · exact hother hcodec
  rw [hexpire] at hexpired
  cases hexpired

/-- A session that is over does not expire. -/
theorem expire_over (hover : Over c) : (expire nowMs c).1 = false := by
  unfold expire
  split
  · rw [if_pos]
    rcases hover with hc | hc | ⟨-, hstage, hpending⟩
    · exact .inr (by rw [hc]; simp)
    · exact .inr (by rw [hc]; simp)
    · exact .inl ⟨terminal_iff.mpr (.inl hstage), by simp [revocableComplete, hpending]⟩
  · rfl

/-- A Cyrinx session that is under way falls back when it is told to. -/
theorem activateFallback_underWay (reason : CyrinxFallbackReason) (nowMs : ℕ) (h : WellFormed c)
    (hcodec : c.codec = .cyrinx) (hover : ¬Over c) :
    (activateFallback reason nowMs c).1 = true := by
  obtain ⟨startedAtMs, hstarted⟩ := Option.ne_none_iff_exists'.mp (h.started hcodec)
  have hlook := looked_elapsed startedAtMs nowMs c
  have hopen : ¬(terminal c = true ∧ (!revocableComplete c) = true) := by
    rintro ⟨hterminal, hfinal⟩
    have hstage := h.complete hcodec hterminal
    refine hover (.inr (.inr ⟨hcodec, hstage, ?_⟩))
    simpa [revocableComplete, hstage] using hfinal
  unfold activateFallback
  rw [hstarted]
  dsimp only
  rw [if_neg]
  · split
    · exact activate_underWay _ _ (hlook.wellFormed h) hcodec (fun ho => hover (hlook.over.mp ho))
    · exact activate_underWay _ _ (hlook.wellFormed h) hcodec (fun ho => hover (hlook.over.mp ho))
  · rw [not_or, not_or, not_not, not_not]
    exact ⟨hopen, hcodec, h.available hcodec⟩

/-- Failing the current stage falls back, looks at the clock or is refused. -/
theorem failCurrent_cases (nowMs : ℕ) (c : CyrinxQualificationSession) :
    (∃ fault, failCurrent nowMs c = .error fault ∧ fault.state = c) ∨
      ∃ r, failCurrent nowMs c = .ok r ∧ FallsOrLooks c r := by
  unfold failCurrent
  split
  · exact .inr ⟨_, rfl, .inr ⟨rfl, .refl c⟩⟩
  · split
    · exact .inl ⟨_, rfl, rfl⟩
    · exact .inr ⟨_, rfl, fallsOrLooks_activateFallback _ _ _⟩

/-- Failing a stage under way falls back. -/
theorem failCurrent_underWay (nowMs : ℕ) (h : WellFormed c) (hcodec : c.codec = .cyrinx) (hover : ¬Over c) :
    ∃ c', failCurrent nowMs c = .ok (true, c') ∧ Fell c c' := by
  have hreason : (c.pendingCompletionReason.or (failureReasonForStage c.stage)) ≠ none := by
    intro hnone
    rw [Option.or_eq_none_iff] at hnone
    have hidle : c.stage ≠ .idle := fun hs => by
      rw [← h.idle, hcodec] at hs
      cases hs
    have hquiet : c.stage ≠ .quiet := fun hs => by
      rw [← h.quiet, hcodec] at hs
      cases hs
    have hunqualified : c.stage ≠ .unqualified := fun hs => by
      rw [← h.unqualified, hcodec] at hs
      cases hs
    have hcomplete : c.stage = .complete := by
      cases hstage : c.stage <;> simp_all [failureReasonForStage]
    exact hover (.inr (.inr ⟨hcodec, hcomplete, hnone.1⟩))
  obtain ⟨reason, hreason⟩ := Option.ne_none_iff_exists'.mp hreason
  have hnot : ¬(terminal c = true ∧ c.pendingCompletionReason = none) := by
    rintro ⟨hterminal, hnone⟩
    exact hover (.inr (.inr ⟨hcodec, h.complete hcodec hterminal, hnone⟩))
  have hanswer := activateFallback_underWay reason nowMs h hcodec hover
  refine ⟨(activateFallback reason nowMs c).2, ?_, ?_⟩
  · unfold failCurrent
    rw [if_neg hnot, hreason]
    exact congrArg Except.ok (Prod.ext hanswer rfl)
  · rcases fallsOrLooks_activateFallback reason nowMs c with ⟨-, hfell⟩ | ⟨hfalse, -⟩
    · exact hfell
    · rw [hanswer] at hfalse
      cases hfalse

/-- What a method that throws has done: it found the session expired, or it looked at the clock. -/
def FellOrLooked (nowMs : ℕ) (c c' : CyrinxQualificationSession) : Prop :=
  (expire nowMs c).1 = true ∧ Fell c c' ∨ Looked c c'

/-- A session under way goes on to its next stage or instruction. -/
structure Progressed (c c' : CyrinxQualificationSession) : Prop where
  /-- Cyrinx was in force. -/
  cyrinx : c.codec = .cyrinx
  /-- The session had not come to an end. -/
  open_ : terminal c = false
  /-- Cyrinx is in force. -/
  cyrinx' : c'.codec = .cyrinx
  /-- The session has not come to an end. -/
  open' : terminal c' = false
  /-- It is not idle. -/
  busy : c'.stage ≠ .idle
  /-- The start is the same. -/
  started : c'.startedAtMs = c.startedAtMs
  /-- The deadline is the same. -/
  deadline : c'.deadlineAtMs = c.deadlineAtMs
  /-- There is no reason for a fallback. -/
  reason : c'.fallbackReason = c.fallbackReason
  /-- The state of the fallback is the same. -/
  fallback : c'.fallbackState = c.fallbackState
  /-- Completions are the same. -/
  pending : c'.pendingCompletionReason = c.pendingCompletionReason

/-- The accepted case is completed. -/
structure Completed (c c' : CyrinxQualificationSession) : Prop where
  /-- Cyrinx was in force. -/
  cyrinx : c.codec = .cyrinx
  /-- The session had not come to an end. -/
  open_ : terminal c = false
  /-- Nothing was to be acknowledged. -/
  pending : c.pendingCompletionReason = none
  /-- Cyrinx is in force. -/
  cyrinx' : c'.codec = .cyrinx
  /-- The next stage is one of Cyrinx. -/
  stage : c'.stage = .complete ∨ ∃ index, c'.stage = stageForCase index
  /-- The start is the same. -/
  started : c'.startedAtMs = c.startedAtMs
  /-- The deadline is the same. -/
  deadline : c'.deadlineAtMs = c.deadlineAtMs
  /-- There is no reason for a fallback. -/
  reason : c'.fallbackReason = c.fallbackReason
  /-- The state of the fallback is the same. -/
  fallback : c'.fallbackState = c.fallbackState
  /-- The completion is to be acknowledged. -/
  pending' : c'.pendingCompletionReason ≠ none

/-- A Cyrinx session that has not ended is under way. -/
theorem not_over_of_not_terminal (hcodec : c.codec = .cyrinx) (hopen : terminal c = false) :
    ¬Over c := by
  refine not_over_of_open hcodec ?_
  rintro ⟨hterminal, -⟩
  rw [hopen] at hterminal
  cases hterminal

/-- Only a session under way makes progress. -/
theorem Progressed.underWay (h : Progressed c c') : ¬Over c :=
  not_over_of_not_terminal h.cyrinx h.open_

/-- Progress leaves the session well formed, with the start and the deadline it had. -/
theorem Progressed.wellFormed (h : Progressed c c') (hw : WellFormed c) : WellFormed c' := by
  have hopen := h.open'
  rw [Bool.eq_false_iff, ne_eq, terminal_iff, not_or, not_or] at hopen
  refine wellFormed_of_cyrinx h.cyrinx' h.busy hopen.2.1 hopen.2.2 ?_ ?_ ?_
  · rw [h.started]
    exact hw.started h.cyrinx
  · rw [h.reason]
    exact hw.available h.cyrinx
  · rw [h.deadline, h.started]
    exact hw.deadline

/-- Only a session under way completes a case. -/
theorem Completed.underWay (h : Completed c c') : ¬Over c :=
  not_over_of_not_terminal h.cyrinx h.open_

/-- The stage of a case is one of the cold ones or that of the corpus. -/
theorem stageForCase_cases (index : ℕ) : stageForCase index = .coldAToB ∨
    stageForCase index = .coldBToA ∨ stageForCase index = .corpus := by
  unfold stageForCase
  split_ifs <;> simp

/-- A session that completes a case is well formed in whichever stage comes next. -/
theorem Completed.wellFormed (h : Completed c c') (hw : WellFormed c) : WellFormed c' := by
  have hstage : c'.stage ≠ .idle ∧ c'.stage ≠ .quiet ∧ c'.stage ≠ .unqualified := by
    rcases h.stage with hs | ⟨index, hs⟩
    · simp [hs]
    · rcases stageForCase_cases index with hi | hi | hi <;> simp [hs, hi]
  refine wellFormed_of_cyrinx h.cyrinx' hstage.1 hstage.2.1 hstage.2.2 ?_ ?_ ?_
  · rw [h.started]
    exact hw.started h.cyrinx
  · rw [h.reason]
    exact hw.available h.cyrinx
  · rw [h.deadline, h.started]
    exact hw.deadline

/-- The check before the deadline fails after a fall or a look, or passes after a look. -/
theorem assertBeforeDeadline_cases (nowMs : ℕ) (c : CyrinxQualificationSession) :
    (∃ fault, assertBeforeDeadline nowMs c = .error fault ∧ FellOrLooked nowMs c fault.state) ∨
      ∃ c', assertBeforeDeadline nowMs c = .ok ((), c') ∧ Looked c c' ∧ c'.codec = .cyrinx ∧
        terminal c' = false := by
  unfold assertBeforeDeadline
  rcases hexpire : expire nowMs c with ⟨expired, c'⟩
  have hcases := fallsOrLooks_expire nowMs c
  rw [hexpire] at hcases
  dsimp only
  rcases hcases with ⟨hanswer, hfell⟩ | ⟨hanswer, hlook⟩
  · rw [if_pos hanswer]
    exact .inl ⟨_, rfl, .inl ⟨by rw [hexpire]; exact hanswer, hfell⟩⟩
  · rw [if_neg (by simpa using hanswer)]
    split
    · exact .inl ⟨_, rfl, .inr hlook⟩
    · next hopen =>
      rw [not_or, not_not, Bool.not_eq_true] at hopen
      exact .inr ⟨c', rfl, hlook, hopen.2, hopen.1⟩

/-- A check before the deadline and what follows it. -/
theorem andThen_assert_cases {α : Type} {P : α → CyrinxQualificationSession → Prop} (nowMs : ℕ)
    (c : CyrinxQualificationSession) (next : CyrinxQualificationSession → SessionOutcome α)
    (hnext : ∀ c', Looked c c' → c'.codec = .cyrinx → terminal c' = false →
      (∃ fault, next c' = .error fault ∧ fault.state = c') ∨ ∃ r, next c' = .ok r ∧ P r.1 r.2) :
    (∃ fault, andThen (assertBeforeDeadline nowMs c) (fun _ => next) = .error fault ∧
        FellOrLooked nowMs c fault.state) ∨
      ∃ r, andThen (assertBeforeDeadline nowMs c) (fun _ => next) = .ok r ∧ P r.1 r.2 := by
  rcases assertBeforeDeadline_cases nowMs c with ⟨fault, h, hstate⟩ | ⟨c', h, hlook, hcodec, hopen⟩
  · exact .inl ⟨fault, by simp only [andThen, h], hstate⟩
  · simp only [andThen, h]
    rcases hnext c' hlook hcodec hopen with ⟨fault, hn, hstate⟩ | ⟨r, hn, hr⟩
    · exact .inl ⟨fault, hn, .inr (hstate ▸ hlook)⟩
    · exact .inr ⟨r, hn, hr⟩

/-- The build is completed by a session that waits for it; where it throws, the session has looked
or fallen back. -/
theorem completeBuild_cases (nowMs : ℕ) (c : CyrinxQualificationSession) :
    (∃ fault, completeBuild nowMs c = .error fault ∧ FellOrLooked nowMs c fault.state) ∨
      ∃ r, completeBuild nowMs c = .ok r ∧ Progressed c r.2 := by
  unfold completeBuild
  split
  · exact .inl ⟨_, rfl, .inr (.refl c)⟩
  · refine andThen_assert_cases (P := fun _ => Progressed c) nowMs c _ ?_
    intro c' hlook hcodec hopen
    rw [hlook] at hcodec hopen ⊢
    exact .inr ⟨_, rfl, hcodec, hopen, hcodec, rfl, by simp, rfl, rfl, rfl, rfl, rfl⟩

/-- The digital stage is completed by a session that waits for it, in the same way. -/
theorem completeDigital_cases (nowMs : ℕ) (c : CyrinxQualificationSession) :
    (∃ fault, completeDigital nowMs c = .error fault ∧ FellOrLooked nowMs c fault.state) ∨
      ∃ r, completeDigital nowMs c = .ok r ∧ Progressed c r.2 := by
  unfold completeDigital
  split
  · exact .inl ⟨_, rfl, .inr (.refl c)⟩
  · refine andThen_assert_cases (P := fun _ => Progressed c) nowMs c _ ?_
    intro c' hlook hcodec hopen
    rw [hlook] at hcodec hopen ⊢
    exact .inr ⟨_, rfl, hcodec, hopen, hcodec, rfl, by simp [stageForCase], rfl, rfl, rfl, rfl,
      rfl⟩

variable (corpus : List CorpusEntry) (role : RunnerRole)

/-- An instruction is accepted for the next case of the session, or it throws. -/
theorem acceptInstruction_cases (caseId : String) (direction : LiteralDirection) (nowMs : ℕ)
    (c : CyrinxQualificationSession) (hw : WellFormed c) :
    (∃ fault, acceptInstruction corpus role caseId direction nowMs c = .error fault ∧
        FellOrLooked nowMs c fault.state) ∨
      ∃ r, acceptInstruction corpus role caseId direction nowMs c = .ok r ∧
        Progressed c r.2 := by
  unfold acceptInstruction
  refine andThen_assert_cases (P := fun _ => Progressed c) nowMs c _ ?_
  intro c' hlook hcodec hopen
  have hidle : c'.stage ≠ .idle := fun hs => by
    rw [← (hlook.wellFormed hw).idle, hcodec] at hs
    cases hs
  dsimp only
  split
  · split_ifs
    · exact .inl ⟨_, rfl, rfl⟩
    · exact .inl ⟨_, rfl, rfl⟩
    · exact .inl ⟨_, rfl, rfl⟩
    · exact .inl ⟨_, rfl, rfl⟩
    · rw [hlook] at hcodec hopen hidle ⊢
      exact .inr ⟨_, rfl, hcodec, hopen, hcodec, hopen, hidle, rfl, rfl, rfl, rfl, rfl⟩
  · exact .inl ⟨_, rfl, rfl⟩

/-- After an accepted case the session is complete or at the stage of the next one; the rest
stays. -/
theorem nextCase_spec (accepted : AcceptedInstruction) (nowMs : ℕ)
    (c : CyrinxQualificationSession) :
    ((nextCase corpus accepted nowMs c).stage = .complete ∨
      ∃ index, (nextCase corpus accepted nowMs c).stage = stageForCase index) ∧
    (nextCase corpus accepted nowMs c).codec = c.codec ∧
    (nextCase corpus accepted nowMs c).startedAtMs = c.startedAtMs ∧
    (nextCase corpus accepted nowMs c).deadlineAtMs = c.deadlineAtMs ∧
    (nextCase corpus accepted nowMs c).fallbackReason = c.fallbackReason ∧
    (nextCase corpus accepted nowMs c).fallbackState = c.fallbackState ∧
    (nextCase corpus accepted nowMs c).pendingCompletionReason = c.pendingCompletionReason := by
  unfold nextCase
  split_ifs
  · exact ⟨.inl rfl, rfl, rfl, rfl, rfl, rfl, rfl⟩
  · exact ⟨.inr ⟨accepted.caseIndex + 1, rfl⟩, rfl, rfl, rfl, rfl, rfl, rfl⟩

/-- To ask which case was accepted changes nothing, whether or not there is one. -/
theorem acceptedFor_cases (mode : CyrinxInstructionAction) (c : CyrinxQualificationSession) :
    (∃ fault, acceptedFor mode c = .error fault ∧ fault.state = c) ∨
      ∃ accepted, acceptedFor mode c = .ok (accepted, c) := by
  unfold acceptedFor
  split
  · exact .inl ⟨_, rfl, rfl⟩
  · split_ifs
    · exact .inl ⟨_, rfl, rfl⟩
    · exact .inl ⟨_, rfl, rfl⟩
    · exact .inr ⟨_, rfl⟩

/-- To ask for the time a case has to settle changes nothing. -/
theorem caseSettleRemaining_cases (mode : CyrinxInstructionAction) (nowMs : ℕ)
    (c : CyrinxQualificationSession) :
    (∃ fault, caseSettleRemaining mode nowMs c = .error fault ∧ fault.state = c) ∨
      ∃ remaining, caseSettleRemaining mode nowMs c = .ok (remaining, c) := by
  unfold caseSettleRemaining
  rcases acceptedFor_cases mode c with ⟨fault, h, hstate⟩ | ⟨accepted, h⟩
  · exact .inl ⟨fault, by simp only [andThen, h], hstate⟩
  · exact .inr ⟨_, by simp only [andThen, h]; rfl⟩

/-- A case is completed by the mode that was accepted for it, or the completion throws. -/
theorem completeAccepted_cases (mode : CyrinxInstructionAction) (nowMs : ℕ)
    (c : CyrinxQualificationSession) :
    (∃ fault, completeAccepted corpus mode nowMs c = .error fault ∧ FellOrLooked nowMs c fault.state) ∨
      ∃ r, completeAccepted corpus mode nowMs c = .ok r ∧ Completed c r.2 := by
  unfold completeAccepted
  refine andThen_assert_cases (P := fun _ => Completed c) nowMs c _ ?_
  intro c' hlook hcodec hopen
  split
  · exact .inl ⟨_, rfl, rfl⟩
  · next hpending =>
    rw [not_not] at hpending
    rcases acceptedFor_cases mode c' with ⟨fault, h, hstate⟩ | ⟨accepted, h⟩
    · exact .inl ⟨fault, by simp only [andThen, h], hstate⟩
    · simp only [andThen, h]
      split
      · exact .inl ⟨_, rfl, rfl⟩
      · exact .inl ⟨_, rfl, rfl⟩
      · next value reason _ _ =>
        have hspec := nextCase_spec corpus accepted nowMs { c' with
          pendingCompletionReason := some reason
          coldReceivePassed := c'.coldReceivePassed || (mode = .listen && value.cold)
          accepted := none }
        rw [hlook] at hcodec hopen hpending
        refine .inr ⟨_, rfl, hcodec, hopen, hpending, ?_, hspec.1, ?_, ?_, ?_, ?_, ?_⟩
        · rw [hspec.2.1]
          exact hlook.codec.trans hcodec
        · rw [hspec.2.2.1]
          exact hlook.startedAtMs
        · rw [hspec.2.2.2.1]
          exact hlook.deadlineAtMs
        · rw [hspec.2.2.2.2.1]
          exact hlook.fallbackReason
        · rw [hspec.2.2.2.2.2.1]
          exact hlook.fallbackState
        · rw [hspec.2.2.2.2.2.2]
          simp

/-- An acknowledgement clears the completion that waits for it, or finds none. -/
theorem acknowledgeAcceptedCompletion_cases (c : CyrinxQualificationSession) :
    (∃ fault, acknowledgeAcceptedCompletion c = .error fault ∧ fault.state = c) ∨
      (acknowledgeAcceptedCompletion c = .ok ((), { c with pendingCompletionReason := none }) ∧
        c.pendingCompletionReason ≠ none) := by
  unfold acknowledgeAcceptedCompletion
  split
  · exact .inl ⟨_, rfl, rfl⟩
  · next hpending => exact .inr ⟨rfl, hpending⟩

/-- A reset drops the accepted instruction, and fails the stage if the session is under way. -/
theorem operatorReset_cases (nowMs : ℕ) (c : CyrinxQualificationSession) (hw : WellFormed c) :
    ∃ r, operatorReset nowMs c = .ok r ∧
      (Fell c r.2 ∨ r.2 = { c with accepted := none } ∧ (c.codec = .idle ∨ Over c)) := by
  unfold operatorReset
  dsimp only
  have hw' : WellFormed { c with accepted := none } :=
    ⟨hw.idle, hw.quiet, hw.unqualified, hw.started, hw.available, hw.unused, hw.pending,
    hw.deadline⟩
  split
  · next hbarred =>
    refine ⟨_, rfl, .inr ⟨rfl, ?_⟩⟩
    by_cases hcodec : c.codec = .cyrinx
    · rcases hbarred with hne | hidle | ⟨hterminal, hfinal⟩
      · exact absurd hcodec hne
      · exact .inl (hw.idle.mpr hidle)
      · have hstage := hw'.complete hcodec hterminal
        refine .inr (.inr (.inr ⟨hcodec, hstage, ?_⟩))
        simpa [revocableComplete, show c.stage = .complete from hstage] using hfinal
    · cases hc : c.codec with
      | idle => exact .inl rfl
      | cyrinx => exact absurd hc hcodec
      | quiet => exact .inr (.inl hc)
      | unqualified => exact .inr (.inr (.inl hc))
  · next hopen =>
    rw [not_or, not_or, not_not] at hopen
    have hover : ¬Over { c with accepted := none } := not_over_of_open hopen.1 hopen.2.2
    obtain ⟨c', heq, hfell⟩ := failCurrent_underWay nowMs hw' hopen.1 hover
    exact ⟨_, heq, .inl ⟨hfell.cyrinx, hover, hfell.fallen⟩⟩

end Fipwave.QualificationSession
