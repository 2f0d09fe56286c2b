import Fipwave.SessionPhases
import Fipwave.TransitionRun

/-!
# What an operation does to a qualification session

The operations of a session, with any clock values, and everything one of them
can change. A value that is not a time is refused where a method looks at the
clock. An operation that looks at the clock in time may get one thing done: the
build, the digital gate, an instruction or a case.
-/

namespace Fipwave.SessionChanges

open ThrowingMethod QualificationSession TransitionRun

/-- Largest number below which all integers are exact. -/
def maxSafeInteger : ℕ := 9007199254740991

/-- A time, unless the value is refused. Values that are no integers are refused as negative ones
are. -/
def checkedNow (value : ℤ) : Option ℕ :=
  if 0 ≤ value ∧ value ≤ maxSafeInteger then some value.toNat else none

/-- Operations of a session. -/
inductive SessionOperation where
  | start (nowMs : ℤ)
  | completeBuild (nowMs : ℤ)
  | completeDigital (nowMs : ℤ)
  | acceptInstruction (caseId : String) (direction : LiteralDirection) (nowMs : ℤ)
  | completeAccepted (mode : CyrinxInstructionAction) (nowMs : ℤ)
  | acknowledgeAcceptedCompletion
  | abortCase
  | operatorReset (nowMs : ℤ)
  | expire (nowMs : ℤ)
  | forceDeadlineExpiry (nowMs : ℤ)
  | activateFallback (reason : CyrinxFallbackReason) (nowMs : ℤ)
  | failCurrent (nowMs : ℤ)
  | markQuietFailed
  | snapshot (epoch nowMs : ℤ)
  deriving DecidableEq, Repr

/-- The session after a method, whether it returned or threw. -/
def after {α : Type} : SessionOutcome α → CyrinxQualificationSession
  | .ok (_, c) => c
  | .error fault => fault.state

/-- The method returned. -/
def returned {α : Type} : SessionOutcome α → Bool
  | .ok _ => true
  | .error _ => false

section Operations

variable (corpus : List CorpusEntry) (role : RunnerRole)

/-- A method at a time; a refused clock value throws before it changes anything. -/
def atTime (nowMs : ℤ) (method : ℕ → CyrinxQualificationSession)
    (c : CyrinxQualificationSession) : CyrinxQualificationSession :=
  match checkedNow nowMs with
  | some now => method now
  | none => c

/-- The session after an operation, whether it returned or threw. -/
def perform (c : CyrinxQualificationSession) : SessionOperation → CyrinxQualificationSession
  | .start nowMs => atTime nowMs (fun now => (start now c).2) c
  | .completeBuild nowMs => atTime nowMs (fun now => after (completeBuild now c)) c
  | .completeDigital nowMs => atTime nowMs (fun now => after (completeDigital now c)) c
  | .acceptInstruction caseId direction nowMs =>
    atTime nowMs (fun now => after (acceptInstruction corpus role caseId direction now c)) c
  | .completeAccepted mode nowMs =>
    atTime nowMs (fun now => after (completeAccepted corpus mode now c)) c
  | .acknowledgeAcceptedCompletion => after (acknowledgeAcceptedCompletion c)
  | .abortCase => { c with accepted := none }
  | .operatorReset nowMs =>
    atTime nowMs (fun now => after (operatorReset now c)) { c with accepted := none }
  | .expire nowMs => atTime nowMs (fun now => (expire now c).2) c
  | .forceDeadlineExpiry nowMs => atTime nowMs (fun now => (forceDeadlineExpiry now c).2) c
  | .activateFallback reason nowMs =>
    atTime nowMs (fun now => (activateFallback reason now c).2) c
  | .failCurrent nowMs => atTime nowMs (fun now => after (failCurrent now c)) c
  | .markQuietFailed => (markQuietFailed c).2
  | .snapshot epoch nowMs =>
    match checkedNow epoch with
    | some _ => atTime nowMs (fun now => lookAt now c) c
    | none => c

/-- What an operation that returns can get done. -/
inductive Achievement where
  | build | digital | instruction
  | case (index : ℕ)
  deriving DecidableEq, Repr

/-- What an operation gets done. -/
def achieved (c : CyrinxQualificationSession) : SessionOperation → Option Achievement
  | .completeBuild nowMs => (checkedNow nowMs).bind (fun now =>
      if returned (completeBuild now c) then some .build else none)
  | .completeDigital nowMs => (checkedNow nowMs).bind (fun now =>
      if returned (completeDigital now c) then some .digital else none)
  | .acceptInstruction caseId direction nowMs => (checkedNow nowMs).bind (fun now =>
      if returned (acceptInstruction corpus role caseId direction now c) then some .instruction
      else none)
  | .completeAccepted mode nowMs => (checkedNow nowMs).bind (fun now =>
      if returned (completeAccepted corpus mode now c) then c.caseIndex.map .case else none)
  | _ => none

end Operations

/-- The largest elapsed time after a look at the clock. -/
def latest (startedAtMs nowMs : ℕ) (c : CyrinxQualificationSession) : ℕ :=
  max (c.lastElapsedMs.getD 0) (nowMs - startedAtMs)

/-- A look at the clock finds an elapsed time. -/
def Seen (c : CyrinxQualificationSession) (value : ℕ) : Prop :=
  ∃ startedAtMs nowMs, c.startedAtMs = some startedAtMs ∧ nowMs ≤ maxSafeInteger ∧
    value = latest startedAtMs nowMs c

/-- A look at the clock finds a session under way before its deadline. -/
structure InTime (c : CyrinxQualificationSession) (value : ℕ) : Prop where
  /-- The elapsed time. -/
  seen : Seen c value
  /-- It is before the deadline. -/
  early : value < cyrinxDeadlineMs
  /-- Cyrinx is in force. -/
  cyrinx : c.codec = .cyrinx
  /-- The session has not come to an end. -/
  open_ : terminal c = false

/-- A session that fell back. -/
def fallen (reason : CyrinxFallbackReason) (value : ℕ) (c : CyrinxQualificationSession) :
    CyrinxQualificationSession :=
  { c with
    fallbackReason := some reason
    fallbackState := .activated
    codec := .quiet
    stage := .quiet
    accepted := none
    pendingCompletionReason := none
    lastElapsedMs := some value
    terminalElapsedMs :=
      some (if reason = .deadlineExpired then max cyrinxDeadlineMs value else value) }

/-- A session that looked at the clock. -/
def looked (value : ℕ) (c : CyrinxQualificationSession) : CyrinxQualificationSession :=
  { c with lastElapsedMs := some value }

/-- Everything an operation can change, with what it gets done. -/
inductive Change (corpus : List CorpusEntry) (c : CyrinxQualificationSession) :
    Option Achievement → CyrinxQualificationSession → Prop
  | same : Change corpus c none c
  | dropped : Change corpus c none { c with accepted := none }
  | started (now : ℕ) (hidle : c.stage = .idle) (hnow : now ≤ maxSafeInteger) :
    Change corpus c none { c with
      codec := .cyrinx
      stage := .build
      startedAtMs := some now
      deadlineAtMs := some (now + cyrinxDeadlineMs)
      lastElapsedMs := some 0 }
  | looked (value : ℕ) (hseen : Seen c value) : Change corpus c none (looked value c)
  | built (value : ℕ) (htime : InTime c value) (hstage : c.stage = .build) :
    Change corpus c (some .build) { looked value c with stage := .digital }
  | gated (value : ℕ) (htime : InTime c value) (hstage : c.stage = .digital) :
    Change corpus c (some .digital)
      { looked value c with caseIndex := some 0, stage := stageForCase 0 }
  | instructed (value : ℕ) (accepted : AcceptedInstruction) (htime : InTime c value) :
    Change corpus c (some .instruction) { looked value c with accepted := some accepted }
  | advanced (value index : ℕ) (reason : CyrinxFallbackReason) (cold : Bool)
      (htime : InTime c value) (hpending : c.pendingCompletionReason = none)
      (hindex : c.caseIndex = some index) (hmore : index + 1 < (orderedCases corpus).length) :
    Change corpus c (some (.case index)) { looked value c with
      pendingCompletionReason := some reason
      coldReceivePassed := cold
      accepted := none
      caseIndex := some (index + 1)
      stage := stageForCase (index + 1) }
  | finished (value index : ℕ) (reason : CyrinxFallbackReason) (cold : Bool)
      (htime : InTime c value) (hpending : c.pendingCompletionReason = none)
      (hindex : c.caseIndex = some index) (hlast : index + 1 = (orderedCases corpus).length) :
    Change corpus c (some (.case index)) { looked value c with
      pendingCompletionReason := some reason
      coldReceivePassed := cold
      accepted := none
      caseIndex := none
      stage := .complete
      terminalElapsedMs := some value }
  | acknowledged (hpending : c.pendingCompletionReason ≠ none) :
    Change corpus c none { c with pendingCompletionReason := none }
  | fell (reason : CyrinxFallbackReason) (value : ℕ) (hseen : Seen c value)
      (hcodec : c.codec = .cyrinx) (hunderWay : ¬Over c)
      (hreason : reason ≠ .deadlineExpired → value < cyrinxDeadlineMs) :
    Change corpus c none (fallen reason value c)
  | quietFailed (hstage : c.stage = .quiet) (hstate : c.fallbackState = .activated) :
    Change corpus c none
      { c with codec := .unqualified, stage := .unqualified, fallbackState := .failed }

/-- The codec and the stage belong together, and the deadline to the start. -/
structure Sound (c : CyrinxQualificationSession) : Prop where
  /-- The phases of the session. -/
  phases : WellFormed c
  /-- The deadline is a fixed time after the start. -/
  deadline : c.deadlineAtMs = c.startedAtMs.map (· + cyrinxDeadlineMs)
  /-- A session that started has looked at the clock. -/
  clock : c.startedAtMs ≠ none → c.lastElapsedMs ≠ none
  /-- An idle session has not started. -/
  fresh : c.codec = .idle → c.startedAtMs = none

variable {c : CyrinxQualificationSession}

/-- The time of a value that is not refused is exact. -/
theorem checkedNow_le {value : ℤ} {now : ℕ} (h : checkedNow value = some now) :
    now ≤ maxSafeInteger := by
  unfold checkedNow at h
  split at h
  · cases h
    omega
  · cases h

/-- A session under Cyrinx has started. -/
theorem Sound.started (h : Sound c) (hcodec : c.codec = .cyrinx) :
    ∃ startedAtMs, c.startedAtMs = some startedAtMs ∧
      c.deadlineAtMs = some (startedAtMs + cyrinxDeadlineMs) := by
  obtain ⟨startedAtMs, hstarted⟩ := Option.ne_none_iff_exists'.mp (h.phases.started hcodec)
  refine ⟨startedAtMs, hstarted, ?_⟩
  rw [h.deadline, hstarted, Option.map_some]

/-- A session under way is not barred by its end. -/
theorem open_of_underWay (h : WellFormed c) (hcodec : c.codec = .cyrinx) (hunderWay : ¬Over c) :
    ¬(terminal c = true ∧ (!revocableComplete c) = true) := by
  rintro ⟨hterminal, hfinal⟩
  have hstage := h.complete hcodec hterminal
  refine hunderWay (.inr (.inr ⟨hcodec, hstage, ?_⟩))
  simpa [revocableComplete, hstage] using hfinal

/-- Activation under way falls back, at the elapsed time of the clock. -/
theorem activate_eq (h : WellFormed c) (reason : CyrinxFallbackReason) (nowMs : ℕ)
    {startedAtMs : ℕ} (hstarted : c.startedAtMs = some startedAtMs) (hcodec : c.codec = .cyrinx)
    (hunderWay : ¬Over c) :
    activate reason nowMs c = (true, fallen reason (latest startedAtMs nowMs c) c) := by
  have hfree : ¬(c.fallbackReason ≠ none ∨
      (terminal c = true ∧ (!revocableComplete c) = true) ∨ c.codec ≠ .cyrinx) := by
    rw [not_or, not_or, not_not, not_not]
    exact ⟨h.available hcodec, open_of_underWay h hcodec hunderWay, hcodec⟩
  unfold activate
  split
  · next hnone =>
    rw [hstarted] at hnone
    cases hnone
  · next other hother =>
    rw [hstarted] at hother
    cases hother
    rw [if_neg hfree]
    rfl

/-- A look before a fall changes nothing about it. -/
theorem activate_looked (h : WellFormed c) (reason : CyrinxFallbackReason) (nowMs : ℕ)
    {startedAtMs : ℕ} (hstarted : c.startedAtMs = some startedAtMs) (hcodec : c.codec = .cyrinx)
    (hunderWay : ¬Over c) :
    activate reason nowMs (looked (latest startedAtMs nowMs c) c) =
      (true, fallen reason (latest startedAtMs nowMs c) c) := by
  have hlook : Looked c (looked (latest startedAtMs nowMs c) c) := rfl
  have hsame : latest startedAtMs nowMs (looked (latest startedAtMs nowMs c) c) =
      latest startedAtMs nowMs c := by
    unfold latest looked
    dsimp only
    rw [Option.getD_some]
    omega
  rw [activate_eq (hlook.wellFormed h) reason nowMs hstarted hcodec
    (fun hover => hunderWay (hlook.over.mp hover)), hsame]
  rfl

/-- Expiry under way looks at the clock, and falls back once the deadline has been seen. -/
theorem expire_underWay (h : Sound c) (nowMs : ℕ) {startedAtMs : ℕ}
    (hstarted : c.startedAtMs = some startedAtMs) (hcodec : c.codec = .cyrinx)
    (hunderWay : ¬Over c) :
    expire nowMs c =
      if latest startedAtMs nowMs c < cyrinxDeadlineMs then
        (false, looked (latest startedAtMs nowMs c) c)
      else (true, fallen .deadlineExpired (latest startedAtMs nowMs c) c) := by
  have hbarred : ¬((terminal c = true ∧ (!revocableComplete c) = true) ∨ c.codec ≠ .cyrinx) := by
    rw [not_or, not_not]
    exact ⟨open_of_underWay h.phases hcodec hunderWay, hcodec⟩
  unfold expire
  split
  · next other deadlineAtMs hother hdeadline =>
    rw [hstarted] at hother
    cases hother
    rw [h.deadline, hstarted, Option.map_some, Option.some.injEq] at hdeadline
    subst hdeadline
    rw [if_neg hbarred]
    have hvalue : elapsed startedAtMs nowMs c =
        (latest startedAtMs nowMs c, looked (latest startedAtMs nowMs c) c) := rfl
    rw [hvalue]
    dsimp only
    by_cases hearly : latest startedAtMs nowMs c < cyrinxDeadlineMs
    · have hnow : nowMs < startedAtMs + cyrinxDeadlineMs := by
        unfold latest at hearly
        omega
      rw [if_pos ⟨hnow, hearly⟩, if_pos hearly]
    · rw [if_neg (fun hboth => hearly hboth.2), if_neg hearly,
        activate_looked h.phases _ nowMs hstarted hcodec hunderWay]
  · next hnone =>
    exfalso
    apply hnone startedAtMs (startedAtMs + cyrinxDeadlineMs) hstarted
    rw [h.deadline, hstarted, Option.map_some]

/-- Expiry does nothing to a session that is not under way. -/
theorem expire_of_over (nowMs : ℕ) (hover : c.codec ≠ .cyrinx ∨ Over c) :
    expire nowMs c = (false, c) := by
  have hbarred : (terminal c = true ∧ (!revocableComplete c) = true) ∨ c.codec ≠ .cyrinx := by
    by_cases hcodec : c.codec = .cyrinx
    · left
      by_contra hopen
      rcases hover with hother | hover
      · exact hother hcodec
      · exact not_over_of_open hcodec hopen hover
    · exact .inr hcodec
  unfold expire
  split
  · rw [if_pos hbarred]
  · rfl

/-- Forced expiry under way falls back. -/
theorem forceDeadlineExpiry_underWay (h : Sound c) (nowMs : ℕ) {startedAtMs : ℕ}
    (hstarted : c.startedAtMs = some startedAtMs) (hcodec : c.codec = .cyrinx)
    (hunderWay : ¬Over c) :
    forceDeadlineExpiry nowMs c =
      (true, fallen .deadlineExpired (latest startedAtMs nowMs c) c) := by
  have hfree : ¬(c.startedAtMs = none ∨ (terminal c = true ∧ (!revocableComplete c) = true) ∨
      c.codec ≠ .cyrinx) := by
    rw [not_or, not_or, not_not, hstarted]
    exact ⟨Option.some_ne_none _, open_of_underWay h.phases hcodec hunderWay, hcodec⟩
  unfold forceDeadlineExpiry
  rw [if_neg hfree, activate_eq h.phases _ nowMs hstarted hcodec hunderWay]

/-- A session that is over is not made to expire. -/
theorem forceDeadlineExpiry_of_over (nowMs : ℕ)
    (hover : c.codec ≠ .cyrinx ∨ Over c) : forceDeadlineExpiry nowMs c = (false, c) := by
  rcases fallsOrLooks_forceDeadlineExpiry nowMs c with ⟨-, hfell⟩ | ⟨hfalse, -⟩
  · exfalso
    rcases hover with hother | hover
    · exact hother hfell.cyrinx
    · exact hfell.underWay hover
  · unfold forceDeadlineExpiry at hfalse ⊢
    split
    · rfl
    · next hfree =>
      rw [if_neg hfree] at hfalse
      rcases activate_cases .deadlineExpired nowMs c with ⟨htrue, -⟩ | hsame
      · rw [htrue] at hfalse
        cases hfalse
      · exact hsame

/-- The reason a session falls back for: the deadline once it has been seen. -/
def reasonAt (reason : CyrinxFallbackReason) (value : ℕ) : CyrinxFallbackReason :=
  if cyrinxDeadlineMs ≤ value then .deadlineExpired else reason

/-- The fallback is activated under way, for the deadline once it has been seen. The reason the
caller gave stands only before. -/
theorem activateFallback_eq (h : Sound c) (reason : CyrinxFallbackReason) (nowMs : ℕ)
    {startedAtMs : ℕ} (hstarted : c.startedAtMs = some startedAtMs) (hcodec : c.codec = .cyrinx)
    (hunderWay : ¬Over c) :
    activateFallback reason nowMs c =
      (true, fallen (reasonAt reason (latest startedAtMs nowMs c))
        (latest startedAtMs nowMs c) c) := by
  have hbarred : ¬((terminal c = true ∧ (!revocableComplete c) = true) ∨ c.codec ≠ .cyrinx ∨
      c.fallbackReason ≠ none) := by
    rw [not_or, not_or, not_not, not_not]
    exact ⟨open_of_underWay h.phases hcodec hunderWay, hcodec, h.phases.available hcodec⟩
  have hdeadline : c.deadlineAtMs = some (startedAtMs + cyrinxDeadlineMs) := by
    rw [h.deadline, hstarted, Option.map_some]
  unfold activateFallback reasonAt
  split
  · next hnone =>
    rw [hstarted] at hnone
    cases hnone
  · next other hother =>
    rw [hstarted] at hother
    cases hother
    have hvalue : elapsed startedAtMs nowMs c =
        (latest startedAtMs nowMs c, looked (latest startedAtMs nowMs c) c) := rfl
    have hsame : (looked (latest startedAtMs nowMs c) c).deadlineAtMs = c.deadlineAtMs := rfl
    rw [if_neg hbarred, hvalue]
    dsimp only
    rw [hsame, hdeadline]
    rw [Option.any_some]
    by_cases hlate : cyrinxDeadlineMs ≤ latest startedAtMs nowMs c
    · have hseen : (decide (nowMs ≥ startedAtMs + cyrinxDeadlineMs) ||
          decide (latest startedAtMs nowMs c ≥ cyrinxDeadlineMs)) = true := by
        rw [decide_eq_true hlate, Bool.or_true]
      rw [if_pos hseen, if_pos hlate]
      exact activate_looked h.phases _ nowMs hstarted hcodec hunderWay
    · have hnow : ¬nowMs ≥ startedAtMs + cyrinxDeadlineMs := by
        unfold latest at hlate
        omega
      have hseen : ¬(decide (nowMs ≥ startedAtMs + cyrinxDeadlineMs) ||
          decide (latest startedAtMs nowMs c ≥ cyrinxDeadlineMs)) = true := by
        rw [decide_eq_false hlate, decide_eq_false hnow]
        exact Bool.false_ne_true
      rw [if_neg hseen, if_neg hlate]
      exact activate_looked h.phases _ nowMs hstarted hcodec hunderWay

/-- A session that is over does not fall back again. -/
theorem activateFallback_of_over (reason : CyrinxFallbackReason) (nowMs : ℕ)
    (hover : c.codec ≠ .cyrinx ∨ Over c) : activateFallback reason nowMs c = (false, c) := by
  have hbarred : (terminal c = true ∧ (!revocableComplete c) = true) ∨ c.codec ≠ .cyrinx := by
    by_cases hcodec : c.codec = .cyrinx
    · left
      by_contra hopen
      rcases hover with hother | hover
      · exact hother hcodec
      · exact not_over_of_open hcodec hopen hover
    · exact .inr hcodec
  unfold activateFallback
  split
  · rfl
  · rw [if_pos]
    rcases hbarred with hclosed | hother
    · exact .inl hclosed
    · exact .inr (.inl hother)

section Methods

variable {corpus : List CorpusEntry} {role : RunnerRole} {nowMs : ℕ}

/-- Falling back for a reason is a change. -/
theorem change_fallen {startedAtMs : ℕ} (hstarted : c.startedAtMs = some startedAtMs)
    (hnow : nowMs ≤ maxSafeInteger) (hcodec : c.codec = .cyrinx) (hunderWay : ¬Over c)
    {reason : CyrinxFallbackReason}
    (hreason : reason ≠ .deadlineExpired → latest startedAtMs nowMs c < cyrinxDeadlineMs) :
    Change corpus c none (fallen reason (latest startedAtMs nowMs c) c) :=
  .fell reason _ ⟨startedAtMs, nowMs, hstarted, hnow, rfl⟩ hcodec hunderWay hreason

/-- The question about the deadline is one of the changes of a session. -/
theorem change_expire (h : Sound c) (hnow : nowMs ≤ maxSafeInteger) :
    Change corpus c none (expire nowMs c).2 := by
  by_cases hover : c.codec ≠ .cyrinx ∨ Over c
  · rw [expire_of_over nowMs hover]
    exact .same
  · rw [not_or, not_not] at hover
    obtain ⟨startedAtMs, hstarted, -⟩ := h.started hover.1
    rw [expire_underWay h nowMs hstarted hover.1 hover.2]
    split
    · exact .looked _ ⟨startedAtMs, nowMs, hstarted, hnow, rfl⟩
    · exact change_fallen hstarted hnow hover.1 hover.2 (fun hne => absurd rfl hne)

/-- Being made to expire is one of its changes. -/
theorem change_forceDeadlineExpiry (h : Sound c) (hnow : nowMs ≤ maxSafeInteger) :
    Change corpus c none (forceDeadlineExpiry nowMs c).2 := by
  by_cases hover : c.codec ≠ .cyrinx ∨ Over c
  · rw [forceDeadlineExpiry_of_over nowMs hover]
    exact .same
  · rw [not_or, not_not] at hover
    obtain ⟨startedAtMs, hstarted, -⟩ := h.started hover.1
    rw [forceDeadlineExpiry_underWay h nowMs hstarted hover.1 hover.2]
    exact change_fallen hstarted hnow hover.1 hover.2 (fun hne => absurd rfl hne)

/-- Falling back is one of its changes. -/
theorem change_activateFallback (h : Sound c) (hnow : nowMs ≤ maxSafeInteger)
    (reason : CyrinxFallbackReason) :
    Change corpus c none (activateFallback reason nowMs c).2 := by
  by_cases hover : c.codec ≠ .cyrinx ∨ Over c
  · rw [activateFallback_of_over reason nowMs hover]
    exact .same
  · rw [not_or, not_not] at hover
    obtain ⟨startedAtMs, hstarted, -⟩ := h.started hover.1
    rw [activateFallback_eq h reason nowMs hstarted hover.1 hover.2]
    refine change_fallen hstarted hnow hover.1 hover.2 ?_
    unfold reasonAt
    split
    · exact fun hne => absurd rfl hne
    · next hearly =>
      intro _
      omega

/-- A case that fails is one of its changes. -/
theorem change_failCurrent (h : Sound c) (hnow : nowMs ≤ maxSafeInteger) :
    Change corpus c none (after (failCurrent nowMs c)) := by
  unfold failCurrent
  split
  · exact .same
  · split
    · exact .same
    · exact change_activateFallback h hnow _

/-- A session without an accepted instruction is as sound. -/
theorem Sound.dropped (h : Sound c) : Sound { c with accepted := none } := by
  obtain ⟨hphases, hdeadline, hclock, hfresh⟩ := h
  exact ⟨⟨hphases.idle, hphases.quiet, hphases.unqualified, hphases.started, hphases.available,
    hphases.unused, hphases.pending, hdeadline⟩, hdeadline, hclock, hfresh⟩

/-- A reset drops the accepted instruction and falls back when the session is under way. -/
theorem change_operatorReset (h : Sound c) (hnow : nowMs ≤ maxSafeInteger) :
    Change corpus c none (after (operatorReset nowMs c)) := by
  obtain ⟨r, hreset, hcases⟩ := operatorReset_cases nowMs c h.phases
  rcases hcases with hfell | ⟨hdropped, -⟩
  · unfold operatorReset at hreset ⊢
    dsimp only at hreset ⊢
    split
    · exact .dropped
    · next hopen =>
      obtain ⟨startedAtMs, hstarted, -⟩ := h.started hfell.cyrinx
      have hunderWay : ¬Over { c with accepted := none } := hfell.underWay
      have hcodec : ({ c with accepted := none } : CyrinxQualificationSession).codec = .cyrinx :=
        hfell.cyrinx
      have hdropped := h.dropped
      have hfallback : ∀ reason, Change corpus c none
          (activateFallback reason nowMs { c with accepted := none }).2 := by
        intro reason
        rw [activateFallback_eq hdropped reason nowMs hstarted hcodec hunderWay]
        refine change_fallen (c := c) hstarted hnow hfell.cyrinx hfell.underWay ?_
        unfold reasonAt
        split
        · exact fun hne => absurd rfl hne
        · next hearly =>
          intro _
          unfold latest at hearly ⊢
          dsimp only at hearly
          omega
      unfold failCurrent
      split
      · exact .dropped
      · split
        · exact .dropped
        · exact hfallback _
  · rw [hreset]
    unfold after
    dsimp only
    rw [hdropped]
    exact .dropped

/-- A failure of Quiet is one of its changes. -/
theorem change_markQuietFailed : Change corpus c none (markQuietFailed c).2 := by
  unfold markQuietFailed
  split
  · exact .same
  · next h =>
    rw [not_or, not_not, not_not] at h
    exact .quietFailed h.1 h.2

/-- A start is one of its changes. -/
theorem change_start (hnow : nowMs ≤ maxSafeInteger) : Change corpus c none (start nowMs c).2 := by
  unfold start
  split
  · exact .same
  · next h =>
    rw [not_not] at h
    exact .started nowMs h hnow

/-- A look at the clock is one of its changes. -/
theorem change_lookAt (hnow : nowMs ≤ maxSafeInteger) : Change corpus c none (lookAt nowMs c) := by
  unfold lookAt
  split
  · next startedAtMs hstarted hterminal =>
    exact .looked _ ⟨startedAtMs, nowMs, hstarted, hnow, rfl⟩
  · exact .same

/-- An acknowledgement is one of its changes. -/
theorem change_acknowledge : Change corpus c none (after (acknowledgeAcceptedCompletion c)) := by
  unfold acknowledgeAcceptedCompletion
  split
  · exact .same
  · next h => exact .acknowledged h

/-- A method that throws changes nothing it is for; one that returns gets something done. -/
def Outcome {α : Type} (corpus : List CorpusEntry) (c : CyrinxQualificationSession)
    (label : Option Achievement) (o : SessionOutcome α) : Prop :=
  (∃ fault, o = .error fault ∧ Change corpus c none fault.state) ∨
    ∃ r, o = .ok r ∧ Change corpus c label r.2

/-- A method that has its label only if it returns changes the session by it. -/
theorem Outcome.change {α : Type} {label : Option Achievement} {o : SessionOutcome α}
    (h : Outcome corpus c label o) :
    Change corpus c (if returned o then label else none) (after o) := by
  rcases h with ⟨fault, rfl, hchange⟩ | ⟨r, rfl, hchange⟩
  · exact hchange
  · exact hchange

/-- The check before the deadline throws, or finds the session in time. It throws with the fallback
in place, which is one of the changes. -/
theorem assertBeforeDeadline_inTime (corpus : List CorpusEntry) (h : Sound c)
    (hnow : nowMs ≤ maxSafeInteger) :
    (∃ fault, assertBeforeDeadline nowMs c = .error fault ∧ Change corpus c none fault.state) ∨
      ∃ startedAtMs, c.startedAtMs = some startedAtMs ∧
        InTime c (latest startedAtMs nowMs c) ∧
        assertBeforeDeadline nowMs c = .ok ((), looked (latest startedAtMs nowMs c) c) := by
  by_cases hover : c.codec ≠ .cyrinx ∨ Over c
  · have hended : terminal c = true ∨ c.codec ≠ .cyrinx := by
      rcases hover with hother | hquiet | hnone | ⟨-, hstage, -⟩
      · exact .inr hother
      · rw [hquiet]
        exact .inr (by decide)
      · rw [hnone]
        exact .inr (by decide)
      · exact .inl (terminal_iff.mpr (.inl hstage))
    left
    unfold assertBeforeDeadline
    rw [expire_of_over nowMs hover]
    dsimp only
    rw [if_neg Bool.false_ne_true, if_pos hended]
    exact ⟨_, rfl, .same⟩
  · rw [not_or, not_not] at hover
    obtain ⟨startedAtMs, hstarted, -⟩ := h.started hover.1
    have hseen : Seen c (latest startedAtMs nowMs c) :=
      ⟨startedAtMs, nowMs, hstarted, hnow, rfl⟩
    unfold assertBeforeDeadline
    rw [expire_underWay h nowMs hstarted hover.1 hover.2]
    by_cases hearly : latest startedAtMs nowMs c < cyrinxDeadlineMs
    · rw [if_pos hearly]
      dsimp only
      rw [if_neg Bool.false_ne_true]
      by_cases hended : terminal c = true ∨ c.codec ≠ .cyrinx
      · left
        rw [if_pos (by exact hended)]
        exact ⟨_, rfl, .looked _ hseen⟩
      · right
        rw [if_neg (by exact hended)]
        rw [not_or, Bool.not_eq_true] at hended
        exact ⟨startedAtMs, hstarted, ⟨hseen, hearly, hover.1, hended.1⟩, rfl⟩
    · left
      rw [if_neg hearly]
      dsimp only
      rw [if_pos rfl]
      exact ⟨_, rfl, change_fallen hstarted hnow hover.1 hover.2 (fun hne => absurd rfl hne)⟩

/-- A check before the deadline and the work that follows it in time. -/
theorem outcome_andThen {α : Type} {label : Option Achievement} (h : Sound c)
    (hnow : nowMs ≤ maxSafeInteger) (next : CyrinxQualificationSession → SessionOutcome α)
    (hnext : ∀ startedAtMs, c.startedAtMs = some startedAtMs →
      InTime c (latest startedAtMs nowMs c) →
      Outcome corpus c label (next (looked (latest startedAtMs nowMs c) c))) :
    Outcome corpus c label (andThen (assertBeforeDeadline nowMs c) (fun _ => next)) := by
  rcases assertBeforeDeadline_inTime corpus h hnow with
    ⟨fault, hthrown, hchange⟩ | ⟨startedAtMs, hstarted, htime, hpassed⟩
  · left
    rw [hthrown]
    exact ⟨fault, rfl, hchange⟩
  · rw [hpassed]
    exact hnext startedAtMs hstarted htime

/-- The build is achieved exactly if its completion returns. -/
theorem outcome_completeBuild (h : Sound c) (hnow : nowMs ≤ maxSafeInteger) :
    Outcome corpus c (some .build) (completeBuild nowMs c) := by
  unfold completeBuild
  split
  · exact .inl ⟨_, rfl, .same⟩
  · next hstage =>
    rw [not_not] at hstage
    refine outcome_andThen h hnow _ ?_
    intro startedAtMs _ htime
    exact .inr ⟨_, rfl, .built _ htime hstage⟩

/-- The digital stage is achieved exactly if its completion returns. -/
theorem outcome_completeDigital (h : Sound c) (hnow : nowMs ≤ maxSafeInteger) :
    Outcome corpus c (some .digital) (completeDigital nowMs c) := by
  unfold completeDigital
  split
  · exact .inl ⟨_, rfl, .same⟩
  · next hstage =>
    rw [not_not] at hstage
    refine outcome_andThen h hnow _ ?_
    intro startedAtMs _ htime
    exact .inr ⟨_, rfl, .gated _ htime hstage⟩

/-- An instruction is achieved exactly if it is accepted. -/
theorem outcome_acceptInstruction (h : Sound c) (hnow : nowMs ≤ maxSafeInteger)
    (caseId : String) (direction : LiteralDirection) :
    Outcome corpus c (some .instruction)
      (acceptInstruction corpus role caseId direction nowMs c) := by
  unfold acceptInstruction
  refine outcome_andThen h hnow _ ?_
  intro startedAtMs _ htime
  have hlook : Change corpus c none (looked (latest startedAtMs nowMs c) c) :=
    .looked _ htime.seen
  dsimp only
  split
  · split_ifs
    · exact .inl ⟨_, rfl, hlook⟩
    · exact .inl ⟨_, rfl, hlook⟩
    · exact .inl ⟨_, rfl, hlook⟩
    · exact .inl ⟨_, rfl, hlook⟩
    · exact .inr ⟨_, rfl, .instructed _ _ htime⟩
  · exact .inl ⟨_, rfl, hlook⟩

/-- The accepted instruction that a method finds is the one of the current case. -/
theorem acceptedFor_ok {mode : CyrinxInstructionAction} {accepted : AcceptedInstruction}
    {c' : CyrinxQualificationSession} (h : acceptedFor mode c = .ok (accepted, c')) :
    c' = c ∧ c.caseIndex = some accepted.caseIndex := by
  unfold acceptedFor at h
  split at h
  · cases h
  · split_ifs at h with hcase hmode
    · cases h
    · cases h
    · obtain ⟨rfl, rfl⟩ := Prod.mk.inj (Except.ok.inj h)
      rw [not_not] at hcase
      exact ⟨rfl, hcase.symm⟩

/-- A case is achieved exactly if its completion returns. The check before the deadline comes first,
and may take the codec away. -/
theorem outcome_completeAccepted (h : Sound c) (hnow : nowMs ≤ maxSafeInteger)
    (mode : CyrinxInstructionAction) :
    Outcome corpus c (c.caseIndex.map .case) (completeAccepted corpus mode nowMs c) := by
  unfold completeAccepted
  refine outcome_andThen h hnow _ ?_
  intro startedAtMs hstarted htime
  have hlook : Change corpus c none (looked (latest startedAtMs nowMs c) c) :=
    .looked _ htime.seen
  split
  · exact .inl ⟨_, rfl, hlook⟩
  · next hpending =>
    rw [not_not] at hpending
    rcases acceptedFor_cases mode (looked (latest startedAtMs nowMs c) c) with
      ⟨fault, hthrown, hstate⟩ | ⟨accepted, haccepted⟩
    · rw [hthrown]
      left
      refine ⟨fault, rfl, ?_⟩
      rw [hstate]
      exact hlook
    · have hindex : c.caseIndex = some accepted.caseIndex := (acceptedFor_ok haccepted).2
      rw [haccepted]
      unfold andThen
      dsimp only
      split
      · exact .inl ⟨_, rfl, hlook⟩
      · exact .inl ⟨_, rfl, hlook⟩
      · next value reason hcurrent _ =>
        right
        rw [hindex]
        have hbound : accepted.caseIndex < (orderedCases corpus).length := by
          have hcase : (looked (latest startedAtMs nowMs c) c).caseIndex =
              some accepted.caseIndex := hindex
          unfold currentCase at hcurrent
          rw [hcase, Option.bind_some] at hcurrent
          exact (List.getElem?_eq_some_iff.mp hcurrent).1
        refine ⟨_, rfl, ?_⟩
        unfold nextCase
        split
        · next hlast =>
          have hsame : max (latest startedAtMs nowMs c) (nowMs - startedAtMs) =
              latest startedAtMs nowMs c := by
            unfold latest
            omega
          have hfinished : Change corpus c _ _ := .finished (latest startedAtMs nowMs c)
            accepted.caseIndex reason
            (c.coldReceivePassed || (mode = .listen && value.cold)) htime hpending hindex
            (by omega)
          unfold elapsed looked
          unfold looked at hfinished
          dsimp only
          rw [hstarted, Option.getD_some, Option.getD_some, hsame]
          rw [hstarted] at hfinished
          exact hfinished
        · next hmore =>
          exact .advanced _ _ reason _ htime hpending hindex (by omega)

/-- A method at a time, or what a refused clock value leaves. -/
theorem change_atTime (value : ℤ) {method : ℕ → CyrinxQualificationSession}
    {refused : CyrinxQualificationSession} (hrefused : Change corpus c none refused)
    (hmethod : ∀ now ≤ maxSafeInteger, Change corpus c none (method now)) :
    Change corpus c none (atTime value method refused) := by
  unfold atTime
  cases hnow : checkedNow value with
  | none => exact hrefused
  | some now => exact hmethod now (checkedNow_le hnow)

/-- A method that gets something done at a time. -/
theorem outcome_atTime {α : Type} (value : ℤ) {label : Option Achievement}
    {method : ℕ → SessionOutcome α}
    (hmethod : ∀ now ≤ maxSafeInteger, Outcome corpus c label (method now)) :
    Change corpus c
      ((checkedNow value).bind (fun now => if returned (method now) then label else none))
      (atTime value (fun now => after (method now)) c) := by
  unfold atTime
  cases hnow : checkedNow value with
  | none => exact .same
  | some now => exact (hmethod now (checkedNow_le hnow)).change

/-- Every operation makes one of the changes, and gets done what it is for. -/
theorem perform_change (corpus : List CorpusEntry) (role : RunnerRole) (h : Sound c)
    (op : SessionOperation) :
    Change corpus c (achieved corpus role c op) (perform corpus role c op) := by
  cases op with
  | start value => exact change_atTime value .same (fun _ hnow => change_start hnow)
  | completeBuild value => exact outcome_atTime value (fun _ hnow => outcome_completeBuild h hnow)
  | completeDigital value =>
    exact outcome_atTime value (fun _ hnow => outcome_completeDigital h hnow)
  | acceptInstruction caseId direction value =>
    exact outcome_atTime value (fun _ hnow => outcome_acceptInstruction h hnow caseId direction)
  | completeAccepted mode value =>
    exact outcome_atTime value (fun _ hnow => outcome_completeAccepted h hnow mode)
  | acknowledgeAcceptedCompletion => exact change_acknowledge
  | abortCase => exact .dropped
  | operatorReset value =>
    exact change_atTime value .dropped (fun _ hnow => change_operatorReset h hnow)
  | expire value => exact change_atTime value .same (fun _ hnow => change_expire h hnow)
  | forceDeadlineExpiry value =>
    exact change_atTime value .same (fun _ hnow => change_forceDeadlineExpiry h hnow)
  | activateFallback reason value =>
    exact change_atTime value .same (fun _ hnow => change_activateFallback h hnow reason)
  | failCurrent value => exact change_atTime value .same (fun _ hnow => change_failCurrent h hnow)
  | markQuietFailed => exact change_markQuietFailed
  | snapshot epoch value =>
    have hlook : Change corpus c none (atTime value (fun now => lookAt now c) c) :=
      change_atTime value .same (fun _ hnow => change_lookAt hnow)
    have hsnapshot : Change corpus c none (match checkedNow epoch with
        | some _ => atTime value (fun now => lookAt now c) c
        | none => c) := by
      cases checkedNow epoch with
      | none => exact .same
      | some valid => exact hlook
    exact hsnapshot

end Methods

/-- An idle session is sound. -/
theorem sound_idle : Sound {} := by
  refine ⟨wellFormed_idle, rfl, ?_, fun _ => rfl⟩
  intro h
  exact absurd rfl h

/-- A stage in which Cyrinx is in force. -/
def Running (stage : CyrinxStage) : Prop :=
  stage ≠ .idle ∧ stage ≠ .quiet ∧ stage ≠ .unqualified

instance (stage : CyrinxStage) : Decidable (Running stage) :=
  inferInstanceAs (Decidable (_ ∧ _))

/-- A session under Cyrinx that keeps its start is as sound. -/
theorem Sound.cyrinx {c' : CyrinxQualificationSession} (h : Sound c) (hcodec : c.codec = .cyrinx)
    (hcodec' : c'.codec = .cyrinx) (hstage : Running c'.stage) (hstarted : c'.startedAtMs = c.startedAtMs)
    (hdeadline : c'.deadlineAtMs = c.deadlineAtMs) (hreason : c'.fallbackReason = c.fallbackReason)
    (hclock : c'.lastElapsedMs ≠ none) : Sound c' := by
  have hbegun : c'.startedAtMs ≠ none := by
    rw [hstarted]
    exact h.phases.started hcodec
  have hfree : c'.fallbackReason = none := by
    rw [hreason]
    exact h.phases.available hcodec
  have hlast : c'.deadlineAtMs = c'.startedAtMs.map (· + cyrinxDeadlineMs) := by
    rw [hdeadline, hstarted]
    exact h.deadline
  refine ⟨wellFormed_of_cyrinx hcodec' hstage.1 hstage.2.1 hstage.2.2 hbegun hfree hlast, hlast,
    fun _ => hclock, ?_⟩
  · intro hnone
    rw [hcodec'] at hnone
    cases hnone

/-- The stage of a case is a stage of Cyrinx. -/
theorem running_stageForCase (index : ℕ) : Running (stageForCase index) := by
  rcases stageForCase_cases index with hstage | hstage | hstage <;> rw [hstage] <;> decide

/-- A session in time is in a stage of Cyrinx before its end. -/
theorem InTime.running {value : ℕ} (h : InTime c value) (hphases : WellFormed c) :
    Running c.stage ∧ c.stage ≠ .complete := by
  have hopen := h.open_
  rw [Bool.eq_false_iff, ne_eq, terminal_iff, not_or, not_or] at hopen
  refine ⟨⟨?_, hopen.2.1, hopen.2.2⟩, hopen.1⟩
  intro hidle
  rw [← hphases.idle, h.cyrinx] at hidle
  cases hidle

/-- Every change keeps a session sound. -/
theorem Sound.change {corpus : List CorpusEntry} {label : Option Achievement}
    {c' : CyrinxQualificationSession} (h : Sound c) (hchange : Change corpus c label c') :
    Sound c' := by
  cases hchange with
  | same => exact h
  | dropped => exact h.dropped
  | started now hidle hnow =>
    have hcodec := h.phases.idle.mpr hidle
    have hstage : Running .build := by decide
    refine ⟨wellFormed_of_cyrinx rfl hstage.1 hstage.2.1 hstage.2.2 (Option.some_ne_none _)
      (h.phases.unused hcodec) rfl, rfl, fun _ => Option.some_ne_none _, ?_⟩
    intro hnone
    cases hnone
  | looked value hseen =>
    have hlook : Looked c (looked value c) := rfl
    exact ⟨hlook.wellFormed h.phases, h.deadline, fun _ => Option.some_ne_none _, h.fresh⟩
  | built value htime hstage =>
    have hnext : Running .digital := by decide
    exact h.cyrinx htime.cyrinx htime.cyrinx hnext rfl rfl rfl (Option.some_ne_none _)
  | gated value htime hstage =>
    have hnext := running_stageForCase 0
    exact h.cyrinx htime.cyrinx htime.cyrinx hnext rfl rfl rfl (Option.some_ne_none _)
  | instructed value accepted htime =>
    have hnext := (htime.running h.phases).1
    exact h.cyrinx htime.cyrinx htime.cyrinx hnext rfl rfl rfl (Option.some_ne_none _)
  | advanced value index reason cold htime hpending hindex hmore =>
    have hnext := running_stageForCase (index + 1)
    exact h.cyrinx htime.cyrinx htime.cyrinx hnext rfl rfl rfl (Option.some_ne_none _)
  | finished value index reason cold htime hpending hindex hlast =>
    have hnext : Running .complete := by decide
    exact h.cyrinx htime.cyrinx htime.cyrinx hnext rfl rfl rfl (Option.some_ne_none _)
  | acknowledged hpending =>
    obtain ⟨hphases, hdeadline, hclock, hfresh⟩ := h
    exact ⟨⟨hphases.idle, hphases.quiet, hphases.unqualified, hphases.started, hphases.available,
      hphases.unused, fun hne => absurd rfl hne, hdeadline⟩, hdeadline, hclock, hfresh⟩
  | fell reason value hseen hcodec hunderWay hreason =>
    have hfell : Fell c (fallen reason value c) := ⟨hcodec, hunderWay, rfl⟩
    refine ⟨hfell.wellFormed h.phases, h.deadline, fun _ => Option.some_ne_none _, ?_⟩
    intro hnone
    cases hnone
  | quietFailed hstage hstate =>
    have hquiet := h.phases.quiet.mpr hstage
    have hpending : c.pendingCompletionReason = none := by
      by_contra hne
      have hcodec := h.phases.pending hne
      rw [hquiet] at hcodec
      cases hcodec
    refine ⟨?_, h.deadline, h.clock, ?_⟩
    · constructor <;> simp [hpending, h.deadline]
    · intro hnone
      cases hnone

end Fipwave.SessionChanges
