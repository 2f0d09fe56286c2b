import Fipwave.ThrowingMethod
import Fipwave.TransitionRun

/-!
# The qualification session a browser displays

The browser keeps the last snapshot of the runner's session that it accepted.
A snapshot replaces the whole state, after checks against the state it
replaces; a local failure of the fallback ends the session. Timing and the
first reason never change. The codec goes back in one way only: a snapshot of
the fallback that arrives after its local failure is accepted again.
-/

namespace Fipwave.DisplayedSession

open ThrowingMethod TransitionRun

/-- Stages, and texts that are none. -/
inductive CyrinxStage where
  | idle | build | digital | coldAToB | coldBToA | corpus | quiet | complete | unqualified
  | other (text : String)
  deriving DecidableEq, Repr

/-- Reasons of a fallback, and texts that are none. -/
inductive CyrinxFailure where
  | buildFailed | digitalRoundtripFailed | coldAToBFailed | coldBToAFailed | corpusFailed
  | deadlineExpired | other (text : String)
  deriving DecidableEq, Repr

/-- Codecs. -/
inductive CyrinxCodec where
  | idle | cyrinx | quiet | unqualified
  deriving DecidableEq, Repr

/-- A snapshot; a time is missing where it is not a finite number. -/
structure CyrinxSessionSnapshot where
  /-- Codec in use. -/
  codec : CyrinxCodec
  /-- Stage of the qualification. -/
  stage : CyrinxStage
  /-- Time the session started. -/
  startedAtMs : Option ℚ := none
  /-- Time the session ends. -/
  deadlineAtMs : Option ℚ := none
  /-- Time since the start. -/
  elapsedMs : Option ℚ := none
  /-- Reason of the fallback. -/
  reasonCode : Option CyrinxFailure := none
  deriving DecidableEq, Repr

/-- The fields of a session. -/
structure CyrinxQualificationSession where
  /-- The snapshot accepted last. -/
  state : CyrinxSessionSnapshot := { codec := .idle, stage := .idle }
  /-- The fallback was begun. -/
  quietStarted : Bool := false
  deriving DecidableEq, Repr

/-- What a method leaves. -/
abbrev SessionOutcome :=
  Except (Fault CyrinxQualificationSession) CyrinxQualificationSession

/-- A method throws. -/
def refuse (message : String) (c : CyrinxQualificationSession) : SessionOutcome :=
  .error ⟨message, c⟩

/-- A stage of `STAGES`. -/
def knownStage : CyrinxStage → Bool
  | .other _ => false
  | _ => true

/-- A reason of `REASONS`. -/
def knownReason : Option CyrinxFailure → Bool
  | none => false
  | some (.other _) => false
  | some _ => true

/-- A reason that is not an empty text. -/
def givenReason : Option CyrinxFailure → Bool
  | none => false
  | some reason => reason ≠ .other ""

/-- A number without a fraction. -/
def isInteger (value : ℚ) : Bool := value.den = 1

/-- Length of a session. -/
def sessionMs : ℚ := 5400000

/-- The times of a snapshot are those of one session. -/
def validTiming (candidate : CyrinxSessionSnapshot) : Bool :=
  match candidate.startedAtMs, candidate.deadlineAtMs, candidate.elapsedMs with
  | some startedAtMs, some deadlineAtMs, some elapsedMs =>
    isInteger startedAtMs && isInteger deadlineAtMs && isInteger elapsedMs && 0 ≤ startedAtMs &&
      deadlineAtMs - startedAtMs = sessionMs && 0 ≤ elapsedMs
  | _, _, _ => false

/-- The codec is a fallback or the end of one. -/
def fallenBack (codec : CyrinxCodec) : Bool := codec = .quiet || codec = .unqualified

/-- Accept a snapshot of the runner. -/
def apply (candidate : CyrinxSessionSnapshot) (c : CyrinxQualificationSession) : SessionOutcome :=
  if !knownStage candidate.stage then refuse "runner session stage is invalid" c
  else if candidate.codec = .idle then
    if candidate.stage ≠ .idle ∨ c.state.codec ≠ .idle then
      refuse "runner session attempted to restart Cyrinx" c
    else .ok c
  else if !validTiming candidate then refuse "runner session deadline is invalid" c
  else if candidate.codec = .cyrinx ∧ candidate.reasonCode ≠ none then
    refuse "Cyrinx runner session cannot carry a fallback reason" c
  else if fallenBack candidate.codec ∧ !knownReason candidate.reasonCode then
    refuse "runner fallback reason is invalid" c
  else if c.state.codec ≠ .idle ∧ (candidate.startedAtMs ≠ c.state.startedAtMs ∨
      candidate.deadlineAtMs ≠ c.state.deadlineAtMs) then
    refuse "runner session deadline changed" c
  else if c.state.codec ≠ .idle ∧ fallenBack c.state.codec ∧ candidate.codec = .cyrinx then
    refuse "runner session attempted to retry Cyrinx" c
  else if c.state.codec ≠ .idle ∧ givenReason c.state.reasonCode ∧
      candidate.reasonCode ≠ c.state.reasonCode then
    refuse "runner session changed its first failure reason" c
  else .ok { c with state := candidate }

/-- The fallback may begin. -/
def shouldStartQuiet (c : CyrinxQualificationSession) : Bool :=
  c.state.codec = .quiet && !c.quietStarted

/-- The fallback begins. -/
def markQuietStarted (c : CyrinxQualificationSession) : SessionOutcome :=
  if !shouldStartQuiet c then refuse "Quiet cannot start without an authoritative fallback" c
  else .ok { c with quietStarted := true }

/-- The fallback failed. -/
def markQuietFailed (c : CyrinxQualificationSession) : SessionOutcome :=
  if c.state.codec ≠ .quiet then refuse "Quiet failure has no active fallback" c
  else .ok { c with state := { c.state with codec := .unqualified, stage := .unqualified } }

/-- Calls of a session. -/
inductive Operation where
  | apply (candidate : CyrinxSessionSnapshot)
  | markQuietStarted
  | markQuietFailed
  deriving DecidableEq, Repr

/-- One call. -/
def perform (op : Operation) (c : CyrinxQualificationSession) : SessionOutcome :=
  match op with
  | .apply candidate => apply candidate c
  | .markQuietStarted => markQuietStarted c
  | .markQuietFailed => markQuietFailed c

/-- The session after one call, whether it returned or threw. -/
def step (c : CyrinxQualificationSession) (op : Operation) : CyrinxQualificationSession :=
  left (perform op c)

/-- The session after a list of calls. -/
def runSession (ops : List Operation) : CyrinxQualificationSession := run step {} ops


section Calls

variable {c c' : CyrinxQualificationSession} {candidate : CyrinxSessionSnapshot}

/-- What a snapshot that replaces the state satisfies. -/
structure Accepted (candidate : CyrinxSessionSnapshot) (c : CyrinxQualificationSession) : Prop where
  /-- The stage is one. -/
  stage : knownStage candidate.stage = true
  /-- It has a codec. -/
  codec : candidate.codec ≠ .idle
  /-- Its times are those of one session. -/
  timing : validTiming candidate = true
  /-- The primary codec has no reason. -/
  primary : candidate.codec = .cyrinx → candidate.reasonCode = none
  /-- A fallback has a reason. -/
  fallback : fallenBack candidate.codec = true → knownReason candidate.reasonCode = true
  /-- The times of a session are kept. -/
  started : c.state.codec ≠ .idle → candidate.startedAtMs = c.state.startedAtMs
  /-- The times of a session are kept. -/
  deadline : c.state.codec ≠ .idle → candidate.deadlineAtMs = c.state.deadlineAtMs
  /-- The primary codec is not retried. -/
  retry : c.state.codec ≠ .idle → fallenBack c.state.codec = true → candidate.codec ≠ .cyrinx
  /-- A reason is kept. -/
  reason : c.state.codec ≠ .idle → givenReason c.state.reasonCode = true →
    candidate.reasonCode = c.state.reasonCode

/-- An accepted snapshot becomes the displayed one. -/
theorem apply_accepted (h : Accepted candidate c) :
    apply candidate c = .ok { c with state := candidate } := by
  have hdeadline : ¬(c.state.codec ≠ .idle ∧ (candidate.startedAtMs ≠ c.state.startedAtMs ∨
      candidate.deadlineAtMs ≠ c.state.deadlineAtMs)) := by
    rintro ⟨hcodec, hstarted | hdeadline⟩
    · exact hstarted (h.started hcodec)
    · exact hdeadline (h.deadline hcodec)
  have hretry : ¬(c.state.codec ≠ .idle ∧ fallenBack c.state.codec ∧ candidate.codec = .cyrinx) :=
    fun hfail => h.retry hfail.1 hfail.2.1 hfail.2.2
  have hreason : ¬(c.state.codec ≠ .idle ∧ givenReason c.state.reasonCode ∧
      candidate.reasonCode ≠ c.state.reasonCode) :=
    fun hfail => hfail.2.2 (h.reason hfail.1 hfail.2.1)
  have hprimary : ¬(candidate.codec = .cyrinx ∧ candidate.reasonCode ≠ none) :=
    fun hfail => hfail.2 (h.primary hfail.1)
  have hfallback : ¬(fallenBack candidate.codec ∧ !knownReason candidate.reasonCode) := by
    rintro ⟨hback, hnone⟩
    rw [h.fallback hback] at hnone
    cases hnone
  unfold apply
  rw [h.stage, h.timing, if_neg (by decide), if_neg h.codec, if_neg (by decide), if_neg hprimary,
    if_neg hfallback, if_neg hdeadline, if_neg hretry, if_neg hreason]

/-- A snapshot is ignored, replaces the state, or is refused with the state as it was. The cases are
the tests of the source in their order. -/
theorem apply_cases (candidate : CyrinxSessionSnapshot) (c : CyrinxQualificationSession) :
    apply candidate c = .ok c ∨
      (Accepted candidate c ∧ apply candidate c = .ok { c with state := candidate }) ∨
      ∃ message, apply candidate c = .error ⟨message, c⟩ := by
  by_cases haccepted : Accepted candidate c
  · exact .inr (.inl ⟨haccepted, apply_accepted haccepted⟩)
  · unfold apply
    split
    · exact .inr (.inr ⟨_, rfl⟩)
    · next hstage =>
      split
      · split
        · exact .inr (.inr ⟨_, rfl⟩)
        · exact .inl rfl
      · next hcodec =>
        split
        · exact .inr (.inr ⟨_, rfl⟩)
        · next htiming =>
          split
          · exact .inr (.inr ⟨_, rfl⟩)
          · next hprimary =>
            split
            · exact .inr (.inr ⟨_, rfl⟩)
            · next hfallback =>
              split
              · exact .inr (.inr ⟨_, rfl⟩)
              · next hdeadline =>
                split
                · exact .inr (.inr ⟨_, rfl⟩)
                · next hretry =>
                  split
                  · exact .inr (.inr ⟨_, rfl⟩)
                  · next hreason =>
                    refine absurd ?_ haccepted
                    simp only [Bool.not_eq_true', Bool.not_eq_false] at hstage htiming
                    simp only [not_and, not_or, not_not] at hprimary hdeadline hretry hreason
                    simp only [not_and, Bool.not_eq_true', Bool.not_eq_false] at hfallback
                    exact ⟨hstage, hcodec, htiming, hprimary, hfallback,
                      fun h => (hdeadline h).1, fun h => (hdeadline h).2, hretry, hreason⟩

/-- A call that throws leaves the session as it was. -/
theorem perform_error {op : Operation} {f : Fault CyrinxQualificationSession}
    (h : perform op c = .error f) : f.state = c := by
  cases op with
  | apply candidate =>
    change apply candidate c = .error f at h
    rcases apply_cases candidate c with hsame | ⟨-, hreplaced⟩ | ⟨message, hthrown⟩
    · rw [hsame] at h
      cases h
    · rw [hreplaced] at h
      cases h
    · rw [hthrown] at h
      cases h
      rfl
  | markQuietStarted =>
    change markQuietStarted c = .error f at h
    unfold markQuietStarted at h
    split at h
    · cases h
      rfl
    · cases h
  | markQuietFailed =>
    change markQuietFailed c = .error f at h
    unfold markQuietFailed at h
    split at h
    · cases h
      rfl
    · cases h

/-- What a call does to the snapshot. -/
theorem step_cases (c : CyrinxQualificationSession) (op : Operation) :
    (step c op).state = c.state ∨
      (∃ candidate, op = .apply candidate ∧ Accepted candidate c ∧
        (step c op).state = candidate) ∨
      (c.state.codec = .quiet ∧
        (step c op).state = { c.state with codec := .unqualified, stage := .unqualified }) := by
  unfold step
  cases hperform : perform op c with
  | error f => exact .inl (by rw [left_error, perform_error hperform])
  | ok t =>
    rw [left_ok]
    cases op with
    | apply candidate =>
      change apply candidate c = .ok t at hperform
      rcases apply_cases candidate c with hsame | ⟨haccepted, hreplaced⟩ | ⟨message, hthrown⟩
      · rw [hsame] at hperform
        cases hperform
        exact .inl rfl
      · rw [hreplaced] at hperform
        cases hperform
        exact .inr (.inl ⟨candidate, rfl, haccepted, rfl⟩)
      · rw [hthrown] at hperform
        cases hperform
    | markQuietStarted =>
      change markQuietStarted c = .ok t at hperform
      unfold markQuietStarted at hperform
      split at hperform
      · cases hperform
      · cases hperform
        exact .inl rfl
    | markQuietFailed =>
      change markQuietFailed c = .ok t at hperform
      unfold markQuietFailed at hperform
      split at hperform
      · cases hperform
      · next hquiet =>
        cases hperform
        exact .inr (.inr ⟨not_not.mp hquiet, rfl⟩)

end Calls

section Order

variable {c : CyrinxQualificationSession} {candidate : CyrinxSessionSnapshot}

/-- Position of a codec. -/
def rank : CyrinxCodec → ℕ
  | .idle => 0
  | .cyrinx => 1
  | .quiet => 2
  | .unqualified => 3

/-- What every snapshot of a session satisfies. -/
structure Sound (state : CyrinxSessionSnapshot) : Prop where
  /-- Nothing is known before the start. -/
  idle : state.codec = .idle →
    state.startedAtMs = none ∧ state.deadlineAtMs = none ∧ state.reasonCode = none
  /-- The times are those of one session. -/
  timing : state.codec ≠ .idle → validTiming state = true
  /-- The primary codec has no reason. -/
  primary : state.codec = .cyrinx → state.reasonCode = none
  /-- A fallback has a reason. -/
  fallback : fallenBack state.codec = true → knownReason state.reasonCode = true

/-- A later snapshot of the same session. -/
structure Forward (before after : CyrinxSessionSnapshot) : Prop where
  /-- The codec is not an earlier one. -/
  codec : rank before.codec ≤ rank after.codec
  /-- The start is kept. -/
  started : before.startedAtMs ≠ none → after.startedAtMs = before.startedAtMs
  /-- The deadline is kept. -/
  deadline : before.deadlineAtMs ≠ none → after.deadlineAtMs = before.deadlineAtMs
  /-- The first reason is kept. -/
  reason : before.reasonCode ≠ none → after.reasonCode = before.reasonCode

/-- A snapshot of the fallback of a session that has ended. -/
structure Reopens (candidate : CyrinxSessionSnapshot) (c : CyrinxQualificationSession) : Prop where
  /-- The session has ended. -/
  ended : c.state.codec = .unqualified
  /-- The snapshot is of the fallback. -/
  codec : candidate.codec = .quiet
  /-- Its stage is one. -/
  stage : knownStage candidate.stage = true
  /-- It has the start of the session. -/
  started : candidate.startedAtMs = c.state.startedAtMs
  /-- It has the deadline of the session. -/
  deadline : candidate.deadlineAtMs = c.state.deadlineAtMs
  /-- Its elapsed time is a natural number. -/
  elapsed : ∃ elapsedMs, candidate.elapsedMs = some elapsedMs ∧ isInteger elapsedMs = true ∧
    0 ≤ elapsedMs
  /-- It has the reason of the session. -/
  reason : candidate.reasonCode = c.state.reasonCode

theorem Forward.refl (state : CyrinxSessionSnapshot) : Forward state state :=
  ⟨le_refl _, fun _ => rfl, fun _ => rfl, fun _ => rfl⟩

theorem Forward.trans {first second third : CyrinxSessionSnapshot} (h : Forward first second)
    (h' : Forward second third) : Forward first third := by
  refine ⟨h.codec.trans h'.codec, fun hfirst => ?_, fun hfirst => ?_, fun hfirst => ?_⟩
  · have hsecond := h.started hfirst
    rw [← hsecond]
    exact h'.started (hsecond ▸ hfirst)
  · have hsecond := h.deadline hfirst
    rw [← hsecond]
    exact h'.deadline (hsecond ▸ hfirst)
  · have hsecond := h.reason hfirst
    rw [← hsecond]
    exact h'.reason (hsecond ▸ hfirst)

/-- The check of the times, spelled out over the three fields. -/
theorem validTiming_iff (state : CyrinxSessionSnapshot) :
    validTiming state = true ↔ ∃ startedAtMs deadlineAtMs elapsedMs,
      state.startedAtMs = some startedAtMs ∧ state.deadlineAtMs = some deadlineAtMs ∧
      state.elapsedMs = some elapsedMs ∧ isInteger startedAtMs = true ∧
      isInteger deadlineAtMs = true ∧ 0 ≤ startedAtMs ∧ deadlineAtMs - startedAtMs = sessionMs ∧
      isInteger elapsedMs = true ∧ 0 ≤ elapsedMs := by
  unfold validTiming
  cases state.startedAtMs with
  | none => simp
  | some startedAtMs =>
    cases state.deadlineAtMs with
    | none => simp
    | some deadlineAtMs =>
      cases state.elapsedMs with
      | none => simp
      | some elapsedMs =>
        simp only [Bool.and_eq_true, decide_eq_true_eq, Option.some.injEq]
        constructor
        · rintro ⟨⟨⟨⟨⟨hstarted, hdeadline⟩, helapsed⟩, hstart⟩, hlength⟩, hpositive⟩
          exact ⟨_, _, _, rfl, rfl, rfl, hstarted, hdeadline, hstart, hlength, helapsed, hpositive⟩
        · rintro ⟨_, _, _, rfl, rfl, rfl, hstarted, hdeadline, hstart, hlength, helapsed, hpositive⟩
          exact ⟨⟨⟨⟨⟨hstarted, hdeadline⟩, helapsed⟩, hstart⟩, hlength⟩, hpositive⟩

/-- A known reason is a reason. -/
theorem knownReason_given {reason : Option CyrinxFailure} (h : knownReason reason = true) :
    givenReason reason = true := by
  cases reason with
  | none => cases h
  | some reason => cases reason <;> simp_all [knownReason, givenReason]

/-- Every accepted snapshot is sound. -/
theorem Accepted.sound (h : Accepted candidate c) : Sound candidate :=
  ⟨fun hidle => absurd hidle h.codec, fun _ => h.timing, h.primary, h.fallback⟩

/-- The state before the first snapshot is sound. -/
theorem sound_idle : Sound (runSession []).state :=
  ⟨fun _ => ⟨rfl, rfl, rfl⟩, fun h => absurd rfl h, fun _ => rfl, fun h => (by cases h)⟩

/-- One operation keeps the displayed snapshot sound. -/
theorem Sound.step (h : Sound c.state) (op : Operation) : Sound (step c op).state := by
  rcases step_cases c op with hsame | ⟨candidate, -, haccepted, hstate⟩ | ⟨hquiet, hstate⟩
  · rw [hsame]
    exact h
  · rw [hstate]
    exact haccepted.sound
  · have hactive : c.state.codec ≠ .idle := by
      rw [hquiet]
      decide
    have hback : fallenBack c.state.codec = true := by
      rw [hquiet]
      rfl
    rw [hstate]
    exact ⟨fun hidle => (by cases hidle), fun _ => h.timing hactive, fun hprimary => (by
      cases hprimary), fun _ => h.fallback hback⟩

/-- A snapshot that is accepted goes on, unless it reopens the session. -/
theorem Accepted.forward (h : Accepted candidate c) (hsound : Sound c.state)
    (hopen : ¬(c.state.codec = .unqualified ∧ candidate.codec = .quiet)) :
    Forward c.state candidate := by
  by_cases hidle : c.state.codec = .idle
  · obtain ⟨hstarted, hdeadline, hreason⟩ := hsound.idle hidle
    refine ⟨?_, fun hset => absurd hstarted hset, fun hset => absurd hdeadline hset,
      fun hset => absurd hreason hset⟩
    rw [hidle]
    exact Nat.zero_le _
  · have hcodec := h.codec
    have hretry := h.retry hidle
    refine ⟨?_, fun _ => h.started hidle, fun _ => h.deadline hidle, fun hset => ?_⟩
    · cases hbefore : c.state.codec <;> cases hafter : candidate.codec <;>
        simp_all [rank, fallenBack]
    · refine h.reason hidle (knownReason_given (hsound.fallback ?_))
      cases hbefore : c.state.codec with
      | idle => exact absurd hbefore hidle
      | cyrinx => exact absurd (hsound.primary hbefore) hset
      | quiet => rfl
      | unqualified => rfl

/-- A snapshot that reopens the session is accepted. -/
theorem Reopens.accepted (h : Reopens candidate c) (hsound : Sound c.state) :
    Accepted candidate c := by
  have hactive : c.state.codec ≠ .idle := by
    rw [h.ended]
    decide
  have hback : fallenBack c.state.codec = true := by
    rw [h.ended]
    rfl
  have hprimary : candidate.codec ≠ .cyrinx := by
    rw [h.codec]
    decide
  obtain ⟨startedAtMs, deadlineAtMs, _, hstarted, hdeadline, -, hstart, hend, hpositive, hlength,
    -, -⟩ := (validTiming_iff c.state).mp (hsound.timing hactive)
  obtain ⟨elapsedMs, helapsed, hwhole, hpassed⟩ := h.elapsed
  have htiming : validTiming candidate = true :=
    (validTiming_iff candidate).mpr ⟨startedAtMs, deadlineAtMs, elapsedMs, h.started.trans hstarted,
      h.deadline.trans hdeadline, helapsed, hstart, hend, hpositive, hlength, hwhole, hpassed⟩
  have hreason : knownReason candidate.reasonCode = true := by
    rw [h.reason]
    exact hsound.fallback hback
  refine ⟨h.stage, ?_, htiming, fun hcyrinx => absurd hcyrinx hprimary, fun _ => hreason,
    fun _ => h.started, fun _ => h.deadline, fun _ _ => hprimary, fun _ _ => h.reason⟩
  rw [h.codec]
  decide

/-- A snapshot of the fallback that is accepted after the end reopens the session. -/
theorem Accepted.reopens (h : Accepted candidate c) (hsound : Sound c.state)
    (hended : c.state.codec = .unqualified) (hquiet : candidate.codec = .quiet) :
    Reopens candidate c := by
  have hactive : c.state.codec ≠ .idle := by
    rw [hended]
    decide
  have hback : fallenBack c.state.codec = true := by
    rw [hended]
    rfl
  obtain ⟨_, _, elapsedMs, -, -, helapsed, -, -, -, -, hwhole, hpassed⟩ :=
    (validTiming_iff candidate).mp h.timing
  exact ⟨hended, hquiet, h.stage, h.started hactive, h.deadline hactive,
    ⟨elapsedMs, helapsed, hwhole, hpassed⟩,
    h.reason hactive (knownReason_given (hsound.fallback hback))⟩

end Order

section Runs

/-- The call applies a snapshot that reopens the session. -/
def ReopenedBy (c : CyrinxQualificationSession) (op : Operation) : Prop :=
  ∃ candidate, op = .apply candidate ∧ Reopens candidate c

/-- One call goes on exactly if it does not reopen the session. -/
theorem forward_step_iff {c : CyrinxQualificationSession} (hsound : Sound c.state)
    (op : Operation) : Forward c.state (step c op).state ↔ ¬ReopenedBy c op := by
  constructor
  · rintro hforward ⟨candidate, rfl, hreopens⟩
    have hstate : (step c (.apply candidate)).state = candidate := by
      change (left (apply candidate c)).state = candidate
      rw [apply_accepted (hreopens.accepted hsound)]
      rfl
    have hcodec := hforward.codec
    rw [hstate, hreopens.ended, hreopens.codec] at hcodec
    exact absurd hcodec (by decide)
  · intro hopen
    rcases step_cases c op with hsame | ⟨candidate, rfl, haccepted, hstate⟩ | ⟨hquiet, hstate⟩
    · rw [hsame]
      exact Forward.refl _
    · rw [hstate]
      refine haccepted.forward hsound (fun hback => ?_)
      exact hopen ⟨candidate, rfl, haccepted.reopens hsound hback.1 hback.2⟩
    · rw [hstate]
      refine ⟨?_, fun _ => rfl, fun _ => rfl, fun _ => rfl⟩
      rw [hquiet]
      change rank .quiet ≤ rank .unqualified
      decide

/-- The displayed snapshot is sound after every list of operations. -/
theorem sound_run (ops : List Operation) : Sound (runSession ops).state :=
  invariant step (I := fun c => Sound c.state) (fun _ op h => h.step op) sound_idle ops

/-- Every later snapshot of the run goes on from every earlier one, and a call that throws leaves
the snapshot as it was. -/
structure NeverBack (ops : List Operation) : Prop where
  /-- Later snapshots go on from earlier ones. -/
  forward : ∀ front middle back, ops = front ++ middle ++ back →
    Forward (runSession front).state (runSession (front ++ middle)).state
  /-- A call that throws changes nothing. -/
  thrown : ∀ front op back, ops = front ++ op :: back → ∀ f,
    perform op (runSession front) = .error f → f.state.state = (runSession front).state

/-- Operations in two parts are run part by part. -/
theorem runSession_append (front back : List Operation) :
    runSession (front ++ back) = run step (runSession front) back := run_append step {} front back

/-- The codec never goes back, and timing and reason are kept, exactly in the runs that apply no
snapshot of the fallback after the end of the session. -/
theorem neverBack_iff (ops : List Operation) :
    NeverBack ops ↔ Along step (fun c op => ¬ReopenedBy c op) {} ops := by
  constructor
  · intro h
    refine (along_iff step).mpr (fun front op back hsplit => ?_)
    have hforward := h.forward front [op] back (by simpa using hsplit)
    rw [runSession_append] at hforward
    exact (forward_step_iff (sound_run front) op).mp hforward
  · intro h
    refine ⟨fun front middle back hsplit => ?_, fun front op back _ f hf => ?_⟩
    · rw [hsplit, along_append, along_append] at h
      obtain ⟨⟨-, hmiddle⟩, -⟩ := h
      rw [runSession_append]
      have hkeep : ∀ c op, ¬ReopenedBy c op →
          Sound c.state ∧ Forward (runSession front).state c.state →
          Sound (step c op).state ∧ Forward (runSession front).state (step c op).state := by
        rintro c op hopen ⟨hsound, hforward⟩
        exact ⟨hsound.step op, hforward.trans ((forward_step_iff hsound op).mpr hopen)⟩
      exact (invariant_along step (I := fun c =>
        Sound c.state ∧ Forward (runSession front).state c.state) hkeep
        ⟨sound_run front, Forward.refl _⟩ hmiddle).2
    · rw [perform_error hf]

/-- A snapshot of the fallback. -/
def benchFallback : CyrinxSessionSnapshot :=
  { codec := .quiet, stage := .quiet, startedAtMs := some 100, deadlineAtMs := some 5400100
    elapsedMs := some 20, reasonCode := some .coldAToBFailed }

/-- The fallback fails and its last snapshot arrives again. -/
theorem not_neverBack :
    ¬NeverBack [.apply benchFallback, .markQuietFailed, .apply benchFallback] := by
  intro h
  have hforward := h.forward [.apply benchFallback, .markQuietFailed] [.apply benchFallback] [] rfl
  have hcodec := hforward.codec
  revert hcodec
  decide +kernel

end Runs

end Fipwave.DisplayedSession
