import Fipwave.SessionOrder

/-!
# The deadline of a qualification run

The elapsed time of a session is the largest one that was ever seen. Once the
deadline has been seen nothing more is completed, whatever the clock says later,
and a report of the session tells its expiry and its fallback apart.
-/

namespace Fipwave.SessionDeadline

open QualificationSession TransitionRun SessionChanges SessionOrder

/-- The recorded times of a session. -/
structure Timed (c : CyrinxQualificationSession) : Prop where
  /-- A session that has not ended has no final time. -/
  open_ : c.fallbackReason = none → c.stage ≠ .complete → c.terminalElapsedMs = none
  /-- A complete one ended before the deadline. -/
  complete : c.fallbackReason = none → c.stage = .complete →
    ∃ value < cyrinxDeadlineMs, c.terminalElapsedMs = some value
  /-- One that fell back ended after the deadline exactly if it was the reason. -/
  ended : ∀ reason, c.fallbackReason = some reason → ∃ value, c.terminalElapsedMs = some value ∧
    (reason = .deadlineExpired ↔ cyrinxDeadlineMs ≤ value)
  /-- Only a session that started falls back. -/
  started : c.fallbackReason ≠ none → c.startedAtMs ≠ none
  /-- The start is exact. -/
  startSafe : ∀ value, c.startedAtMs = some value → value ≤ maxSafeInteger
  /-- So is the largest elapsed time. -/
  lastSafe : ∀ value, c.lastElapsedMs = some value → value ≤ maxSafeInteger
  /-- So is the final time. -/
  finalSafe : ∀ value, c.terminalElapsedMs = some value → value ≤ maxSafeInteger

section Steps

variable {corpus : List CorpusEntry} {c c' : CyrinxQualificationSession}
variable {label : Option Achievement}

theorem cyrinxDeadlineMs_le : cyrinxDeadlineMs ≤ maxSafeInteger := by decide

/-- An elapsed time that is seen is exact. -/
theorem le_of_seen {value : ℕ} (h : Seen c value) (htimed : Timed c) : value ≤ maxSafeInteger := by
  obtain ⟨startedAtMs, nowMs, -, hnow, rfl⟩ := h
  unfold latest
  cases hlast : c.lastElapsedMs with
  | none =>
    rw [Option.getD_none]
    omega
  | some last =>
    have hsafe := htimed.lastSafe last hlast
    rw [Option.getD_some]
    omega

/-- An elapsed time that is seen is not before one seen earlier. -/
theorem ge_of_seen {value last : ℕ} (h : Seen c value) (hlast : c.lastElapsedMs = some last) :
    last ≤ value := by
  obtain ⟨startedAtMs, nowMs, -, -, rfl⟩ := h
  unfold latest
  rw [hlast, Option.getD_some]
  exact le_max_left _ _

/-- A change before the end that only looks at the clock keeps the times. -/
theorem Timed.running (h : Timed c) {value : ℕ} (hseen : Seen c value)
    (hstage : c.stage ≠ .complete) (hstage' : c'.stage ≠ .complete)
    (hreason : c'.fallbackReason = c.fallbackReason) (hstarted : c'.startedAtMs = c.startedAtMs)
    (hlast : c'.lastElapsedMs = some value) (hfinal : c'.terminalElapsedMs = c.terminalElapsedMs) :
    Timed c' := by
  refine ⟨?_, fun _ hcomplete => absurd hcomplete hstage', ?_, ?_, ?_, ?_, ?_⟩
  · rw [hreason, hfinal]
    exact fun hnone _ => h.open_ hnone hstage
  · rw [hreason, hfinal]
    exact h.ended
  · rw [hreason, hstarted]
    exact h.started
  · rw [hstarted]
    exact h.startSafe
  · intro other hother
    rw [hlast] at hother
    rw [← Option.some.inj hother]
    exact le_of_seen hseen h
  · rw [hfinal]
    exact h.finalSafe

/-- Every change keeps the recorded times. A final time is written where a session completes or
falls back, and is the time seen there. -/
theorem Timed.change (h : Timed c) (hsound : Sound c) (hconsistent : Consistent c)
    (hchange : Change corpus c label c') : Timed c' := by
  cases hchange with
  | same => exact h
  | dropped => exact ⟨h.open_, h.complete, h.ended, h.started, h.startSafe, h.lastSafe, h.finalSafe⟩
  | started now hidle hnow =>
    have hreason := hsound.phases.unused (hsound.phases.idle.mpr hidle)
    have hopen : c.stage ≠ .complete := by
      rw [hidle]
      decide
    refine ⟨fun _ _ => h.open_ hreason hopen, ?_, ?_, ?_, ?_, ?_, h.finalSafe⟩
    · intro _ hstage
      cases hstage
    · intro reason hsome
      rw [hreason] at hsome
      cases hsome
    · intro _
      exact Option.some_ne_none _
    · intro value hvalue
      rw [← Option.some.inj hvalue]
      exact hnow
    · intro value hvalue
      rw [← Option.some.inj hvalue]
      exact Nat.zero_le _
  | looked value hseen =>
    refine ⟨h.open_, h.complete, h.ended, h.started, h.startSafe, ?_, h.finalSafe⟩
    intro other hother
    rw [← Option.some.inj hother]
    exact le_of_seen hseen h
  | built value htime hstage =>
    have hopen := (htime.running hsound.phases).2
    have hnext : CyrinxStage.digital ≠ .complete := by decide
    exact h.running htime.seen hopen hnext rfl rfl rfl rfl
  | gated value htime hstage =>
    have hopen := (htime.running hsound.phases).2
    exact h.running htime.seen hopen (stageForCase_late 0).2 rfl rfl rfl rfl
  | instructed value accepted htime =>
    have hopen := (htime.running hsound.phases).2
    exact h.running htime.seen hopen hopen rfl rfl rfl rfl
  | advanced value index reason cold htime hpending hindex hmore =>
    have hopen := (htime.running hsound.phases).2
    exact h.running htime.seen hopen (stageForCase_late (index + 1)).2 rfl rfl rfl rfl
  | finished value index reason cold htime hpending hindex hlast =>
    have hreason := hsound.phases.available htime.cyrinx
    have hsafe := le_of_seen htime.seen h
    refine ⟨fun _ hstage => absurd rfl hstage, fun _ _ => ⟨value, htime.early, rfl⟩, ?_, ?_,
      h.startSafe, ?_, ?_⟩
    · intro other hother
      have hsome : c.fallbackReason = some other := hother
      rw [hreason] at hsome
      cases hsome
    · intro hne
      exact absurd hreason hne
    · intro other hother
      rw [← Option.some.inj hother]
      exact hsafe
    · intro other hother
      rw [← Option.some.inj hother]
      exact hsafe
  | acknowledged hpending =>
    exact ⟨h.open_, h.complete, h.ended, h.started, h.startSafe, h.lastSafe, h.finalSafe⟩
  | fell reason value hseen hcodec hunderWay hreason =>
    have hsafe := le_of_seen hseen h
    have hdeadline := cyrinxDeadlineMs_le
    refine ⟨?_, ?_, ?_, fun _ => hsound.phases.started hcodec, h.startSafe, ?_, ?_⟩
    · intro hnone
      cases hnone
    · intro hnone
      cases hnone
    · intro other hother
      rw [← Option.some.inj hother]
      refine ⟨_, rfl, ?_⟩
      by_cases hexpired : reason = .deadlineExpired
      · rw [if_pos hexpired]
        exact ⟨fun _ => le_max_left _ _, fun _ => hexpired⟩
      · have hearly := hreason hexpired
        rw [if_neg hexpired]
        exact ⟨fun heq => absurd heq hexpired, fun hle => absurd hle (not_le.mpr hearly)⟩
    · intro other hother
      rw [← Option.some.inj hother]
      exact hsafe
    · intro other hother
      rw [← Option.some.inj hother]
      split
      · exact max_le hdeadline hsafe
      · exact hsafe
  | quietFailed hstage hstate =>
    have hreason := hconsistent.reason (hsound.phases.quiet.mpr hstage)
    exact ⟨fun hnone => absurd hnone hreason, fun hnone => absurd hnone hreason, h.ended, h.started,
      h.startSafe, h.lastSafe, h.finalSafe⟩

/-- All that operations keep of a session. -/
structure Lawful (c : CyrinxQualificationSession) : Prop where
  /-- Its phases, its deadline and its clock. -/
  sound : Sound c
  /-- Its stage, its fallback and its reason. -/
  consistent : Consistent c
  /-- Its recorded times. -/
  timed : Timed c

/-- Every change of the session keeps its times lawful. -/
theorem Lawful.change (h : Lawful c) (hchange : Change corpus c label c') : Lawful c' :=
  ⟨h.sound.change hchange, h.consistent.change h.sound hchange,
    h.timed.change h.sound h.consistent hchange⟩

/-- A session before it is started keeps the rules of its times. -/
theorem lawful_idle : Lawful {} := by
  refine ⟨sound_idle, by decide, fun _ _ => rfl, ?_, ?_, ?_, ?_, ?_, ?_⟩
  · intro _ hstage
    cases hstage
  · intro reason hreason
    cases hreason
  · intro hne
    exact absurd rfl hne
  · intro value hvalue
    cases hvalue
  · intro value hvalue
    cases hvalue
  · intro value hvalue
    cases hvalue

/-- The deadline has been seen: only the fall for it is left, or has happened. -/
def Outrun (c : CyrinxQualificationSession) : Prop :=
  (c.codec = .cyrinx ∧ c.stage ≠ .complete ∧
    ∃ last, c.lastElapsedMs = some last ∧ cyrinxDeadlineMs ≤ last) ∨
  ((c.stage = .quiet ∨ c.stage = .unqualified) ∧ c.fallbackReason = some .deadlineExpired)

/-- In a session whose deadline has been seen, no look at the clock is in time. -/
theorem Outrun.late (h : Outrun c) (hsound : Sound c) {value : ℕ} (htime : InTime c value) :
    False := by
  rcases h with ⟨-, -, last, hlast, hlate⟩ | ⟨hstage, -⟩
  · have hle := ge_of_seen htime.seen hlast
    have hearly := htime.early
    omega
  · have hrunning := (htime.running hsound.phases).1
    rcases hstage with hquiet | hnone
    · exact hrunning.2.1 hquiet
    · exact hrunning.2.2 hnone

/-- Nothing gets done any more. -/
theorem Outrun.nothing (h : Outrun c) (hsound : Sound c) (hchange : Change corpus c label c') :
    label = none := by
  cases hchange with
  | same => rfl
  | dropped => rfl
  | started now hidle hnow => rfl
  | looked value hseen => rfl
  | built value htime hstage => exact (h.late hsound htime).elim
  | gated value htime hstage => exact (h.late hsound htime).elim
  | instructed value accepted htime => exact (h.late hsound htime).elim
  | advanced value index reason cold htime hpending hindex hmore =>
    exact (h.late hsound htime).elim
  | finished value index reason cold htime hpending hindex hlast =>
    exact (h.late hsound htime).elim
  | acknowledged hpending => rfl
  | fell reason value hseen hcodec hunderWay hreason => rfl
  | quietFailed hstage hstate => rfl

/-- A deadline that has been seen stays so: the time last looked at never goes back, and a fallback
is not undone. -/
theorem Outrun.change (h : Outrun c) (hsound : Sound c) (hchange : Change corpus c label c') :
    Outrun c' := by
  cases hchange with
  | same => exact h
  | dropped => exact h
  | started now hidle hnow =>
    exfalso
    have hcodec := hsound.phases.idle.mpr hidle
    rcases h with ⟨hcyrinx, -⟩ | ⟨hstage | hstage, -⟩
    · rw [hcodec] at hcyrinx
      cases hcyrinx
    · rw [hidle] at hstage
      cases hstage
    · rw [hidle] at hstage
      cases hstage
  | looked value hseen =>
    rcases h with ⟨hcodec, hstage, last, hlast, hlate⟩ | hfallen
    · exact .inl ⟨hcodec, hstage, value, rfl, hlate.trans (ge_of_seen hseen hlast)⟩
    · exact .inr hfallen
  | built value htime hstage => exact (h.late hsound htime).elim
  | gated value htime hstage => exact (h.late hsound htime).elim
  | instructed value accepted htime => exact (h.late hsound htime).elim
  | advanced value index reason cold htime hpending hindex hmore =>
    exact (h.late hsound htime).elim
  | finished value index reason cold htime hpending hindex hlast =>
    exact (h.late hsound htime).elim
  | acknowledged hpending => exact h
  | fell reason value hseen hcodec hunderWay hreason =>
    right
    refine ⟨.inl rfl, ?_⟩
    rcases h with ⟨-, -, last, hlast, hlate⟩ | ⟨-, hexpired⟩
    · have hle := ge_of_seen hseen hlast
      have hdeadline : reason = .deadlineExpired := by
        by_contra hne
        have hearly := hreason hne
        omega
      exact congrArg some hdeadline
    · rw [hsound.phases.available hcodec] at hexpired
      cases hexpired
  | quietFailed hstage hstate =>
    right
    refine ⟨.inr rfl, ?_⟩
    rcases h with ⟨hcodec, -⟩ | ⟨-, hexpired⟩
    · rw [hsound.phases.quiet.mpr hstage] at hcodec
      cases hcodec
    · exact hexpired

end Steps

section Reading

variable {c : CyrinxQualificationSession} {nowMs startedAtMs : ℕ}

/-- A session under Cyrinx before its end is under way. -/
theorem not_over (hcodec : c.codec = .cyrinx) (hstage : c.stage ≠ .complete) : ¬Over c := by
  rintro (hquiet | hnone | ⟨-, hcomplete, -⟩)
  · rw [hcodec] at hquiet
    cases hquiet
  · rw [hcodec] at hnone
    cases hnone
  · exact hstage hcomplete

/-- Expiry after the deadline falls back for it. -/
theorem expire_late (h : Sound c) (hstarted : c.startedAtMs = some startedAtMs)
    (hcodec : c.codec = .cyrinx) (hstage : c.stage ≠ .complete)
    (hlate : cyrinxDeadlineMs ≤ latest startedAtMs nowMs c) :
    expire nowMs c = (true, fallen .deadlineExpired (latest startedAtMs nowMs c) c) := by
  rw [expire_underWay h nowMs hstarted hcodec (not_over hcodec hstage), if_neg (by omega)]

/-- The check before the deadline leaves what expiry leaves. -/
theorem after_assertBeforeDeadline (nowMs : ℕ) (c : CyrinxQualificationSession) :
    after (assertBeforeDeadline nowMs c) = (expire nowMs c).2 := by
  unfold assertBeforeDeadline
  dsimp only
  split
  · rfl
  · split
    · rfl
    · rfl

/-- After the deadline the check throws, and what follows it is not reached. -/
theorem after_andThen_late {α : Type} (h : Sound c) (hstarted : c.startedAtMs = some startedAtMs)
    (hcodec : c.codec = .cyrinx) (hstage : c.stage ≠ .complete)
    (hlate : cyrinxDeadlineMs ≤ latest startedAtMs nowMs c)
    (next : Unit → CyrinxQualificationSession → SessionOutcome α) :
    after (andThen (assertBeforeDeadline nowMs c) next) =
      fallen .deadlineExpired (latest startedAtMs nowMs c) c := by
  unfold assertBeforeDeadline
  rw [expire_late h hstarted hcodec hstage hlate]
  rfl

/-- The fallback after the deadline is one for it. -/
theorem activateFallback_late (h : Sound c) (hstarted : c.startedAtMs = some startedAtMs)
    (hcodec : c.codec = .cyrinx) (hstage : c.stage ≠ .complete)
    (hlate : cyrinxDeadlineMs ≤ latest startedAtMs nowMs c) (reason : CyrinxFallbackReason) :
    (activateFallback reason nowMs c).2 =
      fallen .deadlineExpired (latest startedAtMs nowMs c) c := by
  rw [activateFallback_eq h reason nowMs hstarted hcodec (not_over hcodec hstage)]
  unfold reasonAt
  rw [if_pos hlate]

/-- So is the failure of a stage. -/
theorem failCurrent_late (h : Sound c) (hstarted : c.startedAtMs = some startedAtMs)
    (hcodec : c.codec = .cyrinx) (hstage : c.stage ≠ .complete)
    (hlate : cyrinxDeadlineMs ≤ latest startedAtMs nowMs c) :
    after (failCurrent nowMs c) = fallen .deadlineExpired (latest startedAtMs nowMs c) c := by
  obtain ⟨c', hfailed, -⟩ := failCurrent_underWay nowMs h.phases hcodec (not_over hcodec hstage)
  unfold failCurrent at hfailed ⊢
  split at hfailed
  · cases hfailed
  · next hopen =>
    rw [if_neg hopen]
    split at hfailed
    · cases hfailed
    · next reason hreason =>
      exact activateFallback_late h hstarted hcodec hstage hlate reason

/-- So is a reset by the operator. -/
theorem operatorReset_late (h : Sound c) (hstarted : c.startedAtMs = some startedAtMs)
    (hcodec : c.codec = .cyrinx) (hstage : c.stage ≠ .complete)
    (hlate : cyrinxDeadlineMs ≤ latest startedAtMs nowMs c) :
    after (operatorReset nowMs c) = fallen .deadlineExpired (latest startedAtMs nowMs c) c := by
  have hidle : c.stage ≠ .idle := by
    intro hidle
    rw [← h.phases.idle, hcodec] at hidle
    cases hidle
  have hunderWay := open_of_underWay h.phases hcodec (not_over hcodec hstage)
  have hfree : ¬(c.codec ≠ .cyrinx ∨ c.stage = .idle ∨
      (terminal c = true ∧ (!revocableComplete c) = true)) := by
    rw [not_or, not_or, not_not]
    exact ⟨hcodec, hidle, hunderWay⟩
  unfold operatorReset
  dsimp only
  rw [if_neg (by exact hfree)]
  exact failCurrent_late h.dropped hstarted hcodec hstage hlate

end Reading

section Runs

variable (corpus : List CorpusEntry) (role : RunnerRole)

/-- The time an operation tests against the deadline, if it gets that far. -/
def consulted (c : CyrinxQualificationSession) : SessionOperation → Option ℕ
  | .completeBuild nowMs => if c.stage = .build then checkedNow nowMs else none
  | .completeDigital nowMs => if c.stage = .digital then checkedNow nowMs else none
  | .acceptInstruction _ _ nowMs => checkedNow nowMs
  | .completeAccepted _ nowMs => checkedNow nowMs
  | .operatorReset nowMs => checkedNow nowMs
  | .expire nowMs => checkedNow nowMs
  | .forceDeadlineExpiry nowMs => checkedNow nowMs
  | .activateFallback _ nowMs => checkedNow nowMs
  | .failCurrent nowMs => checkedNow nowMs
  | .snapshot epoch nowMs => (checkedNow epoch).bind (fun _ => checkedNow nowMs)
  | _ => none

variable {corpus role} {c : CyrinxQualificationSession} {startedAtMs now : ℕ}

/-- A method runs at a time that is not refused. -/
theorem atTime_some {value : ℤ} (hnow : checkedNow value = some now)
    (method : ℕ → CyrinxQualificationSession) : atTime value method c = method now := by
  unfold atTime
  rw [hnow]

/-- An operation that tests a time after the deadline has seen the deadline, one case for each
operation that tests one. -/
theorem outrun_of_consulted (h : Sound c) (htimed : Timed c) {op : SessionOperation}
    (hcodec : c.codec = .cyrinx) (hstage : c.stage ≠ .complete)
    (hstarted : c.startedAtMs = some startedAtMs) (hconsulted : consulted c op = some now)
    (hlate : startedAtMs + cyrinxDeadlineMs ≤ now) : Outrun (perform corpus role c op) := by
  have hseen : cyrinxDeadlineMs ≤ latest startedAtMs now c := by
    unfold latest
    omega
  have hfallen : Outrun (fallen .deadlineExpired (latest startedAtMs now c) c) :=
    .inr ⟨.inl rfl, rfl⟩
  cases op with
  | completeBuild value =>
    have hguarded : (if c.stage = .build then checkedNow value else none) = some now := hconsulted
    obtain ⟨hbuild, hnow⟩ := Option.ite_none_right_eq_some.mp hguarded
    simp only [perform]
    rw [atTime_some hnow]
    unfold completeBuild
    rw [if_neg (not_not.mpr hbuild), after_andThen_late h hstarted hcodec hstage hseen]
    exact hfallen
  | completeDigital value =>
    have hguarded : (if c.stage = .digital then checkedNow value else none) = some now := hconsulted
    obtain ⟨hdigital, hnow⟩ := Option.ite_none_right_eq_some.mp hguarded
    simp only [perform]
    rw [atTime_some hnow]
    unfold completeDigital
    rw [if_neg (not_not.mpr hdigital), after_andThen_late h hstarted hcodec hstage hseen]
    exact hfallen
  | acceptInstruction caseId direction value =>
    simp only [perform]
    rw [atTime_some hconsulted]
    unfold acceptInstruction
    rw [after_andThen_late h hstarted hcodec hstage hseen]
    exact hfallen
  | completeAccepted mode value =>
    simp only [perform]
    rw [atTime_some hconsulted]
    unfold completeAccepted
    rw [after_andThen_late h hstarted hcodec hstage hseen]
    exact hfallen
  | operatorReset value =>
    simp only [perform]
    rw [atTime_some hconsulted, operatorReset_late h hstarted hcodec hstage hseen]
    exact hfallen
  | expire value =>
    simp only [perform]
    rw [atTime_some hconsulted, expire_late h hstarted hcodec hstage hseen]
    exact hfallen
  | forceDeadlineExpiry value =>
    simp only [perform]
    rw [atTime_some hconsulted,
      forceDeadlineExpiry_underWay h now hstarted hcodec (not_over hcodec hstage)]
    exact hfallen
  | activateFallback reason value =>
    simp only [perform]
    rw [atTime_some hconsulted, activateFallback_late h hstarted hcodec hstage hseen]
    exact hfallen
  | failCurrent value =>
    simp only [perform]
    rw [atTime_some hconsulted, failCurrent_late h hstarted hcodec hstage hseen]
    exact hfallen
  | snapshot epoch value =>
    obtain ⟨valid, hepoch, hnow⟩ := Option.bind_eq_some_iff.mp hconsulted
    have hopen := htimed.open_ (h.phases.available hcodec) hstage
    simp only [perform, hepoch]
    rw [atTime_some hnow]
    unfold lookAt
    rw [hstarted, hopen]
    exact .inl ⟨hcodec, hstage, _, rfl, hseen⟩
  | start value => cases hconsulted
  | acknowledgeAcceptedCompletion => cases hconsulted
  | abortCase => cases hconsulted
  | markQuietFailed => cases hconsulted

/-- What follows the check before the deadline is not reached outside Cyrinx. -/
theorem after_andThen_over {α : Type} (hcodec : c.codec ≠ .cyrinx)
    (next : Unit → CyrinxQualificationSession → SessionOutcome α) :
    after (andThen (assertBeforeDeadline now c) next) = c := by
  unfold assertBeforeDeadline
  rw [expire_of_over now (.inl hcodec)]
  dsimp only
  rw [if_neg Bool.false_ne_true, if_pos (.inr hcodec)]
  rfl

/-- A method that keeps the stage, at a time. -/
theorem stage_atTime {value : ℤ} {method : ℕ → CyrinxQualificationSession}
    {refused : CyrinxQualificationSession} (hrefused : refused.stage = c.stage)
    (hmethod : ∀ now, (method now).stage = c.stage) :
    (atTime value method refused).stage = c.stage := by
  unfold atTime
  split
  · exact hmethod _
  · exact hrefused

/-- Under Quiet only its failure changes the stage. Every other operation is guarded by the codec or
by a stage of Cyrinx. -/
theorem stage_perform_quiet (hstage : c.stage = .quiet) (hcodec : c.codec ≠ .cyrinx)
    {op : SessionOperation} (hop : op ≠ .markQuietFailed) :
    (perform corpus role c op).stage = c.stage := by
  have hidle : c.stage ≠ .idle := by
    rw [hstage]
    decide
  cases op with
  | start value =>
    refine stage_atTime rfl (fun now => ?_)
    unfold start
    rw [if_pos hidle]
  | completeBuild value =>
    refine stage_atTime rfl (fun now => ?_)
    have hbuild : c.stage ≠ .build := by
      rw [hstage]
      decide
    unfold completeBuild
    rw [if_pos hbuild]
    rfl
  | completeDigital value =>
    refine stage_atTime rfl (fun now => ?_)
    have hdigital : c.stage ≠ .digital := by
      rw [hstage]
      decide
    unfold completeDigital
    rw [if_pos hdigital]
    rfl
  | acceptInstruction caseId direction value =>
    refine stage_atTime rfl (fun now => ?_)
    unfold acceptInstruction
    rw [after_andThen_over hcodec]
  | completeAccepted mode value =>
    refine stage_atTime rfl (fun now => ?_)
    unfold completeAccepted
    rw [after_andThen_over hcodec]
  | acknowledgeAcceptedCompletion =>
    simp only [perform]
    unfold acknowledgeAcceptedCompletion
    split
    · rfl
    · rfl
  | abortCase => rfl
  | operatorReset value =>
    refine stage_atTime rfl (fun now => ?_)
    unfold operatorReset
    dsimp only
    rw [if_pos (.inl hcodec)]
    rfl
  | expire value =>
    refine stage_atTime rfl (fun now => ?_)
    rw [expire_of_over now (.inl hcodec)]
  | forceDeadlineExpiry value =>
    refine stage_atTime rfl (fun now => ?_)
    rw [forceDeadlineExpiry_of_over now (.inl hcodec)]
  | activateFallback reason value =>
    refine stage_atTime rfl (fun now => ?_)
    rw [activateFallback_of_over reason now (.inl hcodec)]
  | failCurrent value =>
    refine stage_atTime rfl (fun now => ?_)
    unfold failCurrent
    split
    · rfl
    · split
      · rfl
      · next reason _ =>
        rw [activateFallback_of_over reason now (.inl hcodec)]
        rfl
  | markQuietFailed => exact absurd rfl hop
  | snapshot epoch value =>
    simp only [perform]
    split
    · refine stage_atTime rfl (fun now => ?_)
      unfold lookAt
      split
      · rfl
      · rfl
    · rfl

/-- Failure comes only after Quiet. -/
theorem failed_of_change {c' : CyrinxQualificationSession} {label : Option Achievement}
    (hchange : Change corpus c label c') (hfailed : c'.stage = .unqualified) :
    c.stage = .unqualified ∨ c.stage = .quiet := by
  cases hchange with
  | same => exact .inl hfailed
  | dropped => exact .inl hfailed
  | started value hidle hnow => cases hfailed
  | looked value hseen => exact .inl hfailed
  | built value htime hstage => cases hfailed
  | gated value htime hstage => exact absurd hfailed (running_stageForCase 0).2.2
  | instructed value accepted htime => exact .inl hfailed
  | advanced value index reason cold htime hpending hindex hmore =>
    exact absurd hfailed (running_stageForCase (index + 1)).2.2
  | finished value index reason cold htime hpending hindex hlast => cases hfailed
  | acknowledged hpending => exact .inl hfailed
  | fell reason value hseen hcodec hunderWay hreason => cases hfailed
  | quietFailed hstage hstate => exact .inr hstage

/-- A session fails only by the failure of Quiet. -/
theorem stage_run (h : Sound c) (hstage : c.stage ≠ .unqualified)
    (operations : List SessionOperation) (hops : .markQuietFailed ∉ operations) :
    (run (perform corpus role) c operations).stage ≠ .unqualified := by
  induction operations generalizing c with
  | nil => exact hstage
  | cons op operations ih =>
    rw [List.mem_cons, not_or] at hops
    have hchange := perform_change corpus role h op
    refine ih (h.change hchange) ?_ hops.2
    intro hfailed
    rcases failed_of_change hchange hfailed with hbefore | hquiet
    · exact hstage hbefore
    · have hcodec : c.codec ≠ .cyrinx := by
        rw [h.phases.quiet.mpr hquiet]
        decide
      rw [stage_perform_quiet hquiet hcodec (Ne.symm hops.1), hquiet] at hfailed
      cases hfailed

/-- Operations lead to lawful sessions only. -/
theorem lawful_run (operations : List SessionOperation) :
    Lawful (run (perform corpus role) {} operations) :=
  invariant (perform corpus role) (fun _ op h => h.change (perform_change corpus role h.sound op))
    lawful_idle operations

/-- Expiry and the look of a publication at one time keep a session lawful. -/
theorem Lawful.published (h : Lawful c) {nowMs : ℕ} (hnow : nowMs ≤ maxSafeInteger) :
    Lawful (lookAt nowMs (expire nowMs c).2) := by
  have hexpire : Change ([] : List CorpusEntry) c none (expire nowMs c).2 :=
    change_expire h.sound hnow
  have hlook : Change ([] : List CorpusEntry) _ none (lookAt nowMs (expire nowMs c).2) :=
    change_lookAt hnow
  exact (h.change hexpire).change hlook

/-- Operations do not undo that the deadline has been seen. -/
theorem outrun_run (h : Sound c) (houtrun : Outrun c) (operations : List SessionOperation) :
    Outrun (run (perform corpus role) c operations) := by
  have hboth : Sound (run (perform corpus role) c operations) ∧
      Outrun (run (perform corpus role) c operations) := by
    refine invariant (I := fun c => Sound c ∧ Outrun c) (perform corpus role) ?_ ⟨h, houtrun⟩
      operations
    rintro c op ⟨hsound, houtrun⟩
    have hchange := perform_change corpus role hsound op
    exact ⟨hsound.change hchange, houtrun.change hsound hchange⟩
  exact hboth.2

/-- Expiry of a session whose deadline has been seen finds it under Quiet or failed, or falls back
for the deadline. -/
theorem expire_outrun (h : Sound c) (houtrun : Outrun c) (nowMs : ℕ) :
    ((expire nowMs c).2.stage = .quiet ∨
      (c.stage = .unqualified ∧ expire nowMs c = (false, c))) ∧
    (expire nowMs c).2.fallbackReason = some .deadlineExpired := by
  rcases houtrun with ⟨hcodec, hstage, last, hlast, hlate⟩ | ⟨hstage, hreason⟩
  · obtain ⟨startedAtMs, hstarted, -⟩ := h.started hcodec
    have hseen : cyrinxDeadlineMs ≤ latest startedAtMs nowMs c := by
      unfold latest
      rw [hlast, Option.getD_some]
      exact hlate.trans (le_max_left _ _)
    rw [expire_late h hstarted hcodec hstage hseen]
    exact ⟨.inl rfl, rfl⟩
  · have hcodec : c.codec ≠ .cyrinx := by
      rcases hstage with hquiet | hfailed
      · rw [h.phases.quiet.mpr hquiet]
        decide
      · rw [h.phases.unqualified.mpr hfailed]
        decide
    rw [expire_of_over nowMs (.inl hcodec)]
    refine ⟨?_, hreason⟩
    rcases hstage with hquiet | hfailed
    · exact .inl hquiet
    · exact .inr ⟨hfailed, rfl⟩

variable (corpus role)

/-- After an operation that tests a time after the deadline, on a session under Cyrinx that is not
complete, no operation gets anything done, with whatever clock values. Every later expiry, and
every check before the deadline, finds the session under Quiet or takes it there, or finds it
failed after Quiet was marked as failed; and the deadline is the reason of the fallback. -/
theorem deadline_not_outrun (front back : List SessionOperation) (op : SessionOperation)
    (startedAtMs now : ℕ) (hcodec : (run (perform corpus role) {} front).codec = .cyrinx)
    (hstage : (run (perform corpus role) {} front).stage ≠ .complete)
    (hstarted : (run (perform corpus role) {} front).startedAtMs = some startedAtMs)
    (hconsulted : consulted (run (perform corpus role) {} front) op = some now)
    (hlate : startedAtMs + cyrinxDeadlineMs ≤ now) :
    (∀ later, achieved corpus role (run (perform corpus role) {} (front ++ op :: back)) later =
      none) ∧
    ∀ nowMs,
      after (assertBeforeDeadline nowMs (run (perform corpus role) {} (front ++ op :: back))) =
        (expire nowMs (run (perform corpus role) {} (front ++ op :: back))).2 ∧
      ((expire nowMs (run (perform corpus role) {} (front ++ op :: back))).2.stage = .quiet ∨
        (.markQuietFailed ∈ back ∧
          (run (perform corpus role) {} (front ++ op :: back)).stage = .unqualified ∧
          expire nowMs (run (perform corpus role) {} (front ++ op :: back)) =
            (false, run (perform corpus role) {} (front ++ op :: back)))) ∧
      (expire nowMs (run (perform corpus role) {} (front ++ op :: back))).2.fallbackReason =
        some .deadlineExpired := by
  have hlawful : Lawful (run (perform corpus role) {} front) := lawful_run front
  have hsound := hlawful.sound
  have hseen : Outrun (perform corpus role (run (perform corpus role) {} front) op) :=
    outrun_of_consulted hsound hlawful.timed hcodec hstage hstarted hconsulted hlate
  have hsound' := hsound.change (perform_change corpus role hsound op)
  rw [run_append, run_cons]
  have hlast := invariant (perform corpus role)
    (fun c op h => Sound.change h (perform_change corpus role h op)) hsound' back
  have houtrun : Outrun (run (perform corpus role)
      (perform corpus role (run (perform corpus role) {} front) op) back) :=
    outrun_run hsound' hseen back
  refine ⟨fun later => houtrun.nothing hlast (perform_change corpus role hlast later), ?_⟩
  intro nowMs
  obtain ⟨hfound, hreason⟩ := expire_outrun hlast houtrun nowMs
  refine ⟨after_assertBeforeDeadline nowMs _, ?_, hreason⟩
  rcases hfound with hquiet | ⟨hfailed, hsame⟩
  · exact .inl hquiet
  · refine .inr ⟨?_, hfailed, hsame⟩
    by_contra hnone
    have hbefore : (perform corpus role (run (perform corpus role) {} front) op).stage ≠
        .unqualified := by
      intro hfallen
      rcases failed_of_change (perform_change corpus role hsound op) hfallen with
        hfailed | hquiet
      · rw [hsound.phases.unqualified.mpr hfailed] at hcodec
        cases hcodec
      · rw [hsound.phases.quiet.mpr hquiet] at hcodec
        cases hcodec
    exact stage_run hsound' hbefore back hnone hfailed

/-- After the failure of the build at the deadline the clock going back to the start helps
nothing. -/
theorem deadline_not_outrun_bench :
    (∀ later, achieved [] .a (run (perform [] .a) {}
      ([.start 0] ++ .failCurrent 5400000 :: [.expire 0])) later = none) ∧
    (expire 0 (run (perform [] .a) {}
      ([.start 0] ++ .failCurrent 5400000 :: [.expire 0]))).2.fallbackReason =
        some .deadlineExpired := by
  have hcodec : (run (perform [] .a) {} [.start 0]).codec = .cyrinx := by decide +kernel
  have hstage : (run (perform [] .a) {} [.start 0]).stage ≠ .complete := by decide +kernel
  have hstarted : (run (perform [] .a) {} [.start 0]).startedAtMs = some 0 := by decide +kernel
  have hconsulted : consulted (run (perform [] .a) {} [.start 0]) (.failCurrent 5400000) =
      some 5400000 := by decide +kernel
  have hlate : 0 + cyrinxDeadlineMs ≤ 5400000 := by decide +kernel
  obtain ⟨hnothing, hfound⟩ := deadline_not_outrun [] .a [.start 0] [.expire 0]
    (.failCurrent 5400000) 0 5400000 hcodec hstage hstarted hconsulted hlate
  exact ⟨hnothing, (hfound 0).2.2⟩

/-- Expiry finds the session failed, and leaves it so, when Quiet is marked as failed first. -/
theorem not_quiet_after_failure :
    (run (perform [] .a) {} [.start 0]).codec = .cyrinx ∧
    (run (perform [] .a) {} [.start 0]).stage ≠ .complete ∧
    (run (perform [] .a) {} [.start 0]).startedAtMs = some 0 ∧
    consulted (run (perform [] .a) {} [.start 0]) (.failCurrent 5400000) = some 5400000 ∧
    cyrinxDeadlineMs ≤ 5400000 ∧
    (run (perform [] .a) {} [.start 0, .failCurrent 5400000, .markQuietFailed]).stage ≠ .quiet ∧
    (perform [] .a (run (perform [] .a) {}
      [.start 0, .failCurrent 5400000, .markQuietFailed]) (.expire 5400000)).stage ≠ .quiet := by
  decide +kernel

/-- The rules a report is checked against: its times, and what its fallback says about them. -/
structure TimingRules (report : CyrinxSessionSnapshot) : Prop where
  /-- All times are missing, or all are there, exact and a fixed period apart. -/
  stamped : (report.startedAtMs = none ∧ report.deadlineAtMs = none ∧ report.elapsedMs = none) ∨
    ∃ startedAtMs elapsedMs, report.startedAtMs = some startedAtMs ∧
      report.deadlineAtMs = some (startedAtMs + cyrinxDeadlineMs) ∧
      report.elapsedMs = some elapsedMs ∧ startedAtMs + cyrinxDeadlineMs ≤ maxSafeInteger ∧
      elapsedMs ≤ maxSafeInteger
  /-- The fallback is available exactly without a reason. -/
  available : report.fallbackState = .available ↔ report.reasonCode = none
  /-- A fallback that was used has its times. -/
  used : report.fallbackState ≠ .available → report.startedAtMs ≠ none
  /-- The deadline is the reason exactly if it has passed. -/
  expired : report.reasonCode = some .deadlineExpired ↔
    ∃ elapsedMs, report.elapsedMs = some elapsedMs ∧ cyrinxDeadlineMs ≤ elapsedMs

variable {corpus role}

/-- A consistent session has a reason exactly if its fallback was used. -/
theorem available_iff (h : Consistent c) : c.fallbackState = .available ↔ c.fallbackReason = none := by
  rcases h with ⟨-, -, hstate, hreason⟩ | ⟨-, -, hstate, hreason⟩ | ⟨-, -, hstate, hreason⟩ |
    ⟨-, -, hstate, hreason⟩
  · exact ⟨fun _ => hreason, fun _ => hstate⟩
  · exact ⟨fun _ => hreason, fun _ => hstate⟩
  · rw [hstate]
    exact ⟨fun heq => absurd heq (by decide), fun hnone => absurd hnone hreason⟩
  · rw [hstate]
    exact ⟨fun heq => absurd heq (by decide), fun hnone => absurd hnone hreason⟩

/-- Right after expiry a session under Cyrinx that is not complete is before its deadline. -/
theorem lookAt_expire (h : Sound c) (htimed : Timed c) {nowMs : ℕ}
    (hcodec : (expire nowMs c).2.codec = .cyrinx) (hstage : (expire nowMs c).2.stage ≠ .complete) :
    ∃ value < cyrinxDeadlineMs, (lookAt nowMs (expire nowMs c).2).lastElapsedMs = some value := by
  by_cases hover : c.codec ≠ .cyrinx ∨ Over c
  · exfalso
    rw [expire_of_over nowMs hover] at hcodec hstage
    rcases hover with hother | hover
    · exact hother hcodec
    · exact not_over hcodec hstage hover
  · rw [not_or, not_not] at hover
    obtain ⟨startedAtMs, hstarted, -⟩ := h.started hover.1
    rw [expire_underWay h nowMs hstarted hover.1 hover.2] at hcodec hstage ⊢
    by_cases hearly : latest startedAtMs nowMs c < cyrinxDeadlineMs
    · rw [if_pos hearly] at hstage ⊢
      dsimp only at hstage ⊢
      have hopen : (looked (latest startedAtMs nowMs c) c).terminalElapsedMs = none :=
        htimed.open_ (h.phases.available hover.1) hstage
      have hstarted' : (looked (latest startedAtMs nowMs c) c).startedAtMs = some startedAtMs :=
        hstarted
      refine ⟨latest startedAtMs nowMs c, hearly, ?_⟩
      unfold lookAt
      rw [hstarted', hopen]
      unfold elapsed looked
      dsimp only
      rw [Option.getD_some, Option.some.injEq]
      unfold latest
      omega
    · rw [if_neg hearly] at hcodec
      cases hcodec

/-- The reported elapsed time of a session that has started is exact, and after the deadline
exactly if the deadline is the reason. -/
theorem exact_elapsed (h : Sound c) (hconsistent : Consistent c) (htimed : Timed c)
    (hearly : c.codec = .cyrinx → c.stage ≠ .complete →
      ∃ value < cyrinxDeadlineMs, c.lastElapsedMs = some value)
    (hbegun : c.startedAtMs ≠ none) {last : ℕ} (hlast : c.lastElapsedMs = some last) :
    ∃ elapsedMs, c.terminalElapsedMs.or (some last) = some elapsedMs ∧
      elapsedMs ≤ maxSafeInteger ∧
      (c.fallbackReason = some .deadlineExpired ↔ cyrinxDeadlineMs ≤ elapsedMs) := by
  cases hreason : c.fallbackReason with
  | some reason =>
    obtain ⟨value, hvalue, hexpired⟩ := htimed.ended reason hreason
    rw [hvalue, Option.or_some, Option.getD_some, Option.some.injEq]
    exact ⟨value, rfl, htimed.finalSafe value hvalue, hexpired⟩
  | none =>
    have hcyrinx : c.codec = .cyrinx := by
      rcases hconsistent with ⟨hidle, -⟩ | ⟨hcyrinx, -⟩ | ⟨-, -, -, hne⟩ | ⟨-, -, -, hne⟩
      · exact absurd (h.fresh hidle) hbegun
      · exact hcyrinx
      · exact absurd hreason hne
      · exact absurd hreason hne
    have hnone : (none : Option CyrinxFallbackReason) ≠ some .deadlineExpired := by decide
    by_cases hstage : c.stage = .complete
    · obtain ⟨value, hbefore, hvalue⟩ := htimed.complete hreason hstage
      rw [hvalue, Option.or_some, Option.getD_some]
      exact ⟨value, rfl, htimed.finalSafe value hvalue, fun heq => absurd heq hnone,
        fun hle => absurd hbefore (not_lt.mpr hle)⟩
    · obtain ⟨value, hbefore, hvalue⟩ := hearly hcyrinx hstage
      rw [hlast, Option.some.injEq] at hvalue
      subst hvalue
      rw [htimed.open_ hreason hstage, Option.none_or]
      exact ⟨last, rfl, htimed.lastSafe last hlast, fun heq => absurd heq hnone,
        fun hle => absurd hbefore (not_lt.mpr hle)⟩

/-- A snapshot only looks at the clock. -/
theorem looked_lookAt (nowMs : ℕ) (c : CyrinxQualificationSession) : Looked c (lookAt nowMs c) := by
  unfold lookAt
  split
  · exact looked_elapsed _ nowMs c
  · exact .refl c

/-- Expiry keeps the start. -/
theorem startedAtMs_expire (h : Sound c) (nowMs : ℕ) :
    (expire nowMs c).2.startedAtMs = c.startedAtMs := by
  by_cases hover : c.codec ≠ .cyrinx ∨ Over c
  · rw [expire_of_over nowMs hover]
  · rw [not_or, not_not] at hover
    obtain ⟨startedAtMs, hstarted, -⟩ := h.started hover.1
    rw [expire_underWay h nowMs hstarted hover.1 hover.2]
    split
    · rfl
    · rfl

/-- A session that keeps its times, with those of an early one before the deadline, is reported
as the rules ask. -/
theorem timing_of_session (h : Sound c) (hconsistent : Consistent c) (htimed : Timed c)
    (hearly : c.codec = .cyrinx → c.stage ≠ .complete →
      ∃ value < cyrinxDeadlineMs, c.lastElapsedMs = some value)
    (hsafe : ∀ startedAtMs, c.startedAtMs = some startedAtMs →
      startedAtMs + cyrinxDeadlineMs ≤ maxSafeInteger)
    {report : CyrinxSessionSnapshot} (hstartedAtMs : report.startedAtMs = c.startedAtMs)
    (hdeadlineAtMs : report.deadlineAtMs = c.deadlineAtMs)
    (helapsedMs : report.elapsedMs =
      c.startedAtMs.bind (fun _ => c.terminalElapsedMs.or c.lastElapsedMs))
    (hstate : report.fallbackState = c.fallbackState)
    (hreasonCode : report.reasonCode = c.fallbackReason) : TimingRules report := by
  have havailable := available_iff hconsistent
  have hused : c.fallbackState ≠ .available → c.startedAtMs ≠ none :=
    fun hne => htimed.started (fun hnone => hne (havailable.mpr hnone))
  rw [← hstate, ← hreasonCode] at havailable
  rw [← hstate, ← hstartedAtMs] at hused
  have hdeadline := h.deadline
  cases hstarted : c.startedAtMs with
  | none =>
    have hreason : c.fallbackReason = none := by
      by_contra hne
      exact htimed.started hne hstarted
    rw [hstarted, Option.map_none] at hdeadline
    rw [hstarted, Option.bind_none] at helapsedMs
    refine ⟨.inl ⟨hstartedAtMs.trans hstarted, hdeadlineAtMs.trans hdeadline, helapsedMs⟩,
      havailable, hused, ?_⟩
    rw [hreasonCode, hreason, helapsedMs]
    constructor
    · intro heq
      cases heq
    · rintro ⟨elapsedMs, heq, -⟩
      cases heq
  | some startedAtMs =>
    have hbegun : c.startedAtMs ≠ none := by
      rw [hstarted]
      exact Option.some_ne_none _
    obtain ⟨last, hlast⟩ := Option.ne_none_iff_exists'.mp (h.clock hbegun)
    rw [hstarted, Option.map_some] at hdeadline
    rw [hstarted, Option.bind_some, hlast] at helapsedMs
    obtain ⟨elapsedMs, helapsed, hexact, hexpired⟩ :=
      exact_elapsed h hconsistent htimed hearly hbegun hlast
    rw [helapsed] at helapsedMs
    refine ⟨.inr ⟨startedAtMs, elapsedMs, hstartedAtMs.trans hstarted,
      hdeadlineAtMs.trans hdeadline, helapsedMs, hsafe startedAtMs hstarted, hexact⟩,
      havailable, hused, ?_⟩
    rw [hreasonCode, hexpired, helapsedMs]
    constructor
    · exact fun hle => ⟨elapsedMs, rfl, hle⟩
    · rintro ⟨value, hvalue, hle⟩
      rw [Option.some.inj hvalue]
      exact hle

variable (corpus role)

/-- Whatever operations were called on a session, with whatever clock values that let its deadline
be an exact number, right after expiry it is reported as the rules ask. -/
theorem snapshot_timing (operations : List SessionOperation) (epoch nowMs : ℕ)
    (hnow : nowMs ≤ maxSafeInteger)
    (hsafe : ∀ startedAtMs, (run (perform corpus role) {} operations).startedAtMs =
      some startedAtMs → startedAtMs + cyrinxDeadlineMs ≤ maxSafeInteger) :
    TimingRules (snapshot corpus role epoch nowMs
      (expire nowMs (run (perform corpus role) {} operations)).2).1 := by
  have hlawful : Lawful (run (perform corpus role) {} operations) := lawful_run operations
  have hpublished := hlawful.published hnow
  have hlooked := looked_lookAt nowMs (expire nowMs (run (perform corpus role) {} operations)).2
  refine timing_of_session hpublished.sound hpublished.consistent hpublished.timed ?_ ?_ rfl rfl rfl
    rfl rfl
  · intro hcodec hstage
    rw [hlooked.codec] at hcodec
    rw [hlooked] at hstage
    exact lookAt_expire hlawful.sound hlawful.timed hcodec hstage
  · intro startedAtMs hstarted
    rw [hlooked.startedAtMs, startedAtMs_expire hlawful.sound] at hstarted
    exact hsafe startedAtMs hstarted

/-- A session that has started, reported at its deadline. -/
theorem snapshot_timing_bench :
    TimingRules (snapshot [] .a 7 5400000
      (expire 5400000 (run (perform [] .a) {} [.start 0])).2).1 :=
  snapshot_timing [] .a [.start 0] 7 5400000 (by decide +kernel) (by
    intro startedAtMs hstarted
    have hzero : (run (perform [] .a) {} [.start 0]).startedAtMs = some 0 := by decide +kernel
    rw [hzero, Option.some.injEq] at hstarted
    subst hstarted
    decide +kernel)

end Runs

end Fipwave.SessionDeadline
