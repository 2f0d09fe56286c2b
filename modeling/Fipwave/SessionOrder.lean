import Fipwave.SessionChanges

/-!
# The order of a qualification run

Whatever is called on a session, with whatever clock values, its cases are
completed in their order and each at most once, its codec, stage and fallback
fit together, and what has come to an end stays so.
-/

namespace Fipwave.SessionOrder

open QualificationSession TransitionRun SessionChanges

/-- The codec, the stage and the fallback form one of the allowed combinations. -/
def Consistent (c : CyrinxQualificationSession) : Prop :=
  (c.codec = .idle ∧ c.stage = .idle ∧ c.fallbackState = .available ∧ c.fallbackReason = none) ∨
  (c.codec = .cyrinx ∧ Running c.stage ∧ c.fallbackState = .available ∧
    c.fallbackReason = none) ∨
  (c.codec = .quiet ∧ c.stage = .quiet ∧ c.fallbackState = .activated ∧
    c.fallbackReason ≠ none) ∨
  (c.codec = .unqualified ∧ c.stage = .unqualified ∧ c.fallbackState = .failed ∧
    c.fallbackReason ≠ none)

instance (c : CyrinxQualificationSession) : Decidable (Consistent c) :=
  inferInstanceAs (Decidable (_ ∨ _))

section Steps

variable {corpus : List CorpusEntry} {c c' : CyrinxQualificationSession}
variable {label : Option Achievement}

/-- A consistent session under Cyrinx has its fallback available. -/
theorem Consistent.available (h : Consistent c) (hcodec : c.codec = .cyrinx) :
    c.fallbackState = .available ∧ c.fallbackReason = none := by
  unfold Consistent at h
  simp only [hcodec, reduceCtorEq, false_and, true_and, false_or, or_false] at h
  exact h.2

/-- So has an idle one. -/
theorem Consistent.idle (h : Consistent c) (hcodec : c.codec = .idle) :
    c.fallbackState = .available := by
  unfold Consistent at h
  simp only [hcodec, reduceCtorEq, false_and, true_and, or_false] at h
  exact h.2.1

/-- A consistent session under Quiet has a reason for it. -/
theorem Consistent.reason (h : Consistent c) (hcodec : c.codec = .quiet) :
    c.fallbackReason ≠ none := by
  unfold Consistent at h
  simp only [hcodec, reduceCtorEq, false_and, true_and, false_or, or_false] at h
  exact h.2.2

/-- A session that stays under Cyrinx stays consistent. -/
theorem Consistent.cyrinx (h : Consistent c) (hcodec : c.codec = .cyrinx)
    (hcodec' : c'.codec = .cyrinx) (hstage : Running c'.stage)
    (hstate : c'.fallbackState = c.fallbackState) (hreason : c'.fallbackReason = c.fallbackReason) :
    Consistent c' := by
  obtain ⟨havailable, hnone⟩ := h.available hcodec
  right
  left
  rw [hstate, hreason]
  exact ⟨hcodec', hstage, havailable, hnone⟩

/-- Every change keeps a session consistent. -/
theorem Consistent.change (h : Consistent c) (hsound : Sound c) (hchange : Change corpus c label c') :
    Consistent c' := by
  cases hchange with
  | same => exact h
  | dropped => exact h
  | started now hidle hnow =>
    have hcodec := hsound.phases.idle.mpr hidle
    have hstage : Running .build := by decide
    exact .inr (.inl ⟨rfl, hstage, h.idle hcodec, hsound.phases.unused hcodec⟩)
  | looked value hseen => exact h
  | built value htime hstage =>
    have hnext : Running .digital := by decide
    exact h.cyrinx htime.cyrinx htime.cyrinx hnext rfl rfl
  | gated value htime hstage =>
    have hnext := running_stageForCase 0
    exact h.cyrinx htime.cyrinx htime.cyrinx hnext rfl rfl
  | instructed value accepted htime => exact h
  | advanced value index reason cold htime hpending hindex hmore =>
    have hnext := running_stageForCase (index + 1)
    exact h.cyrinx htime.cyrinx htime.cyrinx hnext rfl rfl
  | finished value index reason cold htime hpending hindex hlast =>
    have hnext : Running .complete := by decide
    exact h.cyrinx htime.cyrinx htime.cyrinx hnext rfl rfl
  | acknowledged hpending => exact h
  | fell reason value hseen hcodec hunderWay hreason =>
    exact .inr (.inr (.inl ⟨rfl, rfl, rfl, Option.some_ne_none _⟩))
  | quietFailed hstage hstate =>
    have hcodec := hsound.phases.quiet.mpr hstage
    exact .inr (.inr (.inr ⟨rfl, rfl, rfl, h.reason hcodec⟩))

/-- What has come to an end stays so, and what was set stays set. -/
structure Final (c c' : CyrinxQualificationSession) : Prop where
  /-- An acknowledged completion stays. -/
  complete : c.stage = .complete → c.pendingCompletionReason = none →
    c'.stage = .complete ∧ c'.pendingCompletionReason = none
  /-- Quiet stays, or fails. -/
  quiet : c.stage = .quiet → c'.stage = .quiet ∨ c'.stage = .unqualified
  /-- Failure stays. -/
  unqualified : c.stage = .unqualified → c'.stage = .unqualified
  /-- So does the start. -/
  startedAtMs : ∀ value, c.startedAtMs = some value → c'.startedAtMs = some value
  /-- So does the deadline. -/
  deadlineAtMs : ∀ value, c.deadlineAtMs = some value → c'.deadlineAtMs = some value
  /-- So does the reason of the fallback. -/
  fallbackReason : ∀ reason, c.fallbackReason = some reason → c'.fallbackReason = some reason

theorem Final.refl (c : CyrinxQualificationSession) : Final c c :=
  ⟨fun hstage hpending => ⟨hstage, hpending⟩, .inl, id, fun _ h => h, fun _ h => h, fun _ h => h⟩

theorem Final.trans {c'' : CyrinxQualificationSession} (h : Final c c') (h' : Final c' c'') :
    Final c c'' := by
  refine ⟨?_, ?_, fun hstage => h'.unqualified (h.unqualified hstage),
    fun value hvalue => h'.startedAtMs value (h.startedAtMs value hvalue),
    fun value hvalue => h'.deadlineAtMs value (h.deadlineAtMs value hvalue),
    fun reason hreason => h'.fallbackReason reason (h.fallbackReason reason hreason)⟩
  · intro hstage hpending
    obtain ⟨hstage', hpending'⟩ := h.complete hstage hpending
    exact h'.complete hstage' hpending'
  · intro hstage
    rcases h.quiet hstage with hquiet | hnone
    · exact h'.quiet hquiet
    · exact .inr (h'.unqualified hnone)

/-- A change before the end that keeps what was set. -/
theorem final_of_running (hstage : Running c.stage) (hopen : c.stage ≠ .complete)
    (hstarted : c'.startedAtMs = c.startedAtMs) (hdeadline : c'.deadlineAtMs = c.deadlineAtMs)
    (hreason : c'.fallbackReason = c.fallbackReason) : Final c c' := by
  refine ⟨fun hcomplete => absurd hcomplete hopen, fun hquiet => absurd hquiet hstage.2.1,
    fun hnone => absurd hnone hstage.2.2, ?_, ?_, ?_⟩
  · rw [hstarted]
    exact fun _ h => h
  · rw [hdeadline]
    exact fun _ h => h
  · rw [hreason]
    exact fun _ h => h

/-- No change undoes an end or what was set, one case for each kind of change. -/
theorem final_of_change (hsound : Sound c) (hchange : Change corpus c label c') : Final c c' := by
  cases hchange with
  | same => exact .refl c
  | dropped =>
    exact ⟨fun hstage hpending => ⟨hstage, hpending⟩, .inl, id, fun _ h => h, fun _ h => h,
      fun _ h => h⟩
  | started now hidle hnow =>
    have hcodec := hsound.phases.idle.mpr hidle
    have hstarted := hsound.fresh hcodec
    have hdeadline := hsound.deadline
    have hreason := hsound.phases.unused hcodec
    rw [hstarted, Option.map_none] at hdeadline
    constructor
    · intro hstage
      rw [hidle] at hstage
      cases hstage
    · intro hstage
      rw [hidle] at hstage
      cases hstage
    · intro hstage
      rw [hidle] at hstage
      cases hstage
    · intro value hvalue
      rw [hstarted] at hvalue
      cases hvalue
    · intro value hvalue
      rw [hdeadline] at hvalue
      cases hvalue
    · intro reason hvalue
      rw [hreason] at hvalue
      cases hvalue
  | looked value hseen =>
    exact ⟨fun hstage hpending => ⟨hstage, hpending⟩, .inl, id, fun _ h => h, fun _ h => h,
      fun _ h => h⟩
  | built value htime hstage =>
    obtain ⟨hrunning, hopen⟩ := htime.running hsound.phases
    exact final_of_running hrunning hopen rfl rfl rfl
  | gated value htime hstage =>
    obtain ⟨hrunning, hopen⟩ := htime.running hsound.phases
    exact final_of_running hrunning hopen rfl rfl rfl
  | instructed value accepted htime =>
    obtain ⟨hrunning, hopen⟩ := htime.running hsound.phases
    exact final_of_running hrunning hopen rfl rfl rfl
  | advanced value index reason cold htime hpending hindex hmore =>
    obtain ⟨hrunning, hopen⟩ := htime.running hsound.phases
    exact final_of_running hrunning hopen rfl rfl rfl
  | finished value index reason cold htime hpending hindex hlast =>
    obtain ⟨hrunning, hopen⟩ := htime.running hsound.phases
    exact final_of_running hrunning hopen rfl rfl rfl
  | acknowledged hpending =>
    exact ⟨fun hstage hnone => absurd hnone hpending, .inl, id, fun _ h => h, fun _ h => h,
      fun _ h => h⟩
  | fell reason value hseen hcodec hunderWay hreason =>
    have hnone := hsound.phases.available hcodec
    refine ⟨fun hstage hpending => absurd (.inr (.inr ⟨hcodec, hstage, hpending⟩)) hunderWay,
      fun _ => .inl rfl, ?_, fun _ h => h, fun _ h => h, ?_⟩
    · intro hstage
      rw [← hsound.phases.unqualified, hcodec] at hstage
      cases hstage
    · intro other hother
      rw [hnone] at hother
      cases hother
  | quietFailed hstage hstate =>
    refine ⟨?_, fun _ => .inr rfl, fun _ => rfl, fun _ h => h, fun _ h => h, fun _ h => h⟩
    intro hcomplete
    rw [hstage] at hcomplete
    cases hcomplete

/-- The cases that were completed are the leading ones, in their order. -/
structure InOrder (corpus : List CorpusEntry) (completed : List ℕ)
    (c : CyrinxQualificationSession) : Prop where
  /-- They are the leading cases. -/
  leading : ∃ count ≤ (orderedCases corpus).length, completed = List.range count
  /-- They are the cases before the current one. -/
  current : ∀ index, c.caseIndex = some index → completed = List.range index
  /-- There are none before the digital gate is passed. -/
  early : c.stage = .idle ∨ c.stage = .build ∨ c.stage = .digital → completed = []
  /-- There are all of them when the session is complete. -/
  complete : c.stage = .complete → completed = List.range (orderedCases corpus).length

/-- The case that is completed. -/
def completedCase : Option Achievement → List ℕ
  | some (.case index) => [index]
  | _ => []

/-- A stage of a case comes after the digital gate. -/
theorem stageForCase_late (index : ℕ) : ¬(stageForCase index = .idle ∨
    stageForCase index = .build ∨ stageForCase index = .digital) ∧
    stageForCase index ≠ .complete := by
  rcases stageForCase_cases index with hstage | hstage | hstage <;> rw [hstage] <;> decide

/-- Every change completes the next case, or none. The index of the session is the number of cases
completed. -/
theorem InOrder.change {completed : List ℕ} (h : InOrder corpus completed c)
    (hchange : Change corpus c label c') :
    InOrder corpus (completed ++ completedCase label) c' := by
  have hnone : completed ++ [] = completed := List.append_nil completed
  cases hchange with
  | same =>
    unfold completedCase
    rw [hnone]
    exact h
  | dropped =>
    unfold completedCase
    rw [hnone]
    exact ⟨h.leading, h.current, h.early, h.complete⟩
  | started now hidle hnow =>
    unfold completedCase
    rw [hnone]
    refine ⟨h.leading, h.current, fun _ => h.early (.inl hidle), ?_⟩
    intro hstage
    cases hstage
  | looked value hseen =>
    unfold completedCase
    rw [hnone]
    exact ⟨h.leading, h.current, h.early, h.complete⟩
  | built value htime hstage =>
    unfold completedCase
    rw [hnone]
    refine ⟨h.leading, h.current, fun _ => h.early (.inr (.inl hstage)), ?_⟩
    intro hcomplete
    cases hcomplete
  | gated value htime hstage =>
    have hempty := h.early (.inr (.inr hstage))
    unfold completedCase
    rw [hnone, hempty]
    refine ⟨⟨0, Nat.zero_le _, rfl⟩, ?_, fun _ => rfl, ?_⟩
    · intro index hindex
      cases hindex
      rfl
    · intro hcomplete
      exact absurd hcomplete (stageForCase_late 0).2
  | instructed value accepted htime =>
    unfold completedCase
    rw [hnone]
    exact ⟨h.leading, h.current, h.early, h.complete⟩
  | advanced value index reason cold htime hpending hindex hmore =>
    have hbefore := h.current index hindex
    have hnext : completed ++ completedCase (some (.case index)) = List.range (index + 1) := by
      unfold completedCase
      rw [hbefore, List.range_succ]
    rw [hnext]
    refine ⟨⟨index + 1, hmore.le, rfl⟩, ?_, ?_, ?_⟩
    · intro other hother
      cases hother
      rfl
    · intro hstage
      exact absurd hstage (stageForCase_late (index + 1)).1
    · intro hstage
      exact absurd hstage (stageForCase_late (index + 1)).2
  | finished value index reason cold htime hpending hindex hlast =>
    have hbefore := h.current index hindex
    have hnext : completed ++ completedCase (some (.case index)) =
        List.range (orderedCases corpus).length := by
      unfold completedCase
      rw [hbefore, ← hlast, List.range_succ]
    rw [hnext]
    refine ⟨⟨_, le_refl _, rfl⟩, ?_, ?_, fun _ => rfl⟩
    · intro other hother
      cases hother
    · intro hstage
      rcases hstage with hstage | hstage | hstage <;> cases hstage
  | acknowledged hpending =>
    unfold completedCase
    rw [hnone]
    exact ⟨h.leading, h.current, h.early, h.complete⟩
  | fell reason value hseen hcodec hunderWay hreason =>
    unfold completedCase
    rw [hnone]
    refine ⟨h.leading, h.current, ?_, ?_⟩
    · intro hstage
      rcases hstage with hstage | hstage | hstage <;> cases hstage
    · intro hstage
      cases hstage
  | quietFailed hstage hstate =>
    unfold completedCase
    rw [hnone]
    refine ⟨h.leading, h.current, ?_, ?_⟩
    · intro hother
      rcases hother with hother | hother | hother <;> cases hother
    · intro hother
      cases hother

end Steps

section Runs

variable (corpus : List CorpusEntry) (role : RunnerRole)

/-- A session and the indices of the cases completed on it. -/
structure LoggedSession where
  /-- The session. -/
  session : CyrinxQualificationSession
  /-- Completed cases. -/
  completed : List ℕ

/-- Perform an operation and log the case it completes. -/
def performLogged (s : LoggedSession) (op : SessionOperation) : LoggedSession :=
  ⟨perform corpus role s.session op,
    s.completed ++ completedCase (achieved corpus role s.session op)⟩

/-- The log does not change what is performed. -/
theorem session_run (s : LoggedSession) (operations : List SessionOperation) :
    (run (performLogged corpus role) s operations).session =
      run (perform corpus role) s.session operations := by
  induction operations generalizing s with
  | nil => rfl
  | cons op operations ih => exact ih (performLogged corpus role s op)

/-- What holds of a logged session at any time. -/
structure Ordered (s : LoggedSession) : Prop where
  /-- The session is sound. -/
  sound : Sound s.session
  /-- It is consistent. -/
  consistent : Consistent s.session
  /-- Its cases are completed in order. -/
  inOrder : InOrder corpus s.completed s.session

/-- The operations of every run are logged in order. -/
theorem ordered_run (operations : List SessionOperation) :
    Ordered corpus (run (performLogged corpus role) ⟨{}, []⟩ operations) := by
  refine invariant (performLogged corpus role) ?_ ?_ operations
  · intro s op h
    have hchange := perform_change corpus role h.sound op
    exact ⟨h.sound.change hchange, h.consistent.change h.sound hchange,
      h.inOrder.change hchange⟩
  · refine ⟨sound_idle, by decide, ⟨⟨0, Nat.zero_le _, rfl⟩, ?_, fun _ => rfl, ?_⟩⟩
    · intro index hindex
      cases hindex
    · intro hstage
      cases hstage

/-- Operations undo neither an end nor what was set. -/
theorem final_run {c : CyrinxQualificationSession} (h : Sound c)
    (operations : List SessionOperation) :
    Final c (run (perform corpus role) c operations) := by
  have hboth : Sound (run (perform corpus role) c operations) ∧
      Final c (run (perform corpus role) c operations) := by
    refine invariant (I := fun c' => Sound c' ∧ Final c c') (perform corpus role) ?_
      ⟨h, .refl c⟩ operations
    rintro c' op ⟨hsound, hfinal⟩
    have hchange := perform_change corpus role hsound op
    exact ⟨hsound.change hchange, hfinal.trans (final_of_change hsound hchange)⟩
  exact hboth.2

/-- Whatever operations are called on a session, with whatever clock values and whether they
return or throw: the cases are completed in their order, each at most once, and all of them before
the session is complete; the codec, the stage and the fallback form one of the allowed
combinations; an acknowledged completion and a failure are not left, and Quiet only for failure;
and the start, the deadline and the reason of the fallback do not change once they are set. -/
theorem qualification_order (front back : List SessionOperation) :
    (∃ count ≤ (orderedCases corpus).length,
      (run (performLogged corpus role) ⟨{}, []⟩ front).completed = List.range count) ∧
    ((run (performLogged corpus role) ⟨{}, []⟩ front).session.stage = .complete →
      (run (performLogged corpus role) ⟨{}, []⟩ front).completed =
        List.range (orderedCases corpus).length) ∧
    Consistent (run (performLogged corpus role) ⟨{}, []⟩ front).session ∧
    Final (run (performLogged corpus role) ⟨{}, []⟩ front).session
      (run (performLogged corpus role) ⟨{}, []⟩ (front ++ back)).session := by
  have hordered := ordered_run corpus role front
  refine ⟨hordered.inOrder.leading, hordered.inOrder.complete, hordered.consistent, ?_⟩
  rw [run_append, session_run _ _ _ back]
  exact final_run corpus role hordered.sound back

end Runs

end Fipwave.SessionOrder
