import Fipwave.LinkSessions

/-!
# Continuations that a reset leaves behind

A reset drops timers but no promise: what was pending stays pending and runs
in whatever session follows. Each continuation has guards of its own. For
every one of them, and for either way its promise settles, the exact
condition under which it then changes nothing is given below; no continuation
of a digest and no rejection of a probe or COMMIT playback ever meets it.
-/

namespace Fipwave.ResetInertness

open ByteWords ThrowingMethod TransitionRun AcousticProtocol SettingsCommitment AcousticHandshake
  AcousticState AcousticMethods AcousticNegotiation AcousticDelivery AcousticSession AcousticLink
  LinkSessions

/-- The second session is the first one, up to the record of pending work. -/
def Inert (s t : AcousticSession) : Prop := { t with tasks := s.tasks } = s

/-- Work that is pending in a session. -/
inductive PendingWork where
  | completion (index : ℕ) (completion : Completion)
  | stage (index : ℕ) (chain : WorkChain) (stage : Stage)

/-- The work was pending when the session was last reset: its continuation was
created in an earlier generation, or its chain was replaced by a reset. -/
def LeftBehind (s : AcousticSession) : PendingWork → Prop
  | .completion index completion =>
    s.tasks.pending[index]? = some completion ∧ completion.generation ≠ s.link.generation
  | .stage index chain stage => s.tasks.orphans[index]? = some chain ∧ chain.running = some stage

variable (options : AcousticSessionOptions)

/-- The promise of the work settles. -/
def settleWork (readings : Readings) (rejected : Bool) (s : AcousticSession) :
    PendingWork → AcousticSession
  | .completion index _ => act options readings (.settle index rejected) s
  | .stage index _ _ => act options readings (.orphanWork index rejected) s

/-- The COMMIT retransmission would be armed. -/
def armsCommit (s : AcousticSession) : Bool :=
  options.role = .b && committed s.state && s.link.sessionId ≠ none &&
    s.commitment.settingsDigest ≠ none && s.timers.commitTimer = none

/-- When a continuation outside the work chain changes nothing. -/
def InertSite (rejected : Bool) (s : AcousticSession) : Site → Prop
  | .handshake _ => True
  | .probe direction ordinal => rejected = false ∧
    s.calibration.probeRetry = some ⟨direction, ordinal, 0⟩ ∧ s.timers.probeTimer = none ∧
    retryApplies options direction ordinal s = false
  | .probeRetry direction ordinal =>
    rejected = false ∧ retryApplies options direction ordinal s = false
  | .commitRetry => rejected = false ∧ armsCommit options s = false
  | .turn _ _ _ => rejected = true → s.state = .error ∨ s.state = .degraded
  | .recovery _ => rejected = false
  | .restart epoch sessionId => epoch ≠ s.link.epoch ∨ sessionId ≠ s.link.sessionId

/-- When an await point of the work chain changes nothing. -/
def InertStage (rejected : Bool) (s : AcousticSession) : Stage → Prop
  | .commitPlayback asynchronous =>
    (rejected && asynchronous) = false ∧ armsCommit options s = false
  | _ => False

/-- When the work changes nothing; only a promise of the modem rejects. -/
def InertWhen (rejected : Bool) (s : AcousticSession) : PendingWork → Prop
  | .completion _ completion =>
    InertSite options (rejected && completion.asynchronous) s completion.site
  | .stage _ _ stage => InertStage options rejected s stage

variable {options} {s t : AcousticSession}

/-- A session that fails is not left alone. -/
theorem not_inert_fail (reason : String)
    (h : t.timers.heartbeatTimerGeneration = s.timers.heartbeatTimerGeneration) :
    ¬Inert s (fail reason t) := by
  intro hinert
  have hcount := congrArg (fun u : AcousticSession => u.timers.heartbeatTimerGeneration) hinert
  change t.timers.heartbeatTimerGeneration + 1 = s.timers.heartbeatTimerGeneration at hcount
  omega

/-- A session whose transmission counter advances is not left alone. -/
theorem not_inert_of_sequence (h : t.sequence = s.sequence + 1) : ¬Inert s t := by
  intro hinert
  have hcount := congrArg AcousticSession.sequence hinert
  change t.sequence = s.sequence at hcount
  omega

/-- A session that is reset is not left alone. -/
theorem not_inert_of_generation (h : s.link.generation < t.link.generation) : ¬Inert s t := by
  intro hinert
  have hcount := congrArg (fun u : AcousticSession => u.link.generation) hinert
  change t.link.generation = s.link.generation at hcount
  omega

/-- A session with other pending work is left alone. -/
theorem inert_tasks (tasks : Tasks) : Inert s { s with tasks } := rfl

/-- Arming the retry of the commit is inert exactly when it arms nothing. -/
theorem armCommitRetry_inert_iff (tasks : Tasks) :
    Inert s (armCommitRetry options { s with tasks }) ↔ armsCommit options s = false := by
  unfold armCommitRetry
  dsimp only
  split
  · next hfails =>
    refine ⟨fun _ => ?_, fun _ => rfl⟩
    simp only [armsCommit, Bool.and_eq_false_iff, decide_eq_false_iff_not, not_not]
    simp only [Bool.not_eq_true'] at hfails
    tauto
  · next hholds =>
    simp only [not_or, not_not, Bool.not_eq_true', Bool.not_eq_false] at hholds
    constructor
    · intro hinert
      have htimer := congrArg (fun u : AcousticSession => u.timers.commitTimer) hinert
      change some _ = s.timers.commitTimer at htimer
      rw [hholds.2.2.2.2] at htimer
      cases htimer
    · intro hfalse
      simp [armsCommit, hholds] at hfalse

/-- Scheduling a retry is inert exactly when the retry does not apply. -/
theorem scheduleRetry_inert_iff (tasks : Tasks) (direction : Direction) (ordinal : ℕ) :
    Inert s (scheduleRetry options direction ordinal { s with tasks }) ↔
      retryApplies options direction ordinal s = false := by
  have hguard : retryApplies options direction ordinal { s with tasks } =
      retryApplies options direction ordinal s := rfl
  unfold scheduleRetry
  rw [hguard]
  split
  · next happlies =>
    refine ⟨?_, fun hfalse => by simp [happlies] at hfalse⟩
    intro hinert
    have hhandles := congrArg (fun u : AcousticSession => u.timers.probeHandles) hinert
    change s.timers.probeHandles + 1 = s.timers.probeHandles at hhandles
    omega
  · next hfails => exact ⟨fun _ => by simpa using hfails, fun _ => rfl⟩

/-- Awaiting a probe that is awaited already does not change whether it applies. -/
theorem retryApplies_awaited {tasks : Tasks} {direction : Direction} {ordinal : ℕ}
    (h : s.calibration.probeRetry = some ⟨direction, ordinal, 0⟩) :
    retryApplies options direction ordinal
      { clearProbeRetry { s with tasks } with
        calibration.probeRetry := some ⟨direction, ordinal, 0⟩ } =
      retryApplies options direction ordinal s := by
  unfold retryApplies
  rw [h]
  rfl

/-- Awaiting the report of a probe changes nothing only if it is awaited already and
no retransmission of it is due any more. -/
theorem armProbeRetry_inert_iff (tasks : Tasks) (direction : Direction) (ordinal : ℕ) :
    Inert s (armProbeRetry options direction ordinal { s with tasks }) ↔
      s.calibration.probeRetry = some ⟨direction, ordinal, 0⟩ ∧ s.timers.probeTimer = none ∧
        retryApplies options direction ordinal s = false := by
  unfold armProbeRetry scheduleRetry
  split
  · next happlies =>
    constructor
    · intro hinert
      have hhandles := congrArg (fun u : AcousticSession => u.timers.probeHandles) hinert
      change s.timers.probeHandles + 1 = s.timers.probeHandles at hhandles
      omega
    · rintro ⟨hretry, -, hfails⟩
      rw [retryApplies_awaited hretry, hfails] at happlies
      cases happlies
  · next hfails =>
    constructor
    · intro hinert
      have hretry := congrArg (fun u : AcousticSession => u.calibration.probeRetry) hinert
      have htimer := congrArg (fun u : AcousticSession => u.timers.probeTimer) hinert
      change some _ = s.calibration.probeRetry at hretry
      change none = s.timers.probeTimer at htimer
      refine ⟨hretry.symm, htimer.symm, ?_⟩
      rw [retryApplies_awaited hretry.symm] at hfails
      simpa using hfails
    · rintro ⟨hretry, htimer, -⟩
      unfold Inert clearProbeRetry
      rw [← hretry, ← htimer]

/-- Beginning a session does not reset it. -/
theorem start_generation (readings : Readings) :
    (left (start options readings s)).link.generation = s.link.generation := by
  unfold start
  split_ifs with hrole hnonce
  · rfl
  · rfl
  · dsimp only
    unfold attempt
    split
    · refine left_bind (P := fun u : AcousticSession => u.link.generation = s.link.generation) ?_ ?_
      · intro f hf
        rw [send_error options hf]
      · intro u hu
        obtain ⟨id, -, -, rfl⟩ := send_ok options hu
        rfl
    · rfl

/-- A restart that is still current resets the session once. -/
theorem restart_generation (options : AcousticSessionOptions) (readings : Readings) {epoch : ℕ}
    {sessionId : Option ℕ} (hepoch : epoch = s.link.epoch) (hsession : sessionId = s.link.sessionId) :
    (left (restart options readings epoch sessionId s)).link.generation =
      s.link.generation + 1 := by
  unfold restart
  rw [if_neg (by simp [hepoch, hsession])]
  split
  · rw [start_generation]
    rfl
  · rfl

/-- Giving the session up and beginning a new one is without effect only when the session
was already given up. -/
theorem restart_inert_iff (readings : Readings) (tasks : Tasks) (epoch : ℕ)
    (sessionId : Option ℕ) :
    Inert s (left (restart options readings epoch sessionId { s with tasks })) ↔
      epoch ≠ s.link.epoch ∨ sessionId ≠ s.link.sessionId := by
  by_cases hgone : epoch ≠ s.link.epoch ∨ sessionId ≠ s.link.sessionId
  · simp only [hgone, iff_true]
    unfold restart
    rw [if_pos hgone]
    exact inert_tasks tasks
  · simp only [hgone, iff_false]
    simp only [not_or, not_not] at hgone
    have hcount := restart_generation options (s := { s with tasks }) readings
      hgone.1 hgone.2
    apply not_inert_of_generation
    rw [hcount]
    exact Nat.lt_succ_self _

/-- Giving a session up is never without effect. -/
theorem not_inert_restartSession (readings : Readings) (tasks : Tasks) :
    ¬Inert s (left (restartSession options readings { s with tasks })) := by
  unfold restartSession
  split
  · next sessionId hrole hsession =>
    refine left_bind (P := fun u => ¬Inert s u) ?_ ?_
    · intro f hf
      apply not_inert_of_sequence
      rw [send_error options hf]
    · intro u hu
      obtain ⟨id, hid, -, rfl⟩ := send_ok options hu
      split
      · exact not_inert_of_sequence rfl
      · apply not_inert_of_generation
        rw [restart_generation]
        · exact Nat.lt_succ_self _
        · rfl
        · exact hsession.symm
  · rw [restart_inert_iff]
    simp

/-- Sending a commit always does something. -/
theorem not_inert_sendCommit (digest : Bytes) : ¬Inert s (sendCommit options digest s).2 := by
  unfold sendCommit
  split
  · next u hu =>
    obtain ⟨id, -, -, rfl⟩ := send_ok options hu
    exact not_inert_of_sequence rfl
  · next f hf =>
    refine not_inert_fail _ ?_
    rw [send_error options hf]

/-- Applying the outbound candidate changes neither counter. -/
theorem applyOutboundCandidate_frame (options : AcousticSessionOptions) (t : AcousticSession) :
    (applyOutboundCandidate options t).sequence = t.sequence ∧
      (applyOutboundCandidate options t).timers = t.timers := by
  unfold applyOutboundCandidate
  split <;> exact ⟨rfl, rfl⟩

/-- Acknowledging a commit always does something. -/
theorem not_inert_acknowledgeCommit (received digest : Bytes) :
    ¬Inert s (acknowledgeCommit options received digest s).2 := by
  unfold acknowledgeCommit
  split
  · exact not_inert_fail _ rfl
  · dsimp only
    have hkept := applyOutboundCandidate_frame options
      { s with commitment.settingsDigest := some digest }
    generalize applyOutboundCandidate options { s with commitment.settingsDigest := some digest } =
      t at hkept
    cases hack : send options .commitAck t.link.sessionId digest
        { t with state := .awaitingHeartbeat, delivery.turnOwner := some .a } with
    | error f =>
      have hf := send_error options hack
      refine not_inert_fail _ ?_
      rw [hf]
      exact congrArg Timers.heartbeatTimerGeneration hkept.2
    | ok u =>
      have hsent : u.sequence = t.sequence + 1 ∧ u.timers = t.timers := by
        obtain ⟨id, -, -, rfl⟩ := send_ok options hack
        exact ⟨rfl, rfl⟩
      rw [ok_bind]
      cases hbeat : send options .heartbeat u.link.sessionId [] u with
      | error f =>
        have hf := send_error options hbeat
        refine not_inert_fail _ ?_
        rw [hf]
        exact congrArg Timers.heartbeatTimerGeneration (hsent.2.trans hkept.2)
      | ok v =>
        have hfinal : v.sequence = u.sequence + 1 := by
          obtain ⟨id, -, -, rfl⟩ := send_ok options hbeat
          rfl
        intro hinert
        have hcount := congrArg AcousticSession.sequence hinert
        change v.sequence = s.sequence at hcount
        have hstart : t.sequence = s.sequence := hkept.1
        omega

/-- A continuation outside the work chain, created in an earlier generation, changes
nothing exactly under its condition. -/
theorem runSite_inert_iff (readings : Readings) (rejected : Bool) {completion : Completion}
    (tasks : Tasks) (hold : completion.generation ≠ s.link.generation) :
    Inert s (left (runSite options readings rejected completion { s with tasks })) ↔
      InertSite options rejected s completion.site := by
  obtain ⟨site, generation, asynchronous⟩ := completion
  cases site with
  | handshake expectedState =>
    have hguard : ¬(generation = s.link.generation ∧ s.state = expectedState) := fun h => hold h.1
    simp only [runSite, if_neg hguard, InertSite, iff_true]
    rfl
  | probe direction ordinal =>
    cases rejected with
    | false => simpa [runSite, InertSite] using armProbeRetry_inert_iff tasks direction ordinal
    | true =>
      simp only [runSite, if_true, left_ok, InertSite, Bool.true_eq_false, false_and, iff_false]
      exact not_inert_fail _ rfl
  | probeRetry direction ordinal =>
    cases rejected with
    | false => simpa [runSite, InertSite] using scheduleRetry_inert_iff tasks direction ordinal
    | true =>
      simp only [runSite, if_true, left_ok, InertSite, Bool.true_eq_false, false_and, iff_false]
      exact not_inert_fail _ rfl
  | commitRetry =>
    cases rejected with
    | false => simpa [runSite, InertSite] using armCommitRetry_inert_iff tasks
    | true =>
      simp only [runSite, if_true, left_ok, InertSite, Bool.true_eq_false, false_and, iff_false]
      exact not_inert_fail _ rfl
  | turn sessionId fragments attempt =>
    cases rejected with
    | false =>
      simp only [runSite, InertSite, Bool.false_eq_true, if_false, left_ok, false_implies, iff_true]
      unfold armAckTimeout
      dsimp only
      split
      · rfl
      · rw [if_pos (.inl (Ne.symm hold))]
        rfl
    | true =>
      simp only [runSite, InertSite, if_true, left_ok, forall_const]
      unfold degrade
      dsimp only
      split
      · next hstate => exact ⟨fun _ => hstate, fun _ => rfl⟩
      · next hstate =>
        refine ⟨fun hinert => ?_, fun h => absurd h hstate⟩
        have hchanged := congrArg AcousticSession.state hinert
        change .degraded = s.state at hchanged
        exact .inr hchanged.symm
  | recovery sessionId =>
    cases rejected with
    | false =>
      simp only [runSite, InertSite, Bool.false_eq_true, if_false, left_ok, iff_true]
      unfold armRecoveryTimeout
      rw [if_pos (.inl hold)]
      rfl
    | true =>
      simp only [runSite, InertSite, if_true, Bool.true_eq_false, iff_false]
      exact not_inert_restartSession readings tasks
  | restart epoch sessionId =>
    simpa [runSite, InertSite] using restart_inert_iff readings tasks epoch sessionId

/-- An await point of a chain that a reset replaced changes nothing exactly under its
condition. -/
theorem resumeJob_inert_iff (rejected : Bool) (stage : Stage) :
    Inert s (resumeJob options rejected stage s).2 ↔ InertStage options rejected s stage := by
  cases stage with
  | commitDigest settings =>
    simp only [InertStage, iff_false]
    unfold resumeJob
    dsimp only
    split
    · split
      · exact not_inert_fail _ rfl
      · exact not_inert_sendCommit _
    · exact not_inert_fail _ rfl
  | commitPlayback asynchronous =>
    unfold resumeJob
    dsimp only
    split
    · next hrejected =>
      simp only [InertStage, hrejected, Bool.true_eq_false, false_and, iff_false]
      exact not_inert_fail _ rfl
    · next hresolved =>
      have hplayed : (rejected && asynchronous) = false := by simpa using hresolved
      simp only [InertStage, hplayed, true_and]
      exact armCommitRetry_inert_iff s.tasks
  | acknowledgeDigest received settings =>
    simp only [InertStage, iff_false]
    unfold resumeJob
    dsimp only
    split
    · split
      · exact not_inert_fail _ rfl
      · exact not_inert_acknowledgeCommit _ _
    · exact not_inert_fail _ rfl

/-- In every reachable state, work that a reset left behind changes nothing when it
settles exactly under its condition. -/
theorem inert_iff (options : AcousticSessionOptions) (events : List (Readings × Event))
    (readings : Readings) (rejected : Bool) (work : PendingWork)
    (h : LeftBehind (runSession options events) work) :
    Inert (runSession options events)
        (settleWork options readings rejected (runSession options events) work) ↔
      InertWhen options rejected (runSession options events) work := by
  generalize runSession options events = s at h ⊢
  cases work with
  | completion index completion =>
    simp only [settleWork, act, settleCompletion, h.1]
    exact runSite_inert_iff readings _ _ h.2
  | stage index chain stage =>
    have hstep : settleWork options readings rejected s (.stage index chain stage) =
        { (resumeJob options rejected stage s).2 with
          tasks.orphans := (resumeJob options rejected stage s).2.tasks.orphans.set index
            { chain with running := (resumeJob options rejected stage s).1 } } := by
      simp only [settleWork, act, stepOrphan, h.1, stepChain, h.2]
    rw [hstep]
    exact resumeJob_inert_iff rejected stage

/-- A is reset while it probes: the playbacks of its HELLO, its CAPS and its first probe
are pending. -/
def benchReset : List (Readings × LinkEvent) :=
  [benchAct .a .start, benchDeliver .b, benchDeliver .a, benchDeliver .b, benchDeliver .a,
    benchAct .a (.reset 0)]

/-- The pending playback of the HELLO. -/
def benchHelloPlayback : PendingWork := .completion 0 ⟨.handshake .helloSent, 0, true⟩

/-- The pending playback of the probe. -/
def benchProbePlayback : PendingWork := .completion 2 ⟨.probe .aToB 0, 0, true⟩

set_option maxRecDepth 8000 in
/-- A playback left behind by the reset below ends without effect. -/
theorem inert_benchHelloPlayback : ∃ events,
    LeftBehind (runSession (benchOptions .a) events) benchHelloPlayback ∧
      Inert (runSession (benchOptions .a) events)
        (settleWork (benchOptions .a) (benchReadings .a) true
          (runSession (benchOptions .a) events) benchHelloPlayback) := by
  obtain ⟨events, hevents⟩ := (linkState_run benchLink benchReset .a).session
  have hleft : LeftBehind (runLink benchLink benchReset).session.a benchHelloPlayback :=
    ⟨by decide +kernel, by decide +kernel⟩
  have hsession : (runLink benchLink benchReset).session.a =
    runSession (benchOptions .a) events := hevents
  rw [hsession] at hleft
  exact ⟨events, hleft, (inert_iff (benchOptions .a) events _ _ _ hleft).mpr trivial⟩

set_option maxRecDepth 8000 in
/-- The rejected playback of a probe left behind by a reset does have one. -/
theorem not_inert_benchProbePlayback : ¬∀ (options : AdmittedOptions)
    (events : List (Readings × Event)) (readings : Readings) (rejected : Bool)
    (work : PendingWork),
    LeftBehind (runSession options.toAcousticSessionOptions events) work →
      Inert (runSession options.toAcousticSessionOptions events)
        (settleWork options.toAcousticSessionOptions readings rejected
          (runSession options.toAcousticSessionOptions events) work) := by
  intro h
  obtain ⟨events, hevents⟩ := (linkState_run benchLink benchReset .a).session
  have hsession : (runLink benchLink benchReset).session.a =
    runSession (benchOptions .a) events := hevents
  have hleft : LeftBehind (runLink benchLink benchReset).session.a benchProbePlayback :=
    ⟨by decide +kernel, by decide +kernel⟩
  rw [hsession] at hleft
  have hinert := h ⟨benchOptions .a, benchOptions_admitted .a⟩ events (benchReadings .a) true
    benchProbePlayback hleft
  rw [← hsession] at hinert
  have hstate := congrArg AcousticSession.state hinert
  revert hstate
  decide +kernel

end Fipwave.ResetInertness
