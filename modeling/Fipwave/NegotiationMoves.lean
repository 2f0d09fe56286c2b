import Fipwave.DeliveryMachine

/-!
# Handshake, calibration and commit as delivery moves

One lemma for each method: the core the method leaves, on either exit, is
reached by moves of the delivery machine from wherever the core it met was
reached. Negotiation moves the state on and sends units that say nothing
about turns; only its commit hands the token out.
-/

namespace Fipwave.NegotiationMoves

open ByteWords ScriptIntegers ThrowingMethod Relation AcousticProtocol SettingsCommitment
  PacketFragments AcousticHandshake AcousticState AcousticMethods AcousticNegotiation
  AcousticDelivery AcousticSession DeliveryMachine

variable {options : AcousticSessionOptions} {x : Context} {c : Core} {s : AcousticSession}

/-- Moves of the two parts of a method, through either exit. -/
theorem moves_bind {m : Outcome} {g : AcousticSession → Outcome}
    (hfirst : Moves x c (core (left m)))
    (hsecond : ∀ t, m = .ok t → Moves x c (core t) → Moves x c (core (left (g t)))) :
    Moves x c (core (left (m >>= g))) := by
  refine left_bind (P := fun t => Moves x c (core t)) ?_ ?_
  · intro f hf
    simpa [hf] using hfirst
  · intro t ht
    exact hsecond t ht (by simpa [ht] using hfirst)

/-- A pure step either throws in place or hands its value on. -/
theorem attempt_bind {α : Type} {result : Except String α} {g : α → Outcome}
    (hs : Moves x c (core s))
    (hreturn : ∀ value, result = .ok value → Moves x c (core (left (g value)))) :
    Moves x c (core (left (attempt result s >>= g))) := by
  cases h : result with
  | error message => simpa [attempt, throwIn, h] using hs
  | ok value => simpa [attempt, h] using hreturn value h

/-- The state moves on without a unit being sent. -/
theorem setState_moves (hs : Moves x c (core s)) {t : AcousticSession}
    (hcore : core t = { core s with state := t.state })
    (h : t.state = .error ∨ Early s.state ∧ Early t.state) : Moves x c (core t) := by
  have hmove := Move.negotiate (x := x) (core s) [] t.state (by simp) (by simp) (.inr h)
  rw [List.append_nil] at hmove
  rw [hcore]
  exact hs.tail hmove

/-- Sending a unit that says nothing about turns. -/
theorem send_moves (hs : Moves x c (core s)) {type : Fas1UnitType} {sessionId : Option ℕ}
    {body : Bytes} (h : Negotiating x.role type) :
    Moves x c (core (left (send options type sessionId body s))) := by
  cases ht : send options type sessionId body s with
  | error f =>
    rw [left_error, send_error options ht]
    exact hs
  | ok t =>
    obtain ⟨id, -, hwf, rfl⟩ := send_ok options ht
    refine hs.tail (Move.negotiate (core s) [_] s.state ?_ ?_ (.inl rfl))
    · intro unit hunit
      rw [List.mem_singleton] at hunit
      rw [hunit]
      exact h
    · intro unit hunit
      rw [List.mem_singleton] at hunit
      rw [hunit]
      exact hwf

/-- Sending such a unit and leaving a continuation on it. -/
theorem send_continue_moves (hs : Moves x c (core s)) {type : Fas1UnitType}
    {sessionId : Option ℕ} {body : Bytes} {site : Site} (h : Negotiating x.role type) :
    Moves x c (core (left (do
      let t ← send options type sessionId body s
      return continueAfterPlayback options site t))) :=
  moves_bind (send_moves hs h) (fun _ _ ht => ht)

/-- Failing is a change of state. -/
theorem fail_moves (hs : Moves x c (core s)) (reason : String) :
    Moves x c (core (fail reason s)) :=
  setState_moves hs rfl (.inl rfl)

/-- A reset moves an unfinished chain aside and loses none. -/
theorem acknowledging_resetTasks (generation : ℕ) (tasks : Tasks) :
    acknowledging (resetTasks generation tasks) = acknowledging tasks := by
  unfold acknowledging resetTasks
  by_cases h : WorkChain.unfinished tasks.work = true
  · rw [if_pos h]
    simp [chainAcknowledges, Bool.or_comm]
  · have hfinished : chainAcknowledges tasks.work = false := by
      simp only [WorkChain.unfinished, Bool.or_eq_true, decide_eq_true_eq, Bool.not_eq_true',
        List.isEmpty_eq_false_iff, not_or, not_not] at h
      simp [chainAcknowledges, h.1, h.2]
    rw [if_neg h, hfinished]
    simp [chainAcknowledges]

/-- The core of a reset session is the one a reset of the machine leaves. -/
theorem core_reset (epoch : ℕ) (s : AcousticSession) :
    core (reset options epoch s) = resetCore options.role (core s) := by
  have h := acknowledging_resetTasks (s.link.generation + 1) s.tasks
  simp only [core, resetCore, reset, resetLink, h]

/-- A reset is one move. -/
theorem reset_moves (hs : Moves x c (core s)) (hrole : x.role = options.role) (epoch : ℕ) :
    Moves x c (core (reset options epoch s)) := by
  have hmove := Move.reset (x := x) (core s)
  rw [hrole] at hmove
  rw [core_reset]
  exact hs.tail hmove

/-- Opening a session from rest, with the first handshake unit. -/
theorem start_moves (hs : Moves x c (core s)) (readings : Readings)
    (hrole : x.role = options.role) : Moves x c (core (left (start options readings s))) := by
  unfold start
  split_ifs with h1 h2
  · exact hs
  · exact hs
  · simp only [not_or, not_not] at h1
    have hopen := hs.tail (Move.openSession (core s) (toSessionId readings.nonce) .helloSent
      (by rw [hrole, h1.1]; exact h1.2) (by decide))
    refine attempt_bind hopen ?_
    intro body _
    exact send_continue_moves hopen (by simp [Negotiating])

/-- Answering a HELLO opens a session from rest. -/
theorem answerHello_moves (hs : Moves x c (core s)) (readings : Readings) (sessionId : ℕ)
    (peerNonce : Bytes) (hrest : s.state = restState x.role) :
    Moves x c (core (left (answerHello options readings sessionId peerNonce s))) := by
  unfold answerHello
  dsimp only
  split_ifs with h
  · exact hs
  · have hopen := hs.tail (Move.openSession (core s) sessionId .helloAckSent hrest
      (by decide))
    refine attempt_bind hopen ?_
    intro body _
    exact send_continue_moves hopen (by simp [Negotiating])

/-- A HELLO is ignored, or answered from rest, which a reset may precede. -/
theorem onHello_moves (hs : Moves x c (core s)) (readings : Readings) (headerSessionId : ℕ)
    (body : Bytes) (hrole : x.role = options.role) :
    Moves x c (core (left (onHello options readings headerSessionId body s))) := by
  unfold onHello
  split
  · exact hs
  · next h =>
    simp only [not_or, not_not] at h
    refine attempt_bind hs ?_
    intro hello _
    split
    · exact hs
    · split_ifs with h1 h2 h3
      · exact hs
      · exact answerHello_moves hs readings _ _ (by rw [hrole, h.1]; exact h2)
      · exact hs
      · exact answerHello_moves (reset_moves hs hrole _) readings _ _ (by rw [hrole]; rfl)

/-- A HELLO_ACK is ignored or answered with CAPS. -/
theorem onHelloAck_moves (hs : Moves x c (core s)) (sessionId : ℕ) (body : Bytes) :
    Moves x c (core (left (onHelloAck options sessionId body s))) := by
  unfold onHelloAck
  split_ifs with h
  · exact hs
  · refine attempt_bind hs ?_
    intro ack _
    split_ifs with h1
    · exact hs
    · refine send_continue_moves ?_ (by simp [Negotiating])
      simp only [not_or, not_not] at h
      exact setState_moves hs rfl (.inr ⟨by rw [h.2.1]; decide, by simp [Early]⟩)

/-- Sending a probe makes only negotiating moves. -/
theorem driveProbe_moves (hs : Moves x c (core s)) (direction : Direction) :
    Moves x c (core (left (driveProbe options direction s))) := by
  unfold driveProbe
  split_ifs with h
  · exact hs
  · split
    · exact hs
    · dsimp only
      split_ifs with h1
      · exact hs
      · refine attempt_bind hs ?_
        intro probe _
        refine send_continue_moves ?_ (by simp [Negotiating])
        exact hs

/-- Arming the deadline touches timers only. -/
theorem armDeadline_core (s : AcousticSession) : core (armDeadline s) = core s := by
  unfold armDeadline
  split_ifs <;> rfl

/-- A CAPS is ignored, answered, or followed by the first probe. -/
theorem onCaps_moves (hs : Moves x c (core s)) (sessionId : ℕ) (body : Bytes) :
    Moves x c (core (left (onCaps options sessionId body s))) := by
  have hcalibrate : Early s.state → Moves x c (core (armDeadline
      { clearHandshakeRetry s with state := .calibratingAToB })) := by
    intro hearly
    rw [armDeadline_core]
    exact setState_moves hs rfl (.inr ⟨hearly, by simp [Early]⟩)
  unfold onCaps
  split_ifs with h1 h2 h3 h4
  · exact hs
  · exact send_moves (hcalibrate (by rw [h2.2]; decide)) (by simp [Negotiating])
  · refine send_moves ?_ (by simp [Negotiating])
    exact hs
  · exact driveProbe_moves (hcalibrate (by rw [h4.2]; decide)) .aToB
  · exact hs

/-- Scheduling a retry touches timers only. -/
theorem scheduleRetry_core (direction : Direction) (ordinal : ℕ) (s : AcousticSession) :
    core (scheduleRetry options direction ordinal s) = core s := by
  unfold scheduleRetry
  split_ifs <;> rfl

/-- Arming the retry of a probe touches timers only. -/
theorem armProbeRetry_core (direction : Direction) (ordinal : ℕ) (s : AcousticSession) :
    core (armProbeRetry options direction ordinal s) = core s := by
  unfold armProbeRetry
  rw [scheduleRetry_core]
  rfl

/-- Retransmitting a probe makes only negotiating moves. -/
theorem retransmitProbe_moves (hs : Moves x c (core s)) (direction : Direction) (ordinal : ℕ) :
    Moves x c (core (left (retransmitProbe options direction ordinal s))) := by
  unfold retransmitProbe
  split_ifs with h
  · refine attempt_bind hs ?_
    intro probe _
    refine send_continue_moves ?_ (by simp [Negotiating])
    exact hs
  · exact hs

/-- Queueing the own commit answers nothing of the peer. -/
theorem queueCommit_core (s : AcousticSession) : core (queueCommit s) = core s := by
  have h : acknowledging (queueCommit s).tasks = acknowledging s.tasks := by
    simp [acknowledging, chainAcknowledges, queueCommit, answersCommit]
  simp only [core, h]
  rfl

/-- The state named after a direction comes before the commit. -/
theorem stateFor_early (direction : Direction) : Early (stateFor direction) := by
  cases direction <;> decide

/-- A selected candidate is one of the candidates. -/
theorem select_mem {entries : List AcousticProbeLedgerEntry} {candidate : AcousticCandidate}
    (h : select options entries = some candidate) : candidate ∈ options.candidates := by
  unfold select at h
  obtain ⟨ranked, hranked, rfl⟩ := Option.map_eq_some_iff.mp h
  have hsorted := List.mem_of_mem_head? (by simpa using hranked)
  rw [List.mem_insertionSort, List.mem_filter, List.mem_map] at hsorted
  obtain ⟨⟨entry, hentry, rfl⟩, -⟩ := hsorted
  exact List.fst_mem_of_mem_zipIdx hentry

/-- The rest of a method that completes a direction: the state moves on, and a
probe may be sent. -/
theorem completeDirection_moves (hs : Moves x c (core s)) (direction : Direction)
    (hcandidates : x.candidates = options.candidates) (hearly : Early s.state)
    {g : Bool × AcousticSession → Outcome}
    (hg : ∀ result t, Moves x c (core t) → Moves x c (core (left (g (result, t))))) :
    Moves x c (core (left (completeDirection options direction s >>= g))) := by
  unfold completeDirection
  split
  · exact hg _ _ hs
  · split
    · exact hg _ _ (fail_moves hs _)
    · next candidate hselect =>
      have hselected : Moves x c (core { s with
          calibration.selected := s.calibration.selected.set (some candidate) direction }) :=
        hs.tail (Move.selectCandidate (core s) direction candidate
          (by rw [hcandidates]; exact select_mem hselect))
      cases direction with
      | aToB =>
        have hnext : Moves x c (core { s with
            calibration.selected := s.calibration.selected.set (some candidate) .aToB
            state := .calibratingBToA }) :=
          setState_moves hselected rfl (.inr ⟨hearly, by simp [Early]⟩)
        dsimp only
        split
        · rw [bind_assoc]
          exact moves_bind (driveProbe_moves hnext .bToA) (fun t _ ht => hg true t ht)
        · exact hg _ _ hnext
      | bToA =>
        have hnext : Moves x c (core { s with
            calibration.selected := s.calibration.selected.set (some candidate) .bToA
            state := .committing }) :=
          setState_moves hselected rfl (.inr ⟨hearly, by simp [Early]⟩)
        dsimp only
        split
        · exact hg _ _ (by rw [queueCommit_core]; exact hnext)
        · exact hg _ _ hnext

/-- A probe is ignored, answered from the cache, or measured and reported. -/
theorem onProbe_moves (hs : Moves x c (core s)) (readings : Readings)
    (hcandidates : x.candidates = options.candidates) (sessionId : ℕ) (body : Bytes) :
    Moves x c (core (left (onProbe options readings sessionId body s))) := by
  unfold onProbe
  split
  · exact hs
  · refine attempt_bind hs ?_
    intro direction _
    dsimp only
    split
    · split
      · exact hs
      · split
        · refine send_moves ?_ (by simp [Negotiating])
          exact hs
        · exact hs
    · split
      · exact hs
      · next h =>
        simp only [not_or, not_not] at h
        have hearly : Early s.state := by
          rw [h.1]
          exact stateFor_early direction
        refine attempt_bind hs ?_
        intro probe _
        refine attempt_bind hs ?_
        intro observation _
        refine moves_bind (send_moves ?_ (by simp [Negotiating])) ?_
        · exact hs
        · intro t hsend ht
          obtain ⟨id, -, -, rfl⟩ := send_ok options hsend
          exact completeDirection_moves ht direction hcandidates hearly (fun _ _ hu => hu)

/-- A report is ignored, or completes a direction or is followed by a probe. -/
theorem onReport_moves (hs : Moves x c (core s)) (hcandidates : x.candidates = options.candidates)
    (sessionId : ℕ) (body : Bytes) :
    Moves x c (core (left (onReport options sessionId body s))) := by
  unfold onReport
  split
  · exact hs
  · refine attempt_bind hs ?_
    rintro ⟨probe, observation⟩ _
    dsimp only
    split
    · exact hs
    · next h =>
      simp only [not_or, not_not] at h
      refine completeDirection_moves ?_ probe.direction hcandidates ?_ ?_
      · exact hs
      · change Early s.state
        rw [h.1]
        exact stateFor_early probe.direction
      · intro result t ht
        dsimp only
        split
        · exact ht
        · exact driveProbe_moves ht probe.direction

/-- A COMMIT is ignored, acknowledged again or queued. -/
theorem onCommit_moves (hs : Moves x c (core s)) (sessionId : ℕ) (body : Bytes)
    (hrole : x.role = options.role) :
    Moves x c (core (left (onCommit options sessionId body s))) := by
  unfold onCommit
  split
  · exact hs
  · next h =>
    simp only [not_or, not_not] at h
    have ha : x.role = .a := hrole.trans h.1
    split
    · refine moves_bind (send_moves ?_ (by simp [Negotiating])) ?_
      · exact hs
      · intro t _ ht
        split
        · exact send_moves ht (by simp [Negotiating, ha])
        · exact ht
    · split
      · exact hs
      · exact hs.tail (Move.work (core s) _ (fun _ => .inr ha))

/-- Arming the retry of a commit touches timers only. -/
theorem armCommitRetry_core (s : AcousticSession) : core (armCommitRetry options s) = core s := by
  unfold armCommitRetry
  split <;> rfl

/-- A COMMIT_ACK gives the token to A. -/
theorem onCommitAck_moves (hs : Moves x c (core s)) (hstart : x.start = core s) (sessionId : ℕ)
    (body : Bytes) : Moves x c (core (left (onCommitAck options sessionId body s))) := by
  unfold onCommitAck
  split
  · exact hs
  · next h =>
    simp only [not_or, not_not] at h
    have hmove := Move.commitToken (x := x) (.inr (by rw [hstart]; exact h.2.1))
    rw [hstart] at hmove
    rw [left_ok, armCommitRetry_core]
    exact hs.tail hmove

/-- Applying the outbound candidate changes no part of the negotiation. -/
theorem applyOutboundCandidate_core (s : AcousticSession) :
    core (applyOutboundCandidate options s) = core s := by
  unfold applyOutboundCandidate
  split <;> rfl

/-- Recording the settings of the selected candidates. -/
theorem commitSettings_moves (hs : Moves x c (core s)) (hstate : s.state = .committing)
    {settings : AcousticSettings} (h : selectedSettings s = some settings) :
    Moves x c (core { s with commitment.settings := some settings }) := by
  unfold selectedSettings at h
  split at h
  · next aToB bToA ha hb =>
    obtain rfl := Option.some.inj h
    exact hs.tail (Move.commitSettings (core s) aToB bToA hstate ha hb)
  · cases h

/-- Starting a job of the work chain. -/
theorem startJob_moves (hs : Moves x c (core s)) (job : Job) :
    Moves x c (core (startJob options job s).2) := by
  cases job with
  | queueCommit =>
    unfold startJob
    dsimp only
    split
    · exact hs
    · next settings hselected =>
      split
      · exact hs
      · next h =>
        simp only [not_or, not_not] at h
        rw [applyOutboundCandidate_core]
        exact commitSettings_moves hs h.1 hselected
  | onCommit received =>
    unfold startJob
    dsimp only
    split
    · exact hs
    · next h =>
      simp only [not_or, not_not] at h
      split
      · exact fail_moves hs _
      · next settings hselected => exact commitSettings_moves hs h.1 hselected

/-- A caught exception fails the session. -/
theorem catchWork_moves {stage : Option Stage} {outcome : Outcome}
    (h : Moves x c (core (left outcome))) : Moves x c (core (catchWork stage outcome).2) := by
  cases outcome with
  | ok t => exact h
  | error f => exact fail_moves h _

/-- The token goes to A when a COMMIT of the peer is answered. -/
theorem acknowledgeCommit_moves (hs : Moves x c (core s)) (hstart : x.start = core s)
    (received digest : Bytes) (hrole : x.role = .a) (hack : acknowledging s.tasks = true) :
    Moves x c (core (acknowledgeCommit options received digest s).2) := by
  unfold acknowledgeCommit
  split
  · exact fail_moves hs _
  · refine catchWork_moves (moves_bind (send_moves ?_ (by simp [Negotiating])) ?_)
    · have hmove := Move.commitToken (x := x) (.inl (by rw [hstart]; exact hack))
      rw [hstart] at hmove
      have htoken := hs.tail hmove
      unfold applyOutboundCandidate
      split <;> exact htoken
    · intro t _ ht
      exact send_moves ht (by simp [Negotiating, hrole])

/-- Sending COMMIT from the work chain makes only negotiating moves. -/
theorem sendCommit_moves (hs : Moves x c (core s)) (digest : Bytes) :
    Moves x c (core (sendCommit options digest s).2) := by
  have hsend : Moves x c (core (left (send options .commit s.link.sessionId digest
      { s with commitment.settingsDigest := some digest }))) := by
    refine send_moves ?_ (by simp [Negotiating])
    exact hs
  unfold sendCommit
  split
  · next t ht => simpa [ht] using hsend
  · next f hf =>
    rw [hf] at hsend
    exact fail_moves hsend _

/-- Resuming a job of the work chain. -/
theorem resumeJob_moves (hs : Moves x c (core s)) (hstart : x.start = core s) (rejected : Bool)
    (stage : Stage)
    (hstage : answersCommitAt stage = true → x.role = .a ∧ acknowledging s.tasks = true) :
    Moves x c (core (resumeJob options rejected stage s).2) := by
  cases stage with
  | commitDigest settings =>
    unfold resumeJob
    dsimp only
    split
    · split
      · exact fail_moves hs _
      · exact sendCommit_moves hs _
    · exact fail_moves hs _
  | commitPlayback asynchronous =>
    unfold resumeJob
    dsimp only
    split
    · exact fail_moves hs _
    · rw [armCommitRetry_core]
      exact hs
  | acknowledgeDigest received settings =>
    obtain ⟨hrole, hack⟩ := hstage rfl
    unfold resumeJob
    dsimp only
    split
    · split
      · exact fail_moves hs _
      · exact acknowledgeCommit_moves hs hstart received _ hrole hack
    · exact fail_moves hs _

/-- A step of a chain, whose own work chains it leaves alone. -/
theorem stepChain_moves (options : AcousticSessionOptions) (hs : Moves x c (core s))
    (hstart : x.start = core s) (rejected : Bool) (chain : WorkChain)
    (hchain : chainAcknowledges chain = true → x.role = .a ∧ acknowledging s.tasks = true) :
    Moves x c (core (stepChain options rejected chain s).2) := by
  unfold stepChain
  cases hrun : chain.running with
  | some stage =>
    refine resumeJob_moves hs hstart rejected stage ?_
    intro hstage
    exact hchain (by simp [chainAcknowledges, hrun, hstage])
  | none =>
    cases hjobs : chain.jobs with
    | nil => exact hs
    | cons job jobs => exact startJob_moves hs job

/-- Sending a unit starts no task and ends none. -/
theorem send_tasks {type : Fas1UnitType} {sessionId : Option ℕ} {body : Bytes} :
    (left (send options type sessionId body s)).tasks = s.tasks := by
  cases h : send options type sessionId body s with
  | error f => rw [left_error, send_error options h]
  | ok t =>
    obtain ⟨id, -, -, rfl⟩ := send_ok options h
    rfl

/-- Applying the outbound candidate starts no task and ends none. -/
theorem applyOutboundCandidate_tasks (s : AcousticSession) :
    (applyOutboundCandidate options s).tasks = s.tasks := by
  unfold applyOutboundCandidate
  split <;> rfl

/-- The catch around the work of a job leaves the tasks as the work did. -/
theorem catchWork_tasks {stage : Option Stage} {outcome : Outcome} :
    (catchWork stage outcome).2.tasks = (left outcome).tasks := by
  cases outcome <;> rfl

/-- Acknowledging a commit starts no task and ends none. -/
theorem acknowledgeCommit_tasks (received digest : Bytes) (s : AcousticSession) :
    (acknowledgeCommit options received digest s).2.tasks = s.tasks := by
  unfold acknowledgeCommit
  split
  · rfl
  · rw [catchWork_tasks]
    refine left_bind (P := fun t : AcousticSession => t.tasks = s.tasks) ?_ ?_
    · intro f hf
      rw [send_error options hf]
      exact applyOutboundCandidate_tasks _
    · intro t ht
      obtain ⟨id, -, -, rfl⟩ := send_ok options ht
      rw [send_tasks]
      exact applyOutboundCandidate_tasks _

/-- A job taken up after its await leaves the list of tasks to its caller. -/
theorem resumeJob_tasks (rejected : Bool) (stage : Stage) (s : AcousticSession) :
    (resumeJob options rejected stage s).2.tasks = s.tasks := by
  cases stage with
  | commitDigest settings =>
    unfold resumeJob
    dsimp only
    split
    · split
      · rfl
      · unfold sendCommit
        split
        · next t ht =>
          obtain ⟨id, -, -, rfl⟩ := send_ok options ht
          rfl
        · next f hf =>
          change f.state.tasks = s.tasks
          rw [send_error options hf]
    · rfl
  | commitPlayback asynchronous =>
    unfold resumeJob
    dsimp only
    split
    · rfl
    · unfold armCommitRetry
      split <;> rfl
  | acknowledgeDigest received settings =>
    unfold resumeJob
    dsimp only
    split
    · split
      · rfl
      · exact acknowledgeCommit_tasks received _ s
    · rfl

/-- A job that starts leaves the list of tasks to its caller. -/
theorem startJob_tasks (job : Job) (s : AcousticSession) :
    (startJob options job s).2.tasks = s.tasks := by
  cases job with
  | queueCommit =>
    unfold startJob
    dsimp only
    split
    · rfl
    · split
      · rfl
      · exact applyOutboundCandidate_tasks _
  | onCommit received =>
    unfold startJob
    dsimp only
    split
    · rfl
    · split <;> rfl

/-- A step of a chain leaves the chains of the session alone. -/
theorem stepChain_tasks (rejected : Bool) (chain : WorkChain) (s : AcousticSession) :
    (stepChain options rejected chain s).2.tasks = s.tasks := by
  unfold stepChain
  cases hrun : chain.running with
  | some stage => exact resumeJob_tasks rejected stage s
  | none =>
    cases hjobs : chain.jobs with
    | nil => rfl
    | cons job jobs => exact startJob_tasks job s

/-- Only the answer to a COMMIT reaches the await point of such an answer. -/
theorem startJob_answers (job : Job) (s : AcousticSession)
    (h : (startJob options job s).1.any answersCommitAt = true) : answersCommit job = true := by
  cases job with
  | queueCommit =>
    unfold startJob at h
    dsimp only at h
    split at h
    · simp at h
    · split at h <;> simp [answersCommitAt] at h
  | onCommit received => rfl

/-- No job is resumed into an answer to a COMMIT. -/
theorem resumeJob_answers (rejected : Bool) (stage : Stage) (s : AcousticSession) :
    (resumeJob options rejected stage s).1.any answersCommitAt = false := by
  have hcatch : ∀ outcome : Outcome, (catchWork none outcome).1 = none := by
    intro outcome
    cases outcome <;> rfl
  cases stage with
  | commitDigest settings =>
    unfold resumeJob sendCommit
    dsimp only
    split
    · split
      · rfl
      · split <;> rfl
    · rfl
  | commitPlayback asynchronous =>
    unfold resumeJob
    dsimp only
    split <;> rfl
  | acknowledgeDigest received settings =>
    unfold resumeJob acknowledgeCommit
    dsimp only
    split
    · split
      · rfl
      · split
        · rfl
        · rw [hcatch]
          rfl
    · rfl

/-- A step of a chain finds no new COMMIT to answer. -/
theorem stepChain_acknowledges (rejected : Bool) (chain : WorkChain) (s : AcousticSession)
    (h : chainAcknowledges (stepChain options rejected chain s).1 = true) :
    chainAcknowledges chain = true := by
  unfold stepChain at h
  cases hrun : chain.running with
  | some stage =>
    simp only [hrun, chainAcknowledges, resumeJob_answers, Bool.false_or] at h
    simp [chainAcknowledges, h]
  | none =>
    cases hjobs : chain.jobs with
    | nil => simpa [hrun, hjobs] using h
    | cons job jobs =>
      simp only [hrun, hjobs, chainAcknowledges, Bool.or_eq_true] at h
      rcases h with h | h
      · simp [chainAcknowledges, hjobs, startJob_answers job s h]
      · simp only [chainAcknowledges, hjobs, List.any_cons, h, Bool.or_true]

/-- The current work chain advances by moves of its job. -/
theorem stepWork_moves (hs : Moves x c (core s)) (hstart : x.start = core s) (rejected : Bool)
    (hfit : acknowledging s.tasks = true → x.role = .a) :
    Moves x c (core (stepWork options rejected s)) := by
  have hchain := stepChain_moves options hs hstart rejected s.tasks.work (fun h => by
    have hack : acknowledging s.tasks = true := by simp [acknowledging, h]
    exact ⟨hfit hack, hack⟩)
  refine hchain.tail (Move.work _ _ ?_)
  intro h
  right
  apply hfit
  change acknowledging { (stepChain options rejected s.tasks.work s).2.tasks with
    work := (stepChain options rejected s.tasks.work s).1 } = true at h
  rw [stepChain_tasks] at h
  simp only [acknowledging, Bool.or_eq_true] at h ⊢
  exact h.imp (stepChain_acknowledges rejected _ s) id

/-- An unowned work chain advances by moves of its job, as the current one does. -/
theorem stepOrphan_moves (hs : Moves x c (core s)) (hstart : x.start = core s) (index : ℕ)
    (rejected : Bool)
    (hfit : acknowledging s.tasks = true → x.role = .a) :
    Moves x c (core (stepOrphan options index rejected s)) := by
  unfold stepOrphan
  split
  · exact hs
  · next chain hget =>
    have hmem : chain ∈ s.tasks.orphans := List.mem_of_getElem? hget
    have hack : chainAcknowledges chain = true → acknowledging s.tasks = true := by
      intro h
      simp only [acknowledging, Bool.or_eq_true, List.any_eq_true]
      exact .inr ⟨chain, hmem, h⟩
    have hchain := stepChain_moves options hs hstart rejected chain (fun h =>
      ⟨hfit (hack h), hack h⟩)
    refine hchain.tail (Move.work _ _ ?_)
    intro h
    right
    apply hfit
    change acknowledging { (stepChain options rejected chain s).2.tasks with
      orphans := (stepChain options rejected chain s).2.tasks.orphans.set index
        (stepChain options rejected chain s).1 } = true at h
    rw [stepChain_tasks] at h
    simp only [acknowledging, Bool.or_eq_true, List.any_eq_true] at h
    rcases h with h | ⟨other, hother, h⟩
    · simp [acknowledging, h]
    · rcases List.mem_or_eq_of_mem_set hother with hin | rfl
      · simp only [acknowledging, Bool.or_eq_true, List.any_eq_true]
        exact .inr ⟨other, hin, h⟩
      · exact hack (stepChain_acknowledges rejected chain s h)

end Fipwave.NegotiationMoves
