import Fipwave.MethodContracts

/-!
# The bridge evolves by moves

Every handler, call and timer of the bridge keeps its contract, so a step of
the bridge is a sequence of moves of one actor, after the next message of its
socket was taken if it begins to handle one. This holds in every state the
bridge reaches, whatever the order of its steps and whatever the waits end
with.
-/

namespace Fipwave.BridgeMoves

open Relation ByteWords FwavProtocol QualificationSession BridgePorts BridgeReport BridgeTrial
  BridgeMethods BridgeServer AsyncMethod TrialMoves PortMoves

section Resets

variable {prompt : Prop} {a : Actor} (options : BridgeServerOptions)

/-- Actors that may reset the bridge. -/
def mayReset : Actor → Bool
  | .handler _ _ => true
  | .operatorReset _ => true
  | _ => false

/-- An actor that may reset shares its time with other actors only. -/
theorem ne_of_coexist_reset {q : Actor} (h : coexist a q) (hreset : mayReset a = true) : a ≠ q := by
  rintro rfl
  cases a with
  | handler => exact h rfl
  | operatorReset => exact h rfl
  | _ => cases hreset

/-- The reset of an actor is under way. -/
theorem kept_token (hreset : mayReset a = true) :
    Kept options prompt a (fun b => a ∈ b.ports.resetsUnderway) := by
  refine ⟨fun _ _ h _ htoken => h.resets ▸ htoken, fun _ _ h _ htoken => ?_⟩
  obtain ⟨q, hcoexist, hmove | hprepares⟩ := h
  · exact hmove.spares.resets a (ne_of_coexist_reset hcoexist hreset) htoken
  · exact hprepares.spares.resets a (ne_of_coexist_reset hcoexist hreset) htoken

/-- Taking the bridge out of a state that needs a reset stays in its epoch. -/
theorem epoch_recovers {f : Ports → Ports} (hf : Recovers a f) (p : Ports) :
    (f p).epoch = p.epoch := by
  rcases hf with ⟨-, rfl⟩ | ⟨socket, frame, -, -, rfl⟩ <;> rfl

/-- An attempt that succeeds hands its answer on and keeps the trial it leaves. -/
theorem attemptTrial_ok {α : Type} {g : Trial → Except (Refusal × Trial) (α × Trial)} {b : Bridge}
    {answer : α} {t : Trial} (h : g b.trial = .ok (answer, t)) :
    attemptTrial g b = .ok answer { b with trial := t } := by
  unfold attemptTrial
  rw [h]

/-- A reset up to the building of its report. -/
theorem beginReset_eq {f : Ports → Ports} (hf : Recovers a f) (pre : Bool) {b : Bridge} {t : Trial}
    (hepoch : b.ports.epoch < maxEpoch)
    (ht : resetTrial pre (options.now b.readings) b.trial = .ok ((), t)) :
    beginReset options a pre { b with ports := f b.ports } =
      persist options (some t.generation)
        { ports := resetPorts a (disarmAcousticSession (f b.ports))
          trial := t
          readings := b.readings + 1 } := by
  have hcond : ¬(f b.ports).epoch ≥ maxEpoch := by
    rw [epoch_recovers hf]
    omega
  have hattempt : attemptTrial (resetTrial pre (options.now b.readings))
      { b with ports := disarmAcousticSession (f b.ports), readings := b.readings + 1 } =
      .ok () { ports := disarmAcousticSession (f b.ports), trial := t, readings := b.readings + 1 } :=
    attemptTrial_ok ht
  change (if (f b.ports).epoch ≥ maxEpoch then (raise (.input "epoch_exhausted") : BridgeM Awaited)
    else _) { b with ports := f b.ports } = _
  rw [if_neg hcond]
  change Run.bind (attemptTrial (resetTrial pre (options.now b.readings))
    { b with ports := disarmAcousticSession (f b.ports), readings := b.readings + 1 }) _ = _
  rw [hattempt]
  rfl

/-- In the last epoch a reset throws before it changes anything. -/
theorem beginReset_exhausted (pre : Bool) {b : Bridge} (hepoch : maxEpoch ≤ b.ports.epoch) :
    beginReset options a pre b = .error (.input "epoch_exhausted") b := by
  change (if b.ports.epoch ≥ maxEpoch then (raise (.input "epoch_exhausted") : BridgeM Awaited)
    else _) b = _
  rw [if_pos hepoch]
  rfl

theorem underway_resetPorts (p : Ports) {socket : ℕ} (h : handles a socket = true) :
    ((resetPorts a p).sockets socket).underway = .resetting := by
  simp [resetPorts, clearQueues, record, refreshState, clearPendingBrowserAdmission, h]

/-- A reset up to the writing of its report. -/
theorem upholds_beginReset {f : Ports → Ports} (hf : Recovers a f) (pre : Bool) {b : Bridge}
    (hb : Standing b) (hnone : b.trial.begun a = none) :
    Upholds (contract options prompt a)
      (fun _ b' => Standing b' ∧ a ∈ b'.ports.resetsUnderway ∧
        b.ports.socketCount ≤ b'.ports.socketCount ∧
        ∀ socket, handles a socket = true → (b'.ports.sockets socket).underway = .resetting)
      (fun _ b' => Standing b') b (beginReset options a pre { b with ports := f b.ports }) := by
  by_cases hepoch : maxEpoch ≤ b.ports.epoch
  · have hmoves : ReflTransGen (Move options prompt a) b { b with ports := f b.ports } :=
      .single (.ports (.exhausts hf hepoch))
    rw [beginReset_exhausted options pre (by rwa [epoch_recovers hf])]
    exact ⟨hmoves, standing_of_moves hmoves hb⟩
  · rw [not_le] at hepoch
    obtain ⟨t, heq, htrial, -⟩ := resetTrial_cases (a := a) pre (options.now b.readings) hb.poised hnone
    rw [beginReset_eq options hf pre hepoch heq]
    have hmove : PortMove options.ports a b.ports _ := .resets hf hepoch
    have hmoves : ReflTransGen (Move options prompt a) b
        { ports := resetPorts a (disarmAcousticSession (f b.ports))
          trial := t
          readings := b.readings + 1 } :=
      ((moves_of_trial htrial).tail (.reads _)).tail (.ports hmove)
    have hstanding := standing_of_moves hmoves hb
    have hexpects : Expects options (some t.generation) (blankFact 0 0) t :=
      ⟨by simp, recorded_blankFact options t⟩
    refine Upholds.rebase hmoves ?_
    obtain ⟨hcalm, hdone, -⟩ := calmly_persist (a := a) options (some t.generation)
      (blankFact 0 0) _ ⟨hstanding, hexpects⟩
    refine ⟨hcalm.moves, hdone, ?_, ?_, fun socket hsocket => ?_⟩
    · rw [hcalm.resets]
      exact List.mem_append_right _ (List.mem_singleton.mpr rfl)
    · rw [hcalm.count]
      exact hmove.spares.count
    · rw [hcalm.underway]
      exact underway_resetPorts _ hsocket

/-- The rest of a reset; what is kept and not part of it stays. -/
theorem safely_finishReset (hreset : mayReset a = true) (on : Awaited) {R : Bridge → Prop}
    (hR : Kept options prompt a R)
    (hannounce : ∀ b : Bridge, R b → R { b with ports := announceReset a b.ports }) :
    Safely options prompt a (fun b => a ∈ b.ports.resetsUnderway ∧ R b) (finishReset options a on)
      (fun _ => R) := by
  refine Safely.bind (Calmly.toSafely (calmly_await ((kept_token options hreset).and hR)
    (fun _ _ _ hb _ => hb))) (fun reply => ?_)
  have hgoes : Safely options prompt a (fun b => a ∈ b.ports.resetsUnderway ∧ R b)
      (do
        onPorts (announceReset a)
        broadcastSession options)
      (fun _ => R) := by
    refine Safely.bind (Q := fun _ => R)
      (safely_onPorts (fun b _ hb => ⟨.announces hb.1, hannounce b hb.2⟩)) (fun _ => ?_)
    exact ((calmly_broadcastSession options).safely hR).weaken (fun _ hb => ⟨trivial, hb⟩)
      (fun _ _ hb => hb.2)
  cases reply with
  | rejected =>
    exact Safely.bind (Q := fun _ _ => True)
      (safely_onPorts (fun b _ hb => ⟨.endsReset hb.1, trivial⟩)) (fun _ => safely_raise _)
  | _ => exact hgoes

/-- A reset of the operator begins, is reported and is announced by moves of the ports and the
trial. -/
theorem safely_reset (call : ℕ) (pre : Bool) :
    Safely options prompt (.operatorReset call) (fun b => b.trial.begun (.operatorReset call) = none)
      (reset options (.operatorReset call) pre) (fun _ _ => True) := by
  intro b hb
  have hrecovers : Recovers (.operatorReset call) id := .inl ⟨⟨call, rfl⟩, rfl⟩
  refine Upholds.bind (upholds_beginReset options hrecovers pre hb.1 hb.2) (fun on b' hb' => ?_)
  exact safely_finishReset options rfl on kept_true (fun _ _ => trivial) b'
    ⟨hb'.1, hb'.2.1, trivial⟩

/-- The announcement leaves every handler where it was. -/
theorem underway_announceReset (k : ℕ) (p : Ports) :
    ((announceReset a p).sockets k).underway = (p.sockets k).underway :=
  view_announceReset Socket.underway (fun _ _ => rfl) a k

end Resets

section Handlers

variable {socket : ℕ} {message : RawMessage} (options : BridgeServerOptions)

/-- A RESET of a browser is begun at once, and its socket stays under way with it until the stream
has been restarted. -/
theorem safely_acceptReset {frame : FwavFrame}
    (hcarries : Carries (.handler socket message) socket frame) (htype : frame.type = .reset) :
    Safely options prompt (.handler socket message)
      (fun b => b.trial.begun (.handler socket message) = none ∧ socket < b.ports.socketCount)
      (acceptReset options (.handler socket message) socket frame) (fun _ _ => True) := by
  unfold acceptReset
  split
  · exact safely_raise _
  · split
    · exact safely_raise _
    · refine safely_current (fun b₀ hfacts => ?_)
      dsimp only
      intro b ⟨hb, heq⟩
      subst heq
      have hrecovers : Recovers (.handler socket message)
          (modifyConnection socket (recover frame.sequence)) :=
        .inr ⟨socket, frame, hcarries, htype, rfl⟩
      change Upholds _ _ _ b (Run.bind (beginReset options (.handler socket message) _
        { b with ports := modifyConnection socket (recover frame.sequence) b.ports }) _)
      refine Upholds.bind (upholds_beginReset options hrecovers _ hb hfacts.1)
        (fun on b' hb' => ?_)
      have hunderway : socket < b'.ports.socketCount ∧
          (b'.ports.sockets socket).underway = .resetting :=
        ⟨hfacts.2.trans_le hb'.2.2.1, hb'.2.2.2 socket (by simp [handles])⟩
      have hkept : Kept options prompt (.handler socket message) _ :=
        kept_underway socket message .resetting
      have hrest : Safely options prompt (.handler socket message)
          (fun b => .handler socket message ∈ b.ports.resetsUnderway ∧
            socket < b.ports.socketCount ∧ (b.ports.sockets socket).underway = .resetting)
          (do
            onPorts (meetReset socket)
            finishReset options (.handler socket message) on
            turn
            onPorts (restartStream socket)
            let b ← current
            if b.ports.owner = some socket ∧
                !(b.ports.sockets socket).connection.mustResetBeforeUse ∧
                frame.epoch + 1 = b.ports.epoch then
              onPorts (flushPacketQueue options.ports .fipsToBrowser)
            else pure ())
          (fun _ _ => True) := by
        refine Safely.bind (Q := fun _ b => .handler socket message ∈ b.ports.resetsUnderway ∧
          socket < b.ports.socketCount ∧ (b.ports.sockets socket).underway = .resetting)
          (safely_onPorts (fun b _ hb => ⟨.notes (fun _ => ⟨rfl, rfl, rfl, rfl⟩), hb.1, hb.2.1, ?_⟩))
          (fun _ => ?_)
        · rw [show ((meetReset socket b.ports).sockets socket).underway =
            (b.ports.sockets socket).underway by simp [meetReset, modifyConnection, modifySocket]]
          exact hb.2.2
        refine Safely.bind (safely_finishReset options rfl on hkept (fun b hb =>
          ⟨hb.1, (underway_announceReset socket b.ports).trans hb.2⟩)) (fun _ => ?_)
        refine Safely.bind (Calmly.toSafely (calmly_turn options hkept)) (fun _ => ?_)
        refine Safely.bind (Q := fun _ _ => True)
          (safely_onPorts (fun b _ hb => ⟨.restarts hcarries htype hb.2, trivial⟩))
          (fun _ => safely_current (fun b₁ _ => ?_))
        split
        · exact safely_onPorts (fun b _ _ => ⟨.flushes, trivial⟩)
        · exact safely_pure () (fun _ _ => trivial)
      exact hrest b' ⟨hb'.1, hb'.2.1, hunderway⟩

/-- Something on the ports that may throw. -/
theorem safely_attempt {a : Actor} {g : Ports → Except Thrown Ports} {P : Bridge → Prop}
    {Q : Unit → Bridge → Prop}
    (h : ∀ b, Standing b → P b → PortMove options.ports a b.ports (leftPorts (g b.ports)) ∧
      Q () { b with ports := leftPorts (g b.ports) }) : Safely options prompt a P (attempt g) Q := by
  intro b hb
  obtain ⟨hmove, hQ⟩ := h b hb.1 hb.2
  have hmoves : ReflTransGen (Move options prompt a) b _ := .single (.ports hmove)
  have hstanding := standing_of_moves hmoves hb.1
  unfold attempt
  split
  · next ports heq =>
    rw [heq] at hmoves hstanding hQ
    exact ⟨hmoves, hstanding, hQ⟩
  · next thrown heq =>
    rw [heq] at hmoves hstanding
    exact ⟨hmoves, hstanding⟩

/-- Queue a frame by its kind. -/
theorem safely_enqueue {a : Actor} (frame : FwavFrame) :
    Safely options prompt a (fun _ => True)
      (do
        let now ← clock options
        attempt (enqueue frame now))
      (fun _ _ => True) :=
  (calmly_clock options (R := fun _ _ => True)).toSafely.bind (fun now =>
    safely_attempt options (fun _ _ _ => ⟨.enqueues frame now, trivial⟩))

/-- An ERROR of the owner disarms the bridge, issues a new capability and falls back. -/
theorem safely_acceptError {frame : FwavFrame}
    (hcarries : Carries (.handler socket message) socket frame) (htype : frame.type = .error) :
    Safely options prompt (.handler socket message)
      (fun b => b.trial.begun (.handler socket message) = none)
      (acceptError options socket frame) (fun _ _ => True) := by
  refine Safely.bind (Q := fun _ b => b.trial.begun (.handler socket message) = none)
    (safely_onPorts (fun b _ hb => ⟨.errs hcarries htype, hb⟩))
    (fun _ => safely_current (fun b₀ hnone => ?_))
  dsimp only
  refine Safely.bind (Q := fun _ b => b.trial.begun (.handler socket message) = none)
    (safely_onPorts (fun b _ hb => ⟨.notes (fun _ => ⟨rfl, rfl, rfl, rfl⟩), by rw [hb]; exact hnone⟩))
    (fun _ => ?_)
  split
  · split
    · exact (calmly_activateCurrentFallback options _).toSafely.weaken (fun _ _ => trivial)
        (fun _ _ hb => hb)
    · exact safely_pure () (fun _ _ => trivial)
  · split
    · refine Safely.bind (Q := fun _ _ => True)
        (safely_askTrial (fun b _ hnone => ⟨moves_quietFailed hnone, trivial⟩)) (fun failed => ?_)
      cases failed with
      | true => exact (calmly_reportAndPublish options).toSafely
      | false => exact safely_pure () (fun _ _ => trivial)
    · exact safely_pure () (fun _ _ => trivial)
  · exact safely_pure () (fun _ _ => trivial)

/-- The code of a failure is noted for the answer. -/
theorem calmly_noteFailure {a : Actor} (error : Refusal) :
    Calmly options prompt a (fun _ => True) (noteFailure error) (fun _ _ => True) := by
  cases error with
  | input reasonCode => exact calmly_onTrial (fun b _ _ => ⟨quietly_addFailure _ _, trivial⟩)
  | other => exact calmly_onTrial (fun b _ _ => ⟨quietly_addFailure _ _, trivial⟩)

/-- A result of a browser is of a case the runner listens to, and a cold one is the first. -/
theorem browserResult_ok {payload : List (String × Json)} {epoch : ℕ} {t : Trial}
    {result : BrowserResult} (h : browserResult options payload epoch t = .ok result) :
    isExpected options.trial result.caseId = true ∧
      (result.coldAcquired = true → t.results = []) := by
  unfold browserResult at h
  cases hparse : parseBrowserResult payload epoch with
  | error error =>
    rw [hparse] at h
    cases h
  | ok parsed =>
    rw [hparse] at h
    simp only [bind, Except.bind] at h
    split at h
    · cases h
    · next hexpected =>
      split at h
      · cases h
      · next hrule =>
        cases h
        rw [Bool.not_eq_true', Bool.not_eq_false] at hexpected
        refine ⟨hexpected, fun hcold => ?_⟩
        by_contra hne
        exact hrule ⟨hcold, .inr hne⟩

/-- A result of a browser is kept, reported and answered. The answer comes after the wait for the
report. -/
theorem safely_acceptResult (frame : FwavFrame) (payload : List (String × Json))
    (htype : handledType (.handler socket message) = some .qualificationResult) :
    Safely options prompt (.handler socket message)
      (fun b => b.trial.begun (.handler socket message) = none)
      (acceptResult options socket frame payload) (fun _ _ => True) := by
  refine safely_current (fun b₀ hnone => ?_)
  have hreport : ∀ error, Safely options prompt (.handler socket message) (fun _ => True)
      (do
        awaitPersist options none
        raise error : BridgeM Unit) (fun _ _ => True) := fun error =>
    (calmly_awaitPersist_none options).toSafely.bind (fun _ => safely_raise error)
  split
  · exact safely_raise _
  · next hcodec =>
    rw [not_or] at hcodec
    split
    · next error _ =>
      exact ((calmly_noteFailure options error).toSafely.bind (fun _ => hreport error)).weaken
        (fun _ _ => trivial) (fun _ _ hb => hb)
    · next result hparsed =>
      split
      · next existing hexisting =>
        refine Safely.bind (Q := fun _ _ => True) (safely_onTrial (fun b _ heq => ⟨?_, trivial⟩))
          (fun _ => hreport _)
        subst heq
        exact .single (.duplicate hnone hexisting)
      · next hnew =>
        dsimp only
        have hidle : b₀.trial.session.codec = .idle ∨ b₀.trial.session.codec = .quiet := by
          cases hc : b₀.trial.session.codec with
          | idle => exact .inl rfl
          | quiet => exact .inr rfl
          | cyrinx => exact absurd hc hcodec.1
          | unqualified => exact absurd hc hcodec.2
        obtain ⟨hexpected, hcold⟩ := browserResult_ok options hparsed
        refine Safely.bind (Q := fun _ b => b = { b₀ with
          trial := recordResult result (.browser b₀.trial.session.codec) b₀.trial })
          (safely_onTrial (fun b _ heq => ?_)) (fun _ => safely_current (fun b₁ hb₁ => ?_))
        · subst heq
          exact ⟨.single (.recordBrowser hnone hidle hcold hnew htype), rfl⟩
        generalize hrecord : caseRecord options.trial result.caseId b₁.trial = record
        have hfact : Recorded options.trial
            ⟨result.caseId, b₀.trial.writes.length, b₀.trial.generation, record⟩ b₁.trial := by
          refine ⟨?_, ?_, hrecord ▸ records_caseRecord _ _ _ b₁.trial⟩
          · rw [hb₁]
            exact le_rfl
          · rw [hb₁]
            exact le_rfl
        have hresult : record.result ≠ none := by
          rw [← hrecord, caseRecord, if_pos hexpected, hb₁]
          dsimp only [recordResult]
          rw [lookup_setResult]
          simp
        refine Safely.bind (((calmly_awaitPersist options (some b₀.trial.generation)
          ⟨result.caseId, b₀.trial.writes.length, b₀.trial.generation, record⟩).safely
            (kept_begun none)).weaken ?_ (fun _ _ hb => hb))
          (fun _ => safely_current (fun b₂ hsettled => ?_))
        · rintro b rfl
          refine ⟨⟨?_, hfact⟩, ?_⟩
          · rw [hb₁]
            simp [recordResult]
          · rw [hb₁]
            exact hnone
        split
        · exact safely_pure () (fun _ _ => trivial)
        · next hcurrent =>
          rw [not_or, not_not] at hcurrent
          refine Safely.bind (Q := fun _ _ => True) (safely_change (fun b hb heq => ?_))
            (fun _ => safely_enqueue options frame)
          subst heq
          have hdurable := durable_of_settledSince hsettled.1 hb.poised hcurrent.1
          exact ⟨.single (.answers socket frame.epoch ⟨_, .qualificationResult⟩ rfl rfl hsettled.2
            hdurable hcurrent.1 hresult), trivial⟩

/-- A control message does what its name says, or is refused. -/
theorem safely_acceptControl {frame : FwavFrame}
    (hcarries : Carries (.handler socket message) socket frame) :
    Safely options prompt (.handler socket message)
      (fun b => b.trial.begun (.handler socket message) = none)
      (acceptControl options (.handler socket message) socket frame) (fun _ _ => True) := by
  have hhandled : handledType (.handler socket message) = some frame.type := by
    obtain ⟨rawData, ha, hdecode⟩ := hcarries
    rw [ha]
    simp [handledType, hdecode]
  refine (calmly_orThrow _ (fun _ _ hb => hb)).toSafely.bind (fun payload => ?_)
  split
  · exact safely_raise _
  · split
    · exact safely_raise _
    · extract_lets action
      clear_value action
      split
      · next hstart =>
        have hstarter : mayStart (.handler socket message) = true := by
          simp [mayStart, hhandled, hstart.1]
        exact (safely_startCyrinx options rfl hstarter).bind
          (fun _ => safely_pure () (fun _ _ => trivial))
      · split
        · exact safely_acceptCyrinxInstruction options rfl payload
        · split
          · exact safely_completeCyrinxPlayback options rfl payload
          · split
            · next htype => exact safely_acceptError options hcarries htype
            · split
              · next hresult =>
                exact safely_acceptResult options frame payload (hresult.1 ▸ hhandled)
              · exact (safely_enqueue options frame).weaken (fun _ _ => trivial) (fun _ _ hb => hb)

/-- The answer of the file system about a loopback report is passed on. -/
theorem safely_loopbackReport {a : Actor} (socket : ℕ) : Safely options prompt a (fun _ => True)
    (do
      match ← await .file with
      | .rejected => raise (.other "loopback report failed")
      | _ => onPorts (send socket .loopbackReport))
    (fun _ _ => True) := by
  refine Safely.bind (Calmly.toSafely (calmly_await kept_true (fun _ _ _ hb _ => hb)))
    (fun reply => ?_)
  cases reply with
  | rejected => exact safely_raise _
  | _ => exact safely_onPorts (fun b _ _ => ⟨.tells socket rfl, trivial⟩)

/-- Settings of the audio are kept for the summary. -/
theorem safely_acceptAudioSettings {a : Actor} (frame : FwavFrame) :
    Safely options prompt a (fun _ => True) (acceptAudioSettings options socket frame)
      (fun _ _ => True) := by
  have hfile : Safely options prompt a (fun _ => True) _ (fun _ _ => True) :=
    safely_loopbackReport options socket
  unfold acceptAudioSettings
  split
  · refine (calmly_orThrow _ (fun _ _ hb => hb)).toSafely.bind (fun payload => ?_)
    split
    · exact safely_raise _
    · refine (calmly_orThrow _ (fun _ _ hb => hb)).toSafely.bind (fun audio => ?_)
      refine Safely.bind (Q := fun _ _ => True)
        (Calmly.toSafely (calmly_onTrial (fun b _ _ => ⟨quietly_incidental _ _ _ _ _ _ _, trivial⟩)))
        (fun _ => ?_)
      exact (calmly_awaitPersist_none options).toSafely.bind (fun _ => hfile)
  · exact hfile

/-- A packet is forwarded for the handler that is in the middle of it. -/
theorem safely_acceptPacket {frame : FwavFrame}
    (hcarries : Carries (.handler socket message) socket frame)
    (htype : frame.type = .fipsPacket) : Safely options prompt (.handler socket message)
      (fun b => (b.ports.sockets socket).underway = .packet frame)
      (acceptPacket options socket frame) (fun _ _ => True) := by
  refine (calmly_clock options
    (R := fun p _ => (p.sockets socket).underway = .packet frame)).toSafely.bind (fun now => ?_)
  intro b ⟨hb, hunderway⟩
  change Upholds _ _ _ b (Run.bind (attempt (acceptBrowserPacket options.ports frame now) b) _)
  unfold attempt
  split
  · next q heq =>
    have hmoves : ReflTransGen (Move options prompt (.handler socket message)) b
        { b with ports := endUnderway socket q } :=
      .single (.ports (.forwards hcarries htype hunderway heq))
    exact ⟨hmoves, standing_of_moves hmoves hb, trivial⟩
  · next thrown heq =>
    have hmoves : ReflTransGen (Move options prompt (.handler socket message)) b
        { b with ports := thrown.ports } := .single (.ports (.forwardFails htype heq))
    exact ⟨hmoves, standing_of_moves hmoves hb⟩

/-- What a handler is in the middle of after it took a sequence. -/
def underwayOf (frame : FwavFrame) : Underway :=
  if frame.type = .fipsPacket then .packet frame else .nothing

/-- A frame in its order is handled by its type. -/
theorem safely_acceptFrame {frame : FwavFrame}
    (hcarries : Carries (.handler socket message) socket frame) :
    Safely options prompt (.handler socket message)
      (fun b => b.trial.begun (.handler socket message) = none ∧
        socket < b.ports.socketCount ∧ (b.ports.sockets socket).underway = underwayOf frame)
      (acceptFrame options (.handler socket message) socket frame) (fun _ _ => True) := by
  have hcontrol : Safely options prompt (.handler socket message)
      (fun b => b.trial.begun (.handler socket message) = none ∧
        socket < b.ports.socketCount ∧ (b.ports.sockets socket).underway = underwayOf frame)
      (acceptControl options (.handler socket message) socket frame) (fun _ _ => True) :=
    (safely_acceptControl options hcarries).weaken (fun _ hb => hb.1) (fun _ _ hb => hb)
  unfold acceptFrame
  split
  · next htype =>
    exact (safely_acceptReset options hcarries htype).weaken (fun _ hb => ⟨hb.1, hb.2.1⟩)
      (fun _ _ hb => hb)
  · next htype =>
    refine (safely_acceptPacket options hcarries htype).weaken (fun _ hb => ?_) (fun _ _ hb => hb)
    rw [hb.2.2, underwayOf, if_pos htype]
  · exact hcontrol
  · exact hcontrol
  · exact hcontrol
  · exact (safely_acceptAudioSettings options frame).weaken (fun _ _ => trivial) (fun _ _ hb => hb)
  · refine safely_current (fun b₀ hfacts => ?_)
    split
    · refine (safely_acceptCyrinxCapture options rfl socket).weaken ?_ (fun _ _ hb => hb)
      rintro b rfl
      exact hfacts.1
    · exact (safely_enqueue options frame).weaken (fun _ _ => trivial) (fun _ _ hb => hb)

theorem underway_takeSequence (frame : FwavFrame) (p : Ports) :
    ((takeSequence socket frame p).sockets socket).underway = underwayOf frame := by
  simp [takeSequence, modifySocket, underwayOf]

/-- A frame that is above the last sequence takes it and is handled. -/
theorem safely_acceptInOrder (frame : FwavFrame) :
    Safely options prompt (.handler socket message)
      (fun b => b.trial.begun (.handler socket message) = none ∧
        socket < b.ports.socketCount ∧ Takes (.handler socket message) socket frame b.ports)
      (acceptInOrder options (.handler socket message) socket frame) (fun _ _ => True) := by
  refine safely_current (fun b₀ hfacts => ?_)
  split
  · exact safely_raise _
  · next horder =>
    refine Safely.bind (Q := fun _ b => (b.trial.begun (.handler socket message) = none ∧
        socket < b.ports.socketCount ∧ (b.ports.sockets socket).underway = underwayOf frame) ∧
        Takes (.handler socket message) socket frame b.ports)
      (safely_onPorts (fun b _ heq => ?_)) (fun _ => ?_)
    · subst heq
      refine ⟨.takes hfacts.2.2 (not_le.mp horder),
        ⟨hfacts.1, hfacts.2.1, underway_takeSequence frame b.ports⟩, hfacts.2.2.message,
        hfacts.2.2.epoch, ?_⟩
      have hopen := hfacts.2.2.open_
      simpa [takeSequence, modifySocket] using hopen
    · split
      · next htype =>
        exact safely_attempt options (fun b _ hb => ⟨.hails hb.2 htype, trivial⟩)
      · have hkept : Kept options prompt (.handler socket message) _ :=
          (kept_begun none).and (kept_underway socket message (underwayOf frame))
        exact Safely.bind (((calmly_expireCyrinx options).safely hkept).weaken
          (fun _ hb => ⟨trivial, hb.1⟩) (fun _ _ hb => hb.2))
          (fun _ => safely_acceptFrame options hfacts.2.2.message)

/-- A frame of the current epoch is handled in its order, or without one if it has none. -/
theorem safely_acceptCurrent (frame : FwavFrame) :
    Safely options prompt (.handler socket message)
      (fun b => b.trial.begun (.handler socket message) = none ∧
        socket < b.ports.socketCount ∧ Takes (.handler socket message) socket frame b.ports)
      (acceptCurrent options (.handler socket message) socket frame) (fun _ _ => True) := by
  have hclock : ∀ P : Ports → Prop, Safely options prompt (.handler socket message)
      (fun b => P b.ports) (clock options) (fun _ b => P b.ports) :=
    fun P => (calmly_clock options (R := fun p _ => P p)).toSafely
  unfold acceptCurrent
  split
  · next htype =>
    refine Safely.bind ((hclock (Takes (.handler socket message) socket frame)).weaken
      (fun _ hb => hb.2.2) (fun _ _ hb => hb)) (fun now => ?_)
    exact safely_attempt options (fun b _ hb => ⟨.answers now hb htype, trivial⟩)
  · next htype =>
    refine Safely.bind ((hclock (Takes (.handler socket message) socket frame)).weaken
      (fun _ hb => hb.2.2) (fun _ _ hb => hb)) (fun now => ?_)
    exact safely_attempt options (fun b _ hb => ⟨.readies now hb htype, trivial⟩)
  · next htype =>
    exact safely_attempt options (fun b _ hb => ⟨.disarms hb.2.2 htype, trivial⟩)
  · exact safely_acceptInOrder options frame

/-- A message is decoded, and its frame handled if it is of the current epoch and the connection may
send it. -/
theorem safely_acceptMessage :
    Safely options prompt (.handler socket message)
      (fun b => b.trial.begun (.handler socket message) = none ∧ socket < b.ports.socketCount)
      (acceptMessage options (.handler socket message) socket message) (fun _ _ => True) := by
  unfold acceptMessage
  split
  · exact safely_raise _
  · next hbinary =>
    split
    · exact safely_raise _
    · next frame hdecode =>
      refine safely_current (fun b₀ hfacts => ?_)
      dsimp only
      split
      · exact safely_raise _
      · next hepoch =>
        split
        · exact safely_raise _
        · next hgate =>
          refine (safely_acceptCurrent options frame).weaken ?_ (fun _ _ hb => hb)
          rintro b rfl
          refine ⟨hfacts.1, hfacts.2, ⟨message.rawData, ?_, hdecode⟩, not_not.mp hepoch,
            fun hmust => by_contra (fun htype => hgate ⟨hmust, htype⟩)⟩
          rw [Bool.not_eq_true', Bool.not_eq_false] at hbinary
          rw [← hbinary]

/-- A message that is refused may be: an answer is refused only for one of a few reasons. -/
def Refusable (socket : ℕ) (message : RawMessage) (b : Bridge) : Prop :=
  ∀ frame result, answerOf message = some (frame, result) → RefusesAnswer socket frame b.ports

/-- What a message that carries an answer is. -/
theorem answerOf_some {message : RawMessage} {frame : FwavFrame} {result : FipsPacketAdmission}
    (h : answerOf message = some (frame, result)) : message.isBinary = true ∧
      decodeFrame message.rawData = .ok frame ∧ frame.type = .fipsPacketAdmission ∧
      decodeFipsPacketAdmission frame.payload = .ok result := by
  unfold answerOf at h
  split at h
  · next decoded hbinary hdecode =>
    split at h
    · next htype =>
      split at h
      · next answer hanswer =>
        cases h
        exact ⟨hbinary, hdecode, htype, hanswer⟩
      · cases h
    · cases h
  · cases h

/-- An answer is refused only if it is ahead of the packet that waits, or no packet at the head
of the queue does. -/
theorem refusesAnswer_of_error {options : PortOptions} {frame : FwavFrame}
    {result : FipsPacketAdmission} {now : ℕ} {p : Ports} {thrown : Thrown}
    (hresult : decodeFipsPacketAdmission frame.payload = .ok result)
    (h : acceptBrowserAdmission options socket frame now p = .error thrown) :
    RefusesAnswer socket frame thrown.ports := by
  unfold acceptBrowserAdmission at h
  split at h
  · cases h
  · next pending hpending =>
    split at h
    · cases h
    · next howned =>
      rw [not_or, not_or, not_not, not_not, not_not] at howned
      split at h
      · cases h
      · next hahead =>
        split at h
        · next hne =>
          cases h
          refine .inr (.inr ⟨pending, hpending, .inl ⟨howned.1, howned.2.1, howned.2.2, ?_⟩⟩)
          omega
        · rw [hresult] at h
          cases result with
          | accepted => cases h
          | queueFull =>
            have hsame : (if pending.attempts = 1 then
                notifyFipsPacketAdmission options pending.entry.frame .queueFull p
                else p).pendingBrowserAdmission = some pending := by
              split
              · rw [pending_notifyAdmission, hpending]
              · exact hpending
            simp only [admissionQueueFull] at h
            generalize (if pending.attempts = 1 then
              notifyFipsPacketAdmission options pending.entry.frame .queueFull p else p) = q
              at hsame h
            split at h
            · split at h
              · next hmismatch =>
                cases h
                exact .inr (.inr ⟨pending, hsame, .inr hmismatch⟩)
              · cases h
            · cases h

/-- A message is accepted, or it may be refused. The refusal matters for the answer to a packet; all
other messages are covered by the safe methods. -/
theorem meets_acceptMessage :
    Meets (contract options prompt (.handler socket message))
      (fun b => Standing b ∧ b.trial.begun (.handler socket message) = none ∧
        socket < b.ports.socketCount)
      (acceptMessage options (.handler socket message) socket message)
      (fun _ b => Standing b) (fun _ b => Standing b ∧ Refusable socket message b) := by
  rcases hanswer : answerOf message with _ | ⟨frame, result⟩
  · refine Meets.weaken (safely_acceptMessage options) (fun _ hb => hb) (fun _ _ hb => hb.1) ?_
    intro _ b hb
    refine ⟨hb, fun frame result h => ?_⟩
    rw [hanswer] at h
    cases h
  · obtain ⟨hbinary, hdecode, htype, hresult⟩ := answerOf_some hanswer
    intro b ⟨hb, hnone, hsocket⟩
    have hrefusable : ∀ b' : Bridge, RefusesAnswer socket frame b'.ports →
        Refusable socket message b' := by
      intro b' hrefuses frame' result' h
      rw [hanswer] at h
      cases h
      exact hrefuses
    unfold acceptMessage
    rw [hbinary, hdecode]
    change Upholds _ _ _ b ((if frame.epoch ≠ b.ports.epoch then
      (raise (.input "stale_or_duplicate_frame") : BridgeM Unit)
      else if (b.ports.sockets socket).connection.mustResetBeforeUse ∧ frame.type ≠ .reset then
        raise (.input "recovery_reset_required")
      else acceptCurrent options (.handler socket message) socket frame) b)
    split
    · next hepoch => exact ⟨.refl, hb, hrefusable b (.inl hepoch)⟩
    · next hepoch =>
      split
      · next hgate => exact ⟨.refl, hb, hrefusable b (.inr (.inl hgate.1))⟩
      · next hgate =>
        have htakes : Takes (.handler socket message) socket frame b.ports :=
          ⟨⟨message.rawData, by rw [← hbinary], hdecode⟩, not_not.mp hepoch,
            fun hmust => by_contra (fun hother => hgate ⟨hmust, hother⟩)⟩
        have hmove : PortMove options.ports (.handler socket message) b.ports _ :=
          .answers (options.now b.readings) htakes htype
        have hmoves : ReflTransGen (Move options prompt (.handler socket message)) b
            { b with
              ports := leftPorts (acceptBrowserAdmission options.ports socket frame
                (options.now b.readings) b.ports)
              readings := b.readings + 1 } :=
          (ReflTransGen.single (.ports hmove)).tail (.reads _)
        have hstanding := standing_of_moves hmoves hb
        unfold acceptCurrent
        rw [htype]
        change Upholds _ _ _ b (attempt (acceptBrowserAdmission options.ports socket frame
          (options.now b.readings)) { b with readings := b.readings + 1 })
        unfold attempt
        dsimp only
        split
        · next q heq =>
          rw [heq] at hmoves hstanding
          exact ⟨hmoves, hstanding⟩
        · next thrown heq =>
          rw [heq] at hmoves hstanding
          exact ⟨hmoves, hstanding, hrefusable _ (refusesAnswer_of_error hresult heq)⟩

/-- An error closes the socket. -/
theorem safely_rejectMessage (error : Refusal) :
    Safely options prompt (.handler socket message) (Refusable socket message)
      (rejectMessage options socket message error) (fun _ _ => True) := by
  refine Safely.bind (Q := fun _ b => ∃ m ∈ b.ports.refused, m.socket = socket)
    (safely_onPorts (fun b _ hb => ⟨.refuses rfl hb, _, List.mem_append_right _ (.head _), rfl⟩))
    (fun _ => ?_)
  have hclose : Safely options prompt (.handler socket message)
      (fun b => ∃ m ∈ b.ports.refused, m.socket = socket)
      (onPorts (rejectSocket socket)) (fun _ _ => True) :=
    safely_onPorts (fun b _ hb => ⟨.rejects socket (.inr ⟨⟨message, rfl⟩, hb⟩), trivial⟩)
  cases error with
  | other => exact hclose
  | input reasonCode =>
    dsimp only
    split
    · have hfails : Calmly options prompt (.handler socket message) (fun _ => True)
          (onTrial (addFailure reasonCode)) (fun _ _ => True) :=
        calmly_onTrial (fun b _ _ => ⟨quietly_addFailure _ _, trivial⟩)
      have hpersists : Calmly options prompt (.handler socket message) (fun _ => True)
          (persist options none) (fun _ _ => True) :=
        (calmly_persist options none (blankFact 0 0)).weaken
          (fun b _ => ⟨rfl, recorded_blankFact options b.trial⟩) (fun _ _ _ => trivial)
      have hwaits : ∀ on, Calmly options prompt (.handler socket message) (fun _ => True)
          (await on) (fun _ _ => True) := fun on =>
        (calmly_await kept_true (Q := fun _ _ => True) (fun _ _ _ _ _ => trivial))
      have hkept : Kept options prompt (.handler socket message)
          (fun b => ∃ m ∈ b.ports.refused, m.socket = socket) := kept_refused socket
      refine Safely.bind ((hfails.safely hkept).weaken (fun _ hb => ⟨trivial, hb⟩)
        (fun _ _ hb => hb.2)) (fun _ => ?_)
      refine Safely.bind ((hpersists.safely hkept).weaken (fun _ hb => ⟨trivial, hb⟩)
        (fun _ _ hb => hb.2)) (fun on => ?_)
      exact Safely.bind (((hwaits on).safely hkept).weaken (fun _ hb => ⟨trivial, hb⟩)
        (fun _ _ hb => hb.2)) (fun _ => hclose)
    · exact hclose

/-- What a message throws rejects its socket, and everything else stays. -/
theorem safely_handleFrame :
    Safely options prompt (.handler socket message)
      (fun b => b.trial.begun (.handler socket message) = none ∧ socket < b.ports.socketCount)
      (handleFrame options socket message) (fun _ _ => True) := by
  refine Meets.catching (E := fun _ b => Standing b ∧ Refusable socket message b) ?_
    (safely_rejectMessage options)
  exact (meets_acceptMessage options).weaken (fun _ hb => hb) (fun _ _ hb => ⟨hb, trivial⟩)
    (fun _ _ hb => hb)

end Handlers

section Others

variable {socket : ℕ} {message : RawMessage} (options : BridgeServerOptions)

/-- What is noted about a connection when a message arrives. -/
theorem safely_note {a : Actor} {f : BrowserConnectionState → BrowserConnectionState}
    (hf : ∀ c, Noted c (f c)) (P : Trial → Prop) :
    Safely options prompt a (fun b => P b.trial) (onPorts (modifyConnection socket f))
      (fun _ b => P b.trial) :=
  safely_onPorts (fun _ _ hb => ⟨.notes hf, hb⟩)

/-- An urgent frame of a new epoch is noted at its connection. -/
theorem noted_meetEpoch (urgent : FwavFrame) (c : BrowserConnectionState) :
    Noted c (meetEpoch urgent c) := by
  unfold meetEpoch
  split <;> exact ⟨rfl, rfl, rfl, rfl⟩

theorem noted_keepPreempted (sequence : ℕ) (c : BrowserConnectionState) :
    Noted c (keepPreempted sequence c) := ⟨rfl, rfl, rfl, rfl⟩

/-- A control that ends native work at its arrival. -/
theorem safely_preempt (sequence : ℕ) {next : Bool → BridgeM Unit}
    (hnext : ∀ fell, Safely options prompt (.arrival socket message) (fun _ => True) (next fell)
      (fun _ _ => True)) :
    Safely options prompt (.arrival socket message) (fun b => b.trial.session.codec = .cyrinx)
      (do
        onPorts (modifyConnection socket (keepPreempted sequence))
        let nowMs ← clock options
        let fell ← attemptTrial (preemptNative nowMs)
        next fell)
      (fun _ _ => True) := by
  refine Safely.bind (safely_note options (noted_keepPreempted sequence)
    (fun t => t.session.codec = .cyrinx)) (fun _ => ?_)
  refine Safely.bind (calmly_clock options (R := fun _ t => t.session.codec = .cyrinx)).toSafely
    (fun nowMs => ?_)
  refine Safely.bind (Q := fun _ _ => True)
    (safely_attemptTrial (fun b hb hcodec => ⟨?_, fun _ _ => trivial⟩)) hnext
  exact moves_preemptNative nowMs hb.poised (hb.poised.none_of_not_agent rfl) hcodec

/-- A RESET that arrives behind other messages resets the native work at once. -/
theorem safely_preemptReset (urgent : FwavFrame) :
    Safely options prompt (.arrival socket message) (fun _ => True) (preemptReset options socket urgent)
      (fun _ _ => True) := by
  unfold preemptReset
  split
  · exact safely_pure () (fun _ _ => trivial)
  · refine safely_current (fun b₀ _ => ?_)
    split
    · next hcodec =>
      refine (safely_preempt options urgent.sequence
        (fun _ => safely_pure () (fun _ _ => trivial))).weaken ?_ (fun _ _ hb => hb)
      rintro b rfl
      exact hcodec
    · exact safely_pure () (fun _ _ => trivial)

/-- An ERROR that arrives behind other messages falls back at once. -/
theorem safely_preemptError (urgent : FwavFrame) :
    Safely options prompt (.arrival socket message) (fun _ => True) (preemptError options socket urgent)
      (fun _ _ => True) := by
  unfold preemptError
  split
  · exact safely_pure () (fun _ _ => trivial)
  · split
    · exact safely_pure () (fun _ _ => trivial)
    · refine safely_current (fun b₀ _ => ?_)
      dsimp only
      refine Safely.bind (Q := fun _ b => b.trial = b₀.trial)
        (safely_onPorts (fun b _ heq =>
          ⟨.notes (fun _ => ⟨rfl, rfl, rfl, rfl⟩), by rw [heq]⟩)) (fun _ => ?_)
      split
      · next horigin =>
        have hcodec : b₀.trial.session.codec = .cyrinx := by
          unfold originOf at horigin
          split at horigin
          · next hcodec => exact hcodec
          · cases horigin
          · cases horigin
        refine (safely_preempt options urgent.sequence (fun fell => ?_)).weaken
          (fun b hb => by rw [hb]; exact hcodec) (fun _ _ hb => hb)
        cases fell with
        | true => exact (calmly_reportAndPublish options).toSafely
        | false => exact safely_pure () (fun _ _ => trivial)
      · exact safely_pure () (fun _ _ => trivial)

/-- An urgent message is acted upon when it arrives, and handled in its turn. -/
theorem safely_preemptUrgentControl :
    Safely options prompt (.arrival socket message) (fun _ => True)
      (preemptUrgentControl options socket message) (fun _ _ => True) := by
  refine Meets.catching (E := fun _ b => Standing b) ?_
    (fun _ => meets_pure () (fun _ hb => ⟨hb, trivial⟩))
  change Safely options prompt (.arrival socket message) (fun _ => True) _ (fun _ _ => True)
  split
  · exact safely_pure () (fun _ _ => trivial)
  · split
    · exact safely_pure () (fun _ _ => trivial)
    · next urgent _ =>
      refine safely_current (fun b₀ _ => ?_)
      split
      · exact safely_pure () (fun _ _ => trivial)
      · refine Safely.bind (Q := fun _ _ => True)
          ((safely_note options (noted_meetEpoch urgent) (fun _ => True)).weaken
            (fun _ _ => trivial) (fun _ _ hb => hb)) (fun _ => safely_current (fun b₁ _ => ?_))
        dsimp only
        split
        · exact safely_pure () (fun _ _ => trivial)
        · refine Safely.bind (Q := fun _ _ => True)
            (safely_onPorts (fun b _ _ => ⟨.notes (fun _ => ⟨rfl, rfl, rfl, rfl⟩), trivial⟩))
            (fun _ => ?_)
          split
          · exact safely_preemptReset options urgent
          · exact safely_preemptError options urgent
          · exact safely_pure () (fun _ _ => trivial)

/-- A message that arrives waits in its inbox, and is acted upon if it is urgent. -/
theorem safely_receive :
    Safely options prompt (.arrival socket message) (fun b => (b.ports.sockets socket).attached = true)
      (receive options socket message) (fun _ _ => True) := by
  refine Safely.bind (Q := fun _ _ => True)
    (safely_onPorts (fun b _ hb => ⟨.receives rfl hb, trivial⟩))
    (fun _ => safely_current (fun b₀ _ => ?_))
  split
  · exact (safely_preemptUrgentControl options).weaken (fun _ _ => trivial) (fun _ _ hb => hb)
  · exact safely_pure () (fun _ _ => trivial)

/-- A browser that comes in is greeted, once the report of a fallback was written. -/
theorem safely_greetBrowser :
    Safely options prompt (.greeting socket) (fun b => b.ports.socketCount = socket)
      (greetBrowser options) (fun _ _ => True) := by
  refine safely_current (fun b₀ hcount => ?_)
  dsimp only
  refine Safely.bind (Q := fun _ _ => True) (safely_onPorts (fun b _ heq => ⟨?_, trivial⟩))
    (fun _ => Calmly.toSafely ?_)
  · subst heq
    exact .greets (by rw [hcount])
  · split
    · exact calmly_pure () (fun _ _ => trivial)
    · refine (calmly_expireCyrinx options).bind (fun expired => ?_)
      cases expired with
      | true => exact calmly_pure () (fun _ _ => trivial)
      | false =>
        refine (calmly_clock options (R := fun _ _ => True)).bind
          (fun nowMs => calmly_current (fun b₁ _ => ?_))
        refine Calmly.bind (Q := fun _ _ => True)
          (calmly_askTrial (fun b _ _ => ⟨quietly_sessionSnapshot _ _ _, trivial⟩))
          (fun published => ?_)
        cases published with
        | none => exact calmly_pure () (fun _ _ => trivial)
        | some published =>
          dsimp only
          split
          · exact calmly_change (fun b _ _ => ⟨calm_tell _ b rfl, trivial⟩)
          · exact calmly_pure () (fun _ _ => trivial)

/-- The close of a socket frees its endpoint, and falls back if it was the trial's. -/
theorem safely_closeSocket :
    Safely options prompt (.closure socket) (fun b => (b.ports.sockets socket).attached = true)
      (closeSocket options socket) (fun _ _ => True) := by
  refine safely_current (fun b₀ hattached => ?_)
  dsimp only
  split
  · next hendpoint =>
    refine safely_onPorts (fun b _ heq => ⟨?_, trivial⟩)
    subst heq
    exact .leavesFips rfl hattached hendpoint
  · next hendpoint =>
    refine Safely.bind (Q := fun _ _ => True) (safely_onPorts (fun b _ heq => ⟨?_, trivial⟩))
      (fun _ => ?_)
    · subst heq
      exact .leaves rfl hattached hendpoint
    · split
      · exact (calmly_activateCurrentFallback options false).toSafely
      · exact safely_pure () (fun _ _ => trivial)

/-- The timer of the deadline makes the session expire. -/
theorem safely_expiryTimer {a : Actor} :
    Safely options prompt a (fun _ => True) (expiryTimer options) (fun _ _ => True) :=
  Calmly.toSafely (Calmly.bind (Q := fun _ _ => True)
    (calmly_onTrial (fun _ _ _ => ⟨quietly_incidental _ _ _ _ _ _ _, trivial⟩))
    (fun _ => calmly_forceExpireCyrinx options))

/-- A broadcast whose turn has come is made. -/
theorem safely_microtask {a : Actor} :
    Safely options prompt a (fun _ => True) (microtask options) (fun _ _ => True) :=
  Calmly.toSafely (Calmly.bind (Q := fun _ _ => True)
    (calmly_onTrial (fun _ _ _ => ⟨quietly_incidental _ _ _ _ _ _ _, trivial⟩))
    (fun _ => calmly_broadcastSession options))

/-- The writer begins with the oldest report, if it is for the current generation. -/
theorem safely_beginWrite (index : ℕ) :
    Safely options prompt .environment (fun _ => True) (onTrial (beginWrite index)) (fun _ _ => True) := by
  refine safely_onTrial (fun b _ _ => ⟨?_, trivial⟩)
  rcases beginWrite_cases index b.trial with
    heq | ⟨task, htask, hqueued, hturn, ⟨hgeneration, heq⟩ | ⟨hgeneration, heq⟩⟩
  · rw [heq]
    exact .refl
  · rw [heq]
    exact .single (.skip rfl htask hqueued hturn hgeneration)
  · rw [heq]
    exact .single (.hand rfl htask hqueued hturn hgeneration)

/-- The writer is done with a report, and what waits for it may go on. -/
theorem safely_concludeWrite (index : ℕ) (succeeded : Bool) :
    Safely options prompt .environment (fun _ => True) (concludeWrite options index succeeded)
      (fun _ _ => True) := by
  refine Safely.bind (Q := fun _ _ => True) (safely_askTrial (fun b _ _ => ⟨?_, trivial⟩))
    (fun publish => ?_)
  · rcases endWrite_cases index succeeded b.trial with heq | ⟨task, htask, hwriting, heq⟩
    · rw [heq]
      exact .refl
    · rw [heq]
      exact .single (.conclude succeeded rfl htask hwriting)
  · cases publish with
    | true => exact (calmly_broadcastSession options).toSafely
    | false => exact safely_pure () (fun _ _ => trivial)

/-- A message of the worker is handled without a wait. -/
theorem safely_handleFips :
    Safely options prompt (.handler socket message)
      (fun b => (b.ports.sockets socket).endpoint = .fips)
      (handleFips options socket message) (fun _ _ => True) :=
  (calmly_clock options (R := fun p _ => (p.sockets socket).endpoint = .fips)).toSafely.bind
    (fun now => safely_onPorts (fun _ _ hb => ⟨.submits now rfl hb, trivial⟩))

end Others

end Fipwave.BridgeMoves
