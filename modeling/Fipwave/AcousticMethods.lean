import Fipwave.AcousticState

/-!
# Methods every handler of a session uses

Transmission, timers, failure, degradation and reset. A method that can throw
answers with the session it leaves on either exit.
-/

namespace Fipwave.AcousticMethods

open ByteWords ThrowingMethod AcousticProtocol SettingsCommitment PacketFragments AcousticHandshake
  AcousticState

variable (options : AcousticSessionOptions)

/-- Hand a unit to the modem once it is encoded. -/
def transmit (unit : Fas1Unit) (s : AcousticSession) : Outcome :=
  match encodeFas1 unit with
  | .error message => throwIn message s
  | .ok _ => .ok { s with io.sent := s.io.sent ++ [unit] }

/-- A control unit with the current transmission counter. -/
def controlUnit (type : Fas1UnitType) (sessionId : ℕ) (body : Bytes) (sequence : ℕ) : Fas1Unit :=
  { type, flags := senderFlag options.role, sessionId, sequence, packetId := 0,
    fragmentIndex := 0, fragmentCount := 0, packetLength := 0, body }

/-- Send a control unit; the transmission counter advances before the encoder may throw. -/
def send (type : Fas1UnitType) (sessionId : Option ℕ) (body : Bytes) (s : AcousticSession) :
    Outcome :=
  let advanced := { s with sequence := s.sequence + 1 }
  match sessionId with
  | none => throwIn "FAS1 session ID is out of range" advanced
  | some id => transmit (controlUnit options type id body s.sequence) advanced

/-- A transmission that returns hands a well-formed unit to the modem. -/
theorem transmit_ok {unit : Fas1Unit} {s t : AcousticSession} (h : transmit unit s = .ok t) :
    unit.WellFormed ∧ t = { s with io.sent := s.io.sent ++ [unit] } := by
  unfold transmit at h
  cases he : encodeFas1 unit with
  | error message => simp [he, throwIn] at h
  | ok raw =>
    rw [he] at h
    exact ⟨(encodeFas1_ok_iff unit).mp ⟨raw, he⟩, (Except.ok.inj h).symm⟩

/-- A transmission that throws changes nothing. -/
theorem transmit_error {unit : Fas1Unit} {s : AcousticSession} {f : Fault AcousticSession}
    (h : transmit unit s = .error f) : ¬unit.WellFormed ∧ f.state = s := by
  unfold transmit at h
  cases he : encodeFas1 unit with
  | error message =>
    rw [he] at h
    refine ⟨fun hw => ?_, by rw [← Except.error.inj h]⟩
    obtain ⟨raw, hr⟩ := (encodeFas1_ok_iff unit).mpr hw
    simp [hr] at he
  | ok raw => simp [he] at h

/-- A control unit that is sent is well formed and advances the counter. -/
theorem send_ok {type : Fas1UnitType} {sessionId : Option ℕ} {body : Bytes}
    {s t : AcousticSession} (h : send options type sessionId body s = .ok t) :
    ∃ id, sessionId = some id ∧ (controlUnit options type id body s.sequence).WellFormed ∧
      t = { s with
        sequence := s.sequence + 1
        io.sent := s.io.sent ++ [controlUnit options type id body s.sequence] } := by
  cases sessionId with
  | none => simp [send, throwIn] at h
  | some id =>
    obtain ⟨hw, ht⟩ := transmit_ok h
    exact ⟨id, rfl, hw, ht⟩

/-- A control unit the encoder refuses still advances the counter. -/
theorem send_error {type : Fas1UnitType} {sessionId : Option ℕ} {body : Bytes}
    {s : AcousticSession} {f : Fault AcousticSession}
    (h : send options type sessionId body s = .error f) :
    f.state = { s with sequence := s.sequence + 1 } := by
  cases sessionId with
  | none => exact (congrArg Fault.state (Except.error.inj h)).symm
  | some id => exact (transmit_error h).2

/-- The encoder refuses a unit of a session only when it is not well formed. -/
theorem send_refused {type : Fas1UnitType} {id : ℕ} {body : Bytes} {s : AcousticSession}
    {f : Fault AcousticSession} (h : send options type (some id) body s = .error f) :
    ¬(controlUnit options type id body s.sequence).WellFormed := (transmit_error h).1

/-- Which bodyless control units are well formed. -/
theorem controlUnit_wellFormed_iff {type : Fas1UnitType} {id sequence : ℕ}
    (htype : type = .turnEnd ∨ type = .heartbeat ∨ type = .reset) :
    (controlUnit options type id [] sequence).WellFormed ↔
      id ≠ 0 ∧ id ≤ uint64Max ∧ sequence ≤ uint32Max := by
  have hflags : senderFlag options.role = fas1SenderA ∨ senderFlag options.role = fas1SenderB := by
    cases options.role <;> simp [senderFlag]
  have hcontrol : ∀ {id : ℕ}, id ≠ 0 →
      validateControl (controlUnit options type id [] sequence) = .ok () := by
    intro id hid
    rcases htype with rfl | rfl | rfl <;> simp [validateControl, controlUnit, bodylessTypes, hid]
  constructor
  · intro h
    refine ⟨?_, h.sessionId, h.sequence⟩
    rintro rfl
    have hc := h.control (by rcases htype with rfl | rfl | rfl <;> simp [controlUnit])
    rcases htype with rfl | rfl | rfl <;>
      simp [validateControl, controlUnit, AcousticProtocol.fail] at hc
  · rintro ⟨hid, hmax, hseq⟩
    refine ⟨hflags, hmax, hseq, Nat.zero_le _, Nat.zero_le _, Nat.zero_le _, Nat.zero_le _,
      Nat.zero_le _, ?_, fun _ => hcontrol hid⟩
    intro hdata
    rcases htype with rfl | rfl | rfl <;> simp [controlUnit] at hdata

/-- The ACK of a bitmap; its transmission counter is the bitmap. -/
def ackUnit (sessionId packetId bitmap : ℕ) : Fas1Unit :=
  { type := .ack, flags := senderFlag options.role, sessionId, sequence := bitmap, packetId,
    fragmentIndex := 0, fragmentCount := 0, packetLength := 0, body := [] }

/-- Acknowledge the fragments of a bitmap. -/
def sendAck (packetId bitmap : ℕ) (s : AcousticSession) : Outcome :=
  match s.link.sessionId with
  | none => .ok s
  | some sessionId => transmit (ackUnit options sessionId packetId bitmap) s

/-- The transmission made last answered with a promise. -/
def lastAsynchronous (s : AcousticSession) : Bool := s.io.sent.getLast?.any options.asynchronous

/-- Leave a continuation on the transmission made last. -/
def continueAfterPlayback (site : Site) (s : AcousticSession) : AcousticSession :=
  { s with tasks.pending := s.tasks.pending ++
      [⟨site, s.link.generation, lastAsynchronous options s⟩] }

/-- The epoch, session and generation a timer captures. -/
def boundTimer (delayMs : ℕ) (s : AcousticSession) : BoundTimer :=
  ⟨s.link.epoch, s.link.sessionId, s.link.generation, delayMs⟩

/-- A timer still belongs to the epoch, session and generation it captured. -/
def BoundTimer.current (timer : BoundTimer) (s : AcousticSession) : Bool :=
  timer.epoch = s.link.epoch ∧ timer.sessionId = s.link.sessionId ∧
    timer.generation = s.link.generation

/-- Clear the delivery timer. -/
def clearDeliveryTimer (s : AcousticSession) : AcousticSession :=
  { s with timers.deliveryTimer := none }

/-- Clear the handshake retransmission. -/
def clearHandshakeRetry (s : AcousticSession) : AcousticSession :=
  { s with timers.handshakeTimer := none, counters.handshakeAttempts := 0 }

/-- Clear the probe retransmission. -/
def clearProbeRetry (s : AcousticSession) : AcousticSession :=
  { s with timers.probeTimer := none, calibration.probeRetry := none }

/-- Clear the COMMIT retransmission. -/
def clearCommitRetry (s : AcousticSession) : AcousticSession :=
  { s with timers.commitTimer := none, counters.commitAttempts := 0 }

/-- Clear both heartbeat timers and invalidate a deadline that already fired. -/
def clearHeartbeatTimers (s : AcousticSession) : AcousticSession :=
  { s with
    timers.heartbeatTimer := none
    timers.heartbeatDeadline := none
    timers.heartbeatTimerGeneration := s.timers.heartbeatTimerGeneration + 1 }

/-- Arm the delivery timer in place of the one it holds. -/
def schedule (task : DeliveryTask) (delayMs : ℕ) (s : AcousticSession) : AcousticSession :=
  { s with timers.deliveryTimer := some ⟨s.link.epoch, s.link.sessionId, task, delayMs⟩ }

/-- Outbound direction of committed settings. -/
def outboundOf (settings : AcousticSettings) : DirectionalSettings :=
  match options.role with
  | .a => settings.aToB
  | .b => settings.bToA

/-- Inbound direction of committed settings. -/
def inboundOf (settings : AcousticSettings) : DirectionalSettings :=
  match options.role with
  | .a => settings.bToA
  | .b => settings.aToB

/-- Outbound settings; there are none before the commit. -/
def outboundSettings (s : AcousticSession) : Except (Fault AcousticSession) DirectionalSettings :=
  match s.commitment.settings with
  | none => throwIn "acoustic session settings are not committed" s
  | some settings => .ok (outboundOf options settings)

/-- Inbound payload size; there is none before the commit. -/
def inboundPayloadBytes (s : AcousticSession) : Except (Fault AcousticSession) ℕ :=
  match s.commitment.settings with
  | none => throwIn "acoustic session settings are not committed" s
  | some settings => .ok (inboundOf options settings).payloadBytes

/-- Guard between turns. -/
def guardMs (s : AcousticSession) : ℕ :=
  match s.commitment.settings with
  | none => 750
  | some settings => (outboundOf options settings).guardMs

/-- Time to wait for an ACK. -/
def ackTimeoutMs (s : AcousticSession) : ℕ :=
  match s.commitment.settings with
  | none => 4000
  | some settings => (outboundOf options settings).ackTimeoutMs

/-- Apply a candidate to the modem. -/
def applyCandidate (candidate : AcousticCandidate) (s : AcousticSession) : AcousticSession :=
  { s with io.applied := s.io.applied ++ [candidate] }

/-- The selected candidate of the outbound direction. -/
def outboundCandidate (s : AcousticSession) : Option AcousticCandidate :=
  match options.role with
  | .a => s.calibration.selected.aToB
  | .b => s.calibration.selected.bToA

/-- Apply the selected outbound candidate, if there is one. -/
def applyOutboundCandidate (s : AcousticSession) : AcousticSession :=
  match outboundCandidate options s with
  | none => s
  | some candidate => applyCandidate candidate s

/-- Give the session up. The delivery timer is not cleared. -/
def fail (reason : String) (s : AcousticSession) : AcousticSession :=
  { clearHeartbeatTimers (clearCommitRetry (clearProbeRetry (clearHandshakeRetry
      { s with timers.timer := none }))) with
    state := .error
    reason := some reason }

/-- Leave the ready state and schedule a recovery. -/
def degrade (reason : String) (s : AcousticSession) : AcousticSession :=
  if s.state = .error ∨ s.state = .degraded then s
  else
    schedule .beginRecovery (guardMs options s)
      { clearDeliveryTimer s with
        state := .degraded
        reason := some reason
        delivery.awaitingAck := false }

/-- The peer was not heard in time. -/
def markHeartbeatMissed (s : AcousticSession) : AcousticSession :=
  if s.state ≠ .ready ∧ s.state ≠ .recovering then s
  else
    schedule .beginRecovery (guardMs options s)
      { clearHeartbeatTimers (clearDeliveryTimer s) with
        state := .degraded
        reason := some "acoustic_heartbeat_missed"
        delivery.awaitingAck := false }

/-- Arm the periodic heartbeat for what a closure captured. -/
def scheduleHeartbeat (captured : BoundTimer) (s : AcousticSession) : AcousticSession :=
  if s.timers.heartbeatTimer ≠ none ∨ !(BoundTimer.current captured s) ∨ s.state ≠ .ready then s
  else
    { s with timers.heartbeatTimer := some { captured with delayMs := ackTimeoutMs options s } }

/-- Arm the periodic heartbeat and restart the liveness deadline. -/
def armHeartbeatTimers (s : AcousticSession) : AcousticSession :=
  if s.link.sessionId = none ∨ s.state ≠ .ready then s
  else
    let s := scheduleHeartbeat options (boundTimer 0 s) s
    { s with
      timers.heartbeatTimerGeneration := s.timers.heartbeatTimerGeneration + 1
      timers.heartbeatDeadline := some
        { toBoundTimer := boundTimer (max minDeadlineMs (ackTimeoutMs options s * 4)) s
          deadlineGeneration := s.timers.heartbeatTimerGeneration + 1 } }

/-- States in which a handshake unit is retransmitted. -/
def handshaking (state : AcousticSessionState) : Bool :=
  state = .helloSent || state = .helloAckSent || state = .capsSent

/-- Arm the handshake retransmission. -/
def armHandshakeRetry (s : AcousticSession) : AcousticSession :=
  if !handshaking s.state ∨ s.timers.handshakeTimer ≠ none then s
  else { s with timers.handshakeTimer := some (boundTimer handshakeRetryMs s) }

/-- States in which COMMIT is retransmitted. -/
def committed (state : AcousticSessionState) : Bool :=
  state = .committing || state = .awaitingHeartbeat

/-- Arm the COMMIT retransmission. -/
def armCommitRetry (s : AcousticSession) : AcousticSession :=
  if options.role ≠ .b ∨ !committed s.state ∨ s.link.sessionId = none ∨
      s.commitment.settingsDigest = none ∨ s.timers.commitTimer ≠ none then s
  else { s with timers.commitTimer := some (boundTimer commitRetryMs s) }

/-- Arm the calibration deadline. -/
def armDeadline (s : AcousticSession) : AcousticSession :=
  if s.timers.timer ≠ none then s else { s with timers.timer := some s.link.epoch }

/-- Sessions remembered as left. -/
def retire (sessionId : ℕ) (retired : List ℕ) : List ℕ :=
  let added := if sessionId ∈ retired then retired else retired ++ [sessionId]
  added.drop (added.length - 8)

/-- A work chain that still has something to do. -/
def WorkChain.unfinished (chain : WorkChain) : Bool :=
  chain.running ≠ none || !chain.jobs.isEmpty

/-- The link after a reset. -/
def resetLink (epoch : ℕ) (link : Link) : Link :=
  { epoch
    generation := link.generation + 1
    retiredSessionIds :=
      if epoch ≠ link.epoch then []
      else match link.sessionId with
        | none => link.retiredSessionIds
        | some sessionId => retire sessionId link.retiredSessionIds }

/-- The asynchronous work after a reset: pending continuations stay, and a
chain that is not done runs on unowned. -/
def resetTasks (generation : ℕ) (tasks : Tasks) : Tasks :=
  { pending := tasks.pending
    work := { generation }
    orphans :=
      if WorkChain.unfinished tasks.work then tasks.orphans ++ [tasks.work] else tasks.orphans }

/-- Return to the rest state in an epoch. -/
def reset (epoch : ℕ) (s : AcousticSession) : AcousticSession :=
  { state := restState options.role
    subscribed := s.subscribed
    link := resetLink epoch s.link
    delivery := { packetId := s.delivery.packetId }
    timers :=
      { strayProbeTimers := s.timers.strayProbeTimers
        probeHandles := s.timers.probeHandles
        heartbeatTimerGeneration := s.timers.heartbeatTimerGeneration + 1 }
    counters := { s.counters with handshakeAttempts := 0, commitAttempts := 0 }
    tasks := resetTasks (s.link.generation + 1) s.tasks
    io := s.io }

end Fipwave.AcousticMethods
