import Fipwave.AcousticDelivery
import Fipwave.TransitionRun

/-!
# The session as a state machine

Calls of the owner, received bytes, timers that fire and promises that
settle are the steps of a session. A timer may fire and a promise may settle
whenever it is pending; a step that has nothing to run changes nothing.
-/

namespace Fipwave.AcousticSession

open ByteWords ThrowingMethod TransitionRun AcousticProtocol SettingsCommitment PacketFragments
  AcousticHandshake AcousticState AcousticMethods AcousticNegotiation AcousticDelivery

variable (options : AcousticSessionOptions)

/-- Dispatch a decoded unit. -/
def handleUnit (readings : Readings) (unit : Fas1Unit) (s : AcousticSession) : Outcome :=
  match unit.type with
  | .hello => onHello options readings unit.sessionId unit.body s
  | .helloAck => onHelloAck options unit.sessionId unit.body s
  | .caps => onCaps options unit.sessionId unit.body s
  | .probe => onProbe options readings unit.sessionId unit.body s
  | .report => onReport options unit.sessionId unit.body s
  | .commit => onCommit options unit.sessionId unit.body s
  | .commitAck => onCommitAck options unit.sessionId unit.body s
  | .heartbeat => onHeartbeat options readings unit.sessionId s
  | .data => onData options readings unit s
  | .turnEnd => onTurnEnd options unit.sessionId s
  | .ack => onAck options unit.sessionId unit.packetId unit.sequence s
  | .reset => onReset options readings unit.sessionId s

/-- Restart the liveness deadline after a unit of the current session. -/
def noteLiveness (unit : Fas1Unit) (s : AcousticSession) : AcousticSession :=
  if s.state = .ready ∧ s.link.sessionId = some unit.sessionId then armHeartbeatTimers options s
  else s

/-- Receive a decoded unit. Units that do not carry the peer's flag are
ignored, and a handler that throws keeps what it changed. -/
def receiveUnit (readings : Readings) (unit : Fas1Unit) (s : AcousticSession) : AcousticSession :=
  if unit.flags ≠ senderFlag (complement options.role) then s
  else match handleUnit options readings unit s with
    | .ok s => noteLiveness options unit s
    | .error fault => fault.state

/-- A unit reaches the session while the modem delivers to it. -/
def deliverUnit (readings : Readings) (unit : Fas1Unit) (s : AcousticSession) : AcousticSession :=
  if s.subscribed then receiveUnit options readings unit s else s

/-- Receive raw bytes; bytes that are not a unit are ignored. -/
def receive (readings : Readings) (raw : Bytes) (s : AcousticSession) : AcousticSession :=
  match decodeFas1 raw with
  | .ok unit => deliverUnit options readings unit s
  | .error _ => s

/-- The bytes of an encoded unit are received as that unit. -/
theorem receive_encoded (readings : Readings) {unit : Fas1Unit} {raw : Bytes}
    (h : encodeFas1 unit = .ok raw) (s : AcousticSession) :
    receive options readings raw s = deliverUnit options readings unit s := by
  rw [receive, decodeFas1_encodeFas1 h]

/-- The calibration deadline fires. -/
def fireTimer (s : AcousticSession) : AcousticSession :=
  match s.timers.timer with
  | none => s
  | some epoch =>
    let s := { s with timers.timer := none }
    if epoch = s.link.epoch ∧ (s.state = .calibratingAToB ∨ s.state = .calibratingBToA) then
      armDeadline { s with counters.retries := s.counters.retries + 1 }
    else s

/-- Retransmit the handshake unit of the current state. -/
def retransmitHandshake (s : AcousticSession) : Outcome :=
  match s.state, s.link.localNonce, s.link.peerNonce, s.link.sessionId with
  | .helloSent, some nonce, _, some sessionId => do
    let body ← attempt (encodeHandshake (helloOf options nonce s.link.epoch sessionId)) s
    let s ← send options .hello (some 0) body s
    return continueAfterPlayback options (.handshake .helloSent) s
  | .helloAckSent, some nonce, some peerNonce, some sessionId => do
    let body ← attempt (encodeHandshake (helloAckOf options nonce peerNonce s.link.epoch)) s
    let s ← send options .helloAck (some sessionId) body s
    return continueAfterPlayback options (.handshake .helloAckSent) s
  | .capsSent, _, _, some sessionId => do
    let s ← send options .caps (some sessionId) (capsBody options s) s
    return continueAfterPlayback options (.handshake .capsSent) s
  | _, _, _, _ => .ok s

/-- The handshake retransmission fires. -/
def fireHandshake (s : AcousticSession) : Outcome :=
  match s.timers.handshakeTimer with
  | none => .ok s
  | some timer =>
    let s := { s with timers.handshakeTimer := none }
    if !BoundTimer.current timer s ∨ !handshaking s.state then .ok s
    else
      retransmitHandshake options
        { s with
          counters.handshakeAttempts := s.counters.handshakeAttempts + 1
          counters.retries := s.counters.retries + 1 }

/-- The probe retransmission fires. -/
def fireProbe (s : AcousticSession) : Outcome :=
  match s.timers.probeTimer with
  | none => .ok s
  | some timer =>
    retransmitProbe options timer.direction timer.ordinal { s with timers.probeTimer := none }

/-- An overwritten probe timer fires. Its body forgets the handle of the
current one, which keeps running and can no longer be cleared. -/
def fireStrayProbe (index : ℕ) (s : AcousticSession) : Outcome :=
  match s.timers.strayProbeTimers[index]? with
  | none => .ok s
  | some timer =>
    retransmitProbe options timer.direction timer.ordinal
      { s with
        timers.probeTimer := none
        timers.strayProbeTimers :=
          s.timers.strayProbeTimers.eraseIdx index ++ s.timers.probeTimer.toList }

/-- The COMMIT retransmission fires. -/
def fireCommit (s : AcousticSession) : Outcome :=
  match s.timers.commitTimer with
  | none => .ok s
  | some timer =>
    let s := { s with timers.commitTimer := none }
    match s.commitment.settingsDigest with
    | none => .ok s
    | some digest =>
      if !BoundTimer.current timer s ∨ !committed s.state then .ok s
      else do
        let s ← send options .commit timer.sessionId digest
          { s with
            counters.commitAttempts := s.counters.commitAttempts + 1
            counters.retries := s.counters.retries + 1 }
        return continueAfterPlayback options .commitRetry s

/-- Run the continuation of the delivery timer. -/
def runDeliveryTask (readings : Readings) (task : DeliveryTask) (s : AcousticSession) : Outcome :=
  match task with
  | .driveTurn => driveTurn options readings s
  | .onAckTimeout packetId attempt => onAckTimeout options readings packetId attempt s
  | .beginRecovery => beginRecovery options readings s
  | .markHeartbeatMissed => .ok (markHeartbeatMissed options s)
  | .recoveryReply sessionId =>
    if s.state = .ready ∧ s.link.sessionId = some sessionId then
      send options .heartbeat (some sessionId) [] s
    else .ok s

/-- The delivery timer fires. -/
def fireDelivery (readings : Readings) (s : AcousticSession) : Outcome :=
  match s.timers.deliveryTimer with
  | none => .ok s
  | some timer =>
    let s := clearDeliveryTimer s
    if timer.epoch ≠ s.link.epoch ∨ timer.sessionId ≠ s.link.sessionId then .ok s
    else runDeliveryTask options readings timer.task s

/-- The periodic heartbeat fires. -/
def fireHeartbeat (readings : Readings) (s : AcousticSession) : Outcome :=
  match s.timers.heartbeatTimer with
  | none => .ok s
  | some timer =>
    let s := { s with timers.heartbeatTimer := none }
    if !BoundTimer.current timer s ∨ s.state ≠ .ready then .ok s
    else do
      let s ← heartbeat options readings s
      return scheduleHeartbeat options timer s

/-- The liveness deadline fires. -/
def fireHeartbeatDeadline (s : AcousticSession) : AcousticSession :=
  match s.timers.heartbeatDeadline with
  | none => s
  | some timer =>
    let s := { s with timers.heartbeatDeadline := none }
    if timer.deadlineGeneration ≠ s.timers.heartbeatTimerGeneration ∨
        !BoundTimer.current timer.toBoundTimer s ∨ s.state ≠ .ready then s
    else markHeartbeatMissed options s

/-- Run a settled continuation. -/
def runSite (readings : Readings) (rejected : Bool) (completion : Completion)
    (s : AcousticSession) : Outcome :=
  match completion.site with
  | .handshake expectedState =>
    if completion.generation = s.link.generation ∧ s.state = expectedState then
      if rejected then .ok (fail "acoustic_handshake_playback_failed" s)
      else .ok (armHandshakeRetry s)
    else .ok s
  | .probe direction ordinal =>
    if rejected then .ok (fail "acoustic_probe_playback_failed" s)
    else .ok (armProbeRetry options direction ordinal s)
  | .probeRetry direction ordinal =>
    if rejected then .ok (fail "acoustic_probe_playback_failed" s)
    else .ok (scheduleRetry options direction ordinal s)
  | .commitRetry =>
    if rejected then .ok (fail "acoustic_commit_failed" s) else .ok (armCommitRetry options s)
  | .turn sessionId fragments attempt =>
    if rejected then .ok (degrade options "acoustic_modem_playback_failed" s)
    else .ok (armAckTimeout options completion.generation sessionId fragments attempt s)
  | .recovery sessionId =>
    if rejected then restartSession options readings s
    else .ok (armRecoveryTimeout options completion.generation sessionId s)
  | .restart epoch sessionId => restart options readings epoch sessionId s

/-- A pending continuation settles; only a modem promise can reject. -/
def settleCompletion (readings : Readings) (index : ℕ) (rejected : Bool) (s : AcousticSession) :
    Outcome :=
  match s.tasks.pending[index]? with
  | none => .ok s
  | some completion =>
    runSite options readings (rejected && completion.asynchronous) completion
      { s with tasks.pending := s.tasks.pending.eraseIdx index }

/-- The current work chain advances. -/
def stepWork (rejected : Bool) (s : AcousticSession) : AcousticSession :=
  let (work, s) := stepChain options rejected s.tasks.work s
  { s with tasks.work := work }

/-- An unowned work chain advances. -/
def stepOrphan (index : ℕ) (rejected : Bool) (s : AcousticSession) : AcousticSession :=
  match s.tasks.orphans[index]? with
  | none => s
  | some chain =>
    let (chain, s) := stepChain options rejected chain s
    { s with tasks.orphans := s.tasks.orphans.set index chain }

/-- Timers of a session. -/
inductive TimerName where
  | timer | handshakeTimer | probeTimer | strayProbeTimer (index : ℕ) | commitTimer
  | deliveryTimer | heartbeatTimer | heartbeatDeadline
  deriving DecidableEq, Repr

/-- Steps of a session other than receiving. -/
inductive Action where
  | start
  | reset (epoch : ℕ)
  | dispose
  | heartbeat
  | markHeartbeatMissed
  | enqueuePacket (packet : Bytes) (trafficClass : AcousticTrafficClass)
  | fire (name : TimerName)
  | settle (index : ℕ) (rejected : Bool)
  | work (rejected : Bool)
  | orphanWork (index : ℕ) (rejected : Bool)
  deriving DecidableEq, Repr

/-- A timer fires. -/
def fire (readings : Readings) (name : TimerName) (s : AcousticSession) : Outcome :=
  match name with
  | .timer => .ok (fireTimer s)
  | .handshakeTimer => fireHandshake options s
  | .probeTimer => fireProbe options s
  | .strayProbeTimer index => fireStrayProbe options index s
  | .commitTimer => fireCommit options s
  | .deliveryTimer => fireDelivery options readings s
  | .heartbeatTimer => fireHeartbeat options readings s
  | .heartbeatDeadline => .ok (fireHeartbeatDeadline options s)

/-- One action; an exception leaves what was changed before it. -/
def act (readings : Readings) (action : Action) (s : AcousticSession) : AcousticSession :=
  match action with
  | .start => left (start options readings s)
  | .reset epoch => if validInteger epoch 0 uint32Max then reset options epoch s else s
  | .dispose => { reset options s.link.epoch s with subscribed := false }
  | .heartbeat => left (heartbeat options readings s)
  | .markHeartbeatMissed => markHeartbeatMissed options s
  | .enqueuePacket packet trafficClass =>
    left (do let (_, s) ← enqueuePacket options readings packet trafficClass s; return s)
  | .fire name => left (fire options readings name s)
  | .settle index rejected => left (settleCompletion options readings index rejected s)
  | .work rejected => stepWork options rejected s
  | .orphanWork index rejected => stepOrphan options index rejected s

/-- What happens to a session: an action, or bytes from the modem. -/
inductive Event where
  | act (action : Action)
  | receive (raw : Bytes)
  deriving DecidableEq, Repr

/-- One step of a session. -/
def step (s : AcousticSession) (event : Readings × Event) : AcousticSession :=
  match event.2 with
  | .act action => act options event.1 action s
  | .receive raw => receive options event.1 raw s

/-- The session after a list of events. -/
def runSession (events : List (Readings × Event)) : AcousticSession :=
  run (step options) (initialSession options.role) events

end Fipwave.AcousticSession
