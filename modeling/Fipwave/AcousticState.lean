import Fipwave.AcousticHandshake
import Fipwave.PacketFragments

/-!
# The state of an acoustic session

The private fields of a session, grouped by the part of the protocol they
serve, the closures its timers and promises captured, and the interactions it
had with its modem and its owner. The methods of this module are the ones
every handler uses: transmitting, arming and clearing timers, failing and
resetting.
-/

namespace Fipwave.AcousticState

open ByteWords ThrowingMethod AcousticProtocol SettingsCommitment PacketFragments AcousticHandshake

/-- States of a session. -/
inductive AcousticSessionState where
  | idle | listening | helloSent | helloAckSent | capsSent | calibratingAToB | calibratingBToA
  | committing | awaitingHeartbeat | ready | degraded | recovering | error
  deriving DecidableEq, Repr

/-- Traffic classes, in the order they are drained. -/
inductive AcousticTrafficClass where
  | control | heartbeat | ordinary
  deriving DecidableEq, Repr

/-- Direction of a probe. -/
inductive Direction where
  | aToB | bToA
  deriving DecidableEq, Repr

/-- One value for each direction. -/
structure PerDirection (α : Type) where
  /-- Value of the direction from A to B. -/
  aToB : α
  /-- Value of the direction from B to A. -/
  bToA : α
  deriving DecidableEq, Repr

/-- The value of a direction. -/
def PerDirection.get {α : Type} (values : PerDirection α) : Direction → α
  | .aToB => values.aToB
  | .bToA => values.bToA

/-- Replace the value of a direction. -/
def PerDirection.set {α : Type} (values : PerDirection α) (value : α) :
    Direction → PerDirection α
  | .aToB => { values with aToB := value }
  | .bToA => { values with bToA := value }

/-- The value written for a direction is read back. -/
@[simp] theorem PerDirection.get_set_same {α : Type} (values : PerDirection α) (value : α)
    (direction : Direction) : (values.set value direction).get direction = value := by
  cases direction <;> rfl

/-- Writing for a direction leaves the other. -/
theorem PerDirection.get_set_other {α : Type} (values : PerDirection α) (value : α)
    {written read : Direction} (h : read ≠ written) :
    (values.set value written).get read = values.get read := by
  cases written <;> cases read <;> simp_all [PerDirection.get, PerDirection.set]

/-- A candidate of the calibration. -/
structure AcousticCandidate extends DirectionalSettings where
  /-- Name of the candidate. -/
  id : Text
  deriving DecidableEq, Repr

/-- One numbered probe. -/
structure AcousticProbe where
  /-- Direction the probe travels. -/
  direction : Direction
  /-- Position of the candidate. -/
  candidateIndex : ℕ
  /-- Position among the probes of the candidate. -/
  probeIndex : ℕ
  /-- The candidate itself. -/
  candidate : AcousticCandidate
  deriving DecidableEq, Repr

/-- What was measured of one probe. -/
structure AcousticProbeObservation where
  /-- The probe arrived. -/
  received : Bool
  /-- It arrived unaltered. -/
  bytePerfect : Bool
  /-- It was corrupt. -/
  corrupt : Bool
  /-- Parts of it were missing. -/
  missing : Bool
  /-- It arrived more than once. -/
  duplicate : Bool
  /-- The stream was discontinuous. -/
  discontinuity : Bool
  /-- One-way latency, where it can be measured. -/
  latencyMs : Option ℕ
  /-- Signal level, where a meter exists. -/
  signalDb : Option ℚ
  /-- Clipping, where a meter exists. -/
  clipping : Option Bool
  /-- Confidence of the decoder. -/
  confidence : ℚ
  deriving DecidableEq, Repr

/-- A probe with its observation. -/
structure AcousticProbeLedgerEntry extends AcousticProbe where
  /-- What was measured. -/
  observation : AcousticProbeObservation
  deriving DecidableEq, Repr

/-- Bounds of the calibration. -/
structure CalibrationOptions where
  /-- Probes of each candidate in each direction. -/
  probesPerDirection : ℕ
  /-- Largest candidate list. -/
  maxCandidates : ℕ
  /-- Period of the calibration deadline. -/
  deadlineMs : ℕ
  deriving DecidableEq, Repr

/-- What a session is constructed with, and what it uses of its platform. -/
structure AcousticSessionOptions where
  /-- End of the link. -/
  role : AcousticRole
  /-- Own identity. -/
  identity : Text
  /-- Identity of the peer. -/
  expectedPeer : Text
  /-- Profiles offered. -/
  profiles : List Text
  /-- Payload sizes offered. -/
  ranges : AcousticCapabilityRange
  /-- Candidates to be probed. -/
  candidates : List AcousticCandidate
  /-- Bounds of the calibration. -/
  calibration : CalibrationOptions
  /-- Units whose transmission answers with a promise. -/
  asynchronous : Fas1Unit → Bool
  /-- The digest of the platform. -/
  sha256 : Bytes → Bytes
  /-- The collation of the platform. -/
  localeCompare : Text → Text → ℤ

/-- What a session reads from its surroundings during one step. -/
structure Readings where
  /-- Reading of the clock. -/
  now : ℕ
  /-- Answer of the nonce source. -/
  nonce : Bytes
  /-- Answer of the probe meter. -/
  observation : AcousticProbeObservation
  deriving DecidableEq, Repr

/-- A packet waiting for its acknowledgement. -/
structure PendingPacket where
  /-- Identifier of the packet. -/
  packetId : ℕ
  /-- Bytes of the packet. -/
  packet : Bytes
  /-- Its DATA units. -/
  fragments : List Fas1Unit
  /-- Class it was queued in. -/
  trafficClass : AcousticTrafficClass
  /-- Time after which it is dropped. -/
  expiresAt : ℕ
  /-- Bursts sent since the last progress. -/
  attempts : ℕ
  /-- Bitmap of acknowledged fragments. -/
  acknowledged : ℕ
  deriving DecidableEq, Repr

/-- A packet being received; its fragments are keyed by their index. -/
structure InboundAssembly where
  /-- Identifier of the packet. -/
  packetId : ℕ
  /-- Number of fragments. -/
  fragmentCount : ℕ
  /-- Length of the packet. -/
  packetLength : ℕ
  /-- Fragments in the order they arrived. -/
  fragments : List Fas1Unit
  /-- Time after which it is dropped. -/
  expiresAt : ℕ
  deriving DecidableEq, Repr

/-- The outbound queues. -/
structure Queues where
  /-- Control packets. -/
  control : List PendingPacket
  /-- Heartbeat packets. -/
  heartbeat : List PendingPacket
  /-- Ordinary packets. -/
  ordinary : List PendingPacket
  deriving DecidableEq, Repr

/-- The acknowledgement owed for the current turn. -/
structure LastAck where
  /-- Packet it is for. -/
  packetId : ℕ
  /-- Fragments received. -/
  bitmap : ℕ
  deriving DecidableEq, Repr

/-- Which session the two ends are in. -/
structure Link where
  /-- Epoch of the owner. -/
  epoch : ℕ := 0
  /-- Current session. -/
  sessionId : Option ℕ := none
  /-- Own nonce. -/
  localNonce : Option Bytes := none
  /-- Nonce of the peer. -/
  peerNonce : Option Bytes := none
  /-- Sessions of this epoch that were left, oldest first. -/
  retiredSessionIds : List ℕ := []
  /-- Number of resets. -/
  generation : ℕ := 0
  deriving DecidableEq, Repr

/-- The probe whose report is awaited. -/
structure ProbeRetry where
  /-- Direction of the probe. -/
  direction : Direction
  /-- Its ordinal. -/
  ordinal : ℕ
  /-- Retransmissions so far. -/
  attempts : ℕ
  deriving DecidableEq, Repr

/-- The report sent last. -/
structure ProbeReport where
  /-- Ordinal it answers. -/
  ordinal : ℕ
  /-- Its body. -/
  body : Bytes
  deriving DecidableEq, Repr

/-- Calibration ledgers and counters. -/
structure Calibration where
  /-- Retransmission state of the current probe. -/
  probeRetry : Option ProbeRetry := none
  /-- Cached report of each direction. -/
  lastProbeReport : PerDirection (Option ProbeReport) := ⟨none, none⟩
  /-- Observations in the order they were made. -/
  ledger : List AcousticProbeLedgerEntry := []
  /-- Probes sent. -/
  sentProbes : PerDirection ℕ := ⟨0, 0⟩
  /-- Reports received. -/
  receivedReports : PerDirection ℕ := ⟨0, 0⟩
  /-- Probes received. -/
  receivedProbes : PerDirection ℕ := ⟨0, 0⟩
  /-- Candidates selected. -/
  selected : PerDirection (Option AcousticCandidate) := ⟨none, none⟩
  deriving DecidableEq, Repr

/-- The committed settings. -/
structure Commitment where
  /-- Settings of both directions. -/
  settings : Option AcousticSettings := none
  /-- Their digest. -/
  settingsDigest : Option Bytes := none
  deriving DecidableEq, Repr

/-- Turn token, queues and assemblies. -/
structure Delivery where
  /-- End that may transmit. -/
  turnOwner : Option AcousticRole := none
  /-- Next packet identifier. -/
  packetId : ℕ := 1
  /-- Packets waiting for a turn. -/
  queues : Queues := ⟨[], [], []⟩
  /-- Packet being sent. -/
  active : Option PendingPacket := none
  /-- Packet being received. -/
  inbound : Option InboundAssembly := none
  /-- Acknowledgement owed. -/
  lastAck : Option LastAck := none
  /-- Delivered packets with their expiry, oldest first. -/
  delivered : List (ℕ × ℕ) := []
  /-- A heartbeat is to be sent in the next own turn. -/
  heartbeatDue : Bool := false
  /-- A burst is out and not yet acknowledged. -/
  awaitingAck : Bool := false
  /-- Recoveries since the last heartbeat. -/
  recoveryAttempts : ℕ := 0
  deriving DecidableEq, Repr

/-- Continuations of the delivery timer. -/
inductive DeliveryTask where
  | driveTurn
  | onAckTimeout (packetId attempt : ℕ)
  | beginRecovery
  | markHeartbeatMissed
  | recoveryReply (sessionId : ℕ)
  deriving DecidableEq, Repr

/-- The delivery timer with what its closure captured. -/
structure DeliveryTimer where
  /-- Epoch when it was armed. -/
  epoch : ℕ
  /-- Session when it was armed. -/
  sessionId : Option ℕ
  /-- What it runs. -/
  task : DeliveryTask
  /-- Its delay. -/
  delayMs : ℕ
  deriving DecidableEq, Repr

/-- A timer bound to epoch, session and generation. -/
structure BoundTimer where
  /-- Epoch when it was armed. -/
  epoch : ℕ
  /-- Session when it was armed. -/
  sessionId : Option ℕ
  /-- Generation when it was armed. -/
  generation : ℕ
  /-- Its delay. -/
  delayMs : ℕ
  deriving DecidableEq, Repr

/-- The liveness deadline, bound to its own arming as well. -/
structure DeadlineTimer extends BoundTimer where
  /-- Arming it belongs to. -/
  deadlineGeneration : ℕ
  deriving DecidableEq, Repr

/-- A probe retransmission timer, bound to its probe only. -/
structure ProbeTimer where
  /-- Direction of the probe. -/
  direction : Direction
  /-- Its ordinal. -/
  ordinal : ℕ
  /-- Handle the timer service answered with. -/
  handle : ℕ
  deriving DecidableEq, Repr

/-- Every timer a session holds. -/
structure Timers where
  /-- Calibration deadline, with the epoch it captured. -/
  timer : Option ℕ := none
  /-- Handshake retransmission. -/
  handshakeTimer : Option BoundTimer := none
  /-- Probe retransmission. -/
  probeTimer : Option ProbeTimer := none
  /-- Probe timers that were overwritten without being cleared. -/
  strayProbeTimers : List ProbeTimer := []
  /-- Handles given out for probe timers. -/
  probeHandles : ℕ := 0
  /-- COMMIT retransmission. -/
  commitTimer : Option BoundTimer := none
  /-- Turn, ACK and recovery timer. -/
  deliveryTimer : Option DeliveryTimer := none
  /-- Periodic heartbeat. -/
  heartbeatTimer : Option BoundTimer := none
  /-- Liveness deadline. -/
  heartbeatDeadline : Option DeadlineTimer := none
  /-- Armings and clearings of the heartbeat timers. -/
  heartbeatTimerGeneration : ℕ := 0
  deriving DecidableEq, Repr

/-- Counters shown to the operator and attempt counters. -/
structure Counters where
  /-- Retransmissions. -/
  retries : ℕ := 0
  /-- Dropped packets and units. -/
  dropped : ℕ := 0
  /-- Duplicates. -/
  duplicates : ℕ := 0
  /-- Packets delivered. -/
  deliveredPackets : ℕ := 0
  /-- Handshake retransmissions. -/
  handshakeAttempts : ℕ := 0
  /-- COMMIT retransmissions. -/
  commitAttempts : ℕ := 0
  deriving DecidableEq, Repr

/-- Promise continuations outside the work chain, with what they captured. -/
inductive Site where
  | handshake (expectedState : AcousticSessionState)
  | probe (direction : Direction) (ordinal : ℕ)
  | probeRetry (direction : Direction) (ordinal : ℕ)
  | commitRetry
  | turn (sessionId : ℕ) (fragments : List Fas1Unit) (attempt : ℕ)
  | recovery (sessionId : ℕ)
  | restart (epoch : ℕ) (sessionId : Option ℕ)
  deriving DecidableEq, Repr

/-- A pending continuation. -/
structure Completion where
  /-- What it runs. -/
  site : Site
  /-- Generation it was created in. -/
  generation : ℕ
  /-- The modem answered with a promise, which may reject. -/
  asynchronous : Bool
  deriving DecidableEq, Repr

/-- Jobs of the work chain. -/
inductive Job where
  | queueCommit
  | onCommit (received : Bytes)
  deriving DecidableEq, Repr

/-- Await points of the jobs. -/
inductive Stage where
  | commitDigest (settings : AcousticSettings)
  | commitPlayback (asynchronous : Bool)
  | acknowledgeDigest (received : Bytes) (settings : AcousticSettings)
  deriving DecidableEq, Repr

/-- The promise chain of commit work. -/
structure WorkChain where
  /-- Generation it was created in. -/
  generation : ℕ := 0
  /-- Await point of the running job. -/
  running : Option Stage := none
  /-- Jobs that wait for it. -/
  jobs : List Job := []
  deriving DecidableEq, Repr

/-- Asynchronous work of a session. -/
structure Tasks where
  /-- Pending continuations, oldest first. -/
  pending : List Completion := []
  /-- The current work chain. -/
  work : WorkChain := {}
  /-- Chains a reset replaced before they were done. -/
  orphans : List WorkChain := []
  deriving DecidableEq, Repr

/-- A packet handed to `onPacket`. -/
structure DeliveredPacket where
  /-- Generation of the delivery. -/
  generation : ℕ
  /-- Session of the delivery. -/
  sessionId : ℕ
  /-- Identifier of the packet. -/
  packetId : ℕ
  /-- Bytes handed over. -/
  packet : Bytes
  deriving DecidableEq, Repr

/-- A packet `enqueuePacket` accepted under a new identifier. -/
structure AcceptedPacket where
  /-- Generation of the call. -/
  generation : ℕ
  /-- Session of the call. -/
  sessionId : ℕ
  /-- Identifier assigned. -/
  packetId : ℕ
  /-- Bytes offered. -/
  packet : Bytes
  /-- Class offered. -/
  trafficClass : AcousticTrafficClass
  deriving DecidableEq, Repr

/-- Interactions with the surroundings, oldest first; nothing in the session
reads them. -/
structure Interactions where
  /-- Units handed to the modem. -/
  sent : List Fas1Unit := []
  /-- Candidates applied to the modem. -/
  applied : List AcousticCandidate := []
  /-- Packets delivered to the owner. -/
  packets : List DeliveredPacket := []
  /-- Packets accepted from the owner. -/
  accepted : List AcceptedPacket := []
  /-- Probes measured, with their session. -/
  measured : List (ℕ × AcousticProbeLedgerEntry) := []
  /-- Sessions started, with their nonces. -/
  started : List (ℕ × Bytes) := []
  /-- Packets dropped because every fragment was acknowledged. -/
  acknowledged : List AcceptedPacket := []
  deriving DecidableEq, Repr

/-- The private fields of a session. -/
structure AcousticSession where
  /-- Protocol state. -/
  state : AcousticSessionState
  /-- Text of the last failure. -/
  reason : Option String := none
  /-- Transmission counter. -/
  sequence : ℕ := 1
  /-- Time of the last accepted heartbeat. -/
  lastHeartbeatAtMs : Option ℕ := none
  /-- The modem still delivers units. -/
  subscribed : Bool := true
  /-- Session identity. -/
  link : Link := {}
  /-- Calibration. -/
  calibration : Calibration := {}
  /-- Committed settings. -/
  commitment : Commitment := {}
  /-- Delivery. -/
  delivery : Delivery := {}
  /-- Timers. -/
  timers : Timers := {}
  /-- Counters. -/
  counters : Counters := {}
  /-- Asynchronous work. -/
  tasks : Tasks := {}
  /-- Interactions. -/
  io : Interactions := {}
  deriving DecidableEq, Repr

/-- What a method leaves: the session, or the exception and the session. -/
abbrev Outcome := Except (Fault AcousticSession) AcousticSession

/-- An exception thrown in a session. -/
def throwIn {α : Type} (message : String) (s : AcousticSession) :
    Except (Fault AcousticSession) α :=
  .error ⟨message, s⟩

/-- A pure step that may throw, run in a session. -/
def attempt {α : Type} (result : Except String α) (s : AcousticSession) :
    Except (Fault AcousticSession) α :=
  match result with
  | .ok value => .ok value
  | .error message => throwIn message s

/-- Smallest liveness deadline. -/
def minDeadlineMs : ℕ := 60000
/-- Largest age of a packet. -/
def maxPacketAgeMs : ℕ := 600000
/-- Largest number of queued packets. -/
def maxQueuedPackets : ℕ := 16
/-- Delivered identifiers remembered. -/
def maxDeliveredIds : ℕ := 32
/-- Bursts without progress, and recoveries, before giving up. -/
def maxAttempts : ℕ := 3
/-- Fragments of one burst. -/
def windowSize : ℕ := 4
/-- Handshake retransmission period. -/
def handshakeRetryMs : ℕ := 2500
/-- COMMIT retransmission period. -/
def commitRetryMs : ℕ := 2000

/-- The session identifier derived from a nonce. -/
def toSessionId (nonce : Bytes) : ℕ :=
  let id := wordAt nonce 0 8 ^^^ wordAt nonce 8 8
  if id = 0 then 1 else id

/-- State a session of a role rests in. -/
def restState : AcousticRole → AcousticSessionState
  | .a => .idle
  | .b => .listening

/-- A constructed session. -/
def initialSession (role : AcousticRole) : AcousticSession := { state := restState role }

/-- The constructor's check of one candidate. -/
def candidateInvalid (options : AcousticSessionOptions) (candidate : AcousticCandidate) : Bool :=
  candidate.id = [] || candidate.playbackGain < 1 || candidate.playbackGain > 2 ||
    !validInteger candidate.payloadBytes options.ranges.minPayloadBytes
      options.ranges.maxPayloadBytes ||
    !validInteger candidate.repetition 1 3 || !validInteger candidate.guardMs 1 5000 ||
    !validInteger candidate.ackTimeoutMs 4000 15000

/-- The constructor. -/
def construct (options : AcousticSessionOptions) : Except String AcousticSession :=
  if options.identity = [] ∨ options.expectedPeer = [] ∨
      options.identity = options.expectedPeer ∨ !validRange options.ranges ∨
      options.profiles.length < 1 ∨ options.profiles.length > maxProfiles ∨
      options.candidates.length < 1 ∨
      options.candidates.length > options.calibration.maxCandidates ∨
      !validInteger options.calibration.probesPerDirection 1 4 ∨
      !validInteger options.calibration.deadlineMs 1 120000 then
    invalid "options are invalid"
  else do
    options.profiles.forM (fun profile => do let _ ← resolveAcousticProfile profile)
    options.candidates.forM (fun candidate =>
      if candidateInvalid options candidate then invalid "candidate is invalid"
      else do let _ ← resolveAcousticProfile candidate.profileId)
    return initialSession options.role

/-- Options the constructor accepts. -/
structure AdmittedOptions extends AcousticSessionOptions where
  /-- The constructor returned. -/
  admitted : ∃ s, construct toAcousticSessionOptions = .ok s

/-- Probes of each candidate of accepted options. -/
theorem AdmittedOptions.probes_bounds (options : AdmittedOptions) :
    1 ≤ options.calibration.probesPerDirection ∧ options.calibration.probesPerDirection ≤ 4 := by
  obtain ⟨s, hs⟩ := options.admitted
  unfold construct at hs
  split at hs
  · cases hs
  · next hvalid =>
    simp only [not_or, validInteger, Bool.not_eq_true', Bool.not_eq_false,
      decide_eq_true_eq] at hvalid
    exact hvalid.2.2.2.2.2.2.2.2.1

/-- Payloads of accepted candidates are not empty and fit one body. -/
theorem AdmittedOptions.payload_bounds (options : AdmittedOptions) :
    ∀ candidate ∈ options.candidates,
      1 ≤ candidate.payloadBytes ∧ candidate.payloadBytes ≤ fas1MaxBodyBytes := by
  obtain ⟨s, hs⟩ := options.admitted
  unfold construct at hs
  split at hs
  · cases hs
  · next hvalid =>
    simp only [not_or] at hvalid
    have hrange := hvalid.2.2.2.1
    simp only [validRange, validInteger, Bool.not_eq_true', Bool.not_eq_false, Bool.and_eq_true,
      decide_eq_true_eq] at hrange
    intro candidate hmem
    obtain ⟨_, -, hs⟩ := bind_ok hs
    obtain ⟨_, hcandidates, -⟩ := bind_ok hs
    have hone := forM_ok hcandidates candidate hmem
    by_cases hinvalid : candidateInvalid options.toAcousticSessionOptions candidate = true
    · rw [if_pos hinvalid] at hone
      cases hone
    · simp only [candidateInvalid, Bool.or_eq_true, not_or, validInteger, Bool.not_eq_true',
        Bool.not_eq_false, decide_eq_true_eq] at hinvalid
      have hpayload := hinvalid.1.1.1.2
      have hbound : fas1MaxBodyBytes = 217 := rfl
      omega

/-- Payloads of accepted candidates fit one body. -/
theorem AdmittedOptions.payload_le (options : AdmittedOptions) :
    ∀ candidate ∈ options.candidates, candidate.payloadBytes ≤ fas1MaxBodyBytes :=
  fun candidate hmem => (options.payload_bounds candidate hmem).2

end Fipwave.AcousticState
