import Fipwave.AcousticMethods

/-!
# Handshake, calibration and commit

HELLO, HELLO_ACK and CAPS bind both ends to one session; numbered probes and
their reports fill a ledger for each direction; the candidates selected from
the ledgers are committed by digest, in jobs of a promise chain.
-/

namespace Fipwave.AcousticNegotiation

open ByteWords ScriptIntegers ThrowingMethod AcousticProtocol SettingsCommitment AcousticHandshake
  AcousticState AcousticMethods

variable (options : AcousticSessionOptions)

/-- The HELLO payload of a session. -/
def helloOf (nonce : Bytes) (epoch sessionId : ℕ) : Handshake :=
  ⟨.a, options.identity, options.expectedPeer, nonce, none, options.profiles, options.ranges,
    epoch, some sessionId⟩

/-- The HELLO_ACK payload of a session. -/
def helloAckOf (nonce echoedNonce : Bytes) (epoch : ℕ) : Handshake :=
  ⟨.b, options.identity, options.expectedPeer, nonce, some echoedNonce, options.profiles,
    options.ranges, epoch, none⟩

/-- Begin a session from rest. -/
def start (readings : Readings) (s : AcousticSession) : Outcome :=
  if options.role ≠ .a ∨ s.state ≠ .idle then .ok s
  else if readings.nonce.length ≠ 16 then throwIn "acoustic session nonce must be 128 bits" s
  else do
    let sessionId := toSessionId readings.nonce
    let s := { s with
      state := .helloSent
      link.localNonce := some readings.nonce
      link.sessionId := some sessionId
      io.started := s.io.started ++ [(sessionId, readings.nonce)] }
    let body ← attempt (encodeHandshake (helloOf options readings.nonce s.link.epoch sessionId)) s
    let s ← send options .hello (some 0) body s
    return continueAfterPlayback options (.handshake .helloSent) s

/-- The payload ranges of both ends meet. -/
def mutualRange (peer : AcousticCapabilityRange) : Bool :=
  peer.minPayloadBytes ≤ options.ranges.maxPayloadBytes &&
    peer.maxPayloadBytes ≥ options.ranges.minPayloadBytes

/-- A decoded handshake is bound to this end, its peer and the epoch. -/
def boundTo (handshake : Handshake) (s : AcousticSession) : Bool :=
  handshake.role = complement options.role && handshake.identity = options.expectedPeer &&
    handshake.expectedPeer = options.identity && handshake.epoch = s.link.epoch &&
    handshake.profiles = options.profiles && mutualRange options handshake.ranges

/-- Answer a HELLO with a fresh nonce. -/
def answerHello (readings : Readings) (sessionId : ℕ) (peerNonce : Bytes) (s : AcousticSession) :
    Outcome :=
  let s := clearHandshakeRetry s
  if readings.nonce.length ≠ 16 then throwIn "acoustic session nonce must be 128 bits" s
  else do
    let s := { s with
      state := .helloAckSent
      link.sessionId := some sessionId
      link.peerNonce := some peerNonce
      link.localNonce := some readings.nonce }
    let body ← attempt (encodeHandshake (helloAckOf options readings.nonce peerNonce s.link.epoch)) s
    let s ← send options .helloAck (some sessionId) body s
    return continueAfterPlayback options (.handshake .helloAckSent) s

/-- Receive a HELLO. -/
def onHello (readings : Readings) (headerSessionId : ℕ) (body : Bytes) (s : AcousticSession) :
    Outcome :=
  if options.role ≠ .b ∨ headerSessionId ≠ 0 then .ok s
  else do
    let hello ← attempt (decodeHandshake body) s
    match hello.sessionId with
    | none => return s
    | some sessionId =>
      if !boundTo options hello s ∨ sessionId ∈ s.link.retiredSessionIds then return s
      else if s.state = .listening then answerHello options readings sessionId hello.nonce s
      else if s.link.sessionId = some sessionId then return s
      else answerHello options readings sessionId hello.nonce (reset options s.link.epoch s)

/-- Nonce of A, as this end knows it. -/
def nonceOfA (s : AcousticSession) : Option Bytes :=
  match options.role with
  | .a => s.link.localNonce
  | .b => s.link.peerNonce

/-- Nonce of B, as this end knows it. -/
def nonceOfB (s : AcousticSession) : Option Bytes :=
  match options.role with
  | .a => s.link.peerNonce
  | .b => s.link.localNonce

/-- The CAPS payload: both nonces. -/
def capsBody (s : AcousticSession) : Bytes :=
  (nonceOfA options s).getD [] ++ (nonceOfB options s).getD []

/-- Receive a HELLO_ACK. -/
def onHelloAck (sessionId : ℕ) (body : Bytes) (s : AcousticSession) : Outcome :=
  if options.role ≠ .a ∨ s.state ≠ .helloSent ∨ s.link.sessionId ≠ some sessionId ∨
      s.link.localNonce = none then .ok s
  else do
    let ack ← attempt (decodeHandshake body) s
    if !boundTo options ack s ∨ ack.echoedNonce ≠ s.link.localNonce then return s
    else
      let s := { clearHandshakeRetry s with
        state := .capsSent
        link.peerNonce := some ack.nonce }
      let s ← send options .caps (some sessionId) (capsBody options s) s
      return continueAfterPlayback options (.handshake .capsSent) s

/-- Direction byte of a probe. -/
def directionByte : Direction → ℕ
  | .aToB => 1
  | .bToA => 2

/-- Direction of a probe byte. -/
def parseDirection (value : ℕ) : Except String Direction :=
  if value = 1 then .ok .aToB
  else if value = 2 then .ok .bToA
  else invalid "probe direction is invalid"

/-- End that probes a direction. -/
def expectedSender : Direction → AcousticRole
  | .aToB => .a
  | .bToA => .b

/-- State in which a direction is calibrated. -/
def stateFor : Direction → AcousticSessionState
  | .aToB => .calibratingAToB
  | .bToA => .calibratingBToA

/-- Probes of one direction. -/
def totalProbes : ℕ := options.candidates.length * options.calibration.probesPerDirection

/-- The probe of an ordinal. -/
def probeFor (direction : Direction) (ordinal : ℕ) : Except String AcousticProbe :=
  let candidateIndex := ordinal / options.calibration.probesPerDirection
  match options.candidates[candidateIndex]? with
  | none => invalid "probe candidate is invalid"
  | some candidate =>
    .ok ⟨direction, candidateIndex, ordinal % options.calibration.probesPerDirection, candidate⟩

/-- Body of a probe. -/
def probeBody (probe : AcousticProbe) : Bytes :=
  [lowByte (directionByte probe.direction), lowByte probe.candidateIndex,
    lowByte probe.probeIndex]

/-- Send the next probe of a direction. -/
def driveProbe (direction : Direction) (s : AcousticSession) : Outcome :=
  if options.role ≠ expectedSender direction ∨ s.state ≠ stateFor direction then .ok s
  else match s.link.sessionId with
    | none => .ok s
    | some sessionId =>
      let ordinal := s.calibration.sentProbes.get direction
      if ordinal ≥ totalProbes options then .ok s
      else do
        let probe ← attempt (probeFor options direction ordinal) s
        let s := { applyCandidate probe.candidate s with
          calibration.sentProbes := s.calibration.sentProbes.set (ordinal + 1) direction }
        let s ← send options .probe (some sessionId) (probeBody probe) s
        return continueAfterPlayback options (.probe direction ordinal) s

/-- Receive a CAPS. -/
def onCaps (sessionId : ℕ) (body : Bytes) (s : AcousticSession) : Outcome :=
  if s.link.sessionId ≠ some sessionId ∨ body.length ≠ 32 ∨
      nonceOfA options s ≠ some (body.take 16) ∨ nonceOfB options s ≠ some (body.drop 16) then
    .ok s
  else if options.role = .b ∧ s.state = .helloAckSent then
    let s := armDeadline { clearHandshakeRetry s with state := .calibratingAToB }
    send options .caps (some sessionId) (capsBody options s) s
  else if options.role = .b ∧ s.state = .calibratingAToB then
    let s := { s with counters.duplicates := s.counters.duplicates + 1 }
    send options .caps (some sessionId) (capsBody options s) s
  else if options.role = .a ∧ s.state = .capsSent then
    driveProbe options .aToB (armDeadline { clearHandshakeRetry s with state := .calibratingAToB })
  else .ok s

/-- The probe still awaits its report. -/
def retryApplies (direction : Direction) (ordinal : ℕ) (s : AcousticSession) : Bool :=
  s.calibration.probeRetry.any
      (fun retry => retry.direction = direction && retry.ordinal = ordinal) &&
    s.state = stateFor direction && options.role = expectedSender direction &&
    s.link.sessionId ≠ none

/-- Schedule the next retransmission of a probe; a timer that is still armed is
overwritten, not cleared. -/
def scheduleRetry (direction : Direction) (ordinal : ℕ) (s : AcousticSession) : AcousticSession :=
  if retryApplies options direction ordinal s then
    { s with
      timers.probeTimer := some ⟨direction, ordinal, s.timers.probeHandles⟩
      timers.strayProbeTimers := s.timers.strayProbeTimers ++ s.timers.probeTimer.toList
      timers.probeHandles := s.timers.probeHandles + 1 }
  else s

/-- Await the report of a probe. -/
def armProbeRetry (direction : Direction) (ordinal : ℕ) (s : AcousticSession) : AcousticSession :=
  scheduleRetry options direction ordinal
    { clearProbeRetry s with calibration.probeRetry := some ⟨direction, ordinal, 0⟩ }

/-- Body of the probe retransmission timer. -/
def retransmitProbe (direction : Direction) (ordinal : ℕ) (s : AcousticSession) : Outcome :=
  if retryApplies options direction ordinal s then do
    let s := { s with
      calibration.probeRetry := s.calibration.probeRetry.map
        (fun retry => { retry with attempts := retry.attempts + 1 })
      counters.retries := s.counters.retries + 1 }
    let probe ← attempt (probeFor options direction ordinal) s
    let s ← send options .probe s.link.sessionId (probeBody probe) (applyCandidate probe.candidate s)
    return continueAfterPlayback options (.probeRetry direction ordinal) s
  else .ok s

/-- The observation a session accepts. -/
def normalizeObservation (value : AcousticProbeObservation) :
    Except String AcousticProbeObservation :=
  if value.latencyMs.any (fun latency => !validInteger latency 0 65534) ∨
      value.signalDb.any (fun signal => signal < -200 || signal > 0) ∨
      value.confidence < 0 ∨ value.confidence > 1 then
    invalid "probe observation is invalid"
  else .ok value

/-- A flag bit. -/
def flagBit (value : Bool) (bit : ℕ) : ℕ := if value then bit else 0

/-- Flags byte of a report. -/
def reportFlags (observation : AcousticProbeObservation) : ℕ :=
  flagBit observation.received 1 ||| flagBit observation.bytePerfect 2 |||
    flagBit observation.corrupt 4 ||| flagBit observation.missing 8 |||
    flagBit observation.duplicate 16 ||| flagBit observation.discontinuity 32 |||
    flagBit (observation.clipping = some true) 64

/-- Two's complement of a 16-bit number. -/
def int16Word (value : ℤ) : ℕ := (value % 65536).toNat

/-- The signed number of a 16-bit word. -/
def int16Of (word : ℕ) : ℤ := if word < 32768 then word else (word : ℤ) - 65536

/-- Body of a report. -/
def encodeReport (probe : AcousticProbe) (observation : AcousticProbeObservation) : Bytes :=
  [lowByte (directionByte probe.direction), lowByte probe.candidateIndex,
      lowByte probe.probeIndex, lowByte (reportFlags observation)] ++
    writeWord 2 (observation.latencyMs.getD 0xffff) ++
    writeWord 2 (int16Word (match observation.signalDb with
      | none => -2000
      | some signal => roundNumber (signal * 10))) ++
    writeWord 2 (roundNumber (observation.confidence * 1000)).toNat

/-- The bit of a flags byte. -/
def hasFlag (flags bit : ℕ) : Bool := flags &&& bit ≠ 0

/-- The observation of a report body. -/
def reportObservation (body : Bytes) : AcousticProbeObservation :=
  let flags := wordAt body 3 1
  let latency := wordAt body 4 2
  let signal := int16Of (wordAt body 6 2)
  { received := hasFlag flags 1
    bytePerfect := hasFlag flags 2
    corrupt := hasFlag flags 4
    missing := hasFlag flags 8
    duplicate := hasFlag flags 16
    discontinuity := hasFlag flags 32
    clipping := if hasFlag flags 64 then some true else none
    latencyMs := if latency = 0xffff then none else some latency
    signalDb := if signal = -2000 then none else some ((signal : ℚ) / 10)
    confidence := (wordAt body 8 2 : ℚ) / 1000 }

/-- Decode the body of a report. -/
def decodeReport (body : Bytes) : Except String (AcousticProbe × AcousticProbeObservation) :=
  if body.length ≠ 10 then invalid "report body is invalid"
  else do
    let direction ← parseDirection (wordAt body 0 1)
    let candidateIndex := wordAt body 1 1
    let probeIndex := wordAt body 2 1
    if wordAt body 3 1 ≥ 128 ∨ probeIndex ≥ options.calibration.probesPerDirection then
      invalid "report geometry is invalid"
    else match options.candidates[candidateIndex]? with
      | none => invalid "report geometry is invalid"
      | some candidate =>
        let observation ← normalizeObservation (reportObservation body)
        return (⟨direction, candidateIndex, probeIndex, candidate⟩, observation)

/-- A candidate with its measured safety and latency; no latency sorts last. -/
structure Ranked where
  /-- The candidate. -/
  candidate : AcousticCandidate
  /-- Every probe of it was good. -/
  safe : Bool
  /-- Mean latency of the probes that have one. -/
  latency : Option ℚ
  deriving DecidableEq, Repr

/-- The observation of one probe speaks for its candidate. -/
def goodObservation (observation : AcousticProbeObservation) : Bool :=
  observation.received && observation.bytePerfect && !observation.corrupt &&
    !observation.missing && observation.clipping ≠ some true && observation.confidence ≥ 1 / 2

/-- Observations of one candidate. -/
def observationsOf (entries : List AcousticProbeLedgerEntry) (candidateIndex : ℕ) :
    List AcousticProbeObservation :=
  (entries.filter (fun entry => entry.candidateIndex = candidateIndex)).map (·.observation)

/-- Mean of the measured latencies. -/
def meanLatency (observations : List AcousticProbeObservation) : Option ℚ :=
  let measured := observations.filterMap (·.latencyMs)
  if measured.length = 0 then none else some ((measured.sum : ℚ) / measured.length)

/-- Rank of one candidate. -/
def rank (entries : List AcousticProbeLedgerEntry) (candidate : AcousticCandidate)
    (candidateIndex : ℕ) : Ranked :=
  let observations := observationsOf entries candidateIndex
  { candidate
    safe := observations.length = options.calibration.probesPerDirection &&
      observations.all goodObservation
    latency := meanLatency observations }

/-- Difference of two latencies; two missing ones do not differ. -/
def latencyDifference : Option ℚ → Option ℚ → ℚ
  | some left, some right => left - right
  | some _, none => -1
  | none, some _ => 1
  | none, none => 0

/-- The comparator of the ranking. -/
def compareRanked (left right : Ranked) : ℚ :=
  if latencyDifference left.latency right.latency ≠ 0 then
    latencyDifference left.latency right.latency
  else if left.candidate.playbackGain - right.candidate.playbackGain ≠ 0 then
    left.candidate.playbackGain - right.candidate.playbackGain
  else if (right.candidate.payloadBytes : ℚ) - left.candidate.payloadBytes ≠ 0 then
    (right.candidate.payloadBytes : ℚ) - left.candidate.payloadBytes
  else options.localeCompare left.candidate.id right.candidate.id

/-- Select the best safe candidate. -/
def select (entries : List AcousticProbeLedgerEntry) : Option AcousticCandidate :=
  let ranked := (options.candidates.zipIdx.map
    (fun entry => rank options entries entry.1 entry.2)).filter (·.safe)
  (ranked.insertionSort (fun left right => compareRanked options left right ≤ 0)).head?.map
    (·.candidate)

/-- Queue the commit job. -/
def queueCommit (s : AcousticSession) : AcousticSession :=
  { s with tasks.work.jobs := s.tasks.work.jobs ++ [.queueCommit] }

/-- Ledger entries of one direction. -/
def ledgerOf (direction : Direction) (s : AcousticSession) : List AcousticProbeLedgerEntry :=
  s.calibration.ledger.filter (fun entry => entry.direction = direction)

/-- Select a candidate once a direction is fully probed; answers whether it
was. -/
def completeDirection (direction : Direction) (s : AcousticSession) :
    Except (Fault AcousticSession) (Bool × AcousticSession) :=
  if (ledgerOf direction s).length < totalProbes options ∨
      s.calibration.selected.get direction ≠ none then
    .ok (false, s)
  else match select options (ledgerOf direction s) with
    | none => .ok (true, fail "acoustic_calibration_no_safe_candidate" s)
    | some candidate =>
      let s := { s with
        calibration.selected := s.calibration.selected.set (some candidate) direction }
      match direction with
      | .aToB =>
        let s := { s with state := .calibratingBToA }
        if options.role = .b then do
          let s ← driveProbe options .bToA s
          return (true, s)
        else .ok (true, s)
      | .bToA =>
        let s := { s with state := .committing }
        if options.role = .b then .ok (true, queueCommit s) else .ok (true, s)

/-- Receive a probe. -/
def onProbe (readings : Readings) (sessionId : ℕ) (body : Bytes) (s : AcousticSession) :
    Outcome :=
  if s.link.sessionId ≠ some sessionId ∨ body.length ≠ 3 then .ok s
  else do
    let direction ← attempt (parseDirection (wordAt body 0 1)) s
    let candidateByte := wordAt body 1 1
    let probeByte := wordAt body 2 1
    let receivedOrdinal := candidateByte * options.calibration.probesPerDirection + probeByte
    let ordinal := s.calibration.receivedProbes.get direction
    if receivedOrdinal + 1 = ordinal then
      match s.calibration.lastProbeReport.get direction with
      | none => return s
      | some cached =>
        if cached.ordinal = receivedOrdinal then
          send options .report (some sessionId) cached.body
            { s with counters.duplicates := s.counters.duplicates + 1 }
        else return s
    else if s.state ≠ stateFor direction ∨ options.role = expectedSender direction ∨
        receivedOrdinal ≠ ordinal ∨
        candidateByte ≠ ordinal / options.calibration.probesPerDirection ∨
        probeByte ≠ ordinal % options.calibration.probesPerDirection then
      return s
    else
      let probe ← attempt (probeFor options direction ordinal) s
      let s := { s with io.measured := s.io.measured ++ [(sessionId, ⟨probe, readings.observation⟩)] }
      let observation ← attempt (normalizeObservation readings.observation) s
      let report := encodeReport probe observation
      let s := { s with
        calibration.receivedProbes := s.calibration.receivedProbes.set (ordinal + 1) direction
        calibration.ledger := s.calibration.ledger ++ [⟨probe, observation⟩]
        calibration.lastProbeReport :=
          s.calibration.lastProbeReport.set (some ⟨ordinal, report⟩) direction }
      let s ← send options .report (some sessionId) report s
      let (_, s) ← completeDirection options direction s
      return s

/-- Receive a report. -/
def onReport (sessionId : ℕ) (body : Bytes) (s : AcousticSession) : Outcome :=
  if s.link.sessionId ≠ some sessionId then .ok s
  else do
    let (probe, observation) ← attempt (decodeReport options body) s
    let ordinal := s.calibration.receivedReports.get probe.direction
    if s.state ≠ stateFor probe.direction ∨ options.role ≠ expectedSender probe.direction ∨
        probe.candidateIndex ≠ ordinal / options.calibration.probesPerDirection ∨
        probe.probeIndex ≠ ordinal % options.calibration.probesPerDirection then
      return s
    else
      let s := clearProbeRetry s
      let s := { s with
        calibration.receivedReports :=
          s.calibration.receivedReports.set (ordinal + 1) probe.direction
        calibration.ledger := s.calibration.ledger ++ [⟨probe, observation⟩] }
      let (complete, s) ← completeDirection options probe.direction s
      if complete then return s else driveProbe options probe.direction s

/-- Settings of a candidate. -/
def toSettings (candidate : AcousticCandidate) : DirectionalSettings :=
  candidate.toDirectionalSettings

/-- Settings of both selected candidates. -/
def selectedSettings (s : AcousticSession) : Option AcousticSettings :=
  match s.calibration.selected.aToB, s.calibration.selected.bToA with
  | some aToB, some bToA => some ⟨toSettings aToB, toSettings bToA⟩
  | _, _ => none

/-- Receive a COMMIT. -/
def onCommit (sessionId : ℕ) (body : Bytes) (s : AcousticSession) : Outcome :=
  if options.role ≠ .a ∨ s.link.sessionId ≠ some sessionId ∨ body.length ≠ 32 then .ok s
  else if (s.state = .awaitingHeartbeat ∨ s.state = .ready) ∧
      s.commitment.settingsDigest = some body then do
    let s ← send options .commitAck (some sessionId) body
      { s with counters.duplicates := s.counters.duplicates + 1 }
    if s.state = .awaitingHeartbeat then send options .heartbeat (some sessionId) [] s
    else return s
  else if s.state ≠ .committing ∨ selectedSettings s = none then .ok s
  else .ok { s with tasks.work.jobs := s.tasks.work.jobs ++ [.onCommit body] }

/-- Receive a COMMIT_ACK. -/
def onCommitAck (sessionId : ℕ) (body : Bytes) (s : AcousticSession) : Outcome :=
  if options.role ≠ .b ∨ s.state ≠ .committing ∨ s.link.sessionId ≠ some sessionId ∨
      s.commitment.settingsDigest ≠ some body then .ok s
  else
    .ok (armCommitRetry options
      { s with
        state := .awaitingHeartbeat
        delivery.turnOwner := some .a })

/-- What a step of a work chain leaves: the await point reached, if any, and
the session. -/
abbrev WorkOutcome := Option Stage × AcousticSession

/-- A job that threw is caught and fails the session. -/
def catchWork (stage : Option Stage) : Outcome → WorkOutcome
  | .ok s => (stage, s)
  | .error fault => (none, fail "acoustic_commit_failed" fault.state)

/-- Run a job up to its first await. -/
def startJob (job : Job) (s : AcousticSession) : WorkOutcome :=
  match job with
  | .queueCommit =>
    match selectedSettings s with
    | none => (none, s)
    | some settings =>
      if s.state ≠ .committing ∨ s.link.sessionId = none then (none, s)
      else
        (some (.commitDigest settings),
          applyOutboundCandidate options { s with commitment.settings := some settings })
  | .onCommit received =>
    if s.state ≠ .committing ∨ s.link.sessionId = none then (none, s)
    else match selectedSettings s with
      | none => (none, fail "acoustic_commit_failed" s)
      | some settings =>
        (some (.acknowledgeDigest received settings), { s with commitment.settings := some settings })

/-- A digest of settings; it rejects when the settings have no canonical bytes. -/
def digestSettings (settings : AcousticSettings) : Except String Bytes := do
  let canonical ← canonicalizeSettings settings
  return options.sha256 canonical

/-- Send COMMIT once the digest is there. -/
def sendCommit (digest : Bytes) (s : AcousticSession) : WorkOutcome :=
  match send options .commit s.link.sessionId digest
      { s with commitment.settingsDigest := some digest } with
  | .ok s => (some (.commitPlayback (lastAsynchronous options s)), s)
  | .error fault => (none, fail "acoustic_commit_failed" fault.state)

/-- Accept or refuse the peer's digest once the own digest is there. -/
def acknowledgeCommit (received digest : Bytes) (s : AcousticSession) : WorkOutcome :=
  if received ≠ digest then (none, fail "acoustic_commit_digest_mismatch" s)
  else
    catchWork none do
      let s := applyOutboundCandidate options { s with commitment.settingsDigest := some digest }
      let s := { s with
        state := .awaitingHeartbeat
        delivery.turnOwner := some .a }
      let s ← send options .commitAck s.link.sessionId digest s
      send options .heartbeat s.link.sessionId [] s

/-- Resume a job at its await point. -/
def resumeJob (rejected : Bool) (stage : Stage) (s : AcousticSession) : WorkOutcome :=
  match stage with
  | .commitDigest settings =>
    match digestSettings options settings with
    | .ok digest =>
      if rejected then (none, fail "acoustic_commit_failed" s) else sendCommit options digest s
    | .error _ => (none, fail "acoustic_commit_failed" s)
  | .commitPlayback asynchronous =>
    if rejected && asynchronous then (none, fail "acoustic_commit_failed" s)
    else (none, armCommitRetry options s)
  | .acknowledgeDigest received settings =>
    match digestSettings options settings with
    | .ok digest =>
      if rejected then (none, fail "acoustic_commit_failed" s)
      else acknowledgeCommit options received digest s
    | .error _ => (none, fail "acoustic_commit_failed" s)

/-- One step of a work chain: resume its running job, or start its next one. -/
def stepChain (rejected : Bool) (chain : WorkChain) (s : AcousticSession) :
    WorkChain × AcousticSession :=
  match chain.running with
  | some stage =>
    let (running, s) := resumeJob options rejected stage s
    ({ chain with running }, s)
  | none =>
    match chain.jobs with
    | [] => (chain, s)
    | job :: jobs =>
      let (running, s) := startJob options job s
      ({ chain with running, jobs }, s)

end Fipwave.AcousticNegotiation
