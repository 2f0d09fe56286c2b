import Fipwave.CorpusManifest
import Fipwave.SessionChanges

/-!
# Stored reports and their merge

A report as it is stored, with the evidence of its runner, the rules it is
checked against when it is written and read, and the selection that is made of
the reports of both machines. Fields that have a type of their own can only
hold what the rules allow for them; numbers are whole here.
-/

namespace Fipwave.ReportValidation

open QualificationSession SessionChanges BridgeReport CorpusManifest

/-- A rule of the validation. -/
def require (holds : Bool) (reasonCode : String) : Except String Unit :=
  if holds then .ok () else .error reasonCode

/-- A text that is not blank. -/
def notBlank (value : String) : Bool := !value.toList.all isSpace

/-- A text must not be blank. -/
def nonEmpty (value reasonCode : String) : Except String Unit :=
  require (notBlank value) reasonCode

/-- A number must be exact. -/
def integerNonNegative (value : ℕ) (reasonCode : String) : Except String Unit :=
  require (value ≤ maxSafeInteger) reasonCode

/-- A hexadecimal digit in lower case. -/
def isLowerHexDigit (c : Char) : Bool := c.isDigit || ('a' ≤ c && c ≤ 'f')

section TunEvidence

/-- Checks of a TUN device. -/
inductive TunEvidenceCheck where
  | imagePinned | tunDevice | netAdmin | noNewPrivileges | notPrivileged | sysAdminAbsent
  | hostNetworkAbsent | loopbackPortsOnly | interfaceCreated | ipv6Assigned | cleanupComplete
  deriving DecidableEq, Repr

/-- All checks: eight of the authorities and three of the life of the device. -/
def tunEvidenceChecks : List TunEvidenceCheck :=
  [.imagePinned, .tunDevice, .netAdmin, .noNewPrivileges, .notPrivileged, .sysAdminAbsent,
    .hostNetworkAbsent, .loopbackPortsOnly, .interfaceCreated, .ipv6Assigned, .cleanupComplete]

/-- Outcome of a check. -/
inductive TunCheck where
  | passed | failed | notRun
  deriving DecidableEq, Repr

/-- Where the evidence comes from. -/
inductive TunEvidenceSource where
  | static | inspect | lifecycle | exactHost
  deriving DecidableEq, Repr

/-- Status of the evidence. -/
inductive TunStatus where
  | passed | failed
  deriving DecidableEq, Repr

/-- Authorities of the container. -/
structure TunAuthorities where
  /-- Devices. -/
  devices : List String
  /-- Capabilities. -/
  capabilities : List String
  /-- Security options. -/
  securityOptions : List String
  /-- It is privileged. -/
  privileged : Bool
  /-- Mode of its network. -/
  networkMode : String
  /-- Ports it publishes. -/
  publishedPorts : List String
  deriving DecidableEq, Repr

/-- Evidence about the TUN device of a host. -/
structure TunEvidence where
  /-- Version of the schema. -/
  schemaVersion : ℕ
  /-- Where it comes from. -/
  source : TunEvidenceSource
  /-- Its status. -/
  status : TunStatus
  /-- Image of the container. -/
  image : String
  /-- Name of the interface. -/
  interfaceName : String
  /-- Address of the interface. -/
  ipv6Address : String
  /-- Authorities of the container. -/
  authorities : TunAuthorities
  /-- Outcomes of the checks. -/
  checks : TunEvidenceCheck → TunCheck
  /-- Errors. -/
  errors : List String

/-- The image is pinned by its digest. -/
def imagePinned (image : String) : Bool :=
  image.toList.take 21 = "alpine:3.21.3@sha256:".toList && (image.toList.drop 21).length = 64 &&
    (image.toList.drop 21).all isLowerHexDigit

/-- The port is published on the loopback interface only. -/
def loopbackPort (port : String) : Bool :=
  port.toList.take 10 = "127.0.0.1:".toList || port.toList.take 6 = "[::1]:".toList

/-- Checks that evidence of a source must pass. -/
def requiredChecks : TunEvidenceSource → List TunEvidenceCheck
  | .static | .inspect => tunEvidenceChecks.take 8
  | .lifecycle => tunEvidenceChecks.drop 8
  | .exactHost => tunEvidenceChecks

/-- Checks that evidence of a source must not have run. -/
def inactiveChecks : TunEvidenceSource → List TunEvidenceCheck
  | .static | .inspect => tunEvidenceChecks.drop 8
  | .lifecycle => tunEvidenceChecks.take 8
  | .exactHost => []

/-- Validate evidence about a TUN device. -/
def validateTunEvidence (evidence : TunEvidence) : Except String TunEvidence := do
  require (evidence.schemaVersion = 1) "tun_schema_unsupported"
  require (imagePinned evidence.image) "tun_image_not_pinned"
  require (evidence.interfaceName = "fips-preflight0" &&
    evidence.ipv6Address = "fd42:6677:6677::1/64") "tun_interface_invalid"
  require (evidence.authorities.devices = ["/dev/net/tun"]) "tun_devices_invalid"
  require (evidence.authorities.capabilities = ["NET_ADMIN"]) "tun_capabilities_invalid"
  require (evidence.authorities.securityOptions = ["no-new-privileges:true"])
    "tun_security_options_invalid"
  require (!evidence.authorities.privileged && evidence.authorities.networkMode = "none")
    "tun_authority_too_broad"
  require (evidence.authorities.publishedPorts.all loopbackPort) "tun_published_ports_invalid"
  require (evidence.errors.all notBlank) "tun_errors_invalid"
  require (!(evidence.status = .passed &&
    ((requiredChecks evidence.source).any (fun check => evidence.checks check ≠ .passed) ||
      (inactiveChecks evidence.source).any (fun check => evidence.checks check ≠ .notRun) ||
      evidence.errors.length ≠ 0))) "tun_passed_status_inconsistent"
  return evidence

end TunEvidence

section Reports

/-- Machine of a report. -/
structure MachineRecord where
  /-- Name of the host. -/
  hostName : String
  /-- Operating system. -/
  os : String
  /-- Architecture. -/
  architecture : String
  /-- Version of the browser. -/
  browserVersion : String
  /-- Commit of the build. -/
  commit : String
  deriving DecidableEq, Repr

/-- Settings of a physical audio device. -/
structure PhysicalAudio where
  /-- Label of the microphone. -/
  microphoneLabel : String
  /-- State of the audio context. -/
  contextState : String
  /-- Sample rate of the input device. -/
  inputDeviceSampleRate : ℕ
  /-- Channels of the input device. -/
  inputDeviceChannels : ℕ
  deriving DecidableEq, Repr

/-- Audio of a report. -/
structure AudioRecord where
  /-- Settings of the device, which a report of an older fixture lacks. -/
  device : Option PhysicalAudio
  /-- Sample rate of the context. -/
  contextSampleRate : ℕ
  /-- Sample rate of the capture. -/
  captureSampleRate : ℕ
  /-- Channels of the capture. -/
  channels : ℕ
  /-- Echo cancellation is on. -/
  echoCancellation : Bool
  /-- Noise suppression is on. -/
  noiseSuppression : Bool
  /-- Automatic gain control is on. -/
  autoGainControl : Bool
  deriving DecidableEq, Repr

/-- What the runner stamps on a report. -/
structure RunnerRecord where
  /-- Machine. -/
  machineId : String
  /-- Role. -/
  role : RunnerRole
  /-- Where the report goes. -/
  reportTarget : String
  /-- Class of the evidence. -/
  evidenceClass : EvidenceClass
  /-- Evidence about the TUN device. -/
  tunEvidence : TunEvidence

/-- A report as it is stored. -/
structure StoredReport where
  /-- Version of the schema. -/
  schemaVersion : ℕ
  /-- Machine. -/
  machine : MachineRecord
  /-- Class of the evidence. -/
  evidenceClass : EvidenceClass
  /-- Epoch. -/
  epoch : ℕ
  /-- Codec. -/
  codec : CodecRecord
  /-- Audio. -/
  audio : AudioRecord
  /-- Evidence about the queues. -/
  queues : QueueEvidence
  /-- One line per case. -/
  results : List MachineResult
  /-- The evidence is complete. -/
  complete : Bool
  /-- Reasons against it. -/
  reasonCodes : Option (List String)
  /-- The qualification. -/
  qualification : Option QualificationRecord
  /-- What the runner stamped. -/
  runner : Option RunnerRecord

/-- A report a bridge has built, as it is stored. -/
def stored (report : MachineReport) (tunEvidence : TunEvidence) : StoredReport :=
  { schemaVersion := 1
    machine := ⟨report.hostName, report.os, report.architecture, report.browserVersion,
      report.commit⟩
    evidenceClass := report.evidenceClass
    epoch := report.epoch
    codec := report.codec
    audio :=
      { device := some ⟨report.audio.microphoneLabel, report.audio.contextState,
          report.audio.inputDeviceSampleRate, report.audio.inputDeviceChannels⟩
        contextSampleRate := report.audio.contextSampleRate
        captureSampleRate := report.audio.captureSampleRate
        channels := report.audio.channels
        echoCancellation := report.audio.echoCancellation
        noiseSuppression := report.audio.noiseSuppression
        autoGainControl := report.audio.autoGainControl }
    queues := report.queues
    results := report.results
    complete := report.complete
    reasonCodes := some report.reasonCodes
    qualification := some report.qualification
    runner := some ⟨report.hostName, report.role, report.reportTarget, report.evidenceClass,
      tunEvidence⟩ }

variable (corpus : List CorpusEntry)

/-- The commit of a build. -/
def isCommit (value : String) : Bool :=
  value.toList.length = 40 && value.toList.all isLowerHexDigit

/-- Rules for the texts of the machine. -/
def validateMachine (machine : MachineRecord) : Except String Unit := do
  nonEmpty machine.hostName "machine_hostName_required"
  nonEmpty machine.os "machine_os_required"
  nonEmpty machine.architecture "machine_architecture_required"
  nonEmpty machine.browserVersion "machine_browserVersion_required"
  nonEmpty machine.commit "machine_commit_required"

/-- Rules for the audio. -/
def validateAudio (physical : Bool) (audio : AudioRecord) : Except String Unit := do
  require (!physical || audio.device.isSome) "audio_evidence_incomplete"
  match audio.device with
  | none => return
  | some device =>
    nonEmpty device.microphoneLabel "audio_microphoneLabel_invalid"
    nonEmpty device.contextState "audio_contextState_invalid"

/-- Rules for the times of a qualification. -/
def validateDeadline (q : QualificationRecord) : Except String Unit := do
  let values := [q.startedAtMs, q.deadlineAtMs, q.elapsedMs]
  let allNull := values.all (·.isNone)
  let allStamped := values.all (·.isSome)
  require (allNull || allStamped) "qualification_deadline_invalid"
  if allStamped then
    integerNonNegative (q.startedAtMs.getD 0) "qualification_deadline_invalid"
    integerNonNegative (q.deadlineAtMs.getD 0) "qualification_deadline_invalid"
    integerNonNegative (q.elapsedMs.getD 0) "qualification_deadline_invalid"
    require (q.deadlineAtMs.getD 0 = q.startedAtMs.getD 0 + cyrinxDeadlineMs)
      "qualification_deadline_invalid"

/-- Rules for the fallback, and what it says about the times. -/
def validateFallback (q : QualificationRecord) : Except String Unit := do
  let allStamped := [q.startedAtMs, q.deadlineAtMs, q.elapsedMs].all (·.isSome)
  require (!(q.fallbackState = .available && q.reasonCode ≠ none)) "fallback_state_invalid"
  require (!(q.fallbackState ≠ .available && q.reasonCode = none)) "fallback_state_invalid"
  require (!(q.fallbackState ≠ .available && !allStamped)) "fallback_timing_invalid"
  if allStamped then
    let expired : Bool := q.elapsedMs.getD 0 ≥ cyrinxDeadlineMs
    require (if q.reasonCode = some .deadlineExpired then expired else !expired)
      "fallback_timing_invalid"

/-- Rules for the qualification of a physical report. -/
def validateQualification (qualification : Option QualificationRecord) : Except String Unit :=
  match qualification with
  | none => .error "qualification_policy_invalid"
  | some q => do
    require (q.deadLinkTimeoutMs = qualificationDeadLinkTimeoutMs &&
      q.cyrinxDeadlineMs = QualificationSession.cyrinxDeadlineMs) "qualification_policy_invalid"
    validateDeadline q
    require (q.physicalGate ≠ .notPhysical) "physical_gate_invalid"
    validateFallback q

/-- Rules for one line. -/
def validateResult (physical : Bool) (epoch : ℕ) (result : MachineResult) :
    Except String Unit := do
  require (result.epoch = epoch) "stale_epoch"
  nonEmpty result.caseId "case_id_required"
  match manifestCase corpus result.caseId with
  | none => .error "unknown_case"
  | some committed =>
    require (committed.direction = result.direction) "manifest_direction_mismatch"
    integerNonNegative result.deliveryCount "delivery_count_invalid"
    if physical then
      require (result.size = committed.size) "manifest_size_mismatch"
      require (result.expectedSha256 = committed.sha256) "manifest_digest_mismatch"
      require (result.receivedSha256.all isDigest) "received_digest_invalid"
      integerNonNegative result.missing "missing_count_invalid"
      integerNonNegative result.duplicates "duplicate_count_invalid"

/-- Validate a report. -/
def validateMachineReport (report : StoredReport) : Except String StoredReport := do
  let physical : Bool := report.evidenceClass = .openAir
  require (report.schemaVersion = 1) "schema_unsupported"
  validateMachine report.machine
  integerNonNegative report.epoch "epoch_invalid"
  nonEmpty report.codec.commit "codec_commit_required"
  nonEmpty report.codec.profile "codec_profile_required"
  require (0 < report.codec.advertisedMtu) "advertised_mtu_invalid"
  validateAudio physical report.audio
  require (report.reasonCodes.all (·.all notBlank)) "reason_codes_invalid"
  if physical then
    require (isCommit report.machine.commit) "build_identity_invalid"
    nonEmpty report.codec.id "codec_id_required"
    validateQualification report.qualification
  report.results.forM (validateResult corpus physical report.epoch)
  return report

end Reports

section Merge

/-- A codec that can be selected. -/
inductive CodecId where
  | quiet | cyrinx
  deriving DecidableEq, Repr

/-- What is decided. -/
inductive Decision where
  | selected (codec : CodecId) | unqualified | humanNeeded
  deriving DecidableEq, Repr

/-- The selection made of two reports. -/
structure SelectionReport where
  /-- Hosts the reports are expected of. -/
  expectedHosts : String × String
  /-- What is decided. -/
  decision : Decision
  /-- Reasons against a selection. -/
  reasonCodes : List String
  /-- The reports. -/
  reports : StoredReport × StoredReport

/-- The codec a record is exactly. -/
def exactCodec (codec : CodecRecord) : Option CodecId :=
  if codec = quietCodec then some .quiet else if codec = cyrinxCodec then some .cyrinx else none

/-- The value below which 95 percent lie, if there is one. -/
def p95 (values : List ℕ) : Option ℕ :=
  (values.insertionSort (· ≤ ·))[(19 * values.length + 19) / 20 - 1]?

/-- A line that qualifies. -/
def qualifying (result : MachineResult) : Bool :=
  result.observed && result.complete && !result.corrupt && result.missing = 0 &&
    result.duplicates = 0 && result.deliveryCount = 1 && result.bytePerfect &&
    result.receivedSha256 = some result.expectedSha256

/-- The audio is not as required. -/
def audioUnfit (audio : AudioRecord) : Bool :=
  audio.device.all (fun device =>
    device.microphoneLabel = "" || device.contextState ≠ "running" ||
      (device.inputDeviceSampleRate ≠ 44100 && device.inputDeviceSampleRate ≠ 48000) ||
      (device.inputDeviceChannels ≠ 1 && device.inputDeviceChannels ≠ 2)) ||
    audio.contextSampleRate ≠ 48000 || audio.captureSampleRate ≠ 48000 || audio.channels ≠ 1 ||
    audio.echoCancellation || audio.noiseSuppression || audio.autoGainControl

/-- What the runner stamped does not belong to the report. -/
def runnerUnfit (report : StoredReport) : Bool :=
  report.runner.all (fun runner =>
    runner.machineId ≠ report.machine.hostName || runner.evidenceClass ≠ report.evidenceClass ||
      runner.reportTarget = "")

/-- A bound of the queues is exceeded. -/
def queuesUnfit (queues : QueueEvidence) : Bool :=
  queues.captureHighWaterBytes > maxQueueBytes || queues.playbackHighWaterBytes > maxQueueBytes ||
    queues.captureHighWaterMs > maxQueueDurationMs ||
    queues.playbackHighWaterMs > maxQueueDurationMs

/-- The host has not shown that its TUN device works. -/
def tunUnfit (report : StoredReport) : Bool :=
  match report.runner with
  | none => true
  | some runner =>
    match validateTunEvidence runner.tunEvidence with
    | .error _ => true
    | .ok tun => tun.source ≠ .exactHost || tun.status ≠ .passed ||
        tunEvidenceChecks.any (fun check => tun.checks check ≠ .passed)

/-- A qualification, if there is one, or what holds without one. -/
def qualificationOr (missing : Bool) (report : StoredReport) (holds : QualificationRecord → Bool) :
    Bool :=
  match report.qualification with
  | none => missing
  | some q => holds q

/-- Reasons about the hosts, the runners and the builds. -/
def identityReasons (expectedHosts : String × String) (a b : StoredReport)
    (reasons : List String) : List String :=
  let reports := [a, b]
  let reasons := addReasonIf (expectedHosts.1 = expectedHosts.2) "exact_hosts_required" reasons
  let reasons := addReasonIf (a.machine.hostName ≠ expectedHosts.1 ||
    b.machine.hostName ≠ expectedHosts.2) "ordered_hosts_required" reasons
  let reasons := addReasonIf (reports.any (·.evidenceClass ≠ .openAir)) "non_physical_evidence"
    reasons
  let reasons := addReasonIf (a.runner.map (·.role) ≠ some .a || b.runner.map (·.role) ≠ some .b)
    "ordered_roles_required" reasons
  let reasons := addReasonIf (reports.any runnerUnfit) "runner_authority_required" reasons
  addReasonIf (a.machine.commit ≠ b.machine.commit) "build_mismatch" reasons

/-- Reasons about the audio, the queues and the TUN devices. -/
def evidenceReasons (reports : List StoredReport) (reasons : List String) : List String :=
  let reasons := addReasonIf (reports.any (fun report => audioUnfit report.audio))
    "audio_preflight_failed" reasons
  let reasons := addReasonIf (reports.any (fun report => queuesUnfit report.queues))
    "queue_bound_exceeded" reasons
  let reasons := addReasonIf (reports.any (fun report => report.queues.discontinuities ≠ 0))
    "queue_discontinuity" reasons
  reports.foldl (fun reasons report =>
    addReasonIf (tunUnfit report) "exact_host_tun_required" reasons) reasons

/-- Reasons about the codec and the qualification for it. -/
def codecReasons (firstCodec : CodecRecord) (reports : List StoredReport)
    (reasons : List String) : List String :=
  let selected := exactCodec firstCodec
  let quiet : Bool := selected = some .quiet
  let cyrinx : Bool := selected = some .cyrinx
  let someReport := fun missing holds =>
    reports.any (fun report => qualificationOr missing report holds)
  let reasons := addReasonIf (reports.any (fun report => report.codec ≠ firstCodec))
    "codec_mismatch" reasons
  let reasons := addReasonIf (selected = none) "unsupported_codec" reasons
  let reasons := addReasonIf (quiet && someReport false (fun q => q.fallbackState = .failed))
    "quiet_fallback_failed" reasons
  let reasons := addReasonIf (quiet && someReport true (fun q =>
    q.fallbackState = .available || q.reasonCode = none)) "quiet_fallback_not_activated" reasons
  let reasons := addReasonIf (quiet && someReport false (fun q =>
    match q.fallbackState with
    | .activated => q.stage ≠ .quiet
    | .failed => q.stage ≠ .unqualified
    | .available => false)) "quiet_stage_authority_required" reasons
  let reasons := addReasonIf (cyrinx && someReport true (fun q =>
    q.fallbackState ≠ .available || q.reasonCode ≠ none)) "unexpected_fallback_activation" reasons
  let reasons := addReasonIf (cyrinx && someReport true (fun q => q.stage ≠ .complete))
    "cyrinx_stage_authority_required" reasons
  let reasons := addReasonIf (cyrinx && someReport true (fun q => !q.coldReceivePassed))
    "cyrinx_cold_authority_required" reasons
  let reasons := addReasonIf (someReport false (fun q =>
    q.startedAtMs = none || q.deadlineAtMs = none || q.elapsedMs = none))
    "cyrinx_deadline_evidence_required" reasons
  let reasons := addReasonIf (reports.any (fun report => !report.codec.audible))
    "audible_profile_required" reasons
  addReasonIf (reports.any (fun report => report.codec.advertisedMtu < 1357))
    "minimum_mtu_required" reasons

/-- Reasons one line gives; its name is added to those seen. -/
def mergeLine (state : List String × List String) (result : MachineResult) :
    List String × List String :=
  let (keys, reasons) := state
  let reasons := addReasonIf (result.caseId ∈ keys ||
    result.observed && (result.duplicates > 0 || result.deliveryCount ≠ 1)) "duplicate_case" reasons
  let keys := result.caseId :: keys
  let reasons := addReasonIf (result.observed &&
    (result.receivedSha256 ≠ some result.expectedSha256 || !result.bytePerfect || result.corrupt))
    "bad_digest" reasons
  (keys, addReasonIf (result.observed && (!result.complete || result.missing > 0))
    "partial_evidence" reasons)

/-- Reasons the lines of one report give. -/
def corpusReasons (corpus : List CorpusEntry) (selected : Option CodecId)
    (expectedDirection : LiteralDirection) (report : StoredReport) (reasons : List String) :
    List String :=
  let reasons := addReasonIf (report.results.any (·.direction ≠ expectedDirection))
    "independent_direction_required" reasons
  let sameDirection := report.results.filter (·.direction = expectedDirection)
  let expectedCases := corpus.filter (·.direction = expectedDirection)
  let reasons := addReasonIf (sameDirection.length ≠ expectedCases.length ||
    expectedCases.any (fun entry => !sameDirection.any (·.caseId = entry.id)))
    "manifest_cases_missing" reasons
  let reasons := (sameDirection.foldl mergeLine ([], reasons)).2
  let good := sameDirection.filter qualifying
  let reasons := addReasonIf ((good.filter (·.size = 256)).length < 19 ||
    (good.filter (·.size = 1536)).length < 5) "corpus_incomplete" reasons
  let reasons := addReasonIf (selected ≠ some .cyrinx && !expectedCases.head?.any (fun cold =>
    good.any (fun result => result.caseId = cold.id && result.coldAcquired)))
    "cold_acquisition_failed" reasons
  let reasons := addReasonIf (qualificationOr true report (fun q =>
    q.deadLinkTimeoutMs ≠ qualificationDeadLinkTimeoutMs) ||
    (p95 (good.map (·.airtimeMs))).all (· ≥ qualificationDeadLinkTimeoutMs / 3))
    "airtime_budget_exceeded" reasons
  addReasonIf (qualificationOr true report (fun q => q.physicalGate ≠ .passed) || !report.complete)
    "physical_gate_failed" reasons

/-- Select a codec by the reports of both machines. -/
def mergeSelection (corpus : List CorpusEntry) (expectedHosts : String × String)
    (machineA machineB : StoredReport) : Except String SelectionReport := do
  let a ← validateMachineReport corpus machineA
  let b ← validateMachineReport corpus machineB
  let selected := exactCodec a.codec
  let reasons := identityReasons expectedHosts a b []
  let reasons := evidenceReasons [a, b] reasons
  let reasons := codecReasons a.codec [a, b] reasons
  let reasons := corpusReasons corpus selected .bToA a reasons
  let reasons := corpusReasons corpus selected .aToB b reasons
  let decision : Decision :=
    if a.evidenceClass ≠ .openAir || b.evidenceClass ≠ .openAir then .humanNeeded
    else match reasons, selected with
      | [], some codec => .selected codec
      | _, _ => .unqualified
  return ⟨expectedHosts, decision, reasons, (a, b)⟩

end Merge

end Fipwave.ReportValidation
