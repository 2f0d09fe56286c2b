import Fipwave.BridgePorts

/-!
# Evidence and reports of a bridge

What the browser reports as JSON, the results a bridge keeps, and the report
it builds of them: one line per case of the corpus, the reasons against it,
and the physical gate. Reports are written one after another by a chain of
promises; a report of an older generation is skipped when its turn comes.
-/

namespace Fipwave.BridgeReport

open ByteWords FwavProtocol QualificationSession BridgePorts

/-- A JSON value, with the exact value of a number and distinct names in an object. -/
inductive Json where
  | null
  | bool (value : Bool)
  | num (value : ℚ)
  | str (value : String)
  | arr (items : List Json)
  | obj (fields : List (String × Json))

mutual

/-- Some name in the value is of a kind. -/
def someKey (isKey : String → Bool) : Json → Bool
  | .arr items => someItemKey isKey items
  | .obj fields => someFieldKey isKey fields
  | _ => false

/-- Some name in an item is of a kind. -/
def someItemKey (isKey : String → Bool) : List Json → Bool
  | [] => false
  | item :: items => someKey isKey item || someItemKey isKey items

/-- Some name of or in a field is of a kind. -/
def someFieldKey (isKey : String → Bool) : List (String × Json) → Bool
  | [] => false
  | (key, child) :: fields => isKey key || someKey isKey child || someFieldKey isKey fields

end

/-- Names only the runner may state. -/
def forbiddenAuthority : List String :=
  ["machineId", "role", "reportTarget", "report", "tunEvidence", "tunEvidenceSource",
    "evidenceMode", "evidenceClass", "hostIdentity", "buildCommit", "codec", "qualification",
    "deadLinkTimeoutMs", "cyrinxDeadlineMs", "deadline", "fallback", "stage", "terminal",
    "instruction"]

/-- The value states something only the runner may state. -/
def hasForbiddenAuthority (value : Json) : Bool := someKey (· ∈ forbiddenAuthority) value

/-- Lower case, as far as it can yield a Latin letter. -/
def lowerCase (key : String) : String :=
  key.map (fun c => if c = Char.ofNat 0x212a then 'k' else c.toLower)

/-- The value carries packet data. -/
def hasPacketBulk (value : Json) : Bool :=
  someKey (fun key =>
    lowerCase key ∈ ["packet", "packets", "base64", "binary", "payload", "frame"]) value

/-- The payload of a control frame: an object. -/
def parseJsonPayload (parse : Bytes → Option Json) (frame : FwavFrame) :
    Except Refusal (List (String × Json)) :=
  if frame.payload.length > 16 * 1024 then .error (.input "control_payload_too_large")
  else if frame.payload.length = 0 then .ok []
  else match parse frame.payload with
    | none => .error (.input "control_payload_invalid_json")
    | some (.obj fields) => .ok fields
    | some _ => .error (.input "control_payload_not_object")

/-- The object has exactly these names. -/
def exactObject (fields : List (String × Json)) (keys : List String) : Bool :=
  (fields.map Prod.fst).isPerm keys

/-- A field of an object. -/
def field (fields : List (String × Json)) (key : String) : Option Json := fields.lookup key

/-- White space. -/
def isSpace (c : Char) : Bool :=
  c.toNat ∈ [0x09, 0x0a, 0x0b, 0x0c, 0x0d, 0x20, 0xa0, 0x1680, 0x2028, 0x2029, 0x202f, 0x205f,
    0x3000, 0xfeff] || (0x2000 ≤ c.toNat && c.toNat ≤ 0x200a)

/-- A Boolean. -/
def asBoolean (value : Option Json) (name : String) : Except Refusal Bool :=
  match value with
  | some (.bool value) => .ok value
  | _ => .error (.input name)

/-- A whole number that is not negative. -/
def asInteger (value : Option Json) (name : String) : Except Refusal ℕ :=
  match value with
  | some (.num value) =>
    if value.den = 1 ∧ 0 ≤ value then .ok value.num.toNat else .error (.input name)
  | _ => .error (.input name)

/-- A text that is not blank. -/
def asText (value : Option Json) (name : String) : Except Refusal String :=
  match value with
  | some (.str value) => if value.toList.all isSpace then .error (.input name) else .ok value
  | _ => .error (.input name)

/-- Settings of the browser's audio. -/
structure BrowserAudio where
  /-- Version of the browser. -/
  browserVersion : String
  /-- Label of the microphone. -/
  microphoneLabel : String
  /-- State of the audio context. -/
  contextState : String
  /-- Sample rate of the input device. -/
  inputDeviceSampleRate : ℕ
  /-- Channels of the input device. -/
  inputDeviceChannels : ℕ
  /-- Sample rate of the context. -/
  contextSampleRate : ℕ
  /-- Sample rate of the capture. -/
  captureSampleRate : ℕ
  /-- Channels of the capture. -/
  channels : ℕ
  /-- Echo cancellation is on. -/
  echoCancellation : Bool
  /-- Noise suppression is on. -/
  noiseSuppression : Bool
  /-- Automatic gain control is on. -/
  autoGainControl : Bool
  deriving DecidableEq, Repr

/-- Parse the settings of the browser's audio. -/
def parseBrowserAudio (payload : List (String × Json)) : Except Refusal BrowserAudio := do
  if !exactObject payload ["browserVersion", "microphoneLabel", "contextState",
      "inputDeviceSampleRate", "inputDeviceChannels", "contextSampleRate", "captureSampleRate",
      "channels", "echoCancellation", "noiseSuppression", "autoGainControl"] then
    .error (.input "audio_settings_shape_invalid")
  else
    let browserVersion ← asText (field payload "browserVersion") "browser_version_invalid"
    let microphoneLabel ← asText (field payload "microphoneLabel") "microphone_label_invalid"
    let contextState ← asText (field payload "contextState") "audio_context_state_invalid"
    let inputDeviceSampleRate ←
      asInteger (field payload "inputDeviceSampleRate") "input_device_sample_rate_invalid"
    let inputDeviceChannels ←
      asInteger (field payload "inputDeviceChannels") "input_device_channels_invalid"
    let contextSampleRate ←
      asInteger (field payload "contextSampleRate") "context_sample_rate_invalid"
    let captureSampleRate ←
      asInteger (field payload "captureSampleRate") "capture_sample_rate_invalid"
    let channels ← asInteger (field payload "channels") "channels_invalid"
    let echoCancellation ←
      asBoolean (field payload "echoCancellation") "echo_cancellation_invalid"
    let noiseSuppression ←
      asBoolean (field payload "noiseSuppression") "noise_suppression_invalid"
    let autoGainControl ← asBoolean (field payload "autoGainControl") "auto_gain_control_invalid"
    return ⟨browserVersion, microphoneLabel, contextState, inputDeviceSampleRate,
      inputDeviceChannels, contextSampleRate, captureSampleRate, channels, echoCancellation,
      noiseSuppression, autoGainControl⟩

/-- Shown as the fraction it is. -/
instance reprFraction : Repr ℚ≥0 where
  reprPrec value precedence := reprPrec (value : ℚ) precedence

/-- Evidence about the queues of the browser or of the native worker. The browser counts whole
milliseconds, the worker divides samples by their rate. -/
structure QueueEvidence where
  /-- Most bytes captured and waiting. -/
  captureHighWaterBytes : ℕ := 0
  /-- Longest capture waiting. -/
  captureHighWaterMs : ℚ≥0 := 0
  /-- Most bytes to be played. -/
  playbackHighWaterBytes : ℕ := 0
  /-- Longest playback waiting. -/
  playbackHighWaterMs : ℚ≥0 := 0
  /-- Gaps. -/
  discontinuities : ℕ := 0
  deriving DecidableEq, Repr

/-- Parse evidence about the queues. -/
def parseQueues (value : Option Json) : Except Refusal QueueEvidence :=
  match value with
  | some (.obj queues) => do
    if !exactObject queues ["captureHighWaterBytes", "captureHighWaterMs", "discontinuities",
        "playbackHighWaterBytes", "playbackHighWaterMs"] then
      .error (.input "queue_evidence_shape_invalid")
    else
      let captureHighWaterBytes ←
        asInteger (field queues "captureHighWaterBytes") "capture_queue_bytes_invalid"
      let captureHighWaterMs ←
        asInteger (field queues "captureHighWaterMs") "capture_queue_time_invalid"
      let playbackHighWaterBytes ←
        asInteger (field queues "playbackHighWaterBytes") "playback_queue_bytes_invalid"
      let playbackHighWaterMs ←
        asInteger (field queues "playbackHighWaterMs") "playback_queue_time_invalid"
      let discontinuities ←
        asInteger (field queues "discontinuities") "queue_discontinuities_invalid"
      return ⟨captureHighWaterBytes, captureHighWaterMs, playbackHighWaterBytes,
        playbackHighWaterMs, discontinuities⟩
  | _ => .error (.input "queue_evidence_shape_invalid")

/-- A result of one case. -/
structure BrowserResult where
  /-- Epoch it belongs to. -/
  epoch : ℕ
  /-- Case. -/
  caseId : String
  /-- Digest of what was received. -/
  receivedSha256 : Option String
  /-- Time of acquisition. -/
  acquisitionMs : ℚ≥0
  /-- Time on air. -/
  airtimeMs : ℕ
  /-- Deliveries. -/
  deliveryCount : ℕ
  /-- Every byte arrived. -/
  bytePerfect : Bool
  /-- It was acquired cold. -/
  coldAcquired : Bool
  /-- It is complete. -/
  complete : Bool
  /-- It is corrupt. -/
  corrupt : Bool
  /-- Parts missing. -/
  missing : ℕ
  /-- Duplicates. -/
  duplicates : ℕ
  /-- Evidence about the queues. -/
  queues : QueueEvidence
  deriving DecidableEq, Repr

/-- A hexadecimal digit. -/
def isHexDigit (c : Char) : Bool :=
  c.isDigit || ('a' ≤ c && c ≤ 'f') || ('A' ≤ c && c ≤ 'F')

/-- A digest as text. -/
def isDigest (value : String) : Bool := value.toList.length = 64 && value.toList.all isHexDigit

/-- The digest of a result: absent, or well formed. -/
def receivedDigest (value : Option Json) : Except Refusal (Option String) :=
  match value with
  | some .null => .ok none
  | some (.str value) =>
    if isDigest value then .ok (some value) else .error (.input "received_digest_invalid")
  | _ => .error (.input "received_digest_invalid")

/-- Parse a result. -/
def parseBrowserResult (payload : List (String × Json)) (epoch : ℕ) :
    Except Refusal BrowserResult := do
  if !exactObject payload ["caseId", "digest", "acquisitionMs", "airtimeMs", "deliveryCount",
      "bytePerfect", "coldAcquired", "complete", "corrupt", "missing", "duplicates",
      "queues"] then
    .error (.input "qualification_result_shape_invalid")
  else
    let complete ← asBoolean (field payload "complete") "complete_flag_invalid"
    let receivedSha256 ← receivedDigest (field payload "digest")
    if complete ∧ receivedSha256 = none then .error (.input "complete_result_digest_missing")
    else
      let caseId ← asText (field payload "caseId") "case_id_invalid"
      let acquisitionMs ← asInteger (field payload "acquisitionMs") "acquisition_time_invalid"
      let airtimeMs ← asInteger (field payload "airtimeMs") "airtime_invalid"
      let deliveryCount ← asInteger (field payload "deliveryCount") "delivery_count_invalid"
      let bytePerfect ← asBoolean (field payload "bytePerfect") "byte_perfect_invalid"
      let coldAcquired ← asBoolean (field payload "coldAcquired") "cold_acquisition_invalid"
      let corrupt ← asBoolean (field payload "corrupt") "corrupt_flag_invalid"
      let missing ← asInteger (field payload "missing") "missing_count_invalid"
      let duplicates ← asInteger (field payload "duplicates") "duplicate_count_invalid"
      let queues ← parseQueues (field payload "queues")
      return ⟨epoch, caseId, receivedSha256, acquisitionMs, airtimeMs, deliveryCount,
        bytePerfect, coldAcquired, complete, corrupt, missing, duplicates, queues⟩

/-- Class of the evidence. -/
inductive EvidenceClass where
  | fixture | loopback | openAir
  deriving DecidableEq, Repr

/-- The physical gate of a report. -/
inductive PhysicalGate where
  | notPhysical | pending | failed | passed
  deriving DecidableEq, Repr

/-- A codec as a report names it. -/
structure CodecRecord where
  /-- Name. -/
  id : String
  /-- Commit of its source. -/
  commit : String
  /-- Profile. -/
  profile : String
  /-- It can be heard. -/
  audible : Bool
  /-- Largest packet it takes. -/
  advertisedMtu : ℕ
  deriving DecidableEq, Repr

/-- The Quiet codec. -/
def quietCodec : CodecRecord :=
  ⟨"quiet", "72782542a41f1b615a02c2ab43a0edb56edb6ce4", "audible-7k-channel-0", true, 1357⟩

/-- The Cyrinx codec. -/
def cyrinxCodec : CodecRecord :=
  ⟨"cyrinx", "ddbd0ce4f78963403f96b0100eb49950b544aef8", "bulk-qpsk-r1-2-48k-v1", true, 1536⟩

/-- Bound on the bytes of a queue of the browser. -/
def maxQueueBytes : ℕ := 256 * 1024
/-- Bound on the time of a queue of the browser. -/
def maxQueueDurationMs : ℕ := 10000
/-- Time after which a link is dead. -/
def qualificationDeadLinkTimeoutMs : ℕ := 30000

/-- The qualification part of a report. -/
structure QualificationRecord where
  /-- Time after which a link is dead. -/
  deadLinkTimeoutMs : ℕ
  /-- Period of the qualification. -/
  cyrinxDeadlineMs : ℕ
  /-- Time of the start. -/
  startedAtMs : Option ℕ
  /-- Time of the deadline. -/
  deadlineAtMs : Option ℕ
  /-- Elapsed time. -/
  elapsedMs : Option ℕ
  /-- The physical gate. -/
  physicalGate : PhysicalGate
  /-- State of the fallback. -/
  fallbackState : FallbackState
  /-- Why it was activated. -/
  reasonCode : Option CyrinxFallbackReason
  /-- Stage. -/
  stage : CyrinxStage
  /-- A cold case was received. -/
  coldReceivePassed : Bool
  deriving DecidableEq, Repr

/-- Configuration of the runner. -/
structure RunnerQualificationConfig where
  /-- Machine. -/
  machineId : String
  /-- Role. -/
  role : RunnerRole
  /-- Where the report goes. -/
  reportTarget : String
  /-- Class of the evidence. -/
  evidenceClass : EvidenceClass
  /-- Codec before a qualification. -/
  codec : CodecRecord
  /-- Qualification before it is started. -/
  qualification : QualificationRecord
  deriving DecidableEq, Repr

/-- What the runner vouches for. -/
structure RunnerReportAuthority where
  /-- Commit of the build. -/
  commit : String
  /-- Operating system. -/
  os : String
  /-- Architecture. -/
  architecture : String
  deriving DecidableEq, Repr

/-- One line of a report. -/
structure MachineResult where
  /-- Epoch. -/
  epoch : ℕ
  /-- Direction. -/
  direction : LiteralDirection
  /-- Case. -/
  caseId : String
  /-- Bytes of its payload. -/
  size : ℕ
  /-- Digest of its payload. -/
  expectedSha256 : String
  /-- Digest of what was received. -/
  receivedSha256 : Option String := none
  /-- Time of acquisition. -/
  acquisitionMs : ℚ≥0 := 0
  /-- Time on air. -/
  airtimeMs : ℕ := 0
  /-- Deliveries. -/
  deliveryCount : ℕ := 0
  /-- Every byte arrived. -/
  bytePerfect : Bool := false
  /-- It was acquired cold. -/
  coldAcquired : Bool := false
  /-- There is a result. -/
  observed : Bool := false
  /-- It is complete. -/
  complete : Bool := false
  /-- It is corrupt. -/
  corrupt : Bool := false
  /-- Parts missing. -/
  missing : ℕ := 1
  /-- Duplicates. -/
  duplicates : ℕ := 0
  deriving DecidableEq, Repr

/-- A report. -/
structure MachineReport where
  /-- Machine. -/
  hostName : String
  /-- Operating system. -/
  os : String
  /-- Architecture. -/
  architecture : String
  /-- Version of the browser. -/
  browserVersion : String
  /-- Commit of the build. -/
  commit : String
  /-- Class of the evidence. -/
  evidenceClass : EvidenceClass
  /-- Epoch. -/
  epoch : ℕ
  /-- Codec. -/
  codec : CodecRecord
  /-- Settings of the browser's audio. -/
  audio : BrowserAudio
  /-- Evidence about the queues. -/
  queues : QueueEvidence
  /-- One line per case. -/
  results : List MachineResult
  /-- The evidence is complete. -/
  complete : Bool
  /-- Reasons against it. -/
  reasonCodes : List String
  /-- The qualification. -/
  qualification : QualificationRecord
  /-- Role of the runner. -/
  role : RunnerRole
  /-- Where the report goes. -/
  reportTarget : String
  deriving DecidableEq, Repr

/-- How a result came to be recorded, and the codec in force then. -/
inductive EvidenceOrigin where
  | native (codec : CyrinxSessionCodec)
  | browser (codec : CyrinxSessionCodec)
  deriving DecidableEq, Repr

/-- A result and its origin. -/
structure RecordedResult where
  /-- The result. -/
  result : BrowserResult
  /-- Where it comes from. -/
  origin : EvidenceOrigin
  deriving DecidableEq, Repr

/-- Results by case, oldest first. -/
abbrev Results := List (String × RecordedResult)

/-- Put a result into a map: in place of an earlier one, or at the end. -/
def setResult (caseId : String) (value : RecordedResult) (results : Results) : Results :=
  if (results.lookup caseId).isSome then
    results.map (fun entry => if entry.1 = caseId then (caseId, value) else entry)
  else results ++ [(caseId, value)]

/-- What was put last is found. -/
theorem lookup_setResult (caseId : String) (value : RecordedResult) (results : Results) :
    (setResult caseId value results).lookup caseId = some value := by
  unfold setResult
  split
  · next hold =>
    induction results with
    | nil => simp at hold
    | cons entry rest ih =>
      by_cases hentry : entry.1 = caseId
      · simp [hentry]
      · have hne : (caseId == entry.1) = false := by simpa using Ne.symm hentry
        rw [List.lookup_cons, hne] at hold
        rw [List.map_cons, if_neg hentry, List.lookup_cons, hne]
        exact ih hold
  · next hnew =>
    rw [Option.not_isSome_iff_eq_none] at hnew
    simp [List.lookup_append, hnew]

/-- Add to a set of reasons. -/
def addReason (reason : String) (reasons : List String) : List String :=
  if reason ∈ reasons then reasons else reasons ++ [reason]

/-- Add to a set of reasons under a condition. -/
def addReasonIf (holds : Bool) (reason : String) (reasons : List String) : List String :=
  if holds then addReason reason reasons else reasons

/-- What a report is built of. -/
structure Evidence where
  /-- Epoch. -/
  epoch : ℕ
  /-- Acoustic frames lost. -/
  discontinuities : ℕ
  /-- Settings of the browser's audio. -/
  audio : Option BrowserAudio
  /-- Results. -/
  results : Results
  /-- Reasons so far. -/
  failureReasons : List String
  /-- A cold case was received by the session. -/
  coldReceivePassed : Bool
  /-- The session as it is published. -/
  snapshot : CyrinxSessionSnapshot

/-- Direction in which a role listens. -/
def expectedDirection (role : RunnerRole) : LiteralDirection :=
  match role with
  | .a => .bToA
  | .b => .aToB

/-- Cases a role listens to. -/
def expectedCorpus (corpus : List CorpusEntry) (role : RunnerRole) : List CorpusEntry :=
  corpus.filter (·.direction = expectedDirection role)

/-- The line of a case. -/
def canonicalResult (role : RunnerRole) (e : Evidence) (entry : CorpusEntry) : MachineResult :=
  match e.results.lookup entry.id with
  | none =>
    { epoch := e.epoch
      direction := expectedDirection role
      caseId := entry.id
      size := entry.size
      expectedSha256 := entry.sha256 }
  | some observed =>
    { epoch := e.epoch
      direction := expectedDirection role
      caseId := entry.id
      size := entry.size
      expectedSha256 := entry.sha256
      receivedSha256 := observed.result.receivedSha256
      acquisitionMs := observed.result.acquisitionMs
      airtimeMs := observed.result.airtimeMs
      deliveryCount := observed.result.deliveryCount
      bytePerfect := observed.result.bytePerfect
      coldAcquired := observed.result.coldAcquired
      observed := true
      complete := observed.result.complete
      corrupt := observed.result.corrupt
      missing := observed.result.missing
      duplicates := observed.result.duplicates }

/-- The larger figures of two pieces of evidence. -/
def maxQueues (x y : QueueEvidence) : QueueEvidence :=
  ⟨max x.captureHighWaterBytes y.captureHighWaterBytes,
    max x.captureHighWaterMs y.captureHighWaterMs,
    max x.playbackHighWaterBytes y.playbackHighWaterBytes,
    max x.playbackHighWaterMs y.playbackHighWaterMs,
    max x.discontinuities y.discontinuities⟩

/-- Figures over all results. -/
def queuesEvidence (e : Evidence) : QueueEvidence :=
  (e.results.map (fun entry => entry.2.result.queues)).foldl maxQueues
    { discontinuities := e.discontinuities }

/-- A line without fault. -/
def good (value : MachineResult) : Bool :=
  value.observed && value.complete && !value.corrupt && value.missing = 0 &&
    value.duplicates = 0 && value.deliveryCount = 1 && value.bytePerfect &&
    value.receivedSha256 = some value.expectedSha256

/-- The audio of the browser is as required. -/
def audioPassed (audio : Option BrowserAudio) : Bool :=
  audio.any (fun a =>
    a.microphoneLabel ≠ "" && a.contextState = "running" &&
      (a.inputDeviceSampleRate = 44100 || a.inputDeviceSampleRate = 48000) &&
      (a.inputDeviceChannels = 1 || a.inputDeviceChannels = 2) &&
      a.contextSampleRate = 48000 && a.captureSampleRate = 48000 && a.channels = 1 &&
      !a.echoCancellation && !a.noiseSuppression && !a.autoGainControl)

/-- The value below which 95 percent lie, if there is one. -/
def p95 (values : List ℕ) : Option ℕ :=
  (values.insertionSort (· ≤ ·))[(19 * values.length + 19) / 20 - 1]?

/-- A cold case was received, under the codec in force. -/
def coldPassed (corpus : List CorpusEntry) (e : Evidence) (goods : List MachineResult) : Bool :=
  if e.snapshot.codec = .cyrinx then e.coldReceivePassed
  else corpus.head?.any (fun cold =>
    goods.any (fun value => value.caseId = cold.id && value.coldAcquired))

/-- A bound of the queues is exceeded. -/
def queueBoundExceeded (q : QueueEvidence) : Bool :=
  q.captureHighWaterBytes > maxQueueBytes || q.playbackHighWaterBytes > maxQueueBytes ||
    q.captureHighWaterMs > maxQueueDurationMs || q.playbackHighWaterMs > maxQueueDurationMs

/-- Reasons one observed line gives. -/
def lineReasons (reasons : List String) (value : MachineResult) : List String :=
  if !value.observed then reasons
  else
    addReasonIf (!value.complete || value.missing > 0) "partial_evidence"
      (addReasonIf (value.receivedSha256 ≠ some value.expectedSha256 || !value.bytePerfect ||
        value.corrupt) "bad_digest"
        (addReasonIf (value.duplicates > 0 || value.deliveryCount ≠ 1) "duplicate_case" reasons))

/-- Reasons against the evidence. -/
def reportReasons (corpus : List CorpusEntry) (e : Evidence) (lines : List MachineResult) :
    List String :=
  let goods := lines.filter good
  let queues := queuesEvidence e
  let reasons := e.failureReasons
  let reasons := match e.snapshot.reasonCode with
    | none => reasons
    | some reason => addReason reason.code reasons
  let reasons := addReasonIf (!audioPassed e.audio) "audio_preflight_failed" reasons
  let reasons := addReasonIf ((goods.filter (·.size = 256)).length < 19 ||
    (goods.filter (·.size = 1536)).length < 5) "corpus_incomplete" reasons
  let reasons := addReasonIf (goods.length > 0 && !coldPassed corpus e goods)
    "cold_acquisition_failed" reasons
  let reasons := addReasonIf (goods.length > 0 &&
    (p95 (goods.map (·.airtimeMs))).all (· ≥ qualificationDeadLinkTimeoutMs / 3))
    "airtime_budget_exceeded" reasons
  let reasons := addReasonIf (queueBoundExceeded queues) "queue_bound_exceeded" reasons
  let reasons := addReasonIf (queues.discontinuities > 0) "queue_discontinuity" reasons
  lines.foldl lineReasons reasons

/-- The reasons do not speak against the corpus. -/
def corpusComplete (e : Evidence) (reasons : List String) : Bool :=
  ["corpus_incomplete", "bad_digest", "duplicate_case", "partial_evidence",
    "airtime_budget_exceeded", "cold_acquisition_failed", "queue_bound_exceeded",
    "queue_discontinuity"].all (· ∉ reasons) && audioPassed e.audio

/-- The stage of the qualification allows the gate to pass. -/
def stageAuthorityPassed (config : RunnerQualificationConfig) (corpus : List CorpusEntry)
    (e : Evidence) (goods : List MachineResult) : Bool :=
  match e.snapshot.codec with
  | .cyrinx => e.snapshot.stage = .complete && e.coldReceivePassed
  | .quiet => e.snapshot.fallbackState = .activated && coldPassed corpus e goods
  | _ => config.evidenceClass ≠ .openAir

/-- The physical gate. -/
def physicalGate (config : RunnerQualificationConfig) (corpus : List CorpusEntry) (e : Evidence)
    (lines : List MachineResult) : Bool × PhysicalGate :=
  let whole := corpusComplete e (reportReasons corpus e lines)
  let authority := stageAuthorityPassed config corpus e (lines.filter good)
  let complete := whole && (config.evidenceClass ≠ .openAir || authority)
  (complete,
    if config.evidenceClass ≠ .openAir then .notPhysical
    else if complete && authority then .passed
    else if e.snapshot.codec = .unqualified || (e.results.length ≥ 24 && !whole) then .failed
    else .pending)

/-- Codec of a report. -/
def reportCodec (config : RunnerQualificationConfig) (e : Evidence) : CodecRecord :=
  match e.snapshot.codec with
  | .idle => config.codec
  | .cyrinx => cyrinxCodec
  | _ => quietCodec

/-- Qualification of a report. -/
def reportQualification (config : RunnerQualificationConfig) (e : Evidence)
    (gate : PhysicalGate) : QualificationRecord :=
  match e.snapshot.codec with
  | .idle => { config.qualification with physicalGate := gate }
  | _ =>
    { deadLinkTimeoutMs := qualificationDeadLinkTimeoutMs
      cyrinxDeadlineMs := QualificationSession.cyrinxDeadlineMs
      startedAtMs := e.snapshot.startedAtMs
      deadlineAtMs := e.snapshot.deadlineAtMs
      elapsedMs := e.snapshot.elapsedMs
      physicalGate := gate
      fallbackState := e.snapshot.fallbackState
      reasonCode := e.snapshot.reasonCode
      stage := e.snapshot.stage
      coldReceivePassed := e.coldReceivePassed }

/-- Audio of a report without settings. -/
def unavailableAudio : BrowserAudio :=
  ⟨"Unavailable", "Unavailable", "unavailable", 0, 0, 0, 0, 0, false, false, false⟩

/-- Build a report. -/
def buildReport (config : RunnerQualificationConfig) (authority : RunnerReportAuthority)
    (corpus : List CorpusEntry) (e : Evidence) : MachineReport :=
  let corpus := expectedCorpus corpus config.role
  let lines := corpus.map (canonicalResult config.role e)
  let (complete, gate) := physicalGate config corpus e lines
  let audio := e.audio.getD unavailableAudio
  { hostName := config.machineId
    os := authority.os
    architecture := authority.architecture
    browserVersion := audio.browserVersion
    commit := authority.commit
    evidenceClass := config.evidenceClass
    epoch := e.epoch
    codec := reportCodec config e
    audio
    queues := queuesEvidence e
    results := lines
    complete
    reasonCodes := reportReasons corpus e lines
    qualification := reportQualification config e gate
    role := config.role
    reportTarget := config.reportTarget }

end Fipwave.BridgeReport
