import Fipwave.BridgeReport
import Fipwave.CyrinxMetadata
import Fipwave.FwavProtocol
import Fipwave.SpanTiling
import Fipwave.TransitionRun

/-!
# The native worker of a qualification

A worker owns one case at a time, as a transmitter or as a listener. It
starts native commands and goes on when they end; the generation of the case
that started a command tells whether that case is still the current one. A
reset may come at any time, and commands may end in any order.
-/

namespace Fipwave.CyrinxWorker

open ByteWords FwavProtocol QualificationSession CyrinxMetadata TransitionRun
open BridgeReport (QueueEvidence)

/-- Samples of a played frame. -/
def cyrinxFrameSamples : ℕ := 62464
/-- Silence after a played frame. -/
def cyrinxGuardSamples : ℕ := 14400
/-- Samples of a capture. -/
def cyrinxCaptureWindowSamples : ℕ := 131072
/-- Samples of a second. -/
def cyrinxSampleRate : ℕ := 48000
/-- Bytes of a played frame. -/
def pcmBytes : ℕ := cyrinxFrameSamples * 4
/-- Flag of a played frame. -/
def cyrinxPcmPlaybackFlag : ℕ := 1

section Pcm

/-- Payload of a PCM frame. -/
def encodePcmPayload (firstSampleIndex : ℕ) (samples : Bytes) : Except String Bytes :=
  if firstSampleIndex > 0xffffffffffffffff then fail "PCM first sample index is out of range"
  else .ok (writeWord 8 firstSampleIndex ++ samples)

/-- First sample index and samples of a PCM payload. -/
def readPcmPayload (payload : Bytes) (channels : ℕ) : Except String (ℕ × Bytes) := do
  decodePcmPayload payload channels
  return (wordAt payload 0 8, payload.drop pcmSampleIndexBytes)

/-- Samples of four bytes. -/
def sampleCount (samples : Bytes) : ℕ := samples.length / 4

/-- No sample has the exponent of infinities and of what is not a number. -/
def finiteFloat32 (samples : Bytes) : Bool :=
  (List.range (sampleCount samples)).all
    (fun i => wordAt samples (4 * i + 2) 2 / 128 % 256 ≠ 255)

/-- A double at an offset is finite. -/
def finiteFloat64 (bytes : Bytes) (offset : ℕ) : Bool :=
  wordAt bytes (offset + 6) 2 / 16 % 2048 ≠ 2047

/-- A frame of sound to be played. -/
def playbackFrame (epoch sequence : ℕ) (payload : Bytes) : FwavFrame where
  type := .pcmPlayback
  flags := some cyrinxPcmPlaybackFlag
  epoch := epoch
  sequence := sequence
  sampleRate := some cyrinxSampleRate
  channels := some 1
  encoding := some pcmFloat32Le
  payload := payload

/-- `Buffer.concat` of a total length. -/
def concatTo (total : ℕ) (chunks : List Bytes) : Bytes :=
  (chunks.flatten ++ List.replicate total 0).take total

/-- A lower case hexadecimal digit. -/
def hexByte (value : ℕ) : UInt8 := lowByte (if value < 10 then 0x30 + value else 0x57 + value)

/-- Lower case hexadecimal digits. -/
def toHex (bytes : Bytes) : Bytes :=
  bytes.flatMap (fun byte => [hexByte (byte.toNat / 16), hexByte (byte.toNat % 16)])

end Pcm

/-- Role of a worker in a case. -/
inductive CyrinxCaseMode where
  | transmit | listen
  deriving DecidableEq, Repr

/-- The text `identity` makes of an epoch, a direction and an identifier. -/
structure CaseIdentity where
  /-- Epoch. -/
  epoch : ℤ
  /-- Direction. -/
  direction : LiteralDirection
  /-- Identifier. -/
  id : Bytes
  deriving DecidableEq, Repr

/-- A case in hand. -/
structure ActiveCase where
  /-- Epoch. -/
  epoch : ℤ
  /-- Generation; no two cases have the same. -/
  generation : ℕ
  /-- Role. -/
  mode : CyrinxCaseMode
  /-- The case. -/
  value : CyrinxCase
  /-- Its metadata. -/
  metadata : Bytes
  /-- Time of its start. -/
  startedAt : ℚ
  /-- Samples captured so far, one chunk a frame. -/
  chunks : List Bytes := []
  /-- Their number. -/
  samples : ℕ := 0
  /-- Its decoding was started. -/
  decoded : Bool := false
  /-- Index of the sample expected next. -/
  nextSampleIndex : ℕ := 0
  /-- Bytes under way. -/
  pendingBytes : ℕ := 0
  /-- Most bytes under way. -/
  pendingHighWaterBytes : ℕ := 0
  /-- Most milliseconds of one frame. -/
  pendingHighWaterMs : ℚ≥0 := 0
  /-- Number of the case; read by no function. -/
  number : ℕ
  /-- Frames it captured; read by no function. -/
  captured : List Bytes := []
  deriving DecidableEq, Repr

/-- The fields of a worker. -/
structure CyrinxBatchWorker where
  /-- Case in hand. -/
  active : Option ActiveCase := none
  /-- Generation. -/
  generation : ℕ := 0
  /-- Epoch of its cases. -/
  epoch : Option ℤ := none
  /-- Sequence number of the next frame. -/
  outboundSequence : ℕ := 0
  /-- Sample index of the next frame. -/
  playbackSampleIndex : ℕ := 0
  /-- Sequence number of the last captured frame. -/
  lastCaptureSequence : ℤ := -1
  /-- Cases delivered. -/
  delivered : List CaseIdentity := []
  deriving DecidableEq, Repr

/-- Result of a case, over what stands for a text. -/
structure CyrinxResult (Text : Type) where
  /-- Epoch. -/
  epoch : ℤ
  /-- Direction. -/
  direction : LiteralDirection
  /-- Case. -/
  caseId : Text
  /-- Digest of what was decoded. -/
  digest : Option Text
  /-- Time from the start of the case. -/
  acquisitionMs : ℚ≥0
  /-- Time on air. -/
  airtimeMs : ℕ
  /-- The digest is the one of the case. -/
  complete : Bool
  /-- It is not. -/
  corrupt : Bool
  /-- Parts missing. -/
  missing : ℕ
  /-- Duplicates. -/
  duplicates : ℕ
  /-- Deliveries. -/
  deliveryCount : ℕ
  /-- The digest is the one of the case. -/
  bytePerfect : Bool
  /-- Nothing was known before. -/
  coldAcquired : Bool
  /-- High-water marks of the queues. -/
  queues : QueueEvidence
  deriving DecidableEq, Repr

/-- What a call returns or throws. -/
inductive Answer where
  /-- `undefined`. -/
  | nothing
  /-- A frame to be played; its case is read by no function. -/
  | playback (identity : CaseIdentity) (encoded : Bytes)
  /-- A result. -/
  | result (result : CyrinxResult Bytes)
  /-- An exception. -/
  | threw (reason : String)
  deriving DecidableEq, Repr

/-- Native commands. -/
inductive CyrinxCommand where
  | encode | decode
  deriving DecidableEq, Repr

/-- What a native command ends with. -/
structure CommandResult where
  /-- Exit code. -/
  exitCode : ℤ
  /-- What it wrote. -/
  stdout : Bytes
  /-- It took too long. -/
  timedOut : Bool
  deriving DecidableEq, Repr

/-- A native command that was started and the call that awaits it. -/
structure Job where
  /-- The command. -/
  command : CyrinxCommand
  /-- What it reads. -/
  payload : Bytes
  /-- Generation of the case that started it. -/
  generation : ℕ
  /-- Number of its case; read by no function. -/
  number : ℕ
  /-- Frames the case had captured; read by no function. -/
  captured : List Bytes
  deriving DecidableEq, Repr

/-- What became of a case; read by no function. -/
inductive Fate where
  | current | delivered | rejected | reset
  deriving DecidableEq, Repr

/-- A worker, its commands and its answers. -/
structure World where
  /-- The worker. -/
  worker : CyrinxBatchWorker := {}
  /-- Native commands in the order of their start. -/
  jobs : List Job := []
  /-- Positions of the commands that have ended. -/
  ended : List ℕ := []
  /-- Cases in the order of their start. -/
  cases : List Fate := []
  /-- What the calls returned or threw since the last reset. -/
  answers : List Answer := []
  deriving DecidableEq, Repr

/-- A call returns or throws. -/
def reply (answer : Answer) (w : World) : World := { w with answers := w.answers ++ [answer] }

/-- The case in hand is given up. -/
def clearActive (fate : Fate) (w : World) : World :=
  { w with
    worker := { w.worker with active := none, generation := w.worker.generation + 1 }
    cases := match w.worker.active with
      | none => w.cases
      | some active => w.cases.set active.number fate }

/-- The case in hand is rejected. -/
def reject (reason : String) (w : World) : World := reply (.threw reason) (clearActive .rejected w)

/-- The case of a generation is still in hand. -/
def isCurrent (generation : ℕ) (w : World) : Bool :=
  w.worker.active.map ActiveCase.generation = some generation

/-- Identity of a case. -/
def identity (value : CyrinxCase) (epoch : ℤ) : CaseIdentity := ⟨epoch, value.direction, value.id⟩

/-- A native command is started. -/
def startJob (command : CyrinxCommand) (payload : Bytes) (active : ActiveCase) (w : World) :
    World :=
  { w with jobs := w.jobs ++ [{
      command, payload, generation := active.generation, number := active.number
      captured := active.captured }] }

/-- A case becomes the one in hand. -/
def own (value : CyrinxCase) (epoch : ℤ) (mode : CyrinxCaseMode) (block : Bytes) (now : ℚ)
    (w : World) : World :=
  let active : ActiveCase :=
    { epoch, mode, value, metadata := block, startedAt := now
      generation := w.worker.generation + 1, number := w.cases.length }
  let w := { w with
    worker := { w.worker with
      epoch := some epoch, generation := w.worker.generation + 1, active := some active }
    cases := w.cases ++ [.current] }
  match mode with
  | .listen => reply .nothing w
  | .transmit => startJob .encode (encodeRequest block value.payload) active w

/-- `begin` until it returns or awaits the encoder; a mode that is neither is `none`. -/
def beginCase (value : CyrinxCase) (epoch : ℤ) (mode : Option CyrinxCaseMode) (now : ℚ)
    (w : World) : World :=
  match mode with
  | none => reply (.threw "cyrinx case mode is invalid") w
  | some mode =>
    if w.worker.active.isSome then reply (.threw "cyrinx worker already owns a case") w
    else if w.worker.epoch ≠ none ∧ w.worker.epoch ≠ some epoch then
      reply (.threw "cyrinx reset is required before changing epoch") w
    else match metadata value epoch with
      | .error reason => reply (.threw reason) w
      | .ok block =>
        if identity value epoch ∈ w.worker.delivered then
          reply (.threw "cyrinx_duplicate_case") w
        else own value epoch mode block now w

/-- A case is delivered. -/
def deliver (active : ActiveCase) (answer : Answer) (w : World) : World :=
  let w := { w with worker := { w.worker with
    delivered := w.worker.delivered ++ [identity active.value active.epoch] } }
  reply answer (clearActive .delivered w)

/-- `begin` after the encoder has ended. -/
def completeEncode (active : ActiveCase) (outcome : Option CommandResult) (w : World) : World :=
  match outcome with
  | none => reject "cyrinx_encode_failed" w
  | some response =>
    if response.timedOut then reject "cyrinx_process_timeout" w
    else if response.exitCode ≠ 0 ∨ response.stdout.length ≠ pcmBytes then
      reject "cyrinx_encode_failed" w
    else
      let encoded := do
        let payload ← encodePcmPayload w.worker.playbackSampleIndex response.stdout
        encodeFrame (playbackFrame active.epoch.toNat w.worker.outboundSequence payload)
      match encoded with
      | .error reason => reply (.threw reason) w
      | .ok encoded =>
        deliver active (.playback (identity active.value active.epoch) encoded)
          { w with worker := { w.worker with
            outboundSequence := w.worker.outboundSequence + 1
            playbackSampleIndex :=
              w.worker.playbackSampleIndex + (cyrinxFrameSamples + cyrinxGuardSamples) } }

/-- The checks of what the decoder wrote. -/
def nativeResultValid (active : ActiveCase) (body : Bytes) : Bool :=
  let bytes := active.value.payload.length
  body.length = 289 + bytes && asciiBytes (sliceAt body 0 4) = [0x43, 0x59, 0x52, 0x52] &&
    wordAt body 4 1 = 1 && wordAt body 5 4 = bytes && wordAt body 9 4 = 7 &&
    wordAt body 13 4 = 7 && finiteFloat64 body 25 && sliceAt body 33 256 = active.metadata &&
    body.drop 289 = active.value.payload

/-- The result of a case. -/
def resultOf (active : ActiveCase) (body : Bytes) (now : ℚ) : CyrinxResult Bytes :=
  let digest := toHex (sha256 (body.drop 289))
  { epoch := active.epoch
    direction := active.value.direction
    caseId := active.value.id
    digest := some digest
    acquisitionMs := (now - active.startedAt).toNNRat
    airtimeMs := wordAt body 21 4
    complete := digest = active.value.digest
    corrupt := digest ≠ active.value.digest
    missing := 0
    duplicates := 0
    deliveryCount := 1
    bytePerfect := digest = active.value.digest
    coldAcquired := true
    queues := ⟨active.pendingHighWaterBytes, active.pendingHighWaterMs, 0, 0, 0⟩ }

/-- `receiveCapture` after the decoder has ended. -/
def completeDecode (active : ActiveCase) (outcome : Option CommandResult) (now : ℚ) (w : World) :
    World :=
  match outcome with
  | none => reject "cyrinx_decode_failed" w
  | some response =>
    if response.timedOut then reject "cyrinx_process_timeout" w
    else if response.exitCode ≠ 0 then reject "cyrinx_decode_failed" w
    else if !nativeResultValid active response.stdout then reject "cyrinx_native_result_invalid" w
    else deliver active (.result (resultOf active response.stdout now)) w

/-- A call goes on after its command has ended. The case it began with is in hand if the case in
hand has its generation. -/
def complete (index : ℕ) (outcome : Option CommandResult) (now : ℚ) (w : World) : World :=
  match w.jobs[index]? with
  | none => w
  | some job =>
    if index ∈ w.ended then w
    else
      let w := { w with ended := index :: w.ended }
      match w.worker.active with
      | none => overtaken job w
      | some active =>
        if !isCurrent job.generation w then overtaken job w
        else match job.command with
          | .encode => completeEncode active outcome w
          | .decode => completeDecode active outcome now w
where
  /-- The case of the call is not in hand any more. -/
  overtaken (job : Job) (w : World) : World :=
    match job.command with
    | .encode => reply (.threw "cyrinx_operation_cancelled") w
    | .decode => reply .nothing w

/-- First sample index and samples of a captured frame, unless it is refused. -/
def captureOf (active : ActiveCase) (lastCaptureSequence : ℤ) (encoded : Bytes) :
    Except String (FwavFrame × ℕ × Bytes) :=
  match decodeFrame encoded with
  | .error _ => .error "cyrinx_capture_invalid"
  | .ok frame =>
    if frame.type ≠ .pcmCapture ∨ frame.flags ≠ some 0 ∨ (frame.epoch : ℤ) ≠ active.epoch ∨
        frame.channels ≠ some 1 ∨ frame.sampleRate ≠ some cyrinxSampleRate ∨
        frame.encoding ≠ some pcmFloat32Le then .error "cyrinx_capture_invalid"
    else if frame.sequence ≤ lastCaptureSequence then .error "cyrinx_capture_replay"
    else match readPcmPayload frame.payload 1 with
      | .error _ => .error "cyrinx_capture_invalid"
      | .ok (firstSampleIndex, samples) =>
        if sampleCount samples = 0 ∨ !finiteFloat32 samples then .error "cyrinx_capture_invalid"
        else if firstSampleIndex ≠ active.nextSampleIndex then
          .error "cyrinx_capture_discontinuity"
        else if active.samples + sampleCount samples > cyrinxCaptureWindowSamples then
          .error "cyrinx_capture_overflow"
        else .ok (frame, firstSampleIndex, samples)

/-- The case in hand with bytes under way. -/
def withPending (active : ActiveCase) (encoded : Bytes) : ActiveCase :=
  { active with
    pendingBytes := active.pendingBytes + encoded.length
    pendingHighWaterBytes :=
      max active.pendingHighWaterBytes (active.pendingBytes + encoded.length) }

/-- The case in hand with one more captured frame. -/
def withCapture (active : ActiveCase) (encoded samples : Bytes) : ActiveCase :=
  { active with
    nextSampleIndex := active.nextSampleIndex + sampleCount samples
    chunks := active.chunks ++ [samples]
    samples := active.samples + sampleCount samples
    pendingHighWaterMs :=
      max active.pendingHighWaterMs (sampleCount samples / cyrinxSampleRate * 1000)
    pendingBytes := active.pendingBytes - encoded.length
    captured := active.captured ++ [encoded] }

/-- `receiveCapture` until it returns or awaits the decoder. -/
def receiveCapture (encoded : Bytes) (w : World) : World :=
  match w.worker.active with
  | none => reply .nothing w
  | some active =>
    if active.mode ≠ .listen ∨ active.decoded then reply .nothing w
    else
      let active := withPending active encoded
      match captureOf active w.worker.lastCaptureSequence encoded with
      | .error reason => reject reason w
      | .ok (frame, _, samples) =>
        let active := withCapture active encoded samples
        let worker := { w.worker with lastCaptureSequence := (frame.sequence : ℤ) }
        if active.samples < cyrinxCaptureWindowSamples then
          reply .nothing { w with worker := { worker with active := some active } }
        else
          let active := { active with decoded := true }
          startJob .decode (concatTo (cyrinxCaptureWindowSamples * 4) active.chunks) active
            { w with worker := { worker with active := some active } }

/-- `reset`. -/
def reset (w : World) : World :=
  let w := clearActive .reset w
  { w with
    worker := { w.worker with
      epoch := none, outboundSequence := 0, playbackSampleIndex := 0, lastCaptureSequence := -1
      delivered := [] }
    answers := [] }

/-- What happens to a worker. -/
inductive Event where
  /-- A call of `begin`. -/
  | beginCase (value : CyrinxCase) (epoch : ℤ) (mode : Option CyrinxCaseMode) (now : ℚ)
  /-- A call of `receiveCapture`. -/
  | receiveCapture (encoded : Bytes)
  /-- A native command ends, or could not be run. -/
  | complete (index : ℕ) (outcome : Option CommandResult) (now : ℚ)
  /-- A call of `reset`. -/
  | reset

/-- One step of a worker. -/
def step (w : World) (event : Event) : World :=
  match event with
  | .beginCase value epoch mode now => beginCase value epoch mode now w
  | .receiveCapture encoded => receiveCapture encoded w
  | .complete index outcome now => complete index outcome now w
  | .reset => reset w

/-- A worker after a list of events. -/
def runWorker (events : List Event) : World := run step {} events

end Fipwave.CyrinxWorker
