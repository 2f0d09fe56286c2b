import Fipwave.ByteWords

/-!
# FWAV frames between browser, bridge and FIPS worker

A fixed header of 32 bytes and a payload. A frame is validated before it is
encoded and after it is decoded; absent fields take their defaults. The
readiness proof of an acoustic session is the payload of one frame type.
-/

namespace Fipwave.FwavProtocol

open ByteWords

/-- Bytes of the header. -/
def headerBytes : ℕ := 32
/-- Largest message. -/
def maxMessageBytes : ℕ := 256 * 1024
/-- Largest payload. -/
def maxPayloadBytes : ℕ := maxMessageBytes - headerBytes
/-- Bytes of the sample index in front of PCM samples. -/
def pcmSampleIndexBytes : ℕ := 8
/-- Flag of a RESET the bridge sends. -/
def resetAckFlag : ℕ := 1
/-- Bytes of a readiness proof. -/
def acousticReadinessProofBytes : ℕ := 64
/-- Bytes of a capability. -/
def acousticDisarmCapabilityBytes : ℕ := 16
/-- Largest age of a heartbeat in a readiness proof. -/
def acousticReadinessFreshnessMs : ℕ := 15000

/-- Kinds of frames. -/
inductive MessageType where
  | hello | audioSettings | pcmCapture | pcmPlayback | qualificationCase | qualificationResult
  | error | reset | fipsPacket | browserArm | browserDisarm | acousticReady | acousticDisarm
  | fipsPacketAdmission
  deriving DecidableEq, Repr

/-- All kinds, in the order of their codes. -/
def messageTypes : List MessageType :=
  [.hello, .audioSettings, .pcmCapture, .pcmPlayback, .qualificationCase, .qualificationResult,
    .error, .reset, .fipsPacket, .browserArm, .browserDisarm, .acousticReady, .acousticDisarm,
    .fipsPacketAdmission]

/-- Code of a kind. -/
def MessageType.code (type : MessageType) : ℕ := messageTypes.idxOf type + 1

/-- Kind of a code. -/
def messageTypeOf (code : ℕ) : Option MessageType :=
  if code = 0 then none else messageTypes[code - 1]?

/-- Encoding of PCM samples. -/
def pcmFloat32Le : ℕ := 1
/-- Traffic class of a packet that declares none. -/
def ordinaryTrafficClass : ℕ := 3

/-- A frame; absent fields have defaults. -/
structure FwavFrame where
  /-- Kind. -/
  type : MessageType
  /-- Flags. -/
  flags : Option ℕ := none
  /-- Traffic class of a FIPS packet. -/
  trafficClass : Option ℕ := none
  /-- Epoch of the bridge. -/
  epoch : ℕ
  /-- Position in the stream of its sender. -/
  sequence : ℕ
  /-- Sample rate of PCM. -/
  sampleRate : Option ℕ := none
  /-- Channels of PCM. -/
  channels : Option ℕ := none
  /-- Encoding of PCM. -/
  encoding : Option ℕ := none
  /-- Payload. -/
  payload : Bytes
  deriving DecidableEq, Repr

/-- Failure of the codec. -/
def fail {α : Type} (message : String) : Except String α := .error ("FWAV " ++ message)

/-- A readiness proof. -/
structure AcousticReadinessProof where
  /-- Acoustic session. -/
  sessionId : ℕ
  /-- Digest of its settings. -/
  settingsDigest : Bytes
  /-- Time of its last heartbeat. -/
  heartbeatAtMs : ℕ
  /-- Capability of the connection. -/
  capability : Bytes
  deriving DecidableEq, Repr

/-- Every byte is zero. -/
def allZero (bytes : Bytes) : Bool := bytes.all (· = 0)

/-- Decode the payload of a readiness frame. -/
def decodeAcousticReadinessProof (payload : Bytes) : Except String AcousticReadinessProof :=
  if payload.length ≠ acousticReadinessProofBytes then
    fail "acoustic readiness proof size is invalid"
  else
    let proof : AcousticReadinessProof :=
      ⟨wordAt payload 0 8, sliceAt payload 8 32, wordAt payload 40 8, sliceAt payload 48 16⟩
    if proof.sessionId = 0 ∨ allZero proof.settingsDigest ∨ allZero proof.capability then
      fail "acoustic readiness proof is invalid"
    else .ok proof

/-- Answers to a packet. -/
inductive FipsPacketAdmission where
  | accepted | queueFull
  deriving DecidableEq, Repr

/-- Byte of an answer. -/
def FipsPacketAdmission.byte : FipsPacketAdmission → UInt8
  | .accepted => 1
  | .queueFull => 2

/-- Decode the payload of an admission. -/
def decodeFipsPacketAdmission (payload : Bytes) : Except String FipsPacketAdmission :=
  match payload with
  | [result] =>
    if result = 1 then .ok .accepted
    else if result = 2 then .ok .queueFull
    else fail "FIPS packet admission result is unsupported"
  | _ => fail "FIPS packet admission must contain exactly one result byte"

/-- The payload of a PCM frame is a sample index and whole samples. -/
def decodePcmPayload (payload : Bytes) (channels : ℕ) : Except String Unit :=
  if channels = 0 ∨ channels > 0xffff then fail "PCM channel count is out of range"
  else if payload.length ≤ pcmSampleIndexBytes ∨
      (payload.length - pcmSampleIndexBytes) % (4 * channels) ≠ 0 then
    fail "PCM payload is not sample-index aligned"
  else .ok ()

/-- A number is within its field. -/
def validateInteger (value : ℕ) (name : String) (maximum : ℕ) : Except String Unit :=
  if value > maximum then fail (name ++ " is out of range") else .ok ()

/-- A condition on a frame. -/
def check (holds : Bool) (message : String) : Except String Unit :=
  if holds then .ok () else fail message

/-- Checks of the kinds that carry readiness, capabilities and admissions. -/
def validateControl (frame : FwavFrame) : Except String Unit := do
  let flags := frame.flags.getD 0
  if frame.type = .acousticReady ∨ frame.type = .acousticDisarm then
    check (flags = 0 ∧ frame.sequence = 0)
      "acoustic readiness control must have zero flags and sequence"
  if frame.type = .acousticReady then
    let _ ← decodeAcousticReadinessProof frame.payload
  if frame.type = .acousticDisarm then
    check (frame.payload.length = acousticDisarmCapabilityBytes)
      "acoustic disarm capability size is invalid"
  if frame.type = .fipsPacketAdmission then
    check (flags = 0) "FIPS packet admission must not declare flags"
    let _ ← decodeFipsPacketAdmission frame.payload

/-- Checks of the PCM format. -/
def validatePcm (frame : FwavFrame) : Except String Unit := do
  let sampleRate := frame.sampleRate.getD 0
  let channels := frame.channels.getD 0
  let encoding := frame.encoding.getD 0
  validateInteger sampleRate "sample rate" 0xffffffff
  validateInteger channels "channel count" 0xffff
  validateInteger encoding "encoding" 0xffff
  if frame.type = .pcmCapture ∨ frame.type = .pcmPlayback then
    check (sampleRate ≠ 0) "sample rate must be declared for PCM"
    check (channels ≠ 0) "channel count must be declared for PCM"
    check (encoding = pcmFloat32Le) "PCM encoding is unsupported"
    decodePcmPayload frame.payload channels
  else
    check (sampleRate = 0 ∧ channels = 0 ∧ encoding = 0)
      "non-PCM messages must not declare PCM format"

/-- A frame with its defaults, once it is valid. -/
def validateFrame (frame : FwavFrame) : Except String FwavFrame := do
  let flags := frame.flags.getD 0
  let trafficClass := frame.trafficClass.getD ordinaryTrafficClass
  validateInteger flags "flags" 0xffff
  validateInteger frame.epoch "epoch" 0xffffffff
  check (frame.sequence ≤ 0xffffffffffffffff) "sequence is out of range"
  check (frame.payload.length ≤ maxPayloadBytes) "message exceeds the 256 KiB cap"
  if frame.type = .fipsPacket then
    check (flags = 0) "FIPS packet must not declare flags"
    check (1 ≤ trafficClass ∧ trafficClass ≤ 3) "traffic class is unsupported"
  else check (frame.trafficClass = none) "traffic class is only valid for FIPS packets"
  validateControl frame
  validatePcm frame
  return { frame with
    trafficClass := if frame.type = .fipsPacket then some trafficClass else none
    flags := some flags
    sampleRate := some (frame.sampleRate.getD 0)
    channels := some (frame.channels.getD 0)
    encoding := some (frame.encoding.getD 0) }

/-- The magic of the header. -/
def fwavMagic : Bytes := [0x46, 0x57, 0x41, 0x56]

/-- Bytes as ASCII text reads them, without their highest bits. -/
def asciiBytes (bytes : Bytes) : Bytes := bytes.map (fun byte => byte &&& 0x7f)

/-- Encode a frame. -/
def encodeFrame (frame : FwavFrame) : Except String Bytes := do
  let valid ← validateFrame frame
  let field := if valid.type = .fipsPacket then valid.trafficClass.getD 0 else valid.flags.getD 0
  return fwavMagic ++ [1, lowByte valid.type.code] ++ writeWord 2 field ++
    writeWord 4 valid.payload.length ++ writeWord 4 valid.epoch ++ writeWord 8 valid.sequence ++
    writeWord 4 (valid.sampleRate.getD 0) ++ writeWord 2 (valid.channels.getD 0) ++
    writeWord 2 (valid.encoding.getD 0) ++ valid.payload

/-- Decode a frame. -/
def decodeFrame (input : Bytes) : Except String FwavFrame := do
  check (input.length ≥ headerBytes) "message is shorter than the 32-byte header"
  check (input.length ≤ maxMessageBytes) "message exceeds the 256 KiB cap"
  check (asciiBytes (sliceAt input 0 4) = fwavMagic) "magic is invalid"
  check (wordAt input 4 1 = 1) "version is unsupported"
  match messageTypeOf (wordAt input 5 1) with
  | none => fail "message type is unsupported"
  | some type =>
    let payloadLength := wordAt input 8 4
    check (payloadLength ≤ maxPayloadBytes ∧ input.length = headerBytes + payloadLength)
      "declared payload length does not match message"
    validateFrame
      { type
        flags := some (if type = .fipsPacket then wordAt input 7 1 * 256 else wordAt input 6 2)
        trafficClass := if type = .fipsPacket then some (wordAt input 6 1) else none
        epoch := wordAt input 12 4
        sequence := wordAt input 16 8
        sampleRate := some (wordAt input 24 4)
        channels := some (wordAt input 28 2)
        encoding := some (wordAt input 30 2)
        payload := input.drop headerBytes }

end Fipwave.FwavProtocol
