import Fipwave.FwavRoundTrip

/-!
# FWAV frames of the browser

The browser builds its frames byte by byte and reads FIPS packets the same way,
with bounds of its own. What it builds is what the bridge would encode, so the
bridge accepts it whenever its fields fit; what the bridge forwards the browser
accepts exactly if the packet is not empty.
-/

namespace Fipwave.BrowserFrames

open ByteWords FwavProtocol FwavRoundTrip ThrowingMethod

/-- The traffic classes: control, heartbeat and ordinary. -/
def isFipsTrafficClass (value : ℕ) : Bool := value = 1 || value = 2 || value = 3

/-- Build the frame of a FIPS packet; answers it and the next sequence. -/
def encodeFipsPacket (browserPacketReady : Bool) (epoch bridgeSequence : ℕ) (payload : Bytes)
    (trafficClass : ℕ) : Except String (Bytes × ℕ) :=
  if !browserPacketReady ∨ payload.length = 0 ∨ payload.length > 256 * 1024 - headerBytes then
    .error "FIPS packet adapter is not ready for this packet"
  else if !isFipsTrafficClass trafficClass then
    .error "FIPS packet frame traffic class is invalid"
  else .ok ([0x46, 0x57, 0x41, 0x56] ++ [1, 9] ++ [lowByte trafficClass] ++ [0] ++
    writeWord 4 payload.length ++ writeWord 4 epoch ++ writeWord 8 bridgeSequence ++
    List.replicate 8 0 ++ payload, bridgeSequence + 1)

/-- A FIPS packet with its sequence. -/
structure FipsPacketEnvelope where
  /-- The packet. -/
  bytes : Bytes
  /-- Its traffic class. -/
  trafficClass : ℕ
  /-- Position in the stream of the bridge. -/
  sequence : ℕ
  deriving DecidableEq, Repr

/-- Read the frame of a FIPS packet. -/
def decodeFipsPacket (epoch : ℕ) (input : Bytes) : Except String FipsPacketEnvelope :=
  if input.length ≤ headerBytes ∨ input.length > 256 * 1024 then
    .error "FIPS packet frame size is invalid"
  else if sliceAt input 0 4 ≠ [0x46, 0x57, 0x41, 0x56] ∨ wordAt input 4 1 ≠ 1 ∨
      wordAt input 5 1 ≠ 9 then
    .error "FIPS packet frame identity is invalid"
  else if wordAt input 8 4 ≠ input.length - headerBytes ∨ wordAt input 7 1 ≠ 0 ∨
      !isFipsTrafficClass (wordAt input 6 1) ∨ wordAt input 24 4 ≠ 0 ∨ wordAt input 28 2 ≠ 0 ∨
      wordAt input 30 2 ≠ 0 then
    .error "FIPS packet frame header is invalid"
  else if wordAt input 12 4 ≠ epoch then .error "FIPS packet frame is stale"
  else .ok ⟨input.drop headerBytes, wordAt input 6 1, wordAt input 16 8⟩

/-- Build a control frame. -/
def encodeControlFrame (type epoch sequence : ℕ) (payload : Bytes) : Except String Bytes :=
  if type < 1 ∨ type > 14 then .error "FWAV control type is invalid"
  else if epoch > 0xffffffff then .error "FWAV control epoch is invalid"
  else if sequence > 0xffffffffffffffff then .error "FWAV control sequence is invalid"
  else if payload.length > 256 * 1024 - headerBytes then
    .error "FWAV control payload is too large"
  else .ok ([0x46, 0x57, 0x41, 0x56] ++ [1] ++ [lowByte type] ++ [0, 0] ++
    writeWord 4 payload.length ++ writeWord 4 epoch ++ writeWord 8 sequence ++
    List.replicate 8 0 ++ payload)

/-- The answer to a FIPS packet. -/
def sendFipsPacketAdmission (packetEpoch sequence : ℕ) (accepted : Bool) : Except String Bytes :=
  encodeControlFrame 14 packetEpoch sequence [if accepted then 1 else 2]

/-- Samples as they lie in memory, four bytes each. -/
def sampleBytes (samples : List UInt32) : Bytes :=
  samples.flatMap (fun sample => writeWord 4 sample.toNat)

/-- Build the frame of captured samples. -/
def pcmCaptureFrame (epoch sequence firstSampleIndex : ℕ) (samples : List UInt32) : Bytes :=
  [0x46, 0x57, 0x41, 0x56] ++ [1, 3] ++ [0, 0] ++
    writeWord 4 (8 + (sampleBytes samples).length) ++ writeWord 4 epoch ++ writeWord 8 sequence ++
    writeWord 4 48000 ++ writeWord 2 1 ++ writeWord 2 1 ++ writeWord 8 firstSampleIndex ++
    sampleBytes samples

/-- The sample index and the samples that the bridge finds in a PCM payload. -/
def readPcmPayload (payload : Bytes) (channels : ℕ) : Except String (ℕ × Bytes) :=
  match decodePcmPayload payload channels with
  | .error message => .error message
  | .ok () => .ok (wordAt payload 0 8, payload.drop pcmSampleIndexBytes)

/-- There are three classes of traffic. -/
theorem isFipsTrafficClass_iff (value : ℕ) :
    isFipsTrafficClass value = true ↔ 1 ≤ value ∧ value ≤ 3 := by
  unfold isFipsTrafficClass
  simp only [Bool.or_eq_true, decide_eq_true_eq]
  omega

/-- A first part whose result is dropped returns if it has one. -/
theorem bind_pure_ok_iff {α ε : Type} {x : Except ε α} :
    (x >>= fun _ => pure ()) = .ok () ↔ ∃ a, x = .ok a := by
  cases x with
  | error e => simp only [error_bind, reduceCtorEq, exists_false]
  | ok a => exact ⟨fun _ => ⟨a, rfl⟩, fun _ => rfl⟩

/-- Decoding what a frame is written as gives the frame exactly if it is valid. -/
theorem decodeFrame_frameBytes_iff {frame : FwavFrame} (hfull : withDefaults frame = frame) :
    decodeFrame (frameBytes frame) = .ok frame ↔ Valid frame := by
  constructor
  · intro h
    exact ((decodeFrame_ok_iff _ _).mp h).valid
  · intro h
    exact decodeFrame_frameBytes h hfull

/-- The PCM fields of a frame without PCM are eight bytes of zero. -/
theorem append_unformatted (front payload : Bytes) :
    front ++ writeWord 4 0 ++ writeWord 2 0 ++ writeWord 2 0 ++ payload =
      front ++ List.replicate 8 0 ++ payload := by
  have hzero : writeWord 4 0 ++ (writeWord 2 0 ++ writeWord 2 0) = List.replicate 8 0 := rfl
  rw [← hzero]
  simp only [List.append_assoc]

section Packets

variable {browserPacketReady : Bool} {epoch sequence trafficClass : ℕ} {payload : Bytes}

/-- The frame of a FIPS packet. -/
def packetFrame (epoch sequence trafficClass : ℕ) (payload : Bytes) : FwavFrame :=
  withDefaults { type := .fipsPacket, trafficClass := some trafficClass, epoch, sequence, payload }

/-- What the browser writes for a FIPS packet is the frame with its fields. -/
theorem encodeFipsPacket_ok {out : Bytes × ℕ}
    (h : encodeFipsPacket browserPacketReady epoch sequence payload trafficClass = .ok out) :
    out.1 = frameBytes (packetFrame epoch sequence trafficClass payload) ∧ payload ≠ [] ∧
      payload.length ≤ maxPayloadBytes ∧ 1 ≤ trafficClass ∧ trafficClass ≤ 3 := by
  unfold encodeFipsPacket at h
  split at h
  · cases h
  · next hready =>
    split at h
    · cases h
    · next hclass =>
      rw [not_or, not_or] at hready
      rw [Bool.not_eq_true', Bool.not_eq_false, isFipsTrafficClass_iff] at hclass
      have hhigh : trafficClass / 256 = 0 := by omega
      have hlength : payload.length ≤ maxPayloadBytes := by
        unfold maxPayloadBytes maxMessageBytes
        omega
      rw [← Except.ok.inj h]
      refine ⟨?_, List.ne_nil_of_length_pos (by omega), hlength, hclass⟩
      have hclassBytes : writeWord 2 trafficClass = [lowByte trafficClass] ++ [0] := by
        simp only [writeWord, hhigh]
        rfl
      have hcode : lowByte MessageType.fipsPacket.code = 9 := by decide
      unfold frameBytes kindField packetFrame withDefaults
      dsimp only
      simp only [if_pos, Option.getD_some, Option.getD_none]
      rw [hclassBytes, hcode, append_unformatted]
      rfl

/-- The frame of a FIPS packet is valid exactly if its numbers fit. -/
theorem valid_packetFrame_iff (hpayload : payload.length ≤ maxPayloadBytes)
    (hclass : 1 ≤ trafficClass ∧ trafficClass ≤ 3) :
    Valid (packetFrame epoch sequence trafficClass payload) ↔
      epoch ≤ 0xffffffff ∧ sequence ≤ 0xffffffffffffffff := by
  constructor
  · intro h
    exact ⟨h.epoch, h.sequence⟩
  · rintro ⟨hepoch, hsequence⟩
    refine Valid.withDefaults ⟨Nat.zero_le _, hepoch, hsequence, hpayload, fun _ => ⟨rfl, hclass⟩, ?_,
      rfl, rfl⟩
    intro hother
    exact absurd rfl hother

end Packets

section Controls

variable {type : MessageType} {epoch sequence : ℕ} {payload : Bytes}

/-- Kinds of the control frames the browser sends. -/
def browserControls : List MessageType :=
  [.hello, .audioSettings, .qualificationCase, .qualificationResult, .error, .reset,
    .acousticReady, .acousticDisarm, .fipsPacketAdmission]

/-- Payloads of a kind. -/
def ValidPayload (type : MessageType) (payload : Bytes) : Prop :=
  (type = .acousticReady → ∃ proof, decodeAcousticReadinessProof payload = .ok proof) ∧
  (type = .acousticDisarm → payload.length = acousticDisarmCapabilityBytes) ∧
  (type = .fipsPacketAdmission → ∃ answer, decodeFipsPacketAdmission payload = .ok answer)

/-- A control frame. -/
def controlFrame (type : MessageType) (epoch sequence : ℕ) (payload : Bytes) : FwavFrame :=
  withDefaults { type, epoch, sequence, payload }

/-- What the browser writes for a control is the frame with its fields. -/
theorem encodeControlFrame_ok {out : Bytes} (htype : type ≠ .fipsPacket)
    (h : encodeControlFrame type.code epoch sequence payload = .ok out) :
    out = frameBytes (controlFrame type epoch sequence payload) ∧ epoch ≤ 0xffffffff ∧
      sequence ≤ 0xffffffffffffffff ∧ payload.length ≤ maxPayloadBytes := by
  unfold encodeControlFrame at h
  split at h
  · cases h
  · split at h
    · cases h
    · split at h
      · cases h
      · split at h
        · cases h
        · next hepoch hsequence hpayload =>
          have hlength : payload.length ≤ maxPayloadBytes := by
            unfold maxPayloadBytes maxMessageBytes
            omega
          rw [← Except.ok.inj h]
          refine ⟨?_, by omega, by omega, hlength⟩
          unfold frameBytes kindField controlFrame withDefaults
          simp only [if_neg htype, Option.getD_some, Option.getD_none]
          rw [append_unformatted]
          rfl

/-- The controls are well formed exactly if their payload is, and their sequence where it must be
zero. -/
theorem validateControl_iff :
    validateControl { type, epoch, sequence, payload } = .ok () ↔
      ValidPayload type payload ∧
        (type = .acousticReady ∨ type = .acousticDisarm → sequence = 0) := by
  unfold validateControl ValidPayload
  dsimp only
  by_cases hready : type = .acousticReady
  · subst hready
    simp only [true_or, reduceCtorEq, if_true, if_false, bind_unit_ok_iff, check_ok_iff,
      bind_pure_ok_iff, Option.getD_none, true_and, decide_eq_true_eq, false_implies, and_true,
      forall_const]
    exact and_comm
  · by_cases hdisarm : type = .acousticDisarm
    · subst hdisarm
      have hdone : (pure () : Except String Unit) = .ok () := rfl
      simp only [or_true, reduceCtorEq, if_true, if_false, bind_unit_ok_iff, check_ok_iff, hdone,
        Option.getD_none, true_and, and_true, decide_eq_true_eq, false_implies, forall_const]
      exact and_comm
    · by_cases hadmission : type = .fipsPacketAdmission
      · subst hadmission
        simp only [reduceCtorEq, or_self, if_true, if_false, bind_unit_ok_iff, check_ok_iff,
          bind_pure_ok_iff, Option.getD_none, true_and, and_true, decide_eq_true_eq, false_implies,
          forall_const]
      · simp only [hready, hdisarm, hadmission, or_self, if_false, false_implies, and_self,
          iff_true]
        rfl

/-- The frame of a control with a payload of its kind is valid exactly if its sequence is zero
where it must be. -/
theorem valid_controlFrame_iff (htype : type ∈ browserControls) (hepoch : epoch ≤ 0xffffffff)
    (hsequence : sequence ≤ 0xffffffffffffffff) (hlength : payload.length ≤ maxPayloadBytes)
    (hpayload : ValidPayload type payload) :
    Valid (controlFrame type epoch sequence payload) ↔
      (type = .acousticReady ∨ type = .acousticDisarm → sequence = 0) := by
  have hall : ∀ kind ∈ browserControls, kind ≠ .fipsPacket ∧
      ¬(kind = .pcmCapture ∨ kind = .pcmPlayback) := by decide
  obtain ⟨hpacket, hpcm⟩ := hall type htype
  constructor
  · intro h
    have hcontrol : validateControl { type, epoch, sequence, payload } = .ok () := h.control
    exact (validateControl_iff.mp hcontrol).2
  · intro hzero
    refine Valid.withDefaults ⟨Nat.zero_le _, hepoch, hsequence, hlength, ?_, fun _ => rfl,
      validateControl_iff.mpr ⟨hpayload, hzero⟩, ?_⟩
    · intro heq
      exact absurd heq hpacket
    · unfold validatePcm
      dsimp only
      rw [if_neg hpcm]
      rfl

end Controls

section Captures

variable (epoch sequence firstSampleIndex : ℕ) (samples : List UInt32)

theorem sampleBytes_length : (sampleBytes samples).length = 4 * samples.length := by
  unfold sampleBytes
  induction samples with
  | nil => rfl
  | cons sample rest ih =>
    rw [List.flatMap_cons, List.length_append, ih, writeWord_length, List.length_cons]
    omega

/-- A frame of captured samples with a payload. -/
def captureFrame (epoch sequence : ℕ) (payload : Bytes) : FwavFrame :=
  { type := .pcmCapture
    flags := some 0
    epoch
    sequence
    sampleRate := some 48000
    channels := some 1
    encoding := some pcmFloat32Le
    payload }

/-- What the browser writes for captured samples is the frame with its fields. -/
theorem pcmCaptureFrame_eq : pcmCaptureFrame epoch sequence firstSampleIndex samples =
    frameBytes (captureFrame epoch sequence
      (writeWord 8 firstSampleIndex ++ sampleBytes samples)) := by
  have hlength : (writeWord 8 firstSampleIndex ++ sampleBytes samples).length =
      8 + (sampleBytes samples).length := by
    rw [List.length_append, writeWord_length]
  have hcode : lowByte MessageType.pcmCapture.code = 3 := by decide
  have hkind : MessageType.pcmCapture ≠ .fipsPacket := by decide
  unfold frameBytes kindField captureFrame
  dsimp only
  rw [hlength, hcode, if_neg hkind]
  unfold pcmCaptureFrame
  simp only [List.append_assoc]
  rfl

/-- A PCM payload is read exactly if it has whole samples. -/
theorem readPcmPayload_ok {payload : Bytes} {result : ℕ × Bytes}
    (h : readPcmPayload payload 1 = .ok result) :
    decodePcmPayload payload 1 = .ok () ∧
      result = (wordAt payload 0 8, payload.drop pcmSampleIndexBytes) := by
  unfold readPcmPayload at h
  split at h
  · cases h
  · next hdecoded => exact ⟨hdecoded, (Except.ok.inj h).symm⟩

/-- The bridge reads captured samples, from the index they start at, exactly if there are some and
all fields fit. -/
theorem capture_exact_iff :
    (∃ payload, decodeFrame (pcmCaptureFrame epoch sequence firstSampleIndex samples) =
        .ok (captureFrame epoch sequence payload) ∧
      readPcmPayload payload 1 = .ok (firstSampleIndex, sampleBytes samples)) ↔
    samples ≠ [] ∧ 8 + 4 * samples.length ≤ maxPayloadBytes ∧ epoch ≤ 0xffffffff ∧
      sequence ≤ 0xffffffffffffffff ∧ firstSampleIndex ≤ 0xffffffffffffffff := by
  have hbytes := sampleBytes_length samples
  have hlength : (writeWord 8 firstSampleIndex ++ sampleBytes samples).length =
      8 + 4 * samples.length := by
    rw [List.length_append, writeWord_length, hbytes]
  rw [pcmCaptureFrame_eq]
  constructor
  · rintro ⟨payload, hdecoded, hread⟩
    have haccepted := (decodeFrame_ok_iff _ _).mp hdecoded
    have hpayload : payload = writeWord 8 firstSampleIndex ++ sampleBytes samples := by
      have hread := congrArg FwavFrame.payload haccepted.read
      unfold captureFrame readFrame at hread
      dsimp only at hread
      rw [hread]
      exact frameBytes_drop (captureFrame epoch sequence _)
    obtain ⟨hsamples, hresult⟩ := readPcmPayload_ok hread
    have hindex := congrArg Prod.fst hresult
    have hbound := wordAt_lt payload 0 8
    have hshort := haccepted.valid.payload
    unfold captureFrame at hshort
    dsimp only at hindex hshort
    rw [hpayload, hlength] at hshort
    unfold decodePcmPayload at hsamples
    split at hsamples
    · cases hsamples
    · split at hsamples
      · cases hsamples
      · next hwhole =>
        rw [hpayload, hlength] at hwhole
        have hsome : samples ≠ [] := by
          rintro rfl
          exact hwhole (.inl (le_refl _))
        exact ⟨hsome, hshort, haccepted.valid.epoch, haccepted.valid.sequence, by omega⟩
  · rintro ⟨hsome, hshort, hepoch, hsequence, hindex⟩
    have hcount : 0 < samples.length := List.length_pos_of_ne_nil hsome
    have hdecoded : decodePcmPayload (writeWord 8 firstSampleIndex ++ sampleBytes samples) 1 =
        .ok () := by
      have hwhole : ¬((writeWord 8 firstSampleIndex ++ sampleBytes samples).length ≤
          pcmSampleIndexBytes ∨ ((writeWord 8 firstSampleIndex ++ sampleBytes samples).length -
            pcmSampleIndexBytes) % (4 * 1) ≠ 0) := by
        rw [hlength]
        unfold pcmSampleIndexBytes
        omega
      have hchannels : ¬(1 = 0 ∨ 1 > 0xffff) := by decide
      unfold decodePcmPayload
      rw [if_neg hchannels, if_neg hwhole]
    refine ⟨writeWord 8 firstSampleIndex ++ sampleBytes samples,
      decodeFrame_frameBytes ⟨Nat.zero_le _, hepoch, hsequence, ?_, ?_, fun _ => rfl, rfl, ?_⟩ rfl,
      ?_⟩
    · unfold captureFrame
      dsimp only
      rw [hlength]
      exact hshort
    · intro htype
      cases htype
    · exact hdecoded
    · have hword : wordAt (writeWord 8 firstSampleIndex ++ sampleBytes samples) 0 8 =
          firstSampleIndex := by
        have hfirst := sliceAt_append_self (writeWord 8 firstSampleIndex) (sampleBytes samples)
        rw [writeWord_length] at hfirst
        unfold wordAt
        rw [hfirst, readWord_writeWord_of_lt (by omega)]
      have hrest : (writeWord 8 firstSampleIndex ++ sampleBytes samples).drop
          pcmSampleIndexBytes = sampleBytes samples := rfl
      unfold readPcmPayload
      rw [hdecoded, hword, hrest]

end Captures

section Forwarded

variable {epoch : ℕ} {raw : Bytes} {frame : FwavFrame}

/-- A FIPS packet as the browser is to read it. -/
def envelopeOf (frame : FwavFrame) : FipsPacketEnvelope :=
  ⟨frame.payload, frame.trafficClass.getD ordinaryTrafficClass, frame.sequence⟩

/-- A FIPS packet that was read declares no PCM format. -/
theorem unformatted_of_accepted (h : Accepted raw frame) (htype : frame.type = .fipsPacket) :
    wordAt raw 24 4 = 0 ∧ wordAt raw 28 2 = 0 ∧ wordAt raw 30 2 = 0 := by
  have hpcm := h.valid.pcm
  have hkind : ¬(frame.type = .pcmCapture ∨ frame.type = .pcmPlayback) := by
    rw [htype]
    decide
  have hrate := congrArg FwavFrame.sampleRate h.read
  have hchannels := congrArg FwavFrame.channels h.read
  have hencoding := congrArg FwavFrame.encoding h.read
  unfold readFrame at hrate hchannels hencoding
  dsimp only at hrate hchannels hencoding
  unfold validatePcm at hpcm
  dsimp only at hpcm
  rw [if_neg hkind, hrate, hchannels, hencoding] at hpcm
  simp only [bind_unit_ok_iff, validateInteger_ok_iff, check_ok_iff, Option.getD_some,
    decide_eq_true_eq] at hpcm
  exact hpcm.2.2.2

/-- The two bytes behind the kind of a FIPS packet that was read. -/
theorem class_of_accepted (h : Accepted raw frame) (htype : frame.type = .fipsPacket) :
    wordAt raw 7 1 = 0 ∧ 1 ≤ wordAt raw 6 1 ∧ wordAt raw 6 1 ≤ 3 ∧
      frame.trafficClass.getD ordinaryTrafficClass = wordAt raw 6 1 := by
  obtain ⟨hzero, hlow, hhigh⟩ := h.valid.fipsPacket htype
  have hclass := congrArg FwavFrame.trafficClass h.read
  have hflags := congrArg FwavFrame.flags h.read
  unfold readFrame at hclass hflags
  dsimp only at hclass hflags
  rw [if_pos htype] at hclass hflags
  rw [hclass, Option.getD_some] at hlow hhigh ⊢
  rw [hflags, Option.getD_some] at hzero
  exact ⟨by omega, hlow, hhigh, rfl⟩

/-- The browser reads a FIPS packet of its epoch as the bridge does, unless it is empty. The fields
the browser checks are those of a frame without sound. -/
theorem decodeFipsPacket_of_accepted (h : Accepted raw frame) (hmagic : sliceAt raw 0 4 = fwavMagic)
    (htype : frame.type = .fipsPacket) (hepoch : frame.epoch = epoch) :
    decodeFipsPacket epoch raw =
      if frame.payload = [] then .error "FIPS packet frame size is invalid"
      else .ok (envelopeOf frame) := by
  obtain ⟨hrate, hchannels, hencoding⟩ := unformatted_of_accepted h htype
  obtain ⟨hreserved, hlow, hhigh, hclass⟩ := class_of_accepted h htype
  have hbody := congrArg FwavFrame.payload h.read
  have hepochWord := congrArg FwavFrame.epoch h.read
  have hsequence := congrArg FwavFrame.sequence h.read
  unfold readFrame at hbody hepochWord hsequence
  dsimp only at hbody hepochWord hsequence
  have hlong := h.long
  have hshort := h.short
  have hlength := h.payloadLength
  have hpayloadLength : frame.payload.length = raw.length - headerBytes := by
    rw [hbody, List.length_drop]
  unfold decodeFipsPacket
  by_cases hempty : frame.payload = []
  · rw [hempty, List.length_nil] at hpayloadLength
    rw [if_pos (.inl (by omega)), if_pos hempty]
  · have hsome : 0 < frame.payload.length := List.length_pos_of_ne_nil hempty
    have hsize : ¬(raw.length ≤ headerBytes ∨ raw.length > 256 * 1024) := by
      unfold maxMessageBytes at hshort
      omega
    have hcode : wordAt raw 5 1 = 9 := by
      rw [code_of_messageTypeOf h.type, htype]
      decide
    have hidentity : ¬(sliceAt raw 0 4 ≠ [0x46, 0x57, 0x41, 0x56] ∨ wordAt raw 4 1 ≠ 1 ∨
        wordAt raw 5 1 ≠ 9) := by
      rw [not_or, not_or, not_not, not_not, not_not]
      exact ⟨hmagic, h.version, hcode⟩
    have hheader : ¬(wordAt raw 8 4 ≠ raw.length - headerBytes ∨ wordAt raw 7 1 ≠ 0 ∨
        (!isFipsTrafficClass (wordAt raw 6 1)) = true ∨ wordAt raw 24 4 ≠ 0 ∨
        wordAt raw 28 2 ≠ 0 ∨ wordAt raw 30 2 ≠ 0) := by
      have hsupported := (isFipsTrafficClass_iff _).mpr ⟨hlow, hhigh⟩
      rw [hsupported]
      simp only [hreserved, hrate, hchannels, hencoding, ne_eq, not_true, Bool.not_true,
        Bool.false_eq_true, or_false]
      omega
    have hcurrent : ¬wordAt raw 12 4 ≠ epoch := by
      rw [not_not, ← hepochWord]
      exact hepoch
    rw [if_neg hsize, if_neg hidentity, if_neg hheader, if_neg hcurrent, if_neg hempty]
    unfold envelopeOf
    rw [hclass, ← hbody, ← hsequence]

/-- What the bridge forwards of a FIPS packet it has read is accepted by the browser exactly if the
packet is not empty. -/
theorem forwarded_iff (hdecoded : decodeFrame raw = .ok frame) (htype : frame.type = .fipsPacket)
    (hepoch : frame.epoch = epoch) :
    ∃ out, encodeFrame frame = .ok out ∧
      (decodeFipsPacket epoch out = .ok (envelopeOf frame) ↔ frame.payload ≠ []) := by
  have haccepted := (decodeFrame_ok_iff raw frame).mp hdecoded
  have hfull : withDefaults frame = frame := by
    rw [haccepted.read]
    exact withDefaults_readFrame _ _
  have hforwarded := (decodeFrame_ok_iff _ frame).mp
    (decodeFrame_frameBytes haccepted.valid hfull)
  have hread := decodeFipsPacket_of_accepted hforwarded (frameBytes_header frame).magic htype hepoch
  refine ⟨frameBytes frame, ?_, ?_⟩
  · rw [encodeFrame_of_valid haccepted.valid, hfull]
  · rw [hread]
    by_cases hempty : frame.payload = []
    · rw [if_pos hempty]
      constructor
      · intro heq
        cases heq
      · intro hne
        exact absurd hempty hne
    · rw [if_neg hempty]
      exact ⟨fun _ => hempty, fun _ => rfl⟩

end Forwarded

/-- The browser and the bridge agree on FWAV: a packet the browser builds is decoded to its fields
exactly if its epoch and sequence fit, a control with a payload of its kind exactly if its sequence
is zero where it must be, and captured samples exactly if there are some and all fields fit; a
packet of the current epoch that the bridge decodes and forwards is accepted by the browser, with
the same fields, exactly if it is not empty. -/
theorem browser_bridge_agree (browserPacketReady : Bool)
    (epoch sequence trafficClass firstSampleIndex : ℕ) (payload : Bytes) (samples : List UInt32)
    (type : MessageType) (raw : Bytes) (frame : FwavFrame) :
    (∀ out, encodeFipsPacket browserPacketReady epoch sequence payload trafficClass = .ok out →
      (decodeFrame out.1 = .ok (packetFrame epoch sequence trafficClass payload) ↔
        epoch ≤ 0xffffffff ∧ sequence ≤ 0xffffffffffffffff)) ∧
    (∀ out, type ∈ browserControls → ValidPayload type payload →
      encodeControlFrame type.code epoch sequence payload = .ok out →
      (decodeFrame out = .ok (controlFrame type epoch sequence payload) ↔
        (type = .acousticReady ∨ type = .acousticDisarm → sequence = 0))) ∧
    ((∃ payload, decodeFrame (pcmCaptureFrame epoch sequence firstSampleIndex samples) =
        .ok (captureFrame epoch sequence payload) ∧
      readPcmPayload payload 1 = .ok (firstSampleIndex, sampleBytes samples)) ↔
      samples ≠ [] ∧ 8 + 4 * samples.length ≤ maxPayloadBytes ∧ epoch ≤ 0xffffffff ∧
        sequence ≤ 0xffffffffffffffff ∧ firstSampleIndex ≤ 0xffffffffffffffff) ∧
    (decodeFrame raw = .ok frame → frame.type = .fipsPacket → frame.epoch = epoch →
      ∃ out, encodeFrame frame = .ok out ∧
        (decodeFipsPacket epoch out = .ok (envelopeOf frame) ↔ frame.payload ≠ [])) := by
  refine ⟨?_, ?_, capture_exact_iff epoch sequence firstSampleIndex samples, forwarded_iff⟩
  · intro out hencoded
    obtain ⟨hbytes, -, hlength, hclass⟩ := encodeFipsPacket_ok hencoded
    rw [hbytes]
    exact (decodeFrame_frameBytes_iff (withDefaults_withDefaults _)).trans
      (valid_packetFrame_iff hlength hclass)
  · intro out htype hpayload hencoded
    have hall : ∀ kind ∈ browserControls, kind ≠ .fipsPacket := by decide
    obtain ⟨hbytes, hepoch, hsequence, hlength⟩ := encodeControlFrame_ok (hall type htype) hencoded
    rw [hbytes]
    exact (decodeFrame_frameBytes_iff (withDefaults_withDefaults _)).trans
      (valid_controlFrame_iff htype hepoch hsequence hlength hpayload)

/-- A FIPS packet without a payload. -/
def emptyPacket : Bytes :=
  [0x46, 0x57, 0x41, 0x56, 1, 9, 3, 0, 0, 0, 0, 0, 1] ++ List.replicate 19 0

/-- The bridge accepts it and forwards it as it is; the browser refuses it. -/
theorem not_forwarded_emptyPacket :
    ¬∀ (epoch : ℕ) (raw : Bytes) (frame : FwavFrame), decodeFrame raw = .ok frame →
      frame.type = .fipsPacket → frame.epoch = epoch →
      ∃ out, encodeFrame frame = .ok out ∧
        decodeFipsPacket epoch out = .ok (envelopeOf frame) := by
  intro hall
  have hdecoded : decodeFrame emptyPacket = .ok (readFrame .fipsPacket emptyPacket) := by decide
  obtain ⟨out, hencoded, haccepted⟩ := hall 1 emptyPacket _ hdecoded rfl (by decide)
  have hsame : encodeFrame (readFrame .fipsPacket emptyPacket) = .ok emptyPacket := by decide
  rw [hsame] at hencoded
  rw [← Except.ok.inj hencoded] at haccepted
  have hrefused : decodeFipsPacket 1 emptyPacket =
      .error "FIPS packet frame size is invalid" := by decide
  rw [hrefused] at haccepted
  cases haccepted

end Fipwave.BrowserFrames
