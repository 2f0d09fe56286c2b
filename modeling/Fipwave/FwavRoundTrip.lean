import Fipwave.FwavProtocol
import Fipwave.ThrowingMethod

/-!
# FWAV frames and the byte strings that carry them

Encoding an accepted frame and decoding the result gives the frame with its
defaults. A byte string that is decoded is what encoding its frame gives,
except for the magic, which is compared without the highest bits of its bytes.
-/

namespace Fipwave.FwavRoundTrip

open ByteWords FwavProtocol ThrowingMethod

/-- A frame whose absent fields have their defaults. -/
def withDefaults (frame : FwavFrame) : FwavFrame :=
  { frame with
    trafficClass :=
      if frame.type = .fipsPacket then some (frame.trafficClass.getD ordinaryTrafficClass) else none
    flags := some (frame.flags.getD 0)
    sampleRate := some (frame.sampleRate.getD 0)
    channels := some (frame.channels.getD 0)
    encoding := some (frame.encoding.getD 0) }

/-- What every frame that passes validation satisfies. -/
structure Valid (frame : FwavFrame) : Prop where
  /-- The flags fit two bytes. -/
  flags : frame.flags.getD 0 ≤ 0xffff
  /-- The epoch fits four bytes. -/
  epoch : frame.epoch ≤ 0xffffffff
  /-- The sequence fits eight bytes. -/
  sequence : frame.sequence ≤ 0xffffffffffffffff
  /-- The payload fits a message. -/
  payload : frame.payload.length ≤ maxPayloadBytes
  /-- A FIPS packet has a traffic class and no flags. -/
  fipsPacket : frame.type = .fipsPacket → frame.flags.getD 0 = 0 ∧
    1 ≤ frame.trafficClass.getD ordinaryTrafficClass ∧
    frame.trafficClass.getD ordinaryTrafficClass ≤ 3
  /-- No other kind declares a traffic class. -/
  ordinary : frame.type ≠ .fipsPacket → frame.trafficClass = none
  /-- The controls are well formed. -/
  control : validateControl frame = .ok ()
  /-- So is the PCM format. -/
  pcm : validatePcm frame = .ok ()

/-- The check passes exactly when its condition holds. -/
theorem check_ok_iff (holds : Bool) (message : String) :
    check holds message = .ok () ↔ holds = true := by
  cases holds <;> simp [check, fail]

/-- An integer is valid exactly when it is at most the maximum. -/
theorem validateInteger_ok_iff (value : ℕ) (name : String) (maximum : ℕ) :
    validateInteger value name maximum = .ok () ↔ value ≤ maximum := by
  unfold validateInteger
  by_cases h : value > maximum
  · rw [if_pos h]
    simp only [fail, reduceCtorEq, false_iff]
    omega
  · rw [if_neg h]
    simp only [true_iff]
    omega

/-- Validation accepts the valid frames and fills in their defaults. -/
theorem validateFrame_ok_iff (frame valid : FwavFrame) :
    validateFrame frame = .ok valid ↔ Valid frame ∧ valid = withDefaults frame := by
  unfold validateFrame
  dsimp only
  simp only [bind_unit_ok_iff, validateInteger_ok_iff, check_ok_iff, decide_eq_true_eq]
  by_cases htype : frame.type = .fipsPacket
  · rw [if_pos htype]
    simp only [bind_unit_ok_iff, check_ok_iff, decide_eq_true_eq]
    constructor
    · rintro ⟨hflags, hepoch, hsequence, hpayload, hzero, hclass, hcontrol, hpcm, hvalid⟩
      refine ⟨⟨hflags, hepoch, hsequence, hpayload, fun _ => ⟨hzero, hclass⟩, ?_, hcontrol, hpcm⟩,
        (Except.ok.inj hvalid).symm⟩
      intro hother
      exact absurd htype hother
    · rintro ⟨hvalid, rfl⟩
      have hfips := hvalid.fipsPacket htype
      exact ⟨hvalid.flags, hvalid.epoch, hvalid.sequence, hvalid.payload, hfips.1, hfips.2,
        hvalid.control, hvalid.pcm, rfl⟩
  · rw [if_neg htype]
    simp only [bind_unit_ok_iff, check_ok_iff, decide_eq_true_eq]
    constructor
    · rintro ⟨hflags, hepoch, hsequence, hpayload, hclass, hcontrol, hpcm, hvalid⟩
      refine ⟨⟨hflags, hepoch, hsequence, hpayload, ?_, fun _ => hclass, hcontrol, hpcm⟩,
        (Except.ok.inj hvalid).symm⟩
      intro hfips
      exact absurd hfips htype
    · rintro ⟨hvalid, rfl⟩
      exact ⟨hvalid.flags, hvalid.epoch, hvalid.sequence, hvalid.payload, hvalid.ordinary htype,
        hvalid.control, hvalid.pcm, rfl⟩

/-- Frames that differ only in which defaults they leave out pass the same checks. -/
theorem Valid.withDefaults {frame : FwavFrame} (h : Valid frame) : Valid (withDefaults frame) := by
  obtain ⟨hflags, hepoch, hsequence, hpayload, hfips, -, hcontrol, hpcm⟩ := h
  refine ⟨hflags, hepoch, hsequence, hpayload, ?_, ?_, hcontrol, hpcm⟩
  · intro htype
    have htype' : frame.type = .fipsPacket := htype
    unfold FwavRoundTrip.withDefaults
    dsimp only
    rw [if_pos htype']
    exact hfips htype'
  · intro htype
    have htype' : ¬frame.type = .fipsPacket := htype
    unfold FwavRoundTrip.withDefaults
    dsimp only
    rw [if_neg htype']

/-- Defaults are filled in once. -/
theorem withDefaults_withDefaults (frame : FwavFrame) :
    withDefaults (withDefaults frame) = withDefaults frame := by
  unfold withDefaults
  dsimp only
  by_cases htype : frame.type = .fipsPacket
  · simp only [if_pos htype, Option.getD_some]
  · simp only [if_neg htype, Option.getD_some]

/-- The PCM fields fit the header. -/
theorem Valid.pcm_bounds {frame : FwavFrame} (h : Valid frame) :
    frame.sampleRate.getD 0 ≤ 0xffffffff ∧ frame.channels.getD 0 ≤ 0xffff ∧
      frame.encoding.getD 0 ≤ 0xffff := by
  have hpcm := h.pcm
  unfold validatePcm at hpcm
  dsimp only at hpcm
  simp only [bind_unit_ok_iff, validateInteger_ok_iff] at hpcm
  exact ⟨hpcm.1, hpcm.2.1, hpcm.2.2.1⟩

/-- The two bytes behind the kind: the traffic class of a FIPS packet, the flags of others. -/
def kindField (frame : FwavFrame) : ℕ :=
  if frame.type = .fipsPacket then frame.trafficClass.getD 0 else frame.flags.getD 0

/-- Header and payload as they are written. -/
def frameBytes (frame : FwavFrame) : Bytes :=
  fwavMagic ++ [1, lowByte frame.type.code] ++ writeWord 2 (kindField frame) ++
    writeWord 4 frame.payload.length ++ writeWord 4 frame.epoch ++ writeWord 8 frame.sequence ++
    writeWord 4 (frame.sampleRate.getD 0) ++ writeWord 2 (frame.channels.getD 0) ++
    writeWord 2 (frame.encoding.getD 0) ++ frame.payload

/-- A valid frame is encoded with its defaults. -/
theorem encodeFrame_of_valid {frame : FwavFrame} (h : Valid frame) :
    encodeFrame frame = .ok (frameBytes (withDefaults frame)) := by
  have hvalid : validateFrame frame = .ok (withDefaults frame) :=
    (validateFrame_ok_iff frame _).mpr ⟨h, rfl⟩
  unfold encodeFrame
  rw [hvalid]
  rfl

/-- The fields a view reads at their offsets. -/
def readFrame (type : MessageType) (input : Bytes) : FwavFrame :=
  { type
    flags := some (if type = .fipsPacket then wordAt input 7 1 * 256 else wordAt input 6 2)
    trafficClass := if type = .fipsPacket then some (wordAt input 6 1) else none
    epoch := wordAt input 12 4
    sequence := wordAt input 16 8
    sampleRate := some (wordAt input 24 4)
    channels := some (wordAt input 28 2)
    encoding := some (wordAt input 30 2)
    payload := input.drop headerBytes }

/-- Nothing is left to fill in of a frame that was read. -/
theorem withDefaults_readFrame (type : MessageType) (input : Bytes) :
    withDefaults (readFrame type input) = readFrame type input := by
  unfold withDefaults readFrame
  dsimp only
  by_cases htype : type = .fipsPacket
  · simp only [if_pos htype, Option.getD_some]
  · simp only [if_neg htype, Option.getD_some]

/-- What a byte string that is decoded satisfies. -/
structure Accepted (raw : Bytes) (frame : FwavFrame) : Prop where
  /-- There is room for the header. -/
  long : headerBytes ≤ raw.length
  /-- It fits a message. -/
  short : raw.length ≤ maxMessageBytes
  /-- It begins with the magic, as ASCII text. -/
  magic : asciiBytes (sliceAt raw 0 4) = fwavMagic
  /-- Its version is supported. -/
  version : wordAt raw 4 1 = 1
  /-- It has the kind of the frame. -/
  type : messageTypeOf (wordAt raw 5 1) = some frame.type
  /-- Its payload has the length it declares. -/
  payloadLength : raw.length = headerBytes + wordAt raw 8 4
  /-- The frame is valid. -/
  valid : Valid frame
  /-- The frame is read from it. -/
  read : frame = readFrame frame.type raw

/-- Decoding accepts exactly the byte strings that pass every check. -/
theorem decodeFrame_ok_iff (raw : Bytes) (frame : FwavFrame) :
    decodeFrame raw = .ok frame ↔ Accepted raw frame := by
  unfold decodeFrame
  simp only [bind_unit_ok_iff, check_ok_iff, decide_eq_true_eq]
  constructor
  · rintro ⟨hlong, hshort, hmagic, hversion, h⟩
    split at h
    · cases h
    · next type htype =>
      simp only [bind_unit_ok_iff, check_ok_iff, decide_eq_true_eq] at h
      obtain ⟨hpayload, hvalidated⟩ := h
      obtain ⟨hvalid, hframe⟩ := (validateFrame_ok_iff (readFrame type raw) frame).mp hvalidated
      rw [withDefaults_readFrame] at hframe
      subst hframe
      exact ⟨hlong, hshort, hmagic, hversion, htype, hpayload.2, hvalid, rfl⟩
  · intro h
    refine ⟨h.long, h.short, h.magic, h.version, ?_⟩
    rw [h.type]
    simp only [bind_unit_ok_iff, check_ok_iff, decide_eq_true_eq]
    have hbound : wordAt raw 8 4 ≤ maxPayloadBytes := by
      have hshort := h.short
      have hlength := h.payloadLength
      unfold maxPayloadBytes
      omega
    refine ⟨⟨hbound, h.payloadLength⟩, ?_⟩
    have hdefaults := withDefaults_readFrame frame.type raw
    have hvalidated : validateFrame (readFrame frame.type raw) = .ok frame := by
      rw [← h.read] at hdefaults ⊢
      exact (validateFrame_ok_iff frame frame).mpr ⟨h.valid, hdefaults.symm⟩
    exact hvalidated

section FrameBytes

variable (frame : FwavFrame)

theorem frameBytes_length : (frameBytes frame).length = headerBytes + frame.payload.length := by
  simp [frameBytes, fwavMagic, headerBytes]
  omega

theorem frameBytes_drop : (frameBytes frame).drop headerBytes = frame.payload := by
  simp [headerBytes, frameBytes, fwavMagic, writeWord]

/-- What stands at the offsets of the header. -/
structure HeaderAt (frame : FwavFrame) (bytes : Bytes) : Prop where
  /-- The magic. -/
  magic : sliceAt bytes 0 4 = fwavMagic
  /-- The version. -/
  version : sliceAt bytes 4 1 = [1]
  /-- The kind. -/
  type : sliceAt bytes 5 1 = writeWord 1 frame.type.code
  /-- The field of the kind. -/
  kindField : sliceAt bytes 6 2 = writeWord 2 (kindField frame)
  /-- The length of the payload. -/
  payloadLength : sliceAt bytes 8 4 = writeWord 4 frame.payload.length
  /-- The epoch. -/
  epoch : sliceAt bytes 12 4 = writeWord 4 frame.epoch
  /-- The sequence. -/
  sequence : sliceAt bytes 16 8 = writeWord 8 frame.sequence
  /-- The sample rate. -/
  sampleRate : sliceAt bytes 24 4 = writeWord 4 (frame.sampleRate.getD 0)
  /-- The channels. -/
  channels : sliceAt bytes 28 2 = writeWord 2 (frame.channels.getD 0)
  /-- The encoding. -/
  encoding : sliceAt bytes 30 2 = writeWord 2 (frame.encoding.getD 0)

/-- The header is written field by field where the decoder reads it. -/
theorem frameBytes_header : HeaderAt frame (frameBytes frame) := by
  constructor <;> simp [sliceAt, frameBytes, fwavMagic, writeWord]

end FrameBytes

/-- Every kind has its own code. -/
theorem messageTypeOf_code (type : MessageType) : messageTypeOf type.code = some type := by
  cases type <;> rfl

/-- A code that is supported is the code of its kind. -/
theorem code_of_messageTypeOf {code : ℕ} {type : MessageType}
    (h : messageTypeOf code = some type) : code = type.code := by
  have hcode : code < 15 := by
    unfold messageTypeOf at h
    split at h
    · omega
    · have hlength := (List.getElem?_eq_some_iff.mp h).1
      simp only [messageTypes, List.length_cons, List.length_nil] at hlength
      omega
  have hall : ∀ small < 15, ∀ kind, messageTypeOf small = some kind → small = kind.code := by
    decide
  exact hall code hcode type h

/-- A frame whose traffic class is filled in. -/
theorem trafficClass_of_full {frame : FwavFrame} (hfull : withDefaults frame = frame)
    (htype : frame.type = .fipsPacket) :
    frame.trafficClass.getD 0 = frame.trafficClass.getD ordinaryTrafficClass := by
  have hclass := congrArg FwavFrame.trafficClass hfull
  unfold withDefaults at hclass
  dsimp only at hclass
  rw [if_pos htype] at hclass
  rw [← hclass]
  rfl

/-- The kind's field fits its two bytes. -/
theorem Valid.kindField_lt {frame : FwavFrame} (h : Valid frame)
    (hfull : FwavRoundTrip.withDefaults frame = frame) : kindField frame < 256 ^ 2 := by
  unfold kindField
  by_cases htype : frame.type = .fipsPacket
  · have hclass := (h.fipsPacket htype).2.2
    rw [if_pos htype, trafficClass_of_full hfull htype]
    omega
  · have hflags := h.flags
    rw [if_neg htype]
    omega

/-- The two bytes of the kind's field. -/
theorem frameBytes_kindBytes {frame : FwavFrame} (h : kindField frame < 256 ^ 2) :
    wordAt (frameBytes frame) 6 2 = kindField frame ∧
      wordAt (frameBytes frame) 6 1 + 256 * wordAt (frameBytes frame) 7 1 = kindField frame := by
  have hword : wordAt (frameBytes frame) 6 2 = kindField frame := by
    unfold wordAt
    rw [(frameBytes_header frame).kindField, readWord_writeWord_of_lt h]
  have hlength : 6 + 1 ≤ (frameBytes frame).length := by
    rw [frameBytes_length]
    unfold headerBytes
    omega
  exact ⟨hword, (wordAt_two hlength).symm.trans hword⟩

/-- Every field of a valid frame with its defaults is read back from its bytes. The class of a FIPS
packet is the one that defaults fill in. -/
theorem readFrame_frameBytes {frame : FwavFrame} (h : Valid frame)
    (hfull : withDefaults frame = frame) :
    readFrame frame.type (frameBytes frame) = frame := by
  have hepoch : frame.epoch < 256 ^ 4 := by
    have hle := h.epoch
    omega
  have hsequence : frame.sequence < 256 ^ 8 := by
    have hle := h.sequence
    omega
  obtain ⟨hrate, hchannels, hencoding⟩ := h.pcm_bounds
  have hread : readFrame frame.type (frameBytes frame) = withDefaults frame := by
    obtain ⟨hword, hparts⟩ := frameBytes_kindBytes (h.kindField_lt hfull)
    unfold readFrame withDefaults
    rw [frameBytes_drop, hword]
    have hepochWord : wordAt (frameBytes frame) 12 4 = frame.epoch := by
      unfold wordAt
      rw [(frameBytes_header frame).epoch, readWord_writeWord_of_lt hepoch]
    have hsequenceWord : wordAt (frameBytes frame) 16 8 = frame.sequence := by
      unfold wordAt
      rw [(frameBytes_header frame).sequence, readWord_writeWord_of_lt hsequence]
    have hrateWord : wordAt (frameBytes frame) 24 4 = frame.sampleRate.getD 0 := by
      unfold wordAt
      rw [(frameBytes_header frame).sampleRate, readWord_writeWord_of_lt (by omega)]
    have hchannelsWord : wordAt (frameBytes frame) 28 2 = frame.channels.getD 0 := by
      unfold wordAt
      rw [(frameBytes_header frame).channels, readWord_writeWord_of_lt (by omega)]
    have hencodingWord : wordAt (frameBytes frame) 30 2 = frame.encoding.getD 0 := by
      unfold wordAt
      rw [(frameBytes_header frame).encoding, readWord_writeWord_of_lt (by omega)]
    rw [hepochWord, hsequenceWord, hrateWord, hchannelsWord, hencodingWord]
    unfold kindField at hparts ⊢
    by_cases htype : frame.type = .fipsPacket
    · have hclass := trafficClass_of_full hfull htype
      obtain ⟨hflags, hlow, hhigh⟩ := h.fipsPacket htype
      simp only [if_pos htype] at hparts ⊢
      have hsecond : wordAt (frameBytes frame) 7 1 = 0 := by omega
      have hfirst : wordAt (frameBytes frame) 6 1 =
          frame.trafficClass.getD ordinaryTrafficClass := by omega
      rw [hsecond, hfirst, hflags]
    · simp only [if_neg htype]
  exact hread.trans hfull

/-- Decoding what a valid frame is encoded as gives the frame with its defaults. -/
theorem decodeFrame_frameBytes {frame : FwavFrame} (h : Valid frame)
    (hfull : withDefaults frame = frame) : decodeFrame (frameBytes frame) = .ok frame := by
  have hlength := frameBytes_length frame
  have hpayload := h.payload
  have hpayloadWord : wordAt (frameBytes frame) 8 4 = frame.payload.length := by
    unfold maxPayloadBytes maxMessageBytes headerBytes at hpayload
    unfold wordAt
    rw [(frameBytes_header frame).payloadLength, readWord_writeWord_of_lt (by omega)]
  have htype : wordAt (frameBytes frame) 5 1 = frame.type.code := by
    unfold wordAt
    rw [(frameBytes_header frame).type]
    cases frame.type <;> rfl
  refine (decodeFrame_ok_iff _ frame).mpr ⟨by omega, ?_, ?_, ?_, ?_, ?_, h, ?_⟩
  · unfold maxPayloadBytes maxMessageBytes headerBytes at *
    omega
  · rw [(frameBytes_header frame).magic]
    rfl
  · unfold wordAt
    rw [(frameBytes_header frame).version]
    rfl
  · rw [htype, messageTypeOf_code]
  · rw [hlength, hpayloadWord]
  · exact (readFrame_frameBytes h hfull).symm

/-- None of the bytes of the magic has its highest bit set. -/
def PlainMagic (raw : Bytes) : Prop := ∀ byte ∈ raw.take 4, byte < 0x80

instance (raw : Bytes) : Decidable (PlainMagic raw) :=
  inferInstanceAs (Decidable (∀ byte ∈ raw.take 4, byte < 0x80))

/-- Bytes without their highest bits are the bytes themselves exactly if those bits are clear. -/
theorem asciiBytes_eq_self_iff (bytes : Bytes) :
    asciiBytes bytes = bytes ↔ ∀ byte ∈ bytes, byte < 0x80 := by
  have hbyte : ∀ byte : UInt8, byte &&& 0x7f = byte ↔ byte < 0x80 := by
    intro byte
    have hmask : (byte &&& 0x7f).toNat = byte.toNat % 128 := by
      rw [UInt8.toNat_and]
      exact Nat.and_two_pow_sub_one_eq_mod byte.toNat 7
    rw [← UInt8.toNat_inj, hmask, UInt8.lt_iff_toNat_lt]
    have hbound : (0x80 : UInt8).toNat = 128 := rfl
    omega
  unfold asciiBytes
  induction bytes with
  | nil => simp
  | cons byte rest ih =>
    simp only [List.map_cons, List.cons.injEq, List.forall_mem_cons, hbyte, ih]

/-- The kind's field of a frame that was read is what it was read from. -/
theorem Accepted.kindField {raw : Bytes} {frame : FwavFrame} (h : Accepted raw frame) :
    kindField frame = wordAt raw 6 2 := by
  have hlong : 32 ≤ raw.length := h.long
  unfold FwavRoundTrip.kindField
  by_cases htype : frame.type = .fipsPacket
  · have hzero := (h.valid.fipsPacket htype).1
    have hclass : frame.trafficClass = some (wordAt raw 6 1) := by
      rw [h.read]
      unfold readFrame
      dsimp only
      rw [if_pos htype]
    have hflags : frame.flags = some (wordAt raw 7 1 * 256) := by
      rw [h.read]
      unfold readFrame
      dsimp only
      rw [if_pos htype]
    have hroom : 6 + 1 ≤ raw.length := by omega
    have hparts : wordAt raw 6 2 = wordAt raw 6 1 + 256 * wordAt raw 7 1 := wordAt_two hroom
    rw [hflags, Option.getD_some] at hzero
    rw [if_pos htype, hclass, Option.getD_some, hparts]
    omega
  · have hflags : frame.flags = some (wordAt raw 6 2) := by
      rw [h.read]
      unfold readFrame
      dsimp only
      rw [if_neg htype]
    rw [if_neg htype, hflags, Option.getD_some]

/-- The bytes of a frame that was read are the ones it was read from, except for the magic. -/
theorem Accepted.frameBytes {raw : Bytes} {frame : FwavFrame} (h : Accepted raw frame) :
    frameBytes frame = fwavMagic ++ raw.drop 4 := by
  have hlong : 32 ≤ raw.length := h.long
  have hversion : [(1 : UInt8)] = sliceAt raw 4 1 := by
    rw [← singleton_wordAt (by omega), h.version]
    rfl
  have htype : [lowByte frame.type.code] = sliceAt raw 5 1 := by
    rw [← code_of_messageTypeOf h.type]
    exact singleton_wordAt (by omega)
  have hpayload : writeWord 4 frame.payload.length = sliceAt raw 8 4 := by
    have hlength : frame.payload.length = wordAt raw 8 4 := by
      rw [h.read]
      simp only [readFrame, List.length_drop, h.payloadLength]
      omega
    rw [hlength]
    exact writeWord_wordAt (by omega)
  have hfield : writeWord 2 (FwavRoundTrip.kindField frame) = sliceAt raw 6 2 := by
    rw [h.kindField]
    exact writeWord_wordAt (by omega)
  have hepoch : writeWord 4 frame.epoch = sliceAt raw 12 4 := by
    rw [h.read]
    exact writeWord_wordAt (by omega)
  have hsequence : writeWord 8 frame.sequence = sliceAt raw 16 8 := by
    rw [h.read]
    exact writeWord_wordAt (by omega)
  have hrate : writeWord 4 (frame.sampleRate.getD 0) = sliceAt raw 24 4 := by
    rw [h.read]
    exact writeWord_wordAt (by omega)
  have hchannels : writeWord 2 (frame.channels.getD 0) = sliceAt raw 28 2 := by
    rw [h.read]
    exact writeWord_wordAt (by omega)
  have hencoding : writeWord 2 (frame.encoding.getD 0) = sliceAt raw 30 2 := by
    rw [h.read]
    exact writeWord_wordAt (by omega)
  have hbody : frame.payload = raw.drop 32 := by
    rw [h.read]
    rfl
  have hheader : sliceAt raw 4 28 ++ raw.drop 32 = raw.drop 4 := by
    have hrest : raw.drop 32 = (raw.drop 4).drop 28 := by rw [List.drop_drop]
    rw [hrest]
    exact List.take_append_drop 28 (raw.drop 4)
  have hkind : ([1, lowByte frame.type.code] : Bytes) = sliceAt raw 4 2 := by
    rw [← sliceAt_append_sliceAt raw 4 1 1, ← hversion, ← htype]
    rfl
  unfold FwavRoundTrip.frameBytes
  rw [hkind, hfield, hpayload, hepoch, hsequence, hrate, hchannels, hencoding, hbody, ← hheader]
  simp only [List.append_assoc]
  simp only [← List.append_assoc (sliceAt raw _ _), sliceAt_append_sliceAt raw 4, Nat.reduceAdd]

/-- A byte string that is decoded is what encoding its frame gives exactly if its magic is plain. -/
theorem encodeFrame_decodeFrame_iff {raw : Bytes} {frame : FwavFrame}
    (h : decodeFrame raw = .ok frame) : encodeFrame frame = .ok raw ↔ PlainMagic raw := by
  have haccepted := (decodeFrame_ok_iff raw frame).mp h
  have hfull : withDefaults frame = frame := by
    rw [haccepted.read]
    exact withDefaults_readFrame _ _
  have hmagic := haccepted.magic
  rw [sliceAt_zero] at hmagic
  rw [encodeFrame_of_valid haccepted.valid, hfull, haccepted.frameBytes, Except.ok.injEq]
  have hsame : fwavMagic ++ raw.drop 4 = raw ↔ fwavMagic = raw.take 4 := by
    constructor
    · intro heq
      rw [← heq]
      rfl
    · intro heq
      rw [heq, List.take_append_drop]
  unfold PlainMagic
  rw [hsame, ← asciiBytes_eq_self_iff, hmagic]

/-- An accepted frame is encoded and decoded to itself with its defaults. A byte string that is
decoded is the encoding of its frame exactly if none of its first four bytes has its highest bit
set, and two such byte strings carry different frames. -/
theorem fwav_exact (frame valid : FwavFrame) (raw other : Bytes) (decoded : FwavFrame) :
    (validateFrame frame = .ok valid → valid = withDefaults frame ∧
      ∃ encoded, encodeFrame frame = .ok encoded ∧
        decodeFrame encoded = .ok (withDefaults frame)) ∧
    (decodeFrame raw = .ok decoded → (encodeFrame decoded = .ok raw ↔ PlainMagic raw)) ∧
    (decodeFrame raw = .ok decoded → decodeFrame other = .ok decoded →
      PlainMagic raw → PlainMagic other → raw = other) := by
  refine ⟨fun hframe => ?_, fun hraw => encodeFrame_decodeFrame_iff hraw,
    fun hraw hother hplain hplain' => ?_⟩
  · obtain ⟨hvalid, hdefaults⟩ := (validateFrame_ok_iff frame valid).mp hframe
    exact ⟨hdefaults, _, encodeFrame_of_valid hvalid,
      decodeFrame_frameBytes hvalid.withDefaults (withDefaults_withDefaults frame)⟩
  · have hfirst := (encodeFrame_decodeFrame_iff hraw).mpr hplain
    have hsecond := (encodeFrame_decodeFrame_iff hother).mpr hplain'
    exact Except.ok.inj (hfirst.symm.trans hsecond)

/-- A greeting whose magic has a high bit set. -/
def markedHello : Bytes :=
  [0xc6, 0x57, 0x41, 0x56, 1, 1] ++ List.replicate 26 0

/-- It decodes to the frame that the plain greeting decodes to, and encoding gives the latter. -/
theorem not_encodeFrame_markedHello :
    ¬∀ (raw : Bytes) (frame : FwavFrame), decodeFrame raw = .ok frame →
      encodeFrame frame = .ok raw := by
  intro hexact
  have hdecoded : ∃ frame, decodeFrame markedHello = .ok frame ∧
      encodeFrame frame ≠ .ok markedHello := by
    refine ⟨readFrame .hello markedHello, ?_, ?_⟩ <;> decide
  obtain ⟨frame, hdecode, hencode⟩ := hdecoded
  exact hencode (hexact markedHello frame hdecode)

end Fipwave.FwavRoundTrip
