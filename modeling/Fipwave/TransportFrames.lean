import Fipwave.TransportMoves
import Fipwave.BrowserFrames

/-!
# Frames of the sound transport and frames of the bridge

The transport writes and reads the header on its own, byte by byte. What it
writes is what the bridge reads as the packet it was given, and what it accepts
is exactly what the bridge writes for a frame the transport has a use for.
-/

namespace Fipwave.TransportFrames

open ByteWords FwavProtocol FwavRoundTrip ThrowingMethod BrowserFrames FipsTransport TransportMoves

section Written

/-- A packet as the bridge sees it. -/
def packetFrame (epoch sequence : ℕ) (trafficClass : TrafficClass) (data : Bytes) : FwavFrame where
  type := .fipsPacket
  flags := some 0
  trafficClass := some trafficClass.toWire
  epoch := epoch
  sequence := sequence
  sampleRate := some 0
  channels := some 0
  encoding := some 0
  payload := data

variable (epoch sequence : ℕ) (trafficClass : TrafficClass) (data : Bytes)

/-- The transport writes what the bridge writes for the packet. -/
theorem encodePacket_eq : encodePacket epoch sequence trafficClass data =
    frameBytes (packetFrame epoch sequence trafficClass data) := by
  have hfield : writeWord 2 trafficClass.toWire = [lowByte trafficClass.toWire, 0] := by
    cases trafficClass <;> rfl
  unfold encodePacket frameBytes kindField
  simp only [packetFrame, if_true, Option.getD_some, hfield]
  simp only [List.append_assoc, List.cons_append, List.nil_append, List.append_cancel_left_eq,
    List.cons.injEq, true_and]
  exact ⟨rfl, rfl⟩

/-- The epoch of a packet stands behind its type. -/
theorem epoch_encodePacket :
    wordAt (encodePacket epoch sequence trafficClass data) 12 4 = epoch % 2 ^ 32 := by
  rw [encodePacket_eq]
  unfold wordAt
  rw [(frameBytes_header _).epoch, readWord_writeWord]
  rfl

/-- The sequence stands behind the epoch. -/
theorem sequence_encodePacket :
    wordAt (encodePacket epoch sequence trafficClass data) 16 8 = sequence % 2 ^ 64 := by
  rw [encodePacket_eq]
  unfold wordAt
  rw [(frameBytes_header _).sequence, readWord_writeWord]
  rfl

/-- The frame of a packet is valid if its fields are in range. -/
theorem valid_packetFrame (hepoch : epoch < 2 ^ 32) (hsequence : sequence < 2 ^ 64)
    (hdata : data.length ≤ maxPayloadBytes) :
    Valid (packetFrame epoch sequence trafficClass data) where
  flags := Nat.zero_le _
  epoch := Nat.le_of_lt_succ hepoch
  sequence := Nat.le_of_lt_succ hsequence
  payload := hdata
  fipsPacket _ := by
    have hclass : 1 ≤ trafficClass.toWire ∧ trafficClass.toWire ≤ 3 := by
      cases trafficClass <;> decide
    exact ⟨rfl, hclass⟩
  ordinary hother := absurd rfl hother
  control := rfl
  pcm := rfl

theorem withDefaults_packetFrame : withDefaults (packetFrame epoch sequence trafficClass data) =
    packetFrame epoch sequence trafficClass data := rfl

/-- The bridge reads the packet from what the transport writes. -/
theorem decodeFrame_encodePacket (hepoch : epoch < 2 ^ 32) (hsequence : sequence < 2 ^ 64)
    (hdata : data.length ≤ maxPayloadBytes) :
    decodeFrame (encodePacket epoch sequence trafficClass data) =
      .ok (packetFrame epoch sequence trafficClass data) := by
  rw [encodePacket_eq]
  exact decodeFrame_frameBytes (valid_packetFrame epoch sequence trafficClass data hepoch hsequence
    hdata) (withDefaults_packetFrame epoch sequence trafficClass data)

end Written

section Read

/-- The transport has a use for a frame. -/
def Takes (mtu : ℕ) (full : Bool) (r : Runtime) (frame : FwavFrame) : Prop :=
  match frame.type with
  | .reset => frame.payload = [] ∧ frame.sequence = 0 ∧ r.epoch < frame.epoch
  | .browserArm => frame.sequence = 0 ∧ r.state = .up ∧ r.epoch = frame.epoch ∧
      ∃ proof, decodeAcousticReadinessProof frame.payload = .ok proof
  | .browserDisarm => frame.sequence = 0 ∧ r.state = .up ∧ r.epoch = frame.epoch ∧
      frame.payload.length = acousticDisarmCapabilityBytes ∧
      ∃ proof, r.readinessProof = some proof ∧ sliceAt proof 48 16 = frame.payload
  | .fipsPacketAdmission => frame.sequence ≠ 0 ∧ r.state = .up ∧ r.epoch = frame.epoch ∧
      frame.sequence ≤ r.nextSequence
  | .fipsPacket => frame.payload.length ≤ mtu ∧ r.state = .up ∧ r.browserReady = true ∧
      r.epoch = frame.epoch ∧
      (∀ highest, r.highestReceivedSequence = some highest → highest < frame.sequence) ∧
      full = false
  | _ => False

/-- Header of a frame without flags and format. -/
structure Bare (encoded : Bytes) : Prop where
  long : headerBytes ≤ encoded.length
  magic : sliceAt encoded 0 4 = fwavMagic
  version : wordAt encoded 4 1 = 1
  payloadLength : encoded.length = headerBytes + wordAt encoded 8 4
  high : wordAt encoded 7 1 = 0
  sampleRate : wordAt encoded 24 4 = 0
  channels : wordAt encoded 28 2 = 0
  encoding : wordAt encoded 30 2 = 0

/-- The header is accepted exactly if it is that of a bare frame. -/
theorem headerFault_none_iff {encoded : Bytes} : headerFault encoded = none ↔ Bare encoded := by
  unfold headerFault
  constructor
  · intro h
    split at h
    · cases h
    · next hstart =>
      split at h
      · cases h
      · next hlength =>
        split at h
        · cases h
        · next hrest =>
          push Not at hstart hlength hrest
          obtain ⟨hlong, hmagic, hversion⟩ := hstart
          obtain ⟨hhigh, hrate, hchannels, hencoding⟩ := hrest
          exact ⟨hlong, hmagic, hversion, hlength, hhigh, hrate, hchannels, hencoding⟩
  · intro h
    rw [if_neg, if_neg, if_neg]
    · push Not
      exact ⟨h.high, h.sampleRate, h.channels, h.encoding⟩
    · exact not_not.mpr h.payloadLength
    · push Not
      exact ⟨h.long, h.magic, h.version⟩

/-- A word is zero exactly if its bytes are. -/
theorem readWord_eq_zero_iff (bytes : Bytes) : readWord bytes = 0 ↔ allZero bytes = true := by
  induction bytes with
  | nil => exact iff_of_true rfl rfl
  | cons byte rest ih =>
    have hbyte : byte.toNat = 0 ↔ byte = 0 := UInt8.toNat_inj (b := 0)
    have hzero : allZero (byte :: rest) = true ↔ byte = 0 ∧ allZero rest = true := by
      simp [allZero]
    rw [hzero, ← ih, ← hbyte]
    simp only [readWord]
    omega

/-- The proofs the transport arms with are those the bridge decodes. -/
theorem decodes_iff (payload : Bytes) :
    (∃ proof, decodeAcousticReadinessProof payload = .ok proof) ↔
      payload.length = acousticReadinessProofBytes ∧ proofStands payload = true := by
  have hstands : proofStands payload = true ↔ ¬(wordAt payload 0 8 = 0 ∨
      allZero (sliceAt payload 8 32) = true ∨ allZero (sliceAt payload 48 16) = true) := by
    unfold wordAt
    rw [readWord_eq_zero_iff]
    simp [proofStands, and_assoc]
  unfold decodeAcousticReadinessProof
  dsimp only
  rw [hstands]
  constructor
  · rintro ⟨proof, hproof⟩
    split at hproof
    · cases hproof
    · next hlength =>
      split at hproof
      · cases hproof
      · next hparts => exact ⟨not_not.mp hlength, hparts⟩
  · rintro ⟨hlength, hparts⟩
    rw [if_neg (not_not.mpr hlength), if_neg hparts]
    exact ⟨_, rfl⟩

variable {mtu : ℕ} {full : Bool} {r : Runtime} {field epoch sequence : ℕ} {payload : Bytes}

/-- A RESET is accepted if it is bare and of a later epoch. -/
theorem injectReset_accepted_iff :
    (injectReset field epoch sequence payload.length r).accepted = true ↔
      field = 0 ∧ payload = [] ∧ sequence = 0 ∧ r.epoch < epoch := by
  unfold injectReset
  split
  · next hinvalid =>
    refine iff_of_false Bool.false_ne_true ?_
    rintro ⟨hfield, rfl, hsequence, hepoch⟩
    have hlength : ([] : Bytes).length = 0 := rfl
    omega
  · next hvalid =>
    push Not at hvalid
    exact iff_of_true rfl ⟨hvalid.1, List.eq_nil_of_length_eq_zero hvalid.2.1, hvalid.2.2⟩

/-- An ARM is accepted if its proof can be decoded. -/
theorem injectArm_accepted_iff : (injectArm payload r).accepted = true ↔
    ∃ proof, decodeAcousticReadinessProof payload = .ok proof := by
  rw [decodes_iff]
  unfold injectArm
  split
  · next hlength => exact iff_of_false Bool.false_ne_true (fun h => hlength h.1)
  · next hlength =>
    split
    · next hstands =>
      refine iff_of_false Bool.false_ne_true (fun h => ?_)
      exact Bool.false_ne_true (hstands.symm.trans h.2)
    · next hstands =>
      exact iff_of_true rfl ⟨not_not.mp hlength, Bool.eq_true_of_not_eq_false hstands⟩

/-- A DISARM is accepted if it names the capability of the proof that stands. -/
theorem injectDisarm_accepted_iff : (injectDisarm payload r).accepted = true ↔
    payload.length = acousticDisarmCapabilityBytes ∧
      ∃ proof, r.readinessProof = some proof ∧ sliceAt proof 48 16 = payload := by
  have hmatch : r.readinessProof.all (fun proof => sliceAt proof 48 16 ≠ payload) = true ↔
      ¬∃ proof, r.readinessProof = some proof ∧ sliceAt proof 48 16 = payload := by
    cases r.readinessProof with
    | none => simp
    | some proof => simp
  unfold injectDisarm
  split
  · next hinvalid =>
    refine iff_of_false Bool.false_ne_true (fun h => ?_)
    rcases hinvalid with hlength | hnone
    · exact hlength h.1
    · exact hmatch.mp hnone h.2
  · next hvalid =>
    obtain ⟨hlength, hheld⟩ := not_or.mp hvalid
    exact iff_of_true rfl ⟨not_not.mp hlength, not_not.mp (fun hnone => hheld (hmatch.mpr hnone))⟩

/-- The controls of the browser, by kind. -/
theorem injectControl_accepted_iff (kind : ℕ) :
    (injectControl kind field epoch sequence payload r).accepted = true ↔
      field = 0 ∧ sequence = 0 ∧ r.state = .up ∧ r.epoch = epoch ∧
        (if kind = fwavTypeBrowserArm then injectArm payload r
          else injectDisarm payload r).accepted = true := by
  unfold injectControl
  split
  · next hinvalid =>
    refine iff_of_false Bool.false_ne_true ?_
    rintro ⟨hfield, hsequence, hup, hepoch, -⟩
    tauto
  · next hvalid =>
    push Not at hvalid
    obtain ⟨hfield, hsequence, hup, hepoch⟩ := hvalid
    constructor
    · intro haccepted
      exact ⟨hfield, hsequence, hup, hepoch, haccepted⟩
    · exact fun h => h.2.2.2.2

/-- The answers the transport takes are those the bridge decodes, for a sequence it has sent in its
epoch. -/
theorem injectAdmission_accepted_iff :
    (injectAdmission field epoch sequence payload r).accepted = true ↔
      field = 0 ∧ sequence ≠ 0 ∧ r.state = .up ∧ r.epoch = epoch ∧ sequence ≤ r.nextSequence ∧
        ∃ result, decodeFipsPacketAdmission payload = .ok result := by
  have hanswers : (∃ result, decodeFipsPacketAdmission payload = .ok result) ↔
      payload.length = 1 ∧ (wordAt payload 0 1 = 1 ∨ wordAt payload 0 1 = 2) := by
    match payload with
    | [] => exact iff_of_false (by simp [decodeFipsPacketAdmission, fail]) (by simp)
    | [byte] =>
      have hword : wordAt [byte] 0 1 = byte.toNat := by simp [wordAt, sliceAt, readWord]
      have hone : byte.toNat = 1 ↔ byte = 1 := UInt8.toNat_inj (b := 1)
      have htwo : byte.toNat = 2 ↔ byte = 2 := UInt8.toNat_inj (b := 2)
      rw [hword, hone, htwo]
      unfold decodeFipsPacketAdmission
      dsimp only
      split
      · next h => simp [h]
      · split
        · next h => simp [h]
        · next h h' => simp [h, h', fail]
    | first :: second :: rest =>
      exact iff_of_false (by simp [decodeFipsPacketAdmission, fail]) (by simp)
  rw [hanswers]
  unfold injectAdmission
  split
  · next hinvalid =>
    refine iff_of_false Bool.false_ne_true ?_
    rintro ⟨hfield, hsequence, hup, hepoch, hnext, hlength, -⟩
    rcases hinvalid with h | h | h | h | h | h
    · exact h hfield
    · exact h hlength
    · exact hsequence h
    · exact h hup
    · exact h hepoch
    · omega
  · next hvalid =>
    push Not at hvalid
    obtain ⟨hfield, hlength, hsequence, hup, hepoch, hnext⟩ := hvalid
    split
    · next hone => exact iff_of_true rfl ⟨hfield, hsequence, hup, hepoch, hnext, hlength, .inl hone⟩
    · next hone =>
      split
      · next htwo =>
        exact iff_of_true rfl ⟨hfield, hsequence, hup, hepoch, hnext, hlength, .inr htwo⟩
      · next htwo =>
        refine iff_of_false Bool.false_ne_true (fun h => ?_)
        rcases h.2.2.2.2.2.2 with h | h
        · exact hone h
        · exact htwo h

/-- There are three traffic classes on the wire. -/
theorem fromWire_iff {byte : ℕ} : TrafficClass.fromWire byte ≠ none ↔ 1 ≤ byte ∧ byte ≤ 3 := by
  match byte with
  | 0 | 1 | 2 | 3 => decide
  | other + 4 =>
    refine iff_of_false (not_not.mpr rfl) ?_
    omega

/-- A packet is accepted if it is of the current epoch, above all others, small enough and the
browser is ready. -/
theorem injectPacket_accepted_iff (kind : ℕ) :
    (injectPacket mtu full kind field epoch sequence payload r).accepted = true ↔
      kind = fwavTypeFipsPacket ∧ (1 ≤ field ∧ field ≤ 3) ∧ payload.length ≤ mtu ∧
        r.state = .up ∧ r.browserReady = true ∧ r.epoch = epoch ∧
        (∀ highest, r.highestReceivedSequence = some highest → highest < sequence) ∧
        full = false := by
  have hreplayed : r.highestReceivedSequence.any (fun highest => sequence ≤ highest) = true ↔
      ¬∀ highest, r.highestReceivedSequence = some highest → highest < sequence := by
    cases r.highestReceivedSequence with
    | none => simp
    | some highest => simp
  rw [← fromWire_iff]
  unfold injectPacket
  split
  · next hinvalid =>
    refine iff_of_false Bool.false_ne_true ?_
    rintro ⟨hkind, hclass, hmtu, -⟩
    rcases hinvalid with h | h | h
    · exact h hkind
    · exact hclass h
    · omega
  · next hvalid =>
    push Not at hvalid
    obtain ⟨hkind, hclass, hmtu⟩ := hvalid
    split
    · next hunarmed =>
      refine iff_of_false Bool.false_ne_true ?_
      rintro ⟨-, -, -, hup, hready, hepoch, -⟩
      rcases hunarmed with h | h | h
      · exact h hup
      · exact Bool.false_ne_true (h.symm.trans hready)
      · exact h hepoch
    · next harmed =>
      push Not at harmed
      obtain ⟨hup, hready, hepoch⟩ := harmed
      split
      · next hold =>
        exact iff_of_false Bool.false_ne_true (fun h => hreplayed.mp hold h.2.2.2.2.2.2.1)
      · next hnew =>
        split
        · next hfull =>
          refine iff_of_false Bool.false_ne_true (fun h => ?_)
          exact Bool.false_ne_true (h.2.2.2.2.2.2.2.symm.trans hfull)
        · next hfull =>
          have hlater := not_not.mp (fun hreplay => hnew (hreplayed.mpr hreplay))
          exact iff_of_true rfl ⟨hkind, hclass, hmtu, hup, Bool.eq_true_of_not_eq_false hready,
            hepoch, hlater, Bool.eq_false_of_not_eq_true hfull⟩

end Read

section Envelopes

variable {encoded : Bytes} {type : MessageType}

/-- Kinds that carry no sound. -/
def Unsounding (type : MessageType) : Prop := type ≠ .pcmCapture ∧ type ≠ .pcmPlayback

/-- What a bare header is read as. -/
theorem valid_of_bare (h : Bare encoded) (hsilent : Unsounding type)
    (hfield : if type = .fipsPacket then 1 ≤ wordAt encoded 6 1 ∧ wordAt encoded 6 1 ≤ 3
      else wordAt encoded 6 1 = 0)
    (hsize : encoded.length ≤ maxMessageBytes)
    (hcontrol : validateControl (readFrame type encoded) = .ok ()) :
    Valid (readFrame type encoded) ∧ (readFrame type encoded).flags = some 0 := by
  have hlong : 32 ≤ encoded.length := h.long
  have hroom : 6 + 1 ≤ encoded.length := by omega
  have hparts := wordAt_two hroom
  have hhigh := h.high
  have hflags : (readFrame type encoded).flags = some 0 := by
    simp only [readFrame, hhigh, Nat.zero_mul, hparts]
    split
    · rfl
    · next hother =>
      rw [if_neg hother] at hfield
      rw [hfield]
  have hrate := h.sampleRate
  have hchannels := h.channels
  have hencoding := h.encoding
  have hepoch : wordAt encoded 12 4 < 256 ^ 4 := wordAt_lt encoded 12 4
  have hsequence : wordAt encoded 16 8 < 256 ^ 8 := wordAt_lt encoded 16 8
  refine ⟨⟨?_, Nat.le_of_lt_succ hepoch, Nat.le_of_lt_succ hsequence, ?_, ?_, ?_, hcontrol, ?_⟩,
    hflags⟩
  · rw [hflags]
    exact Nat.zero_le _
  · have hdrop : (readFrame type encoded).payload.length = encoded.length - headerBytes :=
      List.length_drop
    rw [hdrop]
    exact Nat.sub_le_sub_right hsize headerBytes
  · intro htype
    have htype' : type = .fipsPacket := htype
    rw [if_pos htype'] at hfield
    have hclass : (readFrame type encoded).trafficClass = some (wordAt encoded 6 1) := if_pos htype'
    rw [hflags, hclass]
    exact ⟨rfl, hfield⟩
  · intro htype
    exact if_neg htype
  · have hkind : ¬((readFrame type encoded).type = .pcmCapture ∨
        (readFrame type encoded).type = .pcmPlayback) := not_or.mpr hsilent
    unfold validatePcm
    simp only [if_neg hkind]
    simp only [readFrame, Option.getD_some, hrate, hchannels, hencoding]
    rfl

/-- A byte string is the encoding of a frame without flags. -/
structure Encodes (encoded : Bytes) (frame : FwavFrame) : Prop where
  /-- The bridge decodes it to the frame. -/
  decoded : decodeFrame encoded = .ok frame
  /-- And encodes the frame as it. -/
  encoded : encodeFrame frame = .ok encoded
  /-- The frame declares no flags. -/
  flags : frame.flags = some 0

/-- A bare frame whose fields are in range is what the bridge encodes. -/
theorem encodes_of_bare (h : Bare encoded) (htype : wordAt encoded 5 1 = type.code)
    (hsilent : Unsounding type)
    (hfield : if type = .fipsPacket then 1 ≤ wordAt encoded 6 1 ∧ wordAt encoded 6 1 ≤ 3
      else wordAt encoded 6 1 = 0)
    (hsize : encoded.length ≤ maxMessageBytes)
    (hcontrol : validateControl (readFrame type encoded) = .ok ()) :
    Encodes encoded (readFrame type encoded) := by
  obtain ⟨hvalid, hflags⟩ := valid_of_bare h hsilent hfield hsize hcontrol
  have hascii : asciiBytes (sliceAt encoded 0 4) = fwavMagic := by
    rw [h.magic]
    rfl
  have hkind : messageTypeOf (wordAt encoded 5 1) = some type := by
    rw [htype]
    exact messageTypeOf_code type
  have hdecoded : decodeFrame encoded = .ok (readFrame type encoded) :=
    (decodeFrame_ok_iff encoded _).mpr
      ⟨h.long, hsize, hascii, h.version, hkind, h.payloadLength, hvalid, rfl⟩
  refine ⟨hdecoded, (encodeFrame_decodeFrame_iff hdecoded).mpr ?_, hflags⟩
  have hmagic := h.magic
  rw [sliceAt_zero] at hmagic
  intro byte hbyte
  rw [hmagic] at hbyte
  simp only [fwavMagic, List.mem_cons, List.not_mem_nil, or_false] at hbyte
  rcases hbyte with rfl | rfl | rfl | rfl <;> decide

/-- Nothing but sound declares a format. -/
theorem formatless {frame : FwavFrame} (h : Valid frame) (hsilent : Unsounding frame.type) :
    frame.sampleRate.getD 0 = 0 ∧ frame.channels.getD 0 = 0 ∧ frame.encoding.getD 0 = 0 := by
  have hpcm := h.pcm
  have hkind : ¬(frame.type = .pcmCapture ∨ frame.type = .pcmPlayback) := not_or.mpr hsilent
  unfold validatePcm at hpcm
  dsimp only at hpcm
  rw [if_neg hkind] at hpcm
  simp only [bind_unit_ok_iff, validateInteger_ok_iff, check_ok_iff, decide_eq_true_eq] at hpcm
  exact hpcm.2.2.2

/-- The header of an encoding is bare. -/
theorem bare_of_encodes {frame : FwavFrame} (h : Encodes encoded frame)
    (hsilent : Unsounding frame.type) : Bare encoded := by
  have haccepted := (decodeFrame_ok_iff encoded frame).mp h.decoded
  have hplain := (encodeFrame_decodeFrame_iff h.decoded).mp h.encoded
  have hlong : 32 ≤ encoded.length := haccepted.long
  have hflags := congrArg FwavFrame.flags haccepted.read
  have hrate := congrArg FwavFrame.sampleRate haccepted.read
  have hchannels := congrArg FwavFrame.channels haccepted.read
  have hencoding := congrArg FwavFrame.encoding haccepted.read
  rw [h.flags] at hflags
  unfold readFrame at hflags hrate hchannels hencoding
  dsimp only at hflags hrate hchannels hencoding
  obtain ⟨hzeroRate, hzeroChannels, hzeroEncoding⟩ := formatless haccepted.valid hsilent
  rw [hrate] at hzeroRate
  rw [hchannels] at hzeroChannels
  rw [hencoding] at hzeroEncoding
  have hroom : 6 + 1 ≤ encoded.length := by omega
  have hparts : wordAt encoded 6 2 = wordAt encoded 6 1 + 256 * wordAt encoded 7 1 :=
    wordAt_two hroom
  refine ⟨haccepted.long, ?_, haccepted.version, haccepted.payloadLength, ?_, hzeroRate,
    hzeroChannels, hzeroEncoding⟩
  · have hmagic := haccepted.magic
    rw [sliceAt_zero] at hmagic ⊢
    rwa [(asciiBytes_eq_self_iff _).mpr hplain] at hmagic
  · have hzero := Option.some.inj hflags
    split at hzero
    · omega
    · omega

/-- The field of the kind of an encoding that is not a packet. -/
theorem field_of_encodes {frame : FwavFrame} (h : Encodes encoded frame)
    (hother : frame.type ≠ .fipsPacket) : wordAt encoded 6 1 = 0 := by
  have haccepted := (decodeFrame_ok_iff encoded frame).mp h.decoded
  have hlong : 32 ≤ encoded.length := haccepted.long
  have hflags := congrArg FwavFrame.flags haccepted.read
  rw [h.flags] at hflags
  unfold readFrame at hflags
  dsimp only at hflags
  rw [if_neg hother] at hflags
  have hroom : 6 + 1 ≤ encoded.length := by omega
  have hparts : wordAt encoded 6 2 = wordAt encoded 6 1 + 256 * wordAt encoded 7 1 :=
    wordAt_two hroom
  have hzero := Option.some.inj hflags
  omega

end Envelopes

section Acceptance

variable {mtu : ℕ} {full : Bool} {r : Runtime} {encoded : Bytes}

/-- What is asked of a bare frame, by its kind. -/
def Asked (mtu : ℕ) (full : Bool) (r : Runtime) (encoded : Bytes) : Prop :=
  let kind := wordAt encoded 5 1
  let field := wordAt encoded 6 1
  let epoch := wordAt encoded 12 4
  let sequence := wordAt encoded 16 8
  let payload := encoded.drop headerBytes
  if kind = fwavTypeReset then (injectReset field epoch sequence payload.length r).accepted = true
  else if kind = fwavTypeBrowserArm ∨ kind = fwavTypeBrowserDisarm then
    (injectControl kind field epoch sequence payload r).accepted = true
  else if kind = fwavTypeFipsPacketAdmission then
    (injectAdmission field epoch sequence payload r).accepted = true
  else (injectPacket mtu full kind field epoch sequence payload r).accepted = true

/-- A frame is accepted exactly if it is bare and what the worker asks of its type. -/
theorem injectInbound_accepted_iff :
    (injectInbound mtu full encoded r).accepted = true ↔ Bare encoded ∧ Asked mtu full r encoded := by
  rw [← headerFault_none_iff]
  unfold injectInbound Asked
  cases hfault : headerFault encoded with
  | some code => exact iff_of_false Bool.false_ne_true (fun h => by cases h.1)
  | none =>
    simp only [true_and]
    split
    · exact Iff.rfl
    · split
      · exact Iff.rfl
      · split <;> exact Iff.rfl

/-- A bare frame is its header and what follows it. -/
theorem Bare.drop_length (h : Bare encoded) :
    encoded.length = headerBytes + (encoded.drop headerBytes).length := by
  have hlong := h.long
  rw [List.length_drop]
  omega

/-- An answer to a packet is one byte. -/
theorem length_of_admission {payload : Bytes} {result : FipsPacketAdmission}
    (h : decodeFipsPacketAdmission payload = .ok result) : payload.length = 1 := by
  cases payload with
  | nil => cases h
  | cons byte rest =>
    cases rest with
    | nil => rfl
    | cons second rest => cases h

/-- What the transport accepts is an encoding of the bridge, by the kind of frame it tests for. -/
theorem encodes_of_accepted (hmtu : mtu < 2 ^ 16) (hbare : Bare encoded)
    (hasked : Asked mtu full r encoded) : ∃ frame, Encodes encoded frame ∧ Takes mtu full r frame := by
  have hlength := hbare.drop_length
  have hsize : (encoded.drop headerBytes).length ≤ maxPayloadBytes →
      encoded.length ≤ maxMessageBytes := by
    intro hfits
    unfold maxPayloadBytes maxMessageBytes headerBytes at *
    omega
  unfold Asked at hasked
  dsimp only at hasked
  split at hasked
  · next hkind =>
    obtain ⟨hfield, hempty, hsequence, hepoch⟩ := injectReset_accepted_iff.mp hasked
    have hfits : encoded.length ≤ maxMessageBytes := hsize (by rw [hempty]; exact Nat.zero_le _)
    exact ⟨readFrame .reset encoded,
      encodes_of_bare hbare hkind (by simp [Unsounding])
        hfield hfits rfl, hempty, hsequence, hepoch⟩
  · split at hasked
    · next hcontrol =>
      obtain ⟨hfield, hsequence, hup, hepoch, hpart⟩ := (injectControl_accepted_iff _).mp hasked
      split at hpart
      · next hkind =>
        have hproof := injectArm_accepted_iff.mp hpart
        have hpayload := ((decodes_iff _).mp hproof).1
        have hfits : encoded.length ≤ maxMessageBytes := hsize (by rw [hpayload]; decide)
        exact ⟨readFrame .browserArm encoded,
          encodes_of_bare hbare hkind (by simp [Unsounding])
            hfield hfits rfl, hsequence, hup, hepoch, hproof⟩
      · next hother =>
        have hkind := hcontrol.resolve_left hother
        obtain ⟨hpayload, hheld⟩ := injectDisarm_accepted_iff.mp hpart
        have hfits : encoded.length ≤ maxMessageBytes := hsize (by rw [hpayload]; decide)
        exact ⟨readFrame .browserDisarm encoded,
          encodes_of_bare hbare hkind (by simp [Unsounding])
            hfield hfits rfl, hsequence, hup, hepoch,
          hpayload, hheld⟩
    · split at hasked
      · next hkind =>
        obtain ⟨hfield, hsequence, hup, hepoch, hnext, result, hresult⟩ :=
          injectAdmission_accepted_iff.mp hasked
        have hone := length_of_admission hresult
        have hfits : encoded.length ≤ maxMessageBytes := hsize (by rw [hone]; decide)
        refine ⟨readFrame .fipsPacketAdmission encoded,
          encodes_of_bare hbare hkind (by simp [Unsounding])
            hfield hfits ?_, hsequence, hup, hepoch, hnext⟩
        have hflags : wordAt encoded 6 2 = 0 := by
          have hlong : 32 ≤ encoded.length := hbare.long
          have hroom : 6 + 1 ≤ encoded.length := by omega
          have hparts : wordAt encoded 6 2 = wordAt encoded 6 1 + 256 * wordAt encoded 7 1 :=
            wordAt_two hroom
          have hhigh := hbare.high
          omega
        simp only [validateControl, readFrame, hflags, hresult, reduceCtorEq, or_self, if_false,
          if_true, Option.getD_some]
        rfl
      · obtain ⟨hkind, hclass, hsmall, hup, hready, hepoch, hlater, hroom⟩ :=
          (injectPacket_accepted_iff _).mp hasked
        have hmax : maxPayloadBytes = 262112 := rfl
        have hfits : encoded.length ≤ maxMessageBytes := hsize (hsmall.trans (by omega))
        exact ⟨readFrame .fipsPacket encoded,
          encodes_of_bare hbare hkind (by simp [Unsounding])
            hclass hfits rfl, hsmall, hup, hready, hepoch,
          hlater, hroom⟩

/-- What the bridge encodes of a frame the transport has a use for is accepted. The fields of the
frame are the words the transport reads. -/
theorem asked_of_takes {frame : FwavFrame} (h : Encodes encoded frame)
    (htakes : Takes mtu full r frame) : Bare encoded ∧ Asked mtu full r encoded := by
  have haccepted := (decodeFrame_ok_iff encoded frame).mp h.decoded
  have hkind : wordAt encoded 5 1 = frame.type.code := code_of_messageTypeOf haccepted.type
  have hread := haccepted.read
  have hepochRead : frame.epoch = wordAt encoded 12 4 := congrArg FwavFrame.epoch hread
  have hsequenceRead : frame.sequence = wordAt encoded 16 8 := congrArg FwavFrame.sequence hread
  have hpayloadRead : frame.payload = encoded.drop headerBytes := congrArg FwavFrame.payload hread
  unfold Takes at htakes
  unfold Asked
  dsimp only
  rw [hepochRead, hsequenceRead, hpayloadRead] at htakes
  cases htype : frame.type with
  | reset =>
    rw [htype] at hkind htakes
    replace hkind : wordAt encoded 5 1 = fwavTypeReset := hkind
    refine ⟨bare_of_encodes h (by rw [htype]; simp [Unsounding]), ?_⟩
    rw [if_pos hkind]
    exact injectReset_accepted_iff.mpr ⟨field_of_encodes h (by rw [htype]; exact nofun), htakes⟩
  | browserArm =>
    rw [htype] at hkind htakes
    replace hkind : wordAt encoded 5 1 = fwavTypeBrowserArm := hkind
    have hfield := field_of_encodes h (by rw [htype]; exact nofun)
    obtain ⟨hsequence, hup, hepoch, hproof⟩ := htakes
    refine ⟨bare_of_encodes h (by rw [htype]; simp [Unsounding]), ?_⟩
    rw [if_neg (by rw [hkind]; decide), if_pos (.inl hkind)]
    refine (injectControl_accepted_iff _).mpr ⟨hfield, hsequence, hup, hepoch, ?_⟩
    rw [if_pos hkind]
    exact injectArm_accepted_iff.mpr hproof
  | browserDisarm =>
    rw [htype] at hkind htakes
    replace hkind : wordAt encoded 5 1 = fwavTypeBrowserDisarm := hkind
    have hfield := field_of_encodes h (by rw [htype]; exact nofun)
    obtain ⟨hsequence, hup, hepoch, hheld⟩ := htakes
    refine ⟨bare_of_encodes h (by rw [htype]; simp [Unsounding]), ?_⟩
    rw [if_neg (by rw [hkind]; decide), if_pos (.inr hkind)]
    refine (injectControl_accepted_iff _).mpr ⟨hfield, hsequence, hup, hepoch, ?_⟩
    rw [if_neg (by rw [hkind]; decide)]
    exact injectDisarm_accepted_iff.mpr hheld
  | fipsPacketAdmission =>
    rw [htype] at hkind htakes
    replace hkind : wordAt encoded 5 1 = fwavTypeFipsPacketAdmission := hkind
    have hfield := field_of_encodes h (by rw [htype]; exact nofun)
    obtain ⟨hsequence, hup, hepoch, hnext⟩ := htakes
    have hresult : ∃ result, decodeFipsPacketAdmission (encoded.drop headerBytes) = .ok result := by
      have hcontrol := haccepted.valid.control
      rw [← hpayloadRead]
      simp only [validateControl, htype, reduceCtorEq, or_self, if_false, if_true] at hcontrol
      obtain ⟨_, -, hrest⟩ := bind_ok hcontrol
      obtain ⟨result, hresult, -⟩ := bind_ok hrest
      exact ⟨result, hresult⟩
    refine ⟨bare_of_encodes h (by rw [htype]; simp [Unsounding]), ?_⟩
    rw [if_neg (by rw [hkind]; decide), if_neg (by rw [hkind]; decide), if_pos hkind]
    exact injectAdmission_accepted_iff.mpr ⟨hfield, hsequence, hup, hepoch, hnext, hresult⟩
  | fipsPacket =>
    rw [htype] at hkind htakes
    replace hkind : wordAt encoded 5 1 = fwavTypeFipsPacket := hkind
    obtain ⟨hmtu, hup, hready, hepoch, hlater, hroom⟩ := htakes
    obtain ⟨-, hlow, hhigh, -⟩ := class_of_accepted haccepted htype
    refine ⟨bare_of_encodes h (by rw [htype]; simp [Unsounding]), ?_⟩
    rw [if_neg (by rw [hkind]; decide), if_neg (by rw [hkind]; decide), if_neg (by rw [hkind]; decide)]
    exact (injectPacket_accepted_iff _).mpr
      ⟨hkind, ⟨hlow, hhigh⟩, hmtu, hup, hready, hepoch, hlater, hroom⟩
  | _ =>
    rw [htype] at htakes
    exact absurd htakes id

/-- A transport whose packets fit sixteen bits accepts exactly the byte strings the bridge
writes for a frame without flags that the transport has a use for. -/
theorem accepted_iff (hmtu : mtu < 2 ^ 16) :
    (injectInbound mtu full encoded r).accepted = true ↔
      ∃ frame, Encodes encoded frame ∧ Takes mtu full r frame := by
  rw [injectInbound_accepted_iff]
  constructor
  · rintro ⟨hbare, hasked⟩
    exact encodes_of_accepted hmtu hbare hasked
  · rintro ⟨frame, hencodes, htakes⟩
    exact asked_of_takes hencodes htakes

/-- The bridge arms the transport of a bench. -/
def benchArm : Bytes :=
  frameBytes ⟨.browserArm, some 0, none, 1, 0, some 0, some 0, some 0, List.replicate 64 7⟩

/-- The ARM of the example is accepted. -/
theorem accepted_iff_bench : (injectInbound 1357 false benchArm { state := .up }).accepted = true ∧
    ∃ frame, Encodes benchArm frame ∧ Takes 1357 false { state := .up } frame := by
  have haccepted : (injectInbound 1357 false benchArm { state := .up }).accepted = true := by decide
  exact ⟨haccepted, (accepted_iff (by decide)).mp haccepted⟩

end Acceptance

end Fipwave.TransportFrames
