import Fipwave.AcousticHandshake

/-!
# Handshakes and the byte strings that carry them

Encoding a handshake whose texts are well-formed and decoding the result gives
the handshake back. A byte string that is decoded is what encoding the
handshake gives, as long as none of its texts begins with a byte-order mark,
which the decoder of the platform drops.
-/

namespace Fipwave.HandshakeRoundTrip

open ByteWords ThrowingMethod AcousticProtocol
open AcousticHandshake hiding optional

/-- The byte-order mark. -/
def byteOrderMark : Bytes := [0xef, 0xbb, 0xbf]

/-- The bytes are well-formed and do not begin with a byte-order mark. -/
def PlainText (bytes : Bytes) : Prop :=
  wellFormedUtf8 bytes = true ∧ bytes.take 3 ≠ byteOrderMark

instance (bytes : Bytes) : Decidable (PlainText bytes) :=
  inferInstanceAs (Decidable (wellFormedUtf8 bytes = true ∧ bytes.take 3 ≠ byteOrderMark))

/-- A plain text is decoded to itself. -/
theorem decodeText_of_plain {bytes : Bytes} (h : PlainText bytes) :
    decodeText bytes = some bytes := by
  have hmark : ¬bytes.take 3 = [0xef, 0xbb, 0xbf] := h.2
  unfold decodeText
  rw [if_pos h.1, if_neg hmark]

/-- Without a byte-order mark, what is decoded is the bytes. -/
theorem eq_of_decodeText {bytes text : Bytes} (h : decodeText bytes = some text)
    (hmark : bytes.take 3 ≠ byteOrderMark) : text = bytes := by
  have hbytes : ¬bytes.take 3 = [0xef, 0xbb, 0xbf] := hmark
  unfold decodeText at h
  split at h
  · exact (Option.some.inj h).symm
  · cases h

/-- The bytes of the next text. -/
def readRawText (input : Bytes) : Option (Bytes × Bytes) := do
  let (length, input) ← readByte input
  readBytes length input

/-- The bytes of a number of texts. -/
def readRawTexts : ℕ → Bytes → Option (List Bytes × Bytes)
  | 0, input => some ([], input)
  | count + 1, input => do
    let (raw, input) ← readRawText input
    let (raws, input) ← readRawTexts count input
    return (raw :: raws, input)

/-- The bytes of the texts of a handshake payload: identities and profiles. -/
def rawTexts (input : Bytes) : Option (List Bytes) := do
  let (identity, input) ← readRawText (input.drop 2)
  let (expectedPeer, input) ← readRawText input
  let (profileCount, input) ← readByte (input.drop 16)
  let (profiles, _) ← readRawTexts profileCount input
  return identity :: expectedPeer :: profiles

/-- No text of the payload begins with a byte-order mark. -/
def WithoutMarks (input : Bytes) : Prop :=
  ∀ raws, rawTexts input = some raws → ∀ raw ∈ raws, raw.take 3 ≠ byteOrderMark

/-- Bytes of a known number are read off the front. -/
theorem readBytes_append {count : ℕ} {front rest : Bytes} (h : front.length = count) :
    readBytes count (front ++ rest) = some (front, rest) := by
  unfold readBytes
  have hle : ¬count > (front ++ rest).length := by
    rw [List.length_append]
    omega
  rw [if_neg hle, ← h, List.take_left, List.drop_left]

/-- What was read off stands in front of the rest. -/
theorem readBytes_ok {count : ℕ} {input front rest : Bytes}
    (h : readBytes count input = some (front, rest)) :
    input = front ++ rest ∧ front.length = count := by
  unfold readBytes at h
  split at h
  · cases h
  · next hle =>
    cases h
    refine ⟨(List.take_append_drop count input).symm, ?_⟩
    rw [List.length_take]
    omega

/-- A text with its length in front of it is read back. -/
theorem readRawText_prefixed {raw rest : Bytes} (h : raw.length < 256) :
    readRawText (prefixed raw ++ rest) = some (raw, rest) := by
  have hlength : (lowByte raw.length).toNat = raw.length := by
    rw [lowByte_toNat]
    omega
  change readBytes (lowByte raw.length).toNat (raw ++ rest) = some (raw, rest)
  rw [hlength]
  exact readBytes_append rfl

/-- So are several, one after the other. -/
theorem readRawTexts_flatMap {raws : List Bytes} {rest : Bytes}
    (h : ∀ raw ∈ raws, raw.length < 256) :
    readRawTexts raws.length (raws.flatMap prefixed ++ rest) = some (raws, rest) := by
  induction raws with
  | nil => rfl
  | cons raw raws ih =>
    have hfirst : readRawText (prefixed raw ++ (raws.flatMap prefixed ++ rest)) =
        some (raw, raws.flatMap prefixed ++ rest) :=
      readRawText_prefixed (h raw List.mem_cons_self)
    have hrest := ih (fun other hother => h other (List.mem_cons_of_mem raw hother))
    rw [List.flatMap_cons, List.append_assoc, List.length_cons, readRawTexts, hfirst]
    simp only [Option.bind_eq_bind, Option.bind_some]
    rw [hrest]
    rfl

/-- A plain text within the bound is read. -/
theorem readText_prefixed {maximum : ℕ} {text rest : Bytes} (hmaximum : maximum < 256)
    (hlength : 1 ≤ text.length ∧ text.length ≤ maximum) (hplain : PlainText text) :
    readText maximum (prefixed text ++ rest) = some (text, rest) := by
  have hbyte : (lowByte text.length).toNat = text.length := by
    rw [lowByte_toNat]
    omega
  have hbounds : ¬(text.length < 1 ∨ text.length > maximum) := by omega
  have hread : readBytes text.length (text ++ rest) = some (text, rest) := readBytes_append rfl
  unfold readText prefixed
  rw [List.cons_append, readByte]
  simp only [Option.bind_eq_bind, Option.bind_some]
  rw [hbyte, if_neg hbounds, hread]
  simp only [Option.bind_some]
  rw [decodeText_of_plain hplain]
  rfl

/-- What is read as a text stands behind its length. -/
theorem readText_ok {maximum : ℕ} {input text rest : Bytes}
    (h : readText maximum input = some (text, rest)) :
    ∃ raw, input = prefixed raw ++ rest ∧ 1 ≤ raw.length ∧ raw.length ≤ maximum ∧
      decodeText raw = some text := by
  cases input with
  | nil => cases h
  | cons byte input =>
    unfold readText at h
    simp only [readByte, Option.bind_eq_bind, Option.bind_some] at h
    split at h
    · cases h
    · next hbounds =>
      obtain ⟨⟨raw, after⟩, hraw, h⟩ := Option.bind_eq_some_iff.mp h
      obtain ⟨value, hvalue, h⟩ := Option.bind_eq_some_iff.mp h
      cases h
      obtain ⟨hinput, hlength⟩ := readBytes_ok hraw
      refine ⟨raw, ?_, by omega, by omega, hvalue⟩
      unfold prefixed
      rw [hlength, hinput, List.cons_append]
      congr 1
      rw [lowByte, UInt8.ofNat_toNat]

/-- Plain profile names within the bound are read. -/
theorem readProfiles_flatMap {profiles : List Text} {rest : Bytes}
    (h : ∀ profile ∈ profiles, 1 ≤ profile.length ∧ profile.length ≤ maxProfileBytes ∧
      PlainText profile) :
    readProfiles profiles.length (profiles.flatMap prefixed ++ rest) = some (profiles, rest) := by
  induction profiles with
  | nil => rfl
  | cons profile profiles ih =>
    obtain ⟨hlow, hhigh, hplain⟩ := h profile List.mem_cons_self
    have hfirst : readText maxProfileBytes (prefixed profile ++ (profiles.flatMap prefixed ++ rest)) =
        some (profile, profiles.flatMap prefixed ++ rest) :=
      readText_prefixed (by decide) ⟨hlow, hhigh⟩ hplain
    have hrest := ih (fun other hother => h other (List.mem_cons_of_mem profile hother))
    rw [List.flatMap_cons, List.append_assoc, List.length_cons, readProfiles, hfirst]
    simp only [Option.bind_eq_bind, Option.bind_some]
    rw [hrest]
    rfl

/-- What is read as profile names stands behind their lengths. -/
theorem readProfiles_ok {count : ℕ} {input rest : Bytes} {profiles : List Text}
    (h : readProfiles count input = some (profiles, rest)) :
    ∃ raws : List Bytes, input = raws.flatMap prefixed ++ rest ∧ raws.length = count ∧
      (∀ raw ∈ raws, 1 ≤ raw.length ∧ raw.length ≤ maxProfileBytes) ∧
      raws.map decodeText = profiles.map some := by
  induction count generalizing input profiles with
  | zero =>
    cases h
    exact ⟨[], rfl, rfl, fun raw hraw => absurd hraw List.not_mem_nil, rfl⟩
  | succ count ih =>
    unfold readProfiles at h
    obtain ⟨⟨profile, middle⟩, hprofile, h⟩ := Option.bind_eq_some_iff.mp h
    obtain ⟨⟨others, last⟩, hothers, h⟩ := Option.bind_eq_some_iff.mp h
    cases h
    obtain ⟨raw, hinput, hlow, hhigh, htext⟩ := readText_ok hprofile
    obtain ⟨raws, hmiddle, hlength, hbounds, htexts⟩ := ih hothers
    refine ⟨raw :: raws, ?_, ?_, ?_, ?_⟩
    · rw [hinput, hmiddle, List.flatMap_cons, List.append_assoc]
    · rw [List.length_cons, hlength]
    · intro other hother
      rcases List.mem_cons.mp hother with hhead | htail
      · rw [hhead]
        exact ⟨hlow, hhigh⟩
      · exact hbounds other htail
    · rw [List.map_cons, List.map_cons, htext, htexts]

/-- An echoed nonce is read back, and so is none. -/
theorem readEcho_optional {echo : Option Bytes} {rest : Bytes}
    (h : ∀ nonce ∈ echo, nonce.length = 16) :
    readEcho (AcousticHandshake.optional echo ++ rest) = some (echo, rest) := by
  cases echo with
  | none => rfl
  | some nonce =>
    have hread : readBytes 16 (nonce ++ rest) = some (nonce, rest) := readBytes_append (h nonce rfl)
    have hone : (1 : UInt8).toNat = 1 := rfl
    unfold readEcho AcousticHandshake.optional
    simp only [List.cons_append, readByte, Option.bind_eq_bind, Option.bind_some, hone, if_true,
      hread]
    rfl

/-- What is read as an echo was encoded as one. -/
theorem readEcho_ok {echo : Option Bytes} {input rest : Bytes}
    (h : readEcho input = some (echo, rest)) :
    input = AcousticHandshake.optional echo ++ rest ∧ ∀ nonce ∈ echo, nonce.length = 16 := by
  cases input with
  | nil => cases h
  | cons byte input =>
    unfold readEcho at h
    simp only [readByte, Option.bind_eq_bind, Option.bind_some] at h
    have hbyte : ∀ value : ℕ, byte.toNat = value → byte = UInt8.ofNat value := by
      intro value hvalue
      rw [← hvalue, UInt8.ofNat_toNat]
    split at h
    · next hone =>
      obtain ⟨⟨nonce, after⟩, hnonce, h⟩ := Option.bind_eq_some_iff.mp h
      cases h
      obtain ⟨hinput, hlength⟩ := readBytes_ok hnonce
      refine ⟨?_, ?_⟩
      · rw [hbyte 1 hone, hinput]
        rfl
      · intro other hother
        rw [← Option.some.inj hother]
        exact hlength
    · split at h
      · next hzero =>
        cases h
        refine ⟨?_, fun nonce hnonce => by cases hnonce⟩
        rw [hbyte 0 hzero]
        rfl
      · cases h

/-- A session identifier is read back, and so is none. -/
theorem readSessionId_optional {sessionId : Option ℕ}
    (h : ∀ value ∈ sessionId, 1 ≤ value ∧ value < 2 ^ 64) :
    readSessionId (AcousticHandshake.optional (sessionId.map (writeWord 8))) = some sessionId := by
  cases sessionId with
  | none => rfl
  | some value =>
    obtain ⟨hlow, hhigh⟩ := h value rfl
    have hword : readWord (writeWord 8 value) = value := readWord_writeWord_of_lt (by omega)
    have hvalid : ¬((writeWord 8 value).length ≠ 8 ∨ readWord (writeWord 8 value) = 0) := by
      rw [hword, writeWord_length]
      omega
    have hone : (1 : UInt8).toNat = 1 := rfl
    unfold readSessionId AcousticHandshake.optional
    simp only [Option.map_some, readByte, Option.bind_eq_bind, Option.bind_some, hone, if_true]
    rw [if_neg hvalid, hword]
    rfl

/-- What is read as a session identifier was encoded as one. -/
theorem readSessionId_ok {sessionId : Option ℕ} {input : Bytes}
    (h : readSessionId input = some sessionId) :
    input = AcousticHandshake.optional (sessionId.map (writeWord 8)) := by
  cases input with
  | nil => cases h
  | cons byte input =>
    unfold readSessionId at h
    simp only [readByte, Option.bind_eq_bind, Option.bind_some] at h
    have hbyte : ∀ value : ℕ, byte.toNat = value → byte = UInt8.ofNat value := by
      intro value hvalue
      rw [← hvalue, UInt8.ofNat_toNat]
    split at h
    · next hone =>
      split at h
      · cases h
      · next hvalid =>
        cases h
        have hlength : input.length = 8 := by
          by_contra hne
          exact hvalid (.inl hne)
        have hword : writeWord 8 (readWord input) = input := by
          rw [← hlength]
          exact writeWord_readWord input
        rw [hbyte 1 hone, Option.map_some, hword]
        rfl
    · split at h
      · next hzero =>
        cases h
        rw [hbyte 0 hzero.1, hzero.2]
        rfl
      · cases h

/-- The words behind the profiles. -/
def rangeWords (ranges : AcousticCapabilityRange) (epoch : ℕ) : Bytes :=
  writeWord 2 ranges.minPayloadBytes ++ writeWord 2 ranges.maxPayloadBytes ++ writeWord 4 epoch

theorem rangeWords_length (ranges : AcousticCapabilityRange) (epoch : ℕ) :
    (rangeWords ranges epoch).length = 8 := by
  simp [rangeWords]

/-- Words that fit are read back. -/
theorem wordAt_rangeWords {ranges : AcousticCapabilityRange} {epoch : ℕ} (rest : Bytes)
    (hranges : ranges.minPayloadBytes < 256 ^ 2 ∧ ranges.maxPayloadBytes < 256 ^ 2)
    (hepoch : epoch < 256 ^ 4) :
    wordAt (rangeWords ranges epoch ++ rest) 0 2 = ranges.minPayloadBytes ∧
      wordAt (rangeWords ranges epoch ++ rest) 2 2 = ranges.maxPayloadBytes ∧
      wordAt (rangeWords ranges epoch ++ rest) 4 4 = epoch ∧
      (rangeWords ranges epoch ++ rest).drop 8 = rest := by
  have hfirst : sliceAt (rangeWords ranges epoch ++ rest) 0 2 =
      writeWord 2 ranges.minPayloadBytes := by
    simp [sliceAt, rangeWords]
  have hsecond : sliceAt (rangeWords ranges epoch ++ rest) 2 2 =
      writeWord 2 ranges.maxPayloadBytes := by
    simp [sliceAt, rangeWords]
  have hthird : sliceAt (rangeWords ranges epoch ++ rest) 4 4 = writeWord 4 epoch := by
    have hgroup : rangeWords ranges epoch ++ rest =
        (writeWord 2 ranges.minPayloadBytes ++ writeWord 2 ranges.maxPayloadBytes) ++
          (writeWord 4 epoch ++ rest) := by
      simp [rangeWords]
    have hhead : (writeWord 2 ranges.minPayloadBytes ++
        writeWord 2 ranges.maxPayloadBytes).length = 4 := by
      simp
    rw [sliceAt, hgroup, List.drop_left' hhead]
    exact List.take_left' (writeWord_length 4 epoch)
  refine ⟨?_, ?_, ?_, ?_⟩
  · rw [wordAt, hfirst, readWord_writeWord_of_lt hranges.1]
  · rw [wordAt, hsecond, readWord_writeWord_of_lt hranges.2]
  · rw [wordAt, hthird, readWord_writeWord_of_lt hepoch]
  · exact List.drop_left' (rangeWords_length ranges epoch)

/-- Eight bytes are the words read from them. -/
theorem rangeWords_wordAt {input : Bytes} (h : 8 ≤ input.length) :
    rangeWords ⟨wordAt input 0 2, wordAt input 2 2⟩ (wordAt input 4 4) ++ input.drop 8 = input := by
  have hfirst : writeWord 2 (wordAt input 0 2) = sliceAt input 0 2 := writeWord_wordAt (by omega)
  have hsecond : writeWord 2 (wordAt input 2 2) = sliceAt input 2 2 := writeWord_wordAt (by omega)
  have hthird : writeWord 4 (wordAt input 4 4) = sliceAt input 4 4 := writeWord_wordAt (by omega)
  have hjoin : sliceAt input 0 2 ++ sliceAt input 2 2 = sliceAt input 0 4 :=
    sliceAt_append_sliceAt input 0 2 2
  have hall : sliceAt input 0 4 ++ sliceAt input 4 4 = sliceAt input 0 8 :=
    sliceAt_append_sliceAt input 0 4 4
  unfold rangeWords
  rw [hfirst, hsecond, hthird, hjoin, hall, sliceAt_zero]
  exact List.take_append_drop 8 input

/-- A payload from front to back, with the given bytes for its texts. -/
def layout (value : Handshake) (identity expectedPeer : Bytes) (profiles : List Bytes) : Bytes :=
  1 :: lowByte (roleByte value.role) :: (prefixed identity ++ (prefixed expectedPeer ++
    (value.nonce ++ lowByte profiles.length :: (profiles.flatMap prefixed ++
      (rangeWords value.ranges value.epoch ++ (AcousticHandshake.optional value.echoedNonce ++
        AcousticHandshake.optional (value.sessionId.map (writeWord 8))))))))

/-- The encoder lays out the texts themselves. -/
theorem handshakeBytes_eq (value : Handshake) : handshakeBytes value =
    layout value value.identity value.expectedPeer value.profiles := by
  simp [handshakeBytes, handshakePrefix, rangeWords, layout]

/-- What the encoder asks of a handshake. -/
structure Encodable (value : Handshake) : Prop where
  /-- There is an identity. -/
  identity : value.identity ≠ []
  /-- There is a peer. -/
  expectedPeer : value.expectedPeer ≠ []
  /-- They differ. -/
  distinct : value.identity ≠ value.expectedPeer
  /-- The nonce has 128 bits. -/
  nonce : value.nonce.length = 16
  /-- It is not zero. -/
  nonZero : nonZero value.nonce = true
  /-- The range is valid. -/
  ranges : validRange value.ranges = true
  /-- There are one to three profiles. -/
  profileCount : 1 ≤ value.profiles.length ∧ value.profiles.length ≤ maxProfiles
  /-- The epoch fits a word. -/
  epoch : value.epoch ≤ uint32Max
  /-- The identities are not too long. -/
  lengths : value.identity.length ≤ maxIdentityBytes ∧ value.expectedPeer.length ≤ maxIdentityBytes
  /-- Neither are the profiles. -/
  profiles : ∀ profile ∈ value.profiles, 1 ≤ profile.length ∧ profile.length ≤ maxProfileBytes
  /-- An echoed nonce has 128 bits. -/
  echoedNonce : ∀ nonce ∈ value.echoedNonce, nonce.length = 16

/-- A handshake is encoded exactly if it is within its limits. The checks of the source run in
order, and each is one of them. -/
theorem encodeHandshake_ok_iff {value : Handshake} {bytes : Bytes} :
    encodeHandshake value = .ok bytes ↔ Encodable value ∧ handshakeBytes value = bytes := by
  constructor
  · intro h
    unfold encodeHandshake invalid at h
    split at h
    · cases h
    · next hbinding =>
      split at h
      · cases h
      · next hlengths =>
        split at h
        · cases h
        · next hprofiles =>
          split at h
          · cases h
          · next hecho =>
            simp only [not_or, not_not, Bool.not_eq_true', Bool.not_eq_false, validInteger,
              decide_eq_true_eq, not_lt, gt_iff_lt] at hbinding hlengths
            obtain ⟨hid, hpeer, hne, hnonce, hzero, hrange, hlow, hhigh, hepoch⟩ := hbinding
            refine ⟨⟨hid, hpeer, hne, hnonce, hzero, hrange, ⟨hlow, hhigh⟩, hepoch.2, hlengths,
              ?_, ?_⟩, Except.ok.inj h⟩
            · intro profile hprofile
              by_contra hbad
              refine hprofiles (List.any_eq_true.mpr ⟨profile, hprofile, ?_⟩)
              simp only [Bool.or_eq_true, decide_eq_true_eq]
              omega
            · intro nonce hmem
              rw [Option.mem_def.mp hmem] at hecho
              simpa using hecho
  · rintro ⟨h, rfl⟩
    unfold encodeHandshake
    have hbinding : ¬(value.identity = [] ∨ value.expectedPeer = [] ∨
        value.identity = value.expectedPeer ∨ value.nonce.length ≠ 16 ∨
        (!AcousticHandshake.nonZero value.nonce) = true ∨ (!validRange value.ranges) = true ∨
        value.profiles.length < 1 ∨ value.profiles.length > maxProfiles ∨
        (!validInteger value.epoch 0 uint32Max) = true) := by
      have hcount := h.profileCount
      simp only [not_or, not_not, Bool.not_eq_true', Bool.not_eq_false, validInteger,
        decide_eq_true_eq, not_lt, gt_iff_lt]
      exact ⟨h.identity, h.expectedPeer, h.distinct, h.nonce, h.nonZero, h.ranges, hcount.1,
        hcount.2, Nat.zero_le _, h.epoch⟩
    have hlengths : ¬(value.identity.length > maxIdentityBytes ∨
        value.expectedPeer.length > maxIdentityBytes) := by
      have hboth := h.lengths
      omega
    have hprofiles : ¬(value.profiles.any
        (fun profile => profile.length < 1 || profile.length > maxProfileBytes)) = true := by
      rw [List.any_eq_true]
      rintro ⟨profile, hmem, hbad⟩
      have hone := h.profiles profile hmem
      simp only [Bool.or_eq_true, decide_eq_true_eq] at hbad
      omega
    have hecho : ¬(value.echoedNonce.any (fun nonce => nonce.length ≠ 16)) = true := by
      rw [Option.any_eq_true]
      rintro ⟨nonce, hmem, hbad⟩
      exact of_decide_eq_true hbad (h.echoedNonce nonce hmem)
    rw [if_neg hbinding, if_neg hlengths, if_neg hprofiles, if_neg hecho]

/-- The texts of the handshake are plain. -/
def PlainTexts (value : Handshake) : Prop :=
  PlainText value.identity ∧ PlainText value.expectedPeer ∧
    ∀ profile ∈ value.profiles, PlainText profile

instance (value : Handshake) : Decidable (PlainTexts value) :=
  inferInstanceAs (Decidable (_ ∧ _ ∧ _))

/-- A valid range fits two words. -/
theorem ranges_lt {ranges : AcousticCapabilityRange} (h : validRange ranges = true) :
    ranges.minPayloadBytes < 256 ^ 2 ∧ ranges.maxPayloadBytes < 256 ^ 2 := by
  simp only [validRange, validInteger, Bool.and_eq_true, decide_eq_true_eq] at h
  omega

/-- The payload of an encodable handshake with plain texts is read back, field by field from the
front. -/
theorem readHandshake_handshakeBytes {value : Handshake} (h : Encodable value)
    (hplain : PlainTexts value) (hsession : ∀ id ∈ value.sessionId, 1 ≤ id ∧ id < 2 ^ 64) :
    readHandshake (handshakeBytes value) = some value := by
  have hversion : (1 : UInt8).toNat = 1 := rfl
  have hrole : parseRole (lowByte (roleByte value.role)).toNat = some value.role := by
    have hbyte : (lowByte (roleByte value.role)).toNat = roleByte value.role := by
      cases value.role <;> rfl
    rw [hbyte, parseRole_roleByte]
  have hcount : (lowByte value.profiles.length).toNat = value.profiles.length := by
    have hbound : value.profiles.length ≤ 3 := h.profileCount.2
    rw [lowByte_toNat]
    omega
  have hprofileCount : ¬(value.profiles.length < 1 ∨ value.profiles.length > maxProfiles) := by
    have hboth := h.profileCount
    omega
  have hidentity : 1 ≤ value.identity.length ∧ value.identity.length ≤ maxIdentityBytes :=
    ⟨List.length_pos_iff.mpr h.identity, h.lengths.1⟩
  have hpeer : 1 ≤ value.expectedPeer.length ∧ value.expectedPeer.length ≤ maxIdentityBytes :=
    ⟨List.length_pos_iff.mpr h.expectedPeer, h.lengths.2⟩
  have hprofiles : ∀ profile ∈ value.profiles, 1 ≤ profile.length ∧
      profile.length ≤ maxProfileBytes ∧ PlainText profile := by
    intro profile hmem
    obtain ⟨hlow, hhigh⟩ := h.profiles profile hmem
    exact ⟨hlow, hhigh, hplain.2.2 profile hmem⟩
  have hepoch : value.epoch < 256 ^ 4 := by
    have hmax := h.epoch
    have hvalue : uint32Max < 256 ^ 4 := by decide
    omega
  have hbinding : ¬(value.identity = [] ∨ value.expectedPeer = [] ∨
      value.identity = value.expectedPeer ∨ (!AcousticHandshake.nonZero value.nonce) = true ∨
      (!validRange value.ranges) = true) := by
    rw [h.nonZero, h.ranges]
    simp only [Bool.not_true, Bool.false_eq_true, or_false, not_or]
    exact ⟨h.identity, h.expectedPeer, h.distinct⟩
  have hmaximum : maxIdentityBytes < 256 := by decide
  rw [handshakeBytes_eq, layout]
  unfold readHandshake
  simp only [readByte, Option.bind_eq_bind, Option.bind_some, hversion, ne_eq, not_true_eq_false,
    if_false, hrole]
  rw [readText_prefixed hmaximum hidentity hplain.1]
  simp only [Option.bind_some]
  rw [readText_prefixed hmaximum hpeer hplain.2.1]
  simp only [Option.bind_some]
  rw [readBytes_append h.nonce]
  simp only [Option.bind_some, hcount]
  rw [if_neg hprofileCount, readProfiles_flatMap hprofiles]
  simp only [Option.bind_some]
  generalize htail : AcousticHandshake.optional value.echoedNonce ++
    AcousticHandshake.optional (value.sessionId.map (writeWord 8)) = tail
  obtain ⟨hmin, hmax, hword, hdrop⟩ := wordAt_rangeWords tail (ranges_lt h.ranges) hepoch
  have hlong : ¬(rangeWords value.ranges value.epoch ++ tail).length < 9 := by
    have hnonempty : 1 ≤ tail.length := by
      rw [← htail, List.length_append]
      have hflag : 1 ≤ (AcousticHandshake.optional value.echoedNonce).length := by
        unfold AcousticHandshake.optional
        split <;> simp
      omega
    rw [List.length_append, rangeWords_length]
    omega
  rw [if_neg hlong, hdrop, hmin, hmax, hword, ← htail, readEcho_optional h.echoedNonce]
  simp only [Option.bind_some]
  rw [readSessionId_optional hsession]
  simp only [Option.bind_some]
  rw [if_neg hbinding]
  rfl

/-- The byte of a role is the one it was read from. -/
theorem roleByte_of_parseRole {number : ℕ} {role : AcousticRole} (h : parseRole number = some role) :
    roleByte role = number := by
  unfold parseRole at h
  split at h
  · next hone =>
    cases h
    exact hone.symm
  · split at h
    · next htwo =>
      cases h
      exact htwo.symm
    · cases h

/-- What a decoded payload is made of. -/
structure Parsed (input : Bytes) (value : Handshake) (identity expectedPeer : Bytes)
    (profiles : List Bytes) : Prop where
  /-- The payload is laid out from these bytes. -/
  input_eq : input = layout value identity expectedPeer profiles
  /-- The first text. -/
  identityText : decodeText identity = some value.identity
  /-- The second text. -/
  peerText : decodeText expectedPeer = some value.expectedPeer
  /-- The other texts. -/
  profileTexts : profiles.map decodeText = value.profiles.map some
  /-- Lengths of the identities. -/
  lengths : identity.length ≤ maxIdentityBytes ∧ expectedPeer.length ≤ maxIdentityBytes
  /-- Number of profiles. -/
  profileCount : 1 ≤ profiles.length ∧ profiles.length ≤ maxProfiles
  /-- Lengths of the profiles. -/
  profileLengths : ∀ profile ∈ profiles, 1 ≤ profile.length ∧ profile.length ≤ maxProfileBytes
  /-- The nonce has 128 bits. -/
  nonce : value.nonce.length = 16
  /-- So does an echoed nonce. -/
  echoedNonce : ∀ nonce ∈ value.echoedNonce, nonce.length = 16
  /-- The epoch fits a word. -/
  epoch : value.epoch ≤ uint32Max
  /-- There is an identity. -/
  named : value.identity ≠ []
  /-- There is a peer. -/
  peered : value.expectedPeer ≠ []
  /-- They differ. -/
  distinct : value.identity ≠ value.expectedPeer
  /-- The nonce is not zero. -/
  nonZero : nonZero value.nonce = true
  /-- The range is valid. -/
  ranges : validRange value.ranges = true

/-- A handshake that is read stands in the payload piece by piece, one reader after the other. -/
theorem readHandshake_ok {input : Bytes} {value : Handshake} (h : readHandshake input = some value) :
    ∃ identity expectedPeer profiles, Parsed input value identity expectedPeer profiles := by
  unfold readHandshake at h
  obtain ⟨⟨version, input₁⟩, hversion, h⟩ := Option.bind_eq_some_iff.mp h
  dsimp only at h
  split at h
  · cases h
  next hone =>
  obtain ⟨⟨roleValue, input₂⟩, hroleValue, h⟩ := Option.bind_eq_some_iff.mp h
  obtain ⟨role, hrole, h⟩ := Option.bind_eq_some_iff.mp h
  obtain ⟨⟨identity, input₃⟩, hidentity, h⟩ := Option.bind_eq_some_iff.mp h
  obtain ⟨⟨expectedPeer, input₄⟩, hpeer, h⟩ := Option.bind_eq_some_iff.mp h
  obtain ⟨⟨nonce, input₅⟩, hnonce, h⟩ := Option.bind_eq_some_iff.mp h
  obtain ⟨⟨profileCount, input₆⟩, hcount, h⟩ := Option.bind_eq_some_iff.mp h
  dsimp only at h
  split at h
  · cases h
  next hprofileCount =>
  obtain ⟨⟨profiles, input₇⟩, hprofiles, h⟩ := Option.bind_eq_some_iff.mp h
  dsimp only at h
  split at h
  · cases h
  next hlong =>
  obtain ⟨⟨echoedNonce, input₈⟩, hecho, h⟩ := Option.bind_eq_some_iff.mp h
  obtain ⟨sessionId, hsession, h⟩ := Option.bind_eq_some_iff.mp h
  dsimp only at h
  split at h
  · cases h
  next hbinding =>
  cases h
  dsimp only at hrole hidentity hpeer hnonce hcount
  have hbyte : ∀ (bytes rest : Bytes) (number : ℕ), readByte bytes = some (number, rest) →
      bytes = lowByte number :: rest := by
    intro bytes rest number hread
    cases bytes with
    | nil => cases hread
    | cons byte bytes =>
      cases hread
      rw [lowByte, UInt8.ofNat_toNat]
  obtain ⟨rawIdentity, hinput₂, hidLow, hidHigh, hidText⟩ := readText_ok hidentity
  obtain ⟨rawPeer, hinput₃, hpeerLow, hpeerHigh, hpeerText⟩ := readText_ok hpeer
  obtain ⟨hinput₄, hnonceLength⟩ := readBytes_ok hnonce
  obtain ⟨rawProfiles, hinput₆, hrawCount, hrawLengths, hrawTexts⟩ := readProfiles_ok hprofiles
  obtain ⟨hinput₇, hechoLength⟩ := readEcho_ok hecho
  have hinput₈ : input₈ = AcousticHandshake.optional (sessionId.map (writeWord 8)) :=
    readSessionId_ok hsession
  have hwords := rangeWords_wordAt (show 8 ≤ input₇.length by omega)
  have hbinding' : expectedPeer ≠ [] ∧ identity ≠ [] ∧ identity ≠ expectedPeer ∧
      AcousticHandshake.nonZero nonce = true ∧
      validRange ⟨wordAt input₇ 0 2, wordAt input₇ 2 2⟩ = true := by
    simp only [not_or, Bool.not_eq_true', Bool.not_eq_false] at hbinding
    obtain ⟨hid, hpeerNe, hne, hzero, hrange⟩ := hbinding
    exact ⟨hpeerNe, hid, hne, hzero, hrange⟩
  obtain ⟨hpeerNe, hidNe, hne, hzero, hrange⟩ := hbinding'
  have hepoch : wordAt input₇ 4 4 < 256 ^ 4 := by
    have hlength : (sliceAt input₇ 4 4).length ≤ 4 := List.length_take_le 4 _
    exact (readWord_lt _).trans_le (Nat.pow_le_pow_right (by decide) hlength)
  have hmax : wordAt input₇ 4 4 ≤ uint32Max := Nat.le_of_lt_succ hepoch
  refine ⟨rawIdentity, rawPeer, rawProfiles, ?_, hidText, hpeerText, hrawTexts,
    ⟨hidHigh, hpeerHigh⟩, by omega, hrawLengths, hnonceLength, hechoLength, hmax, hidNe,
    hpeerNe, hne, hzero, hrange⟩
  have hversionByte : version = 1 := by
    by_contra hother
    exact hone hother
  rw [hbyte input input₁ version hversion, hbyte input₁ input₂ roleValue hroleValue, hinput₂,
    hinput₃, hinput₄, hbyte input₅ input₆ profileCount hcount, hinput₆, layout, hrawCount,
    roleByte_of_parseRole hrole, hversionByte]
  rw [← hinput₈, ← hinput₇, hwords]
  rfl

/-- The texts of a payload are found again. -/
theorem rawTexts_layout {value : Handshake} {identity expectedPeer : Bytes} {profiles : List Bytes}
    (hnonce : value.nonce.length = 16) (hidentity : identity.length < 256)
    (hpeer : expectedPeer.length < 256) (hcount : profiles.length < 256)
    (hprofiles : ∀ profile ∈ profiles, profile.length < 256) :
    rawTexts (layout value identity expectedPeer profiles) =
      some (identity :: expectedPeer :: profiles) := by
  have hbyte : (lowByte profiles.length).toNat = profiles.length := by
    rw [lowByte_toNat]
    omega
  unfold rawTexts layout
  rw [List.drop_succ_cons, List.drop_succ_cons, List.drop_zero, readRawText_prefixed hidentity]
  simp only [Option.bind_eq_bind, Option.bind_some]
  rw [readRawText_prefixed hpeer]
  simp only [Option.bind_some]
  rw [List.drop_left' hnonce]
  simp only [readByte, Option.bind_some, hbyte]
  rw [readRawTexts_flatMap hprofiles]
  rfl

/-- A text that is decoded to itself does not begin with a byte-order mark. -/
theorem unmarked_of_decodeText {bytes : Bytes} (h : decodeText bytes = some bytes) :
    bytes.take 3 ≠ byteOrderMark := by
  intro hmark
  have hbytes : bytes.take 3 = [0xef, 0xbb, 0xbf] := hmark
  have hlength : 3 ≤ bytes.length := by
    have hthree := congrArg List.length hbytes
    rw [List.length_take] at hthree
    simp only [List.length_cons, List.length_nil] at hthree
    omega
  unfold decodeText at h
  rw [if_pos hbytes] at h
  split at h
  · have hshort := congrArg List.length (Option.some.inj h)
    rw [List.length_drop] at hshort
    omega
  · cases h

/-- Texts without a byte order mark are decoded to themselves. -/
theorem eq_of_map_decodeText {raws texts : List Bytes} (h : raws.map decodeText = texts.map some)
    (hmarks : ∀ raw ∈ raws, raw.take 3 ≠ byteOrderMark) : texts = raws := by
  induction raws generalizing texts with
  | nil =>
    cases texts with
    | nil => rfl
    | cons text texts => cases h
  | cons raw raws ih =>
    cases texts with
    | nil => cases h
    | cons text texts =>
      rw [List.map_cons, List.map_cons] at h
      obtain ⟨hhead, htail⟩ := List.cons.inj h
      have hfirst : text = raw := eq_of_decodeText hhead (hmarks raw List.mem_cons_self)
      have hothers : texts = raws :=
        ih htail (fun other hmem => hmarks other (List.mem_cons_of_mem raw hmem))
      rw [hfirst, hothers]

section Parsed

variable {input : Bytes} {value : Handshake} {identity expectedPeer : Bytes} {profiles : List Bytes}

/-- The raw texts of a parsed payload are those its fields were decoded from. -/
theorem Parsed.rawTexts_eq (h : Parsed input value identity expectedPeer profiles) :
    rawTexts input = some (identity :: expectedPeer :: profiles) := by
  have hidentity : maxIdentityBytes = 96 := rfl
  have hprofile : maxProfileBytes = 48 := rfl
  have hprofileCount : maxProfiles = 3 := rfl
  have hlengths := h.lengths
  have hcount := h.profileCount
  rw [h.input_eq]
  refine rawTexts_layout h.nonce (by omega) (by omega) (by omega) (fun profile hmem => ?_)
  have hone := h.profileLengths profile hmem
  omega

/-- Without byte-order marks the texts are what the payload holds. -/
theorem Parsed.texts_eq (h : Parsed input value identity expectedPeer profiles)
    (hmarks : WithoutMarks input) :
    value.identity = identity ∧ value.expectedPeer = expectedPeer ∧ value.profiles = profiles := by
  have hall := hmarks _ h.rawTexts_eq
  refine ⟨?_, ?_, ?_⟩
  · exact eq_of_decodeText h.identityText (hall identity (by simp))
  · exact eq_of_decodeText h.peerText (hall expectedPeer (by simp))
  · exact eq_of_map_decodeText h.profileTexts (fun raw hmem => hall raw (by simp [hmem]))

/-- A decoded handshake is encoded as the payload exactly if no text of the
payload begins with a byte-order mark. -/
theorem Parsed.encodeHandshake_iff (h : Parsed input value identity expectedPeer profiles) :
    encodeHandshake value = .ok input ↔ WithoutMarks input := by
  rw [encodeHandshake_ok_iff]
  constructor
  · rintro ⟨hencodable, hbytes⟩
    have hidentity : maxIdentityBytes = 96 := rfl
    have hprofile : maxProfileBytes = 48 := rfl
    have hprofileCount : maxProfiles = 3 := rfl
    have hlengths := hencodable.lengths
    have hcount := hencodable.profileCount
    have htexts : rawTexts input =
        some (value.identity :: value.expectedPeer :: value.profiles) := by
      rw [← hbytes, handshakeBytes_eq]
      refine rawTexts_layout h.nonce (by omega) (by omega) (by omega) (fun profile hmem => ?_)
      have hone := hencodable.profiles profile hmem
      omega
    rw [h.rawTexts_eq] at htexts
    obtain ⟨rfl, hrest⟩ := List.cons.inj (Option.some.inj htexts)
    obtain ⟨rfl, rfl⟩ := List.cons.inj hrest
    intro raws hraws raw hmem
    rw [h.rawTexts_eq] at hraws
    cases hraws
    refine unmarked_of_decodeText ?_
    rcases List.mem_cons.mp hmem with hfirst | hmem
    · rw [hfirst]
      exact h.identityText
    · rcases List.mem_cons.mp hmem with hsecond | hmem
      · rw [hsecond]
        exact h.peerText
      · exact (List.map_inj_left.mp h.profileTexts) raw hmem
  · intro hmarks
    obtain ⟨hidentity, hpeer, hprofiles⟩ := h.texts_eq hmarks
    refine ⟨⟨h.named, h.peered, h.distinct, h.nonce, h.nonZero, h.ranges, ?_, h.epoch, ?_, ?_,
      h.echoedNonce⟩, ?_⟩
    · rw [hprofiles]
      exact h.profileCount
    · rw [hidentity, hpeer]
      exact h.lengths
    · rw [hprofiles]
      exact h.profileLengths
    · rw [handshakeBytes_eq, hidentity, hpeer, hprofiles]
      exact h.input_eq.symm

end Parsed

/-- Decoding succeeds exactly where reading does. -/
theorem decodeHandshake_ok_iff {input : Bytes} {value : Handshake} :
    decodeHandshake input = .ok value ↔ readHandshake input = some value := by
  unfold decodeHandshake invalid
  cases readHandshake input with
  | none => simp
  | some handshake => simp

/-- Encoding a handshake with plain texts and decoding the payload gives the
handshake back, and encoding a decoded handshake gives the payload back,
unless the decoder dropped a byte-order mark from one of its texts. -/
theorem handshake_round_trip :
    (∀ (value : Handshake) (bytes : Bytes), encodeHandshake value = .ok bytes →
      PlainTexts value → (∀ id ∈ value.sessionId, 1 ≤ id ∧ id ≤ 2 ^ 64 - 1) →
      decodeHandshake bytes = .ok value) ∧
    ∀ (input : Bytes) (value : Handshake), decodeHandshake input = .ok value →
      (encodeHandshake value = .ok input ↔ WithoutMarks input) := by
  constructor
  · intro value bytes hencode hplain hsession
    obtain ⟨hencodable, hbytes⟩ := encodeHandshake_ok_iff.mp hencode
    rw [decodeHandshake_ok_iff, ← hbytes]
    refine readHandshake_handshakeBytes hencodable hplain (fun id hid => ?_)
    have hone := hsession id hid
    omega
  · intro input value hdecode
    obtain ⟨identity, expectedPeer, profiles, hparsed⟩ :=
      readHandshake_ok (decodeHandshake_ok_iff.mp hdecode)
    exact hparsed.encodeHandshake_iff

/-- A hello with one-letter names. -/
def hello : Handshake where
  role := .a
  identity := [0x61]
  expectedPeer := [0x62]
  nonce := List.replicate 16 7
  echoedNonce := none
  profiles := [[0x70]]
  ranges := ⟨64, 217⟩
  epoch := 1
  sessionId := some 5

/-- The hello goes there and back. -/
theorem handshake_round_trip_hello :
    decodeHandshake (handshakeBytes hello) = .ok hello ∧
      encodeHandshake hello = .ok (handshakeBytes hello) := by
  have hencode : encodeHandshake hello = .ok (handshakeBytes hello) := by decide
  have hdecode : decodeHandshake (handshakeBytes hello) = .ok hello :=
    handshake_round_trip.1 hello _ hencode (by decide) (by decide)
  have htexts : rawTexts (handshakeBytes hello) = some [[0x61], [0x62], [0x70]] := by decide
  refine ⟨hdecode, (handshake_round_trip.2 _ hello hdecode).mpr (fun raws hraws => ?_)⟩
  rw [htexts] at hraws
  cases hraws
  decide

end Fipwave.HandshakeRoundTrip
