import Fipwave.AcousticProtocol

/-!
# Units and the byte strings that carry them

Encoding a valid unit and decoding the result gives the unit back, and a byte
string that is decoded is what encoding the unit gives. So the units that pass
validation and the byte strings that are accepted stand for each other.
-/

namespace Fipwave.EnvelopeBijection

open ByteWords AcousticProtocol

/-- What a byte string that is decoded satisfies. -/
structure Accepted (raw : Bytes) (unit : Fas1Unit) : Prop where
  /-- There is room for the header. -/
  long : fas1HeaderBytes ≤ raw.length
  /-- It begins with the magic. -/
  magic : sliceAt raw 0 4 = fas1Magic
  /-- Its version is supported. -/
  version : wordAt raw 4 1 = fas1Version
  /-- It has the kind of the unit. -/
  type : wordAt raw 5 1 = unit.type.code
  /-- Its body has the length it declares. -/
  bodyLength : raw.length = fas1HeaderBytes + wordAt raw 30 2
  /-- Its checksum is right. -/
  checksum : crc32c (crcProtectedBytes raw (raw.drop fas1HeaderBytes)) = wordAt raw 32 4
  /-- The unit is valid. -/
  valid : validateUnit unit = .ok ()
  /-- The unit is read from it. -/
  read : unit = readUnit unit.type raw

/-- The code of a supported kind. -/
theorem code_of_unitTypeOf {code : ℕ} {type : Fas1UnitType} (h : unitTypeOf code = some type) :
    code = type.code := by
  unfold unitTypeOf at h
  split at h <;> first | (cases h; rfl) | cases h

/-- A byte string that is decoded passed every check. -/
theorem accepted_of_decodeFas1 {raw : Bytes} {unit : Fas1Unit} (h : decodeFas1 raw = .ok unit) :
    Accepted raw unit := by
  unfold decodeFas1 at h
  simp only [check_ok_iff, not_or, not_lt, not_not] at h
  obtain ⟨hlong, hmagic, hversion, h⟩ := h
  split at h
  · cases h
  · next type htype =>
    simp only [check_ok_iff, not_or, not_not] at h
    obtain ⟨-, hbody, hchecksum, h⟩ := h
    cases hvalid : validateUnit (readUnit type raw) with
    | error message =>
      rw [hvalid] at h
      cases h
    | ok value =>
      rw [hvalid] at h
      cases h
      exact ⟨hlong.1, hmagic, hversion, code_of_unitTypeOf htype, hbody.2, hchecksum, hvalid, rfl⟩

/-- The header fields of a unit that was read are the first bytes it was read from. -/
theorem Accepted.headerFields {raw : Bytes} {unit : Fas1Unit} (h : Accepted raw unit) :
    headerFields unit = raw.take 32 := by
  have hlong : 36 ≤ raw.length := h.long
  have hversion : [lowByte fas1Version] = sliceAt raw 4 1 := by
    rw [← h.version]
    exact singleton_wordAt (by omega)
  have htype : [lowByte unit.type.code] = sliceAt raw 5 1 := by
    rw [← h.type]
    exact singleton_wordAt (by omega)
  have hbody : writeWord 2 unit.body.length = sliceAt raw 30 2 := by
    have hlength : unit.body.length = wordAt raw 30 2 := by
      rw [h.read]
      simp only [readUnit, List.length_drop, h.bodyLength]
      omega
    rw [hlength]
    exact writeWord_wordAt (by omega)
  have hflags : writeWord 2 unit.flags = sliceAt raw 6 2 := by
    rw [h.read]
    exact writeWord_wordAt (by omega)
  have hsession : writeWord 8 unit.sessionId = sliceAt raw 8 8 := by
    rw [h.read]
    exact writeWord_wordAt (by omega)
  have hsequence : writeWord 4 unit.sequence = sliceAt raw 16 4 := by
    rw [h.read]
    exact writeWord_wordAt (by omega)
  have hpacket : writeWord 4 unit.packetId = sliceAt raw 20 4 := by
    rw [h.read]
    exact writeWord_wordAt (by omega)
  have hindex : writeWord 2 unit.fragmentIndex = sliceAt raw 24 2 := by
    rw [h.read]
    exact writeWord_wordAt (by omega)
  have hcount : writeWord 2 unit.fragmentCount = sliceAt raw 26 2 := by
    rw [h.read]
    exact writeWord_wordAt (by omega)
  have hpacketLength : writeWord 2 unit.packetLength = sliceAt raw 28 2 := by
    rw [h.read]
    exact writeWord_wordAt (by omega)
  unfold AcousticProtocol.headerFields
  rw [← h.magic, hversion, htype, hflags, hsession, hsequence, hpacket, hindex, hcount,
    hpacketLength, hbody]
  simp only [sliceAt_append_sliceAt raw 0, Nat.reduceAdd]
  rfl

/-- A byte string that is decoded is what encoding the unit gives. -/
theorem encodeFas1_decodeFas1 {raw : Bytes} {unit : Fas1Unit} (h : decodeFas1 raw = .ok unit) :
    encodeFas1 unit = .ok raw := by
  have haccepted := accepted_of_decodeFas1 h
  have hlong : 36 ≤ raw.length := haccepted.long
  have hbody : unit.body = raw.drop 36 := by
    rw [haccepted.read]
    rfl
  have hchecksum : (crc32c (raw.take 32 ++ raw.drop 36)).toNat = wordAt raw 32 4 := by
    have hcrc : crc32c (raw.take 32 ++ raw.drop 36) = wordAt raw 32 4 := haccepted.checksum
    rw [hcrc]
    rfl
  rw [encodeFas1_of_valid haccepted.valid, haccepted.headerFields, hbody, hchecksum,
    writeWord_wordAt (by omega), ← sliceAt_zero, sliceAt_append_sliceAt raw 0 32 4, sliceAt_zero,
    List.take_append_drop]

/-- Every valid unit is encoded and decoded again to itself, and every byte string that is decoded
is the encoding of its unit. -/
theorem fas1_bijection :
    (∀ unit : Fas1Unit, validateUnit unit = .ok () →
      ∃ raw, encodeFas1 unit = .ok raw ∧ decodeFas1 raw = .ok unit) ∧
    ∀ (raw : Bytes) (unit : Fas1Unit), decodeFas1 raw = .ok unit → encodeFas1 unit = .ok raw := by
  refine ⟨fun unit hvalid => ?_, fun raw unit h => encodeFas1_decodeFas1 h⟩
  obtain ⟨raw, hraw⟩ := (encodeFas1_ok_iff unit).mpr ((validateUnit_ok_iff unit).mp hvalid)
  exact ⟨raw, hraw, decodeFas1_encodeFas1 hraw⟩

end Fipwave.EnvelopeBijection
