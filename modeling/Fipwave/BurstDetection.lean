import Fipwave.EnvelopeBijection
import Fipwave.ReflectedDivision

/-!
# Bursts of errors in a unit

The table-driven checksum of a unit is a reflected polynomial division of the
protected bytes, taken bit by bit with the lowest bit of each byte first. A
burst of at most 32 bits changes its remainder, so a unit with such a burst is
refused.
-/

namespace Fipwave.BurstDetection

open ByteWords ScriptIntegers AcousticProtocol EnvelopeBijection ReflectedDivision

/-- The polynomial of CRC-32C, reflected. -/
def castagnoli : BitVec 32 := 0x82f63b78#32

/-- The bits of a byte, the lowest one first. -/
def byteBits (byte : UInt8) : List Bool :=
  (List.range 8).map (fun index => byte.toNat.testBit index)

/-- The bits of bytes in the order of the checksum. -/
def bitsOf (bytes : Bytes) : List Bool := bytes.flatMap byteBits

/-- The source's exclusive or is that of the words. -/
theorem toBits_bitXor (left right : ℤ) :
    toBits (bitXor left right) = toBits left ^^^ toBits right := BitVec.ofInt_toInt

/-- The source's unsigned shift is that of the words. -/
theorem toBits_shiftRightUnsigned (value : ℤ) (places : ℕ) :
    toBits (shiftRightUnsigned value places) = toBits value >>> places := by
  unfold shiftRightUnsigned toBits
  rw [BitVec.ofInt_natCast, BitVec.ofNat_toNat, BitVec.setWidth_eq]

/-- One bit of the division of the table. -/
theorem toBits_crcBit (value : ℤ) : toBits (crcBit value) = shift castagnoli (toBits value) := by
  have hlow : bitAnd value 1 = 1 ↔ (toBits value).getLsbD 0 = true := by
    have hand : toBits value &&& toBits 1 =
        BitVec.setWidth 32 (BitVec.ofBool ((toBits value).getLsbD 0)) :=
      BitVec.and_one_eq_setWidth_ofBool_getLsbD
    unfold bitAnd
    rw [hand]
    cases (toBits value).getLsbD 0 <;> decide
  unfold crcBit shift
  by_cases hbit : (toBits value).getLsbD 0 = true
  · rw [if_pos (hlow.mpr hbit), if_pos hbit, toBits_bitXor, toBits_shiftRightUnsigned]
    rfl
  · rw [if_neg (fun h => hbit (hlow.mp h)), if_neg hbit, toBits_shiftRightUnsigned]

/-- The bitwise rounds of the checksum are the shifts of the register. -/
theorem toBits_iterate_crcBit (n : ℕ) (value : ℤ) :
    toBits (crcBit^[n] value) = (shift castagnoli)^[n] (toBits value) :=
  (Function.Semiconj.iterate_right toBits_crcBit n) value

/-- An entry of the table is a byte after eight shifts. -/
theorem toBits_table {index : ℕ} (h : index < 256) :
    toBits (createCrc32cTable.getD index 0) = (shift castagnoli)^[8] (BitVec.ofNat 32 index) := by
  have hentry : createCrc32cTable.getD index 0 = shiftRightUnsigned (crcBit^[8] (index : ℤ)) 0 := by
    have hnumbers : ∀ numbers : List ℕ, (do
        let number ← numbers
        pure (number : ℤ) : List ℤ) = numbers.map (Nat.cast : ℕ → ℤ) := by
      intro numbers
      rw [List.map_eq_flatMap]
      rfl
    unfold createCrc32cTable
    rw [hnumbers, List.getD_eq_getElem?_getD, List.getElem?_map, List.getElem?_map,
      List.getElem?_range h]
    rfl
  have hindex : toBits (index : ℤ) = BitVec.ofNat 32 index := BitVec.ofInt_natCast 32 index
  rw [hentry, toBits_shiftRightUnsigned, toBits_iterate_crcBit, hindex]
  exact BitVec.ushiftRight_zero _

theorem byteBits_length (byte : UInt8) : (byteBits byte).length = 8 := by
  unfold byteBits
  rw [List.length_map, List.length_range]

/-- Packing the bits of a byte gives the byte back. -/
theorem pack_byteBits (byte : UInt8) : pack 32 (byteBits byte) = BitVec.ofNat 32 byte.toNat := by
  refine BitVec.eq_of_getLsbD_eq (fun i hi => ?_)
  rw [getLsbD_pack, BitVec.getLsbD_ofNat]
  unfold byteBits
  rw [List.getElem?_map]
  rcases Nat.lt_or_ge i 8 with hlow | hhigh
  · rw [List.getElem?_range hlow]
    rfl
  · have hnone : (List.range 8)[i]? = none := List.getElem?_eq_none (by simpa using hhigh)
    have hzero : byte.toNat.testBit i = false :=
      Nat.testBit_lt_two_pow (byte.toNat_lt.trans_le (Nat.pow_le_pow_right (by decide) hhigh))
    rw [hnone, hzero]
    rfl

/-- One byte of the checksum: the table entry of the low byte is eight rounds of the register, and
the rest of the register is shifted past them. -/
theorem toBits_step (value : ℤ) (byte : UInt8) :
    toBits (bitXor (createCrc32cTable.getD (bitAnd (bitXor value byte.toNat) 0xff).toNat 0)
        (shiftRightUnsigned value 8)) =
      remainder castagnoli (toBits value) (byteBits byte) := by
  have hbyte : toBits (byte.toNat : ℤ) = BitVec.ofNat 32 byte.toNat :=
    BitVec.ofInt_natCast 32 byte.toNat
  have hxor : toBits (bitXor value byte.toNat) = toBits value ^^^ BitVec.ofNat 32 byte.toNat := by
    rw [toBits_bitXor, hbyte]
  have hlow : ∀ i, ((toBits value ^^^ BitVec.ofNat 32 byte.toNat) &&& 255#32).getLsbD i =
      ((toBits value ^^^ BitVec.ofNat 32 byte.toNat).getLsbD i && decide (i < 8)) := by
    intro i
    have hmask : (255 : ℕ).testBit i = decide (i < 8) := Nat.testBit_two_pow_sub_one 8 i
    rw [BitVec.getLsbD_and, BitVec.getLsbD_ofNat, hmask]
    by_cases hi : i < 8
    · have hwide : i < 32 := by omega
      simp [hi, hwide]
    · simp [hi]
  have hsmall : ((toBits value ^^^ BitVec.ofNat 32 byte.toNat) &&& 255#32).toNat < 256 := by
    rw [BitVec.toNat_and]
    exact Nat.lt_of_le_of_lt Nat.and_le_right (by decide)
  have hindex : (bitAnd (bitXor value byte.toNat) 0xff).toNat =
      ((toBits value ^^^ BitVec.ofNat 32 byte.toNat) &&& 255#32).toNat := by
    have hmask : toBits 0xff = 255#32 := rfl
    unfold bitAnd
    rw [hxor, hmask, BitVec.toInt_eq_toNat_of_lt (by omega), Int.toNat_natCast]
  have hdown : (toBits value ^^^ BitVec.ofNat 32 byte.toNat) >>> 8 = toBits value >>> 8 := by
    have hzero : BitVec.ofNat 32 byte.toNat >>> 8 = 0#32 := by
      refine BitVec.eq_of_toNat_eq ?_
      have hlt := byte.toNat_lt
      rw [BitVec.toNat_ushiftRight, BitVec.toNat_ofNat, Nat.shiftRight_eq_div_pow,
        BitVec.toNat_ofNat]
      omega
    rw [BitVec.ushiftRight_xor_distrib, hzero, BitVec.xor_zero]
  have hlength : (byteBits byte).length ≤ 32 := by
    rw [byteBits_length]
    decide
  rw [toBits_bitXor, toBits_shiftRightUnsigned, hindex, toBits_table hsmall, BitVec.ofNat_toNat,
    BitVec.setWidth_eq, remainder_eq castagnoli (toBits value) hlength, byteBits_length,
    pack_byteBits, iterate_shift_split castagnoli (by decide) hlow, hdown]

/-- The checksum is the remainder of the bits. -/
theorem toBits_checksum (bytes : Bytes) (value : ℤ) :
    toBits (bytes.foldl (fun value byte =>
        bitXor (createCrc32cTable.getD (bitAnd (bitXor value byte.toNat) 0xff).toNat 0)
          (shiftRightUnsigned value 8)) value) =
      remainder castagnoli (toBits value) (bitsOf bytes) := by
  induction bytes generalizing value with
  | nil => rfl
  | cons byte bytes ih =>
    have hbits : bitsOf (byte :: bytes) = byteBits byte ++ bitsOf bytes := List.flatMap_cons
    rw [List.foldl_cons, ih, toBits_step, hbits, remainder_append]

/-- Equal checksums come from equal remainders. -/
theorem remainder_eq_of_crc32c {left right : Bytes} (h : crc32c left = crc32c right) :
    remainder castagnoli (toBits 0xffffffff) (bitsOf left) =
      remainder castagnoli (toBits 0xffffffff) (bitsOf right) := by
  have hbits : toBits (crc32c left) = toBits (crc32c right) := congrArg toBits h
  unfold crc32c at hbits
  dsimp only at hbits
  rw [toBits_shiftRightUnsigned, toBits_shiftRightUnsigned, toBits_bitXor, toBits_bitXor,
    toBits_checksum, toBits_checksum, BitVec.ushiftRight_zero, BitVec.ushiftRight_zero] at hbits
  exact (BitVec.xor_left_inj _).mp hbits

/-- Flip the bits of a pattern. -/
def flip (bytes pattern : Bytes) : Bytes := List.zipWith (· ^^^ ·) bytes pattern

/-- A unit with the bits of a pattern flipped in what its checksum covers. -/
def corrupted (raw pattern : Bytes) : Bytes :=
  flip (raw.take 32) (pattern.take 32) ++ sliceAt raw 32 4 ++
    flip (raw.drop fas1HeaderBytes) (pattern.drop 32)

/-- A bit of a pattern is set. -/
def isSet (pattern : Bytes) (index : ℕ) : Bool := (bitsOf pattern)[index]?.getD false

/-- Some bit is set, and all that are lie within 32 consecutive ones. -/
def Burst (pattern : Bytes) : Prop :=
  (∃ index, isSet pattern index = true) ∧
    ∃ start, ∀ index, isSet pattern index = true → start ≤ index ∧ index < start + 32

/-- The bits of an exclusive or are those of its parts, place by place. -/
theorem byteBits_xor (left right : UInt8) :
    byteBits (left ^^^ right) = List.zipWith xor (byteBits left) (byteBits right) := by
  have hbit : ∀ index, (left ^^^ right).toNat.testBit index =
      (left.toNat.testBit index ^^ right.toNat.testBit index) := by
    intro index
    rw [UInt8.toNat_xor, Nat.testBit_xor]
  unfold byteBits
  rw [List.zipWith_map, List.zipWith_self]
  exact List.map_congr_left (fun index _ => hbit index)

theorem bitsOf_length (bytes : Bytes) : (bitsOf bytes).length = 8 * bytes.length := by
  induction bytes with
  | nil => rfl
  | cons byte bytes ih =>
    have hbits : bitsOf (byte :: bytes) = byteBits byte ++ bitsOf bytes := List.flatMap_cons
    rw [hbits, List.length_append, byteBits_length, ih, List.length_cons]
    omega

/-- Flipping bytes by a pattern flips their bits by the pattern's. -/
theorem bitsOf_flip {bytes pattern : Bytes} (h : bytes.length = pattern.length) :
    bitsOf (flip bytes pattern) = List.zipWith xor (bitsOf bytes) (bitsOf pattern) := by
  induction bytes generalizing pattern with
  | nil =>
    cases pattern with
    | nil => rfl
    | cons byte pattern => cases h
  | cons left bytes ih =>
    cases pattern with
    | nil => cases h
    | cons right pattern =>
      have hcons : ∀ (byte : UInt8) (rest : Bytes),
          bitsOf (byte :: rest) = byteBits byte ++ bitsOf rest := fun _ _ => List.flatMap_cons
      have hlengths : (byteBits left).length = (byteBits right).length := by
        rw [byteBits_length, byteBits_length]
      change bitsOf ((left ^^^ right) :: flip bytes pattern) = _
      rw [hcons, hcons, hcons, ih (Nat.succ.inj h), byteBits_xor, List.zipWith_append hlengths]

/-- A burst changes the checksum. -/
theorem crc32c_flip_ne {bytes pattern : Bytes} (hlength : bytes.length = pattern.length)
    (hburst : Burst pattern) : crc32c (flip bytes pattern) ≠ crc32c bytes := by
  intro hsame
  obtain ⟨⟨index, hindex⟩, start, hwithin⟩ := hburst
  have hset : true ∈ bitsOf pattern := by
    unfold isSet at hindex
    cases hbit : (bitsOf pattern)[index]? with
    | none =>
      rw [hbit] at hindex
      cases hindex
    | some bit =>
      rw [hbit, Option.getD_some] at hindex
      rw [hindex] at hbit
      exact List.mem_of_getElem? hbit
  have hnear : ∀ i, (bitsOf pattern)[i]? = some true → start ≤ i ∧ i < start + 32 := by
    intro i hi
    refine hwithin i ?_
    rw [isSet, hi, Option.getD_some]
  have hbits : (bitsOf bytes).length = (bitsOf pattern).length := by
    rw [bitsOf_length, bitsOf_length, hlength]
  have hremainder := remainder_eq_of_crc32c hsame
  rw [bitsOf_flip hlength] at hremainder
  exact remainder_burst (by decide) (toBits 0xffffffff) hbits hnear hset hremainder

/-- A unit with a burst of at most 32 bits in what its checksum covers is refused. -/
theorem decodeFas1_corrupted {unit : Fas1Unit} {raw pattern : Bytes}
    (hraw : encodeFas1 unit = .ok raw) (hlength : pattern.length = 32 + unit.body.length)
    (hburst : Burst pattern) : ∃ message, decodeFas1 (corrupted raw pattern) = .error message := by
  cases hdecoded : decodeFas1 (corrupted raw pattern) with
  | error message => exact ⟨message, rfl⟩
  | ok other =>
    exfalso
    have hsent := accepted_of_decodeFas1 (decodeFas1_encodeFas1 hraw)
    have hreceived := accepted_of_decodeFas1 hdecoded
    have hframe : raw = frameBytes unit (crc32c (headerFields unit ++ unit.body)).toNat := by
      have hvalid := (validateUnit_ok_iff unit).mpr ((encodeFas1_ok_iff unit).mp ⟨raw, hraw⟩)
      rw [encodeFas1_of_valid hvalid] at hraw
      exact (Except.ok.inj hraw).symm
    have hheader : (raw.take 32).length = 32 := by
      rw [hframe, frameBytes_take, headerFields_length]
    have hbody : raw.drop fas1HeaderBytes = unit.body := by
      rw [hframe, frameBytes_drop]
    have hfront : (pattern.take 32).length = 32 := by
      rw [List.length_take]
      omega
    have hflipped : (flip (raw.take 32) (pattern.take 32)).length = 32 := by
      unfold flip
      rw [List.length_zipWith, hheader, hfront]
      rfl
    have hlong := hsent.long
    have hstored : (sliceAt raw 32 4).length = 4 := by
      unfold sliceAt
      rw [List.length_take, List.length_drop]
      unfold fas1HeaderBytes at hlong
      omega
    have htake : (corrupted raw pattern).take 32 = flip (raw.take 32) (pattern.take 32) := by
      unfold corrupted
      rw [List.append_assoc]
      exact List.take_left' hflipped
    have hdrop : (corrupted raw pattern).drop 32 =
        sliceAt raw 32 4 ++ flip (raw.drop fas1HeaderBytes) (pattern.drop 32) := by
      unfold corrupted
      rw [List.append_assoc]
      exact List.drop_left' hflipped
    have hchecksum : wordAt (corrupted raw pattern) 32 4 = wordAt raw 32 4 := by
      have hslice : sliceAt (corrupted raw pattern) 32 4 = sliceAt raw 32 4 := by
        conv_lhs => unfold sliceAt
        rw [hdrop]
        exact List.take_left' hstored
      unfold wordAt
      rw [hslice]
    have hprotected : crcProtectedBytes (corrupted raw pattern)
        ((corrupted raw pattern).drop fas1HeaderBytes) =
        flip (crcProtectedBytes raw (raw.drop fas1HeaderBytes)) pattern := by
      have hrest : (corrupted raw pattern).drop fas1HeaderBytes =
          flip (raw.drop fas1HeaderBytes) (pattern.drop 32) := by
        have hsplit : fas1HeaderBytes = 32 + 4 := rfl
        rw [hsplit, ← List.drop_drop, hdrop]
        exact List.drop_left' hstored
      have hsame : (raw.take 32).length = (pattern.take 32).length := by
        rw [hheader, hfront]
      unfold crcProtectedBytes
      rw [hrest, htake]
      conv_rhs => rw [← List.take_append_drop 32 pattern]
      exact (List.zipWith_append hsame).symm
    have hlengths : (crcProtectedBytes raw (raw.drop fas1HeaderBytes)).length = pattern.length := by
      unfold crcProtectedBytes
      rw [List.length_append, hheader, hbody, hlength]
    have hsame := hreceived.checksum
    rw [hchecksum, ← hsent.checksum, hprotected] at hsame
    exact crc32c_flip_ne hlengths hburst hsame

/-- The heartbeat of a bench unit. -/
def benchUnit : Fas1Unit :=
  { type := .heartbeat, flags := fas1SenderA, sessionId := 1, sequence := 1, packetId := 0,
    fragmentIndex := 0, fragmentCount := 0, packetLength := 0, body := [] }

/-- All 32 bits of the counter of a unit. -/
def benchBurst : Bytes :=
  List.replicate 16 0 ++ [0xff, 0xff, 0xff, 0xff] ++ List.replicate 12 0

/-- A heartbeat whose counter is inverted is refused. -/
theorem decodeFas1_corrupted_bench :
    ∃ raw, encodeFas1 benchUnit = .ok raw ∧
      ∃ message, decodeFas1 (corrupted raw benchBurst) = .error message := by
  have hwf : benchUnit.WellFormed := (validateUnit_ok_iff benchUnit).mp rfl
  obtain ⟨raw, hraw⟩ := (encodeFas1_ok_iff benchUnit).mpr hwf
  have hburst : Burst benchBurst := by
    have hlength : (bitsOf benchBurst).length = 256 := by decide +kernel
    have hall : ∀ index < 256, isSet benchBurst index = true → 128 ≤ index ∧ index < 128 + 32 := by
      decide +kernel
    refine ⟨⟨128, by decide +kernel⟩, 128, fun index hindex => ?_⟩
    refine hall index ?_ hindex
    by_contra hbeyond
    have hnone : (bitsOf benchBurst)[index]? = none := List.getElem?_eq_none (by omega)
    rw [isSet, hnone] at hindex
    cases hindex
  exact ⟨raw, hraw, decodeFas1_corrupted hraw rfl hburst⟩

end Fipwave.BurstDetection
