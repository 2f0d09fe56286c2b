import Fipwave.BurstDetection

/-!
# The checksum bit by bit

CRC-32C is defined by a division that takes one bit of the message at a time:
the lowest bit of each byte first, in a register that starts with all bits
set, by a polynomial that is written with its highest term first. The
implementation takes a byte at a time from a table, in signed 32-bit numbers.
Both give the same number.
-/

namespace Fipwave.BitwiseChecksum

open ByteWords ScriptIntegers AcousticProtocol BurstDetection ReflectedDivision

/-- The lowest bit of a register decides what taking a bit in does. -/
theorem feed_eq {w : ℕ} (poly x : BitVec w) (bit : Bool) (hw : 0 < w) :
    feed poly x bit = if x.getLsbD 0 ^^ bit then (x >>> 1) ^^^ poly else x >>> 1 := by
  have hlow : (x ^^^ bitWord w bit).getLsbD 0 = (x.getLsbD 0 ^^ bit) := by
    rw [BitVec.getLsbD_xor, getLsbD_bitWord]
    simp [hw]
  have hdown : (x ^^^ bitWord w bit) >>> 1 = x >>> 1 := by
    refine BitVec.eq_of_getLsbD_eq (fun i _ => ?_)
    rw [BitVec.getLsbD_ushiftRight, BitVec.getLsbD_ushiftRight, BitVec.getLsbD_xor, getLsbD_bitWord]
    simp
  unfold feed shift
  rw [hlow, hdown]

/-- The polynomial of CRC-32C without its leading term, the highest term first. -/
def polynomial : BitVec 32 := 0x1edc6f41#32

/-- One bit of the reflected division. -/
def reflectedStep (value : BitVec 32) (bit : Bool) : BitVec 32 :=
  if value.getLsbD 0 ^^ bit then (value >>> 1) ^^^ polynomial.reverse else value >>> 1

/-- CRC-32C bit by bit. -/
def bitwiseCrc32c (bytes : Bytes) : BitVec 32 :=
  (bitsOf bytes).foldl reflectedStep (BitVec.allOnes 32) ^^^ BitVec.allOnes 32

theorem reverse_polynomial : polynomial.reverse = castagnoli := by decide +kernel

/-- Reading bits step by step is dividing them by the polynomial. -/
theorem foldl_reflectedStep (bits : List Bool) (value : BitVec 32) :
    bits.foldl reflectedStep value = remainder castagnoli value bits := by
  induction bits generalizing value with
  | nil => rfl
  | cons bit bits ih =>
    have hstep : reflectedStep value bit = feed castagnoli value bit := by
      rw [feed_eq _ _ _ (by decide), ← reverse_polynomial]
      rfl
    rw [List.foldl_cons, ih, hstep]
    rfl

/-- The pattern of an unsigned result is the result. -/
theorem shiftRightUnsigned_zero (value : ℤ) :
    shiftRightUnsigned value 0 = (toBits value).toNat := by
  unfold shiftRightUnsigned
  rw [BitVec.ushiftRight_zero]

/-- The table-driven checksum is CRC-32C bit by bit. -/
theorem crc32c_eq_bitwise (bytes : Bytes) : crc32c bytes = (bitwiseCrc32c bytes).toNat := by
  have hones : toBits 0xffffffff = BitVec.allOnes 32 := by decide
  unfold crc32c bitwiseCrc32c
  dsimp only
  rw [shiftRightUnsigned_zero, toBits_bitXor, toBits_checksum, hones, foldl_reflectedStep]

/-- The check value of the catalogue: the digits from one to nine. -/
example : crc32c [0x31, 0x32, 0x33, 0x34, 0x35, 0x36, 0x37, 0x38, 0x39] = 0xe3069283 := by
  decide +kernel

end Fipwave.BitwiseChecksum
