import Mathlib.Tactic

/-!
# Little-endian words inside byte strings

Fixed-width words written at fixed offsets, as a data view writes them.
Writing keeps the value modulo the width; reading what was written gives it
back, and a byte string of the right width is what writing its value gives.
-/

namespace Fipwave.ByteWords

/-- Contents of a byte array. -/
abbrev Bytes := List UInt8

/-- The low byte of a number. -/
def lowByte (value : ℕ) : UInt8 := UInt8.ofNat value

@[simp] theorem lowByte_toNat (value : ℕ) : (lowByte value).toNat = value % 256 := by
  simp [lowByte]

/-- The `width` low bytes of a number, least significant first. -/
def writeWord : ℕ → ℕ → Bytes
  | 0, _ => []
  | width + 1, value => lowByte value :: writeWord width (value / 256)

/-- The number whose bytes these are, least significant first. -/
def readWord : Bytes → ℕ
  | [] => 0
  | byte :: rest => byte.toNat + 256 * readWord rest

@[simp] theorem writeWord_length (width value : ℕ) : (writeWord width value).length = width := by
  induction width generalizing value with
  | zero => rfl
  | succ width ih => simp [writeWord, ih]

theorem readWord_lt (bytes : Bytes) : readWord bytes < 256 ^ bytes.length := by
  induction bytes with
  | nil => simp [readWord]
  | cons byte rest ih =>
    have hb := byte.toNat_lt
    simp only [readWord, List.length_cons, pow_succ]
    omega

/-- A word read back is the number modulo the width it was written with. -/
theorem readWord_writeWord (width value : ℕ) :
    readWord (writeWord width value) = value % 256 ^ width := by
  induction width generalizing value with
  | zero => simp [readWord, writeWord, Nat.mod_one]
  | succ width ih =>
    simp only [writeWord, readWord, ih, lowByte_toNat, pow_succ]
    rw [Nat.mul_comm (256 ^ width) 256, Nat.mod_mul]

theorem readWord_writeWord_of_lt {width value : ℕ} (h : value < 256 ^ width) :
    readWord (writeWord width value) = value := by
  rw [readWord_writeWord, Nat.mod_eq_of_lt h]

/-- Words of one width determine the numbers that fit them. -/
theorem writeWord_injective {width x y : ℕ} (hx : x < 256 ^ width) (hy : y < 256 ^ width)
    (h : writeWord width x = writeWord width y) : x = y := by
  have hread := congrArg readWord h
  rwa [readWord_writeWord_of_lt hx, readWord_writeWord_of_lt hy] at hread

/-- Byte strings of one width are determined by the number they hold. -/
theorem writeWord_readWord (bytes : Bytes) :
    writeWord bytes.length (readWord bytes) = bytes := by
  induction bytes with
  | nil => rfl
  | cons byte rest ih =>
    have hb := byte.toNat_lt
    have hlow : (byte.toNat + 256 * readWord rest) / 256 = readWord rest := by omega
    have hbyte : lowByte (byte.toNat + 256 * readWord rest) = byte := by
      apply UInt8.toNat_inj.mp
      rw [lowByte_toNat]
      omega
    simp only [List.length_cons, writeWord, readWord, hlow, hbyte, ih]

/-- The `width` bytes at an offset. -/
def sliceAt (bytes : Bytes) (offset width : ℕ) : Bytes := (bytes.drop offset).take width

/-- The little-endian word of a width at an offset. -/
def wordAt (bytes : Bytes) (offset width : ℕ) : ℕ := readWord (sliceAt bytes offset width)

/-- A number whose bytes come in two parts. -/
theorem readWord_append (front back : Bytes) :
    readWord (front ++ back) = readWord front + 256 ^ front.length * readWord back := by
  induction front with
  | nil => simp [readWord]
  | cons byte rest ih =>
    simp only [List.cons_append, readWord, ih, List.length_cons, pow_succ]
    ring

/-- A slice that is exactly a leading part. -/
theorem sliceAt_append_self (front back : Bytes) :
    sliceAt (front ++ back) 0 front.length = front := by
  simp [sliceAt]

/-- What a word is read from is what writing it gives. -/
theorem writeWord_wordAt {bytes : Bytes} {offset width : ℕ} (h : offset + width ≤ bytes.length) :
    writeWord width (wordAt bytes offset width) = sliceAt bytes offset width := by
  have hlength : (sliceAt bytes offset width).length = width := by
    simp only [sliceAt, List.length_take, List.length_drop]
    omega
  have hwritten := writeWord_readWord (sliceAt bytes offset width)
  rwa [hlength] at hwritten

/-- Slices that follow each other are one slice. -/
theorem sliceAt_append_sliceAt (bytes : Bytes) (offset width rest : ℕ) :
    sliceAt bytes offset width ++ sliceAt bytes (offset + width) rest =
      sliceAt bytes offset (width + rest) := by
  simp only [sliceAt, List.take_add, List.drop_drop]

/-- A word is its leading part and its trailing part. -/
theorem wordAt_add {bytes : Bytes} {offset width : ℕ} (rest : ℕ)
    (h : offset + width ≤ bytes.length) :
    wordAt bytes offset (width + rest) =
      wordAt bytes offset width + 256 ^ width * wordAt bytes (offset + width) rest := by
  have hlength : (sliceAt bytes offset width).length = width := by
    simp only [sliceAt, List.length_take, List.length_drop]
    omega
  unfold wordAt
  rw [← sliceAt_append_sliceAt, readWord_append, hlength]

/-- A word of two bytes. -/
theorem wordAt_two {bytes : Bytes} {offset : ℕ} (h : offset + 1 ≤ bytes.length) :
    wordAt bytes offset 2 = wordAt bytes offset 1 + 256 * wordAt bytes (offset + 1) 1 := by
  have hadd := wordAt_add 1 h
  rwa [Nat.pow_one] at hadd

theorem wordAt_lt (bytes : Bytes) (offset width : ℕ) : wordAt bytes offset width < 256 ^ width := by
  have hread := readWord_lt (sliceAt bytes offset width)
  have hlength : (sliceAt bytes offset width).length ≤ width := by
    simp only [sliceAt, List.length_take]
    omega
  exact hread.trans_le (Nat.pow_le_pow_right (by omega) hlength)

theorem sliceAt_zero (bytes : Bytes) (width : ℕ) : sliceAt bytes 0 width = bytes.take width := rfl

/-- A slice of one byte. -/
theorem singleton_wordAt {bytes : Bytes} {offset : ℕ} (h : offset < bytes.length) :
    [lowByte (wordAt bytes offset 1)] = sliceAt bytes offset 1 := by
  have hroom : offset + 1 ≤ bytes.length := h
  exact writeWord_wordAt hroom

end Fipwave.ByteWords
