import Fipwave.CyrinxMetadata
import Fipwave.SecureHash

/-!
# The digest of the native process

The native process has its own SHA-256. It writes the bytes it is fed into a
block of 64 bytes in place, counts the bits of the blocks it has compressed and
pads the block it is in when the message ends. Its digest is that of the
standard, for every message and every division of it into pieces, and it never
writes outside its block.
-/

namespace Fipwave.NativeDigest

open ByteWords StreamedHash CyrinxMetadata

section Model

/-- `sha256_state`. -/
structure Sha256State where
  /-- Chaining value. -/
  state : Words
  /-- Bits compressed. -/
  bits : UInt64
  /-- The block being filled; the bytes from `used` on are those of earlier blocks. -/
  block : Vector UInt8 64
  /-- Bytes of the block that are filled. -/
  used : ℕ

/-- `sha256_init`: the block keeps what was there. -/
def init (s : Sha256State) : Sha256State := { s with state := initialWords, bits := 0, used := 0 }

/-- `s->block[s->used++] = byte`. -/
def putByte (s : Sha256State) (byte : UInt8) : Sha256State :=
  { s with block := s.block.setIfInBounds s.used byte, used := s.used + 1 }

/-- `sha256_transform(s, s->block)`. -/
def transform (s : Sha256State) : Sha256State :=
  { s with state := sha256Transform s.state s.block.toList }

/-- One turn of the loop of `sha256_update`. -/
def updateByte (s : Sha256State) (byte : UInt8) : Sha256State :=
  let s := putByte s byte
  if s.used = 64 then { transform s with bits := s.bits + 512, used := 0 } else s

/-- `sha256_update`. -/
def update (s : Sha256State) (data : Bytes) : Sha256State := data.foldl updateByte s

/-- `while (s->used < limit) s->block[s->used++] = 0`. -/
def putZeros (limit : ℕ) (s : Sha256State) : Sha256State :=
  if s.used < limit then putZeros limit (putByte s 0) else s
termination_by limit - s.used
decreasing_by
  simp only [putByte]
  omega

/-- The bytes of the bit count, the most significant one first. -/
def countBytes (bits : UInt64) : Bytes :=
  [7, 6, 5, 4, 3, 2, 1, 0].map (fun i : UInt64 => (bits >>> (i * 8)).toUInt8)

/-- The bytes of a word, the most significant one first. -/
def outBytes (word : UInt32) : Bytes :=
  [(word >>> 24).toUInt8, (word >>> 16).toUInt8, (word >>> 8).toUInt8, word.toUInt8]

/-- `sha256_final`. -/
def final (s : Sha256State) : Bytes :=
  let bits := s.bits + s.used.toUInt64 * 8
  let s := putByte s 0x80
  let s := if s.used > 56 then { transform (putZeros 64 s) with used := 0 } else s
  let s := putZeros 56 s
  let s := transform ((countBytes bits).foldl putByte s)
  [s.state.a, s.state.b, s.state.c, s.state.d, s.state.e, s.state.f, s.state.g, s.state.h].flatMap
    outBytes

end Model

section Words

/-- A word as the standard has it. -/
theorem rotr_toBitVec (x : UInt32) {n : ℕ} (hpos : 0 < n) (hn : n < 32) :
    (rotr x (UInt32.ofNat n)).toBitVec = x.toBitVec.rotateRight n := by
  have hwidth : (32 : BitVec 32).toNat = 32 := rfl
  have hright : ((UInt32.ofNat n).toBitVec % 32).toNat = n := by
    simp only [UInt32.toBitVec_ofNat', BitVec.toNat_umod, BitVec.toNat_ofNat, hwidth]
    omega
  have hleft : ((32 - UInt32.ofNat n).toBitVec % 32).toNat = 32 - n := by
    simp only [UInt32.toBitVec_sub, UInt32.toBitVec_ofNat', UInt32.toBitVec_ofNat,
      BitVec.toNat_umod, BitVec.toNat_sub, BitVec.toNat_ofNat, hwidth]
    omega
  unfold rotr
  rw [UInt32.toBitVec_or, UInt32.toBitVec_shiftRight, UInt32.toBitVec_shiftLeft,
    BitVec.rotateRight_def, Nat.mod_eq_of_lt hn, BitVec.shiftLeft_eq', BitVec.ushiftRight_eq',
    hright, hleft]

/-- The rotations of `transform` for the first register are the standard's Σ₀. -/
theorem largeSigmaZero_toBitVec (x : UInt32) :
    (rotr x 2 ^^^ rotr x 13 ^^^ rotr x 22).toBitVec = SecureHash.largeSigmaZero x.toBitVec := by
  have h2 : (rotr x 2).toBitVec = x.toBitVec.rotateRight 2 :=
    rotr_toBitVec x (by decide) (by decide)
  have h13 : (rotr x 13).toBitVec = x.toBitVec.rotateRight 13 :=
    rotr_toBitVec x (by decide) (by decide)
  have h22 : (rotr x 22).toBitVec = x.toBitVec.rotateRight 22 :=
    rotr_toBitVec x (by decide) (by decide)
  rw [UInt32.toBitVec_xor, UInt32.toBitVec_xor, h2, h13, h22]
  rfl

/-- The rotations of `transform` for the fifth register are the standard's Σ₁. -/
theorem largeSigmaOne_toBitVec (x : UInt32) :
    (rotr x 6 ^^^ rotr x 11 ^^^ rotr x 25).toBitVec = SecureHash.largeSigmaOne x.toBitVec := by
  have h6 : (rotr x 6).toBitVec = x.toBitVec.rotateRight 6 :=
    rotr_toBitVec x (by decide) (by decide)
  have h11 : (rotr x 11).toBitVec = x.toBitVec.rotateRight 11 :=
    rotr_toBitVec x (by decide) (by decide)
  have h25 : (rotr x 25).toBitVec = x.toBitVec.rotateRight 25 :=
    rotr_toBitVec x (by decide) (by decide)
  rw [UInt32.toBitVec_xor, UInt32.toBitVec_xor, h6, h11, h25]
  rfl

/-- The rotations of the message schedule fifteen words back are the standard's σ₀. -/
theorem smallSigmaZero_toBitVec (x : UInt32) :
    (rotr x 7 ^^^ rotr x 18 ^^^ (x >>> 3)).toBitVec = SecureHash.smallSigmaZero x.toBitVec := by
  have h7 : (rotr x 7).toBitVec = x.toBitVec.rotateRight 7 :=
    rotr_toBitVec x (by decide) (by decide)
  have h18 : (rotr x 18).toBitVec = x.toBitVec.rotateRight 18 :=
    rotr_toBitVec x (by decide) (by decide)
  have hshift : (x >>> 3).toBitVec = x.toBitVec >>> 3 := by
    rw [UInt32.toBitVec_shiftRight, BitVec.ushiftRight_eq']
    rfl
  rw [UInt32.toBitVec_xor, UInt32.toBitVec_xor, h7, h18, hshift]
  rfl

/-- The rotations of the message schedule two words back are the standard's σ₁. -/
theorem smallSigmaOne_toBitVec (x : UInt32) :
    (rotr x 17 ^^^ rotr x 19 ^^^ (x >>> 10)).toBitVec = SecureHash.smallSigmaOne x.toBitVec := by
  have h17 : (rotr x 17).toBitVec = x.toBitVec.rotateRight 17 :=
    rotr_toBitVec x (by decide) (by decide)
  have h19 : (rotr x 19).toBitVec = x.toBitVec.rotateRight 19 :=
    rotr_toBitVec x (by decide) (by decide)
  have hshift : (x >>> 10).toBitVec = x.toBitVec >>> 10 := by
    rw [UInt32.toBitVec_shiftRight, BitVec.ushiftRight_eq']
    rfl
  rw [UInt32.toBitVec_xor, UInt32.toBitVec_xor, h17, h19, hshift]
  rfl

/-- The words of a hash value as the standard has them. -/
def registers (s : Words) : SecureHash.Registers :=
  ⟨s.a.toBitVec, s.b.toBitVec, s.c.toBitVec, s.d.toBitVec, s.e.toBitVec, s.f.toBitVec,
    s.g.toBitVec, s.h.toBitVec⟩

/-- A round of the implementation is one of the standard. -/
theorem registers_round (w : List UInt32) (s : Words) (i : ℕ) :
    registers (CyrinxMetadata.round w s i) =
      SecureHash.round (sha256K.getD i 0).toBitVec (w.getD i 0).toBitVec (registers s) := by
  have hzero := largeSigmaZero_toBitVec s.a
  have hone := largeSigmaOne_toBitVec s.e
  unfold CyrinxMetadata.round registers SecureHash.round SecureHash.choose SecureHash.majority
  simp only [UInt32.toBitVec_add, hzero, hone, UInt32.toBitVec_xor (_ &&& _),
    UInt32.toBitVec_xor (_ ^^^ _) (_ &&& _), UInt32.toBitVec_and, UInt32.toBitVec_not]

end Words

section Constants

/-- The first sixty-four primes. -/
def firstPrimes : List ℕ :=
  [2, 3, 5, 7, 11, 13, 17, 19, 23, 29, 31, 37, 41, 43, 47, 53, 59, 61, 67, 71, 73, 79, 83, 89,
    97, 101, 103, 107, 109, 113, 127, 131, 137, 139, 149, 151, 157, 163, 167, 173, 179, 181, 191,
    193, 197, 199, 211, 223, 227, 229, 233, 239, 241, 251, 257, 263, 269, 271, 277, 281, 283,
    293, 307, 311]

/-- The table of primes is the filtered range, so it holds every prime below its bound. -/
theorem firstPrimes_eq : firstPrimes = (List.range 312).filter (fun n => Nat.Prime n) := by
  decide +kernel

/-- The `i`-th entry of the table is the `i`-th prime. -/
theorem nth_firstPrimes {i : ℕ} (hi : i < 64) : Nat.nth Nat.Prime i = firstPrimes.getD i 0 := by
  have hlength : i < ((List.range 312).filter (fun n => Nat.Prime n)).length := by
    rwa [← firstPrimes_eq]
  rw [firstPrimes_eq]
  exact SecureHash.nth_filter_range 312 hlength

/-- The constant table is that of the standard. -/
theorem sha256K_toBitVec {i : ℕ} (hi : i < 64) :
    (sha256K.getD i 0).toBitVec = SecureHash.constant i := by
  have htable : sha256K.map UInt32.toBitVec = firstPrimes.map (SecureHash.rootFraction 3) := by
    decide +kernel
  have hzero : SecureHash.rootFraction 3 0 = UInt32.toBitVec 0 := by decide +kernel
  have hentry := List.getD_map (l := sha256K) (n := i) (d := 0) (f := UInt32.toBitVec)
  have hroot := List.getD_map (l := firstPrimes) (n := i) (d := 0) (f := SecureHash.rootFraction 3)
  unfold SecureHash.constant
  rw [nth_firstPrimes hi, ← hentry, ← hroot, htable, hzero]

/-- The initial words are those of the standard. -/
theorem registers_initialWords : registers initialWords = SecureHash.initial := by
  unfold SecureHash.initial
  dsimp only
  rw [nth_firstPrimes (by decide), nth_firstPrimes (by decide), nth_firstPrimes (by decide),
    nth_firstPrimes (by decide), nth_firstPrimes (by decide), nth_firstPrimes (by decide),
    nth_firstPrimes (by decide), nth_firstPrimes (by decide)]
  decide +kernel

end Constants

section Block

open SecureHash (byteBits digits)

theorem drop_eq_getD_cons {bytes : Bytes} {i : ℕ} (hi : i < bytes.length) :
    bytes.drop i = bytes.getD i 0 :: bytes.drop (i + 1) := by
  rw [List.drop_eq_getElem_cons hi, List.getD_eq_getElem _ _ hi]

/-- Four bytes of a block are the four read one by one. -/
theorem take_drop_four {bytes : Bytes} {i : ℕ} (hi : i + 4 ≤ bytes.length) :
    (bytes.drop i).take 4 =
      [bytes.getD i 0, bytes.getD (i + 1) 0, bytes.getD (i + 2) 0, bytes.getD (i + 3) 0] := by
  have h0 : bytes.drop i = _ := drop_eq_getD_cons (by omega)
  have h1 : bytes.drop (i + 1) = _ := drop_eq_getD_cons (by omega)
  have h2 : bytes.drop (i + 2) = _ := drop_eq_getD_cons (by omega)
  have h3 : bytes.drop (i + 3) = _ := drop_eq_getD_cons (by omega)
  rw [h0, h1, h2, h3]
  rfl

/-- The value of four bytes is their bytes, shifted and added. -/
theorem value_four (b0 b1 b2 b3 : UInt8) :
    SecureHash.value (byteBits [b0, b1, b2, b3]) =
      b0.toNat * 2 ^ 24 + b1.toNat * 2 ^ 16 + b2.toNat * 2 ^ 8 + b3.toNat := by
  have hbyte : ∀ byte : UInt8, SecureHash.value (digits 8 byte.toNat) = byte.toNat := by
    intro byte
    rw [SecureHash.value_digits]
    exact Nat.mod_eq_of_lt byte.toNat_lt
  simp only [SecureHash.byteBits_cons, SecureHash.value_append, hbyte, List.length_append,
    SecureHash.digits_length, SecureHash.byteBits_nil]
  have hnil : SecureHash.value [] = 0 := rfl
  rw [hnil, List.length_nil]
  ring

/-- A word of a block is the word of the standard: four bytes shifted into place are their thirty-
two bits in order. -/
theorem blockWord_toBitVec {block : Bytes} (hblock : block.length = 64) {t : ℕ} (ht : t < 16) :
    (blockWord block t).toBitVec = SecureHash.blockWord (byteBits block) t := by
  have hfour := take_drop_four (show t * 4 + 4 ≤ block.length by omega)
  have hbits : ((byteBits block).drop (32 * t)).take 32 =
      byteBits ((block.drop (t * 4)).take 4) := by
    have hskip : 32 * t = 8 * (t * 4) := by omega
    rw [SecureHash.byteBits_take, SecureHash.byteBits_drop, hskip]
  unfold blockWord SecureHash.blockWord
  rw [hbits, hfour, value_four]
  generalize block.getD (t * 4) 0 = b0
  generalize block.getD (t * 4 + 1) 0 = b1
  generalize block.getD (t * 4 + 2) 0 = b2
  generalize block.getD (t * 4 + 3) 0 = b3
  have h0 := b0.toNat_lt
  have h1 := b1.toNat_lt
  have h2 := b2.toNat_lt
  have h3 := b3.toNat_lt
  have hshift : ∀ (byte : UInt8) (k : ℕ), k < 25 → byte.toNat < 2 ^ 8 →
      (byte.toUInt32 <<< UInt32.ofNat k).toNat = 2 ^ k * byte.toNat := by
    intro byte k hk hbyte
    have hsmall : byte.toNat * 2 ^ k < 2 ^ 32 := by
      have hpow : 2 ^ k ≤ 2 ^ 24 := Nat.pow_le_pow_right (by decide) (by omega)
      nlinarith
    have hamount : (UInt32.ofNat k).toNat % 32 = k := by
      rw [UInt32.toNat_ofNat']
      omega
    rw [UInt32.toNat_shiftLeft, hamount, UInt8.toNat_toUInt32, Nat.shiftLeft_eq,
      Nat.mod_eq_of_lt hsmall, Nat.mul_comm]
  have hs0 := hshift b0 24 (by decide) h0
  have hs1 := hshift b1 16 (by decide) h1
  have hs2 := hshift b2 8 (by decide) h2
  have hlow := Nat.two_pow_add_eq_or_of_lt h3 b2.toNat
  have hmiddle := Nat.two_pow_add_eq_or_of_lt (show 2 ^ 8 * b2.toNat + b3.toNat < 2 ^ 16 by omega)
    b1.toNat
  have hhigh := Nat.two_pow_add_eq_or_of_lt
    (show 2 ^ 16 * b1.toNat + (2 ^ 8 * b2.toNat + b3.toNat) < 2 ^ 24 by omega) b0.toNat
  have hor : (b0.toUInt32 <<< 24 ||| b1.toUInt32 <<< 16 ||| b2.toUInt32 <<< 8 |||
      b3.toUInt32).toNat =
        2 ^ 24 * b0.toNat + (2 ^ 16 * b1.toNat + (2 ^ 8 * b2.toNat + b3.toNat)) := by
    rw [UInt32.toNat_or, UInt32.toNat_or, UInt32.toNat_or, UInt8.toNat_toUInt32, Nat.or_assoc,
      Nat.or_assoc, hhigh, hmiddle, hlow]
    exact congrArg₂ _ hs0 (congrArg₂ _ hs1 (congrArg₂ _ hs2 rfl))
  apply BitVec.eq_of_toNat_eq
  rw [UInt32.toNat_toBitVec, hor, BitVec.toNat_ofNat]
  omega

/-- A schedule that is right as far as it goes. -/
def ScheduleUpTo (block : Bytes) (w : List UInt32) : Prop :=
  ∀ t < w.length, (w.getD t 0).toBitVec = SecureHash.scheduleWord (byteBits block) t

/-- The first sixteen words of the schedule are those of the block. -/
theorem scheduleUpTo_start {block : Bytes} (hblock : block.length = 64) :
    ScheduleUpTo block ((List.range 16).map (blockWord block)) := by
  intro t ht
  have ht' : t < 16 := by simpa using ht
  have hword : ((List.range 16).map (blockWord block)).getD t 0 = blockWord block t := by
    rw [List.getD_eq_getElem _ _ ht, List.getElem_map, List.getElem_range]
  rw [hword, blockWord_toBitVec hblock ht', SecureHash.scheduleWord, if_pos ht']

/-- The next word of the schedule is the one the standard computes. -/
theorem nextWord_toBitVec {block : Bytes} {w : List UInt32} (h : ScheduleUpTo block w)
    (hlong : 16 ≤ w.length) :
    (nextWord w).toBitVec = SecureHash.scheduleWord (byteBits block) w.length := by
  have h2 := h (w.length - 2) (by omega)
  have h7 := h (w.length - 7) (by omega)
  have h15 := h (w.length - 15) (by omega)
  have h16 := h (w.length - 16) (by omega)
  have hlate : ¬ w.length < 16 := by omega
  unfold nextWord
  dsimp only
  rw [SecureHash.scheduleWord, if_neg hlate, UInt32.toBitVec_add, UInt32.toBitVec_add,
    UInt32.toBitVec_add, smallSigmaZero_toBitVec, smallSigmaOne_toBitVec, h2, h7, h15, h16]
  ac_rfl

/-- Each further word is the standard's, since the sixteen before it are. -/
theorem scheduleUpTo_snoc {block : Bytes} {w : List UInt32} (h : ScheduleUpTo block w)
    (hlong : 16 ≤ w.length) : ScheduleUpTo block (w ++ [nextWord w]) := by
  intro t ht
  rw [List.length_append, List.length_singleton] at ht
  by_cases hearly : t < w.length
  · rw [List.getD_append _ _ _ _ hearly]
    exact h t hearly
  · have hlast : t = w.length := by omega
    rw [List.getD_append_right _ _ _ _ (Nat.le_of_not_lt hearly), hlast, Nat.sub_self]
    exact nextWord_toBitVec h hlong

/-- The schedule of a block after a number of turns. -/
theorem scheduleUpTo_turns {block : Bytes} (hblock : block.length = 64) (turns : ℕ) :
    ScheduleUpTo block ((List.range turns).foldl (fun w _ => w ++ [nextWord w])
        ((List.range 16).map (blockWord block))) ∧
      ((List.range turns).foldl (fun w _ => w ++ [nextWord w])
        ((List.range 16).map (blockWord block))).length = 16 + turns := by
  induction turns with
  | zero => exact ⟨scheduleUpTo_start hblock, by simp⟩
  | succ turns ih =>
    rw [List.range_succ (n := turns), List.foldl_append, List.foldl_cons, List.foldl_nil]
    refine ⟨scheduleUpTo_snoc ih.1 (by omega), ?_⟩
    rw [List.length_append, ih.2, List.length_singleton]
    omega

/-- The message schedule is that of the standard. -/
theorem schedule_toBitVec {block : Bytes} (hblock : block.length = 64) {t : ℕ} (ht : t < 64) :
    ((schedule block).getD t 0).toBitVec = SecureHash.scheduleWord (byteBits block) t := by
  have hturns := scheduleUpTo_turns hblock 48
  exact hturns.1 t (by omega)

/-- The rounds are those of the standard. -/
theorem registers_rounds {block : Bytes} (hblock : block.length = 64) (s : Words) {t : ℕ}
    (ht : t ≤ 64) :
    registers ((List.range t).foldl (CyrinxMetadata.round (schedule block)) s) =
      SecureHash.rounds (byteBits block) (registers s) t := by
  induction t with
  | zero => rfl
  | succ t ih =>
    have hconstant := sha256K_toBitVec (show t < 64 by omega)
    have hword := schedule_toBitVec hblock (show t < 64 by omega)
    have hbefore := ih (by omega)
    rw [List.range_succ, List.foldl_append, List.foldl_cons, List.foldl_nil, registers_round,
      hconstant, hword, hbefore]
    rfl

/-- The compression of a block is that of the standard. -/
theorem registers_transform {block : Bytes} (hblock : block.length = 64) (s : Words) :
    registers (sha256Transform s block) = SecureHash.compress (registers s) (byteBits block) := by
  have hrounds := registers_rounds hblock s (le_refl 64)
  unfold SecureHash.compress
  rw [← hrounds]
  rfl

/-- The hash value after a number of blocks is that of the standard. -/
theorem registers_compressBlocks {padded : Bytes} {count : ℕ} (h : 64 * count ≤ padded.length) :
    registers (compressBlocks sha256Transform count initialWords padded) =
      SecureHash.hashValue (byteBits padded) count := by
  induction count with
  | zero => exact registers_initialWords
  | succ count ih =>
    have hfront : (padded.take (64 * count)).length = 64 * count := by
      rw [List.length_take]
      omega
    have hblock : ((padded.drop (64 * count)).take 64).length = 64 := by
      rw [List.length_take, List.length_drop]
      omega
    have hbits : ((byteBits padded).drop (512 * count)).take 512 =
        byteBits ((padded.drop (64 * count)).take 64) := by
      have hskip : 512 * count = 8 * (64 * count) := by omega
      rw [SecureHash.byteBits_take, SecureHash.byteBits_drop, hskip]
    have hsame : compressBlocks sha256Transform count initialWords padded =
        compressBlocks sha256Transform count initialWords (padded.take (64 * count)) := by
      have happend := compressBlocks_append sha256Transform hfront 0 initialWords
        (padded.drop (64 * count))
      rw [List.take_append_drop] at happend
      exact happend
    have hnext := compressBlocks_append sha256Transform hfront 1 initialWords
      (padded.drop (64 * count))
    rw [List.take_append_drop, ← hsame] at hnext
    rw [hnext]
    have hlast : SecureHash.hashValue (byteBits padded) (count + 1) =
        SecureHash.compress (SecureHash.hashValue (byteBits padded) count)
          (((byteBits padded).drop (512 * count)).take 512) := rfl
    rw [hlast, hbits, ← ih (by omega)]
    exact registers_transform hblock _

end Block

section Message

open SecureHash (byteBits digits)

/-- The bits of a number in bytes. -/
theorem byteBits_bigEndian (width number : ℕ) :
    byteBits (bigEndian width number) = digits (8 * width) number := by
  induction width generalizing number with
  | zero => rfl
  | succ width ih =>
    have hwrite : writeWord (width + 1) number = lowByte number :: writeWord width (number / 256) :=
      rfl
    have hsplit : bigEndian (width + 1) number =
        bigEndian width (number / 256) ++ [lowByte number] := by
      unfold bigEndian
      rw [hwrite, List.reverse_cons]
    have hbyte : digits 8 (lowByte number).toNat = digits 8 number := by
      rw [lowByte_toNat]
      unfold SecureHash.digits
      refine List.map_congr_left (fun i hi => ?_)
      have hi' := List.mem_range.mp hi
      have hpow : (256 : ℕ) = 2 ^ 8 := rfl
      rw [hpow, Nat.testBit_mod_two_pow]
      simp [show 8 - 1 - i < 8 by omega]
    have hpow : number / 2 ^ 8 = number / 256 := rfl
    rw [hsplit, SecureHash.byteBits_append, ih, SecureHash.byteBits_cons, hbyte,
      SecureHash.byteBits_nil, List.append_nil, Nat.mul_succ, SecureHash.digits_add, hpow]

/-- The bytes of the padding are the bits of the standard. -/
theorem byteBits_padding (message : Bytes) :
    byteBits (message ++ padding message.length) = SecureHash.pad (byteBits message) := by
  have hmark : digits 8 (0x80 : UInt8).toNat = true :: List.replicate 7 false := by decide
  have hzeros : SecureHash.zeroBits (8 * message.length) =
      7 + 8 * ((119 - message.length % 64) % 64) := by
    rw [SecureHash.zeroBits_eq]
    omega
  unfold padding SecureHash.pad
  rw [SecureHash.byteBits_append, SecureHash.byteBits_append, SecureHash.byteBits_cons, hmark,
    SecureHash.byteBits_zeros, byteBits_bigEndian, SecureHash.byteBits_length, hzeros,
    List.replicate_add]
  simp

/-- The bits of the digest are those of its words, in their order. -/
theorem byteBits_wordBytes (s : Words) :
    byteBits (wordBytes s) = SecureHash.digest (registers s) := by
  unfold wordBytes SecureHash.digest registers
  simp only [List.flatMap_cons, List.flatMap_nil, SecureHash.byteBits_append, byteBits_bigEndian,
    SecureHash.byteBits_nil]
  rfl

/-- The hash of whole messages is that of the standard. -/
theorem byteBits_sha256 (message : Bytes) :
    byteBits (sha256 message) = SecureHash.sha256 (byteBits message) := by
  have hlength : (message ++ padding message.length).length =
      message.length + 9 + (119 - message.length % 64) % 64 := by
    simp [padding]
    omega
  have hwhole : 64 * ((message ++ padding message.length).length / 64) ≤
      (message ++ padding message.length).length := Nat.mul_div_le _ 64
  have hblocks := registers_compressBlocks hwhole
  have hcount : (SecureHash.pad (byteBits message)).length / 512 =
      (message ++ padding message.length).length / 64 := by
    rw [← byteBits_padding, SecureHash.byteBits_length]
    omega
  unfold sha256 SecureHash.sha256 StreamedHash.hash
  rw [byteBits_wordBytes, hblocks, byteBits_padding, hcount]

end Message

section Stream

/-- A state of the native process and what it was fed, as a hash that keeps the unfinished block
alone. -/
structure Represents (s : Sha256State) (t : Stream Words) : Prop where
  /-- The chaining value. -/
  state : s.state = t.chain
  /-- The bits compressed. -/
  bits : s.bits = UInt64.ofNat t.bits
  /-- The bytes of the block. -/
  used : s.used = t.block.length
  /-- The block is not full. -/
  room : s.used < 64
  /-- The bytes in front of `used`. -/
  block : s.block.toList.take s.used = t.block

/-- The bytes of a block in front of a position, after a byte was put there. -/
theorem take_putByte {s : Sha256State} (hroom : s.used < 64) (byte : UInt8) :
    (putByte s byte).block.toList.take (s.used + 1) = s.block.toList.take s.used ++ [byte] := by
  have hlength : s.used < s.block.toList.length := by simpa using hroom
  have hset : (putByte s byte).block.toList = s.block.toList.set s.used byte := by
    unfold putByte
    simp
  rw [hset, List.take_add_one, List.take_set_of_le (le_refl _), List.getElem?_set_self hlength]
  rfl

/-- The initialised state represents a hash that has read nothing. -/
theorem represents_init (s : Sha256State) : Represents (init s) (start initialWords) where
  state := rfl
  bits := rfl
  used := rfl
  room := Nat.zero_lt_succ 63
  block := rfl

/-- One turn of the loop feeds one byte. -/
theorem represents_updateByte {s : Sha256State} {t : Stream Words} (h : Represents s t)
    (byte : UInt8) : Represents (updateByte s byte) (feed sha256Transform t byte) := by
  have hfront := take_putByte h.room byte
  rw [h.block] at hfront
  have hused : (putByte s byte).used = s.used + 1 := rfl
  have hlength : (t.block ++ [byte]).length = s.used + 1 := by
    rw [List.length_append, ← h.used]
    rfl
  have hroom := h.room
  unfold updateByte feed
  dsimp only
  by_cases hfull : s.used + 1 = 64
  · rw [if_pos (by rw [hused, hfull]), if_pos (by rw [hlength, hfull])]
    have hwhole : (putByte s byte).block.toList = t.block ++ [byte] := by
      rw [← hfront, hfull, List.take_of_length_le]
      simp
    have hchain : (putByte s byte).state = t.chain := h.state
    have hbits : (putByte s byte).bits = UInt64.ofNat t.bits := h.bits
    refine ⟨?_, ?_, rfl, Nat.zero_lt_succ 63, rfl⟩
    · unfold transform
      dsimp only
      rw [hchain, hwhole]
    · dsimp only
      rw [hbits, UInt64.ofNat_add]
      rfl
  · rw [if_neg (by rw [hused]; exact hfull), if_neg (by rw [hlength]; exact hfull)]
    exact ⟨h.state, h.bits, by rw [hused, hlength], by rw [hused]; omega, hfront⟩

/-- A piece feeds its bytes. -/
theorem represents_update {s : Sha256State} {t : Stream Words} (h : Represents s t)
    (data : Bytes) : Represents (update s data) (data.foldl (feed sha256Transform) t) := by
  induction data generalizing s t with
  | nil => exact h
  | cons byte data ih => exact ih (represents_updateByte h byte)

/-- Zeros up to a limit fill the block behind what it holds. -/
theorem take_putZeros {limit : ℕ} (hlimit : limit ≤ 64) (s : Sha256State) :
    s.used ≤ limit →
      (putZeros limit s).block.toList.take limit = fill limit (s.block.toList.take s.used) ∧
        (putZeros limit s).used = limit ∧ (putZeros limit s).state = s.state := by
  induction s using putZeros.induct limit with
  | case1 s hless ih =>
    intro _
    have hfront := take_putByte (show s.used < 64 by omega) 0
    have hlength : (s.block.toList.take s.used).length = s.used := by
      rw [List.length_take, Vector.length_toList]
      omega
    have hfill : fill limit (s.block.toList.take s.used ++ [0]) =
        fill limit (s.block.toList.take s.used) := by
      have hcount : limit - s.used = limit - (s.used + 1) + 1 := by omega
      unfold fill
      rw [List.length_append, hlength, List.length_singleton, hcount, List.replicate_succ,
        List.append_assoc]
      rfl
    have hrest := ih hless
    have hused : (putByte s 0).used = s.used + 1 := rfl
    rw [hused, hfront, hfill] at hrest
    rw [putZeros, if_pos hless]
    exact hrest
  | case2 s hfull =>
    intro hused
    have hlast : s.used = limit := by omega
    have hlength : (s.block.toList.take s.used).length = limit := by
      rw [List.length_take, Vector.length_toList]
      omega
    rw [putZeros, if_neg hfull]
    refine ⟨?_, hlast, rfl⟩
    unfold fill
    rw [hlength, Nat.sub_self, hlast]
    simp

/-- Bytes that fit are written behind what the block holds. -/
theorem take_putBytes (bytes : Bytes) {s : Sha256State} (hroom : s.used + bytes.length ≤ 64) :
    (bytes.foldl putByte s).block.toList.take (s.used + bytes.length) =
        s.block.toList.take s.used ++ bytes ∧ (bytes.foldl putByte s).state = s.state := by
  induction bytes generalizing s with
  | nil => simp
  | cons byte bytes ih =>
    rw [List.length_cons] at hroom
    have hfront := take_putByte (show s.used < 64 by omega) byte
    have hused : (putByte s byte).used = s.used + 1 := rfl
    have hrest := ih (s := putByte s byte) (by rw [hused]; omega)
    rw [hused, hfront, List.append_assoc, List.singleton_append] at hrest
    have hlength : s.used + (byte :: bytes).length = s.used + 1 + bytes.length := by
      rw [List.length_cons]
      omega
    rw [List.foldl_cons, hlength]
    exact hrest

/-- The bytes of a number by their positions. -/
theorem bigEndian_eq_map (width number : ℕ) :
    bigEndian width number =
      (List.range width).reverse.map (fun i => lowByte (number / 2 ^ (8 * i))) := by
  unfold bigEndian
  rw [List.map_reverse]
  congr 1
  induction width generalizing number with
  | zero => rfl
  | succ width ih =>
    have hwrite : writeWord (width + 1) number = lowByte number :: writeWord width (number / 256) :=
      rfl
    rw [hwrite, ih, List.range_succ_eq_map, List.map_cons, List.map_map]
    congr 1
    · simp
    · refine List.map_congr_left (fun i _ => ?_)
      have hpow : 2 ^ (8 * (i + 1)) = 256 * 2 ^ (8 * i) := by
        rw [Nat.mul_succ, pow_add]
        ring
      simp only [Function.comp_apply, Nat.succ_eq_add_one]
      rw [hpow, Nat.div_div_eq_div_mul]

/-- The bytes written for a word are its four, the highest first. -/
theorem outBytes_eq (word : UInt32) : outBytes word = bigEndian 4 word.toNat := by
  have hbytes : outBytes word =
      (List.range 4).reverse.map (fun i => (word >>> UInt32.ofNat (8 * i)).toUInt8) := by
    have hlast : word.toUInt8 = (word >>> UInt32.ofNat (8 * 0)).toUInt8 := by simp
    unfold outBytes
    rw [hlast]
    rfl
  rw [hbytes, bigEndian_eq_map]
  refine List.map_congr_left (fun i hi => ?_)
  have hi' : i < 4 := List.mem_range.mp (List.mem_reverse.mp hi)
  have hamount : (UInt32.ofNat (8 * i)).toNat % 32 = 8 * i := by
    rw [UInt32.toNat_ofNat']
    omega
  apply UInt8.toNat_inj.mp
  rw [lowByte_toNat, UInt32.toNat_toUInt8, UInt32.toNat_shiftRight, hamount,
    Nat.shiftRight_eq_div_pow]

/-- The bytes written for a bit count. -/
theorem countBytes_eq (number : ℕ) : countBytes (UInt64.ofNat number) = bigEndian 8 number := by
  have hbytes : countBytes (UInt64.ofNat number) = (List.range 8).reverse.map
      (fun i => (UInt64.ofNat number >>> (UInt64.ofNat i * 8)).toUInt8) := rfl
  rw [hbytes, bigEndian_eq_map]
  refine List.map_congr_left (fun i hi => ?_)
  have hi' : i < 8 := List.mem_range.mp (List.mem_reverse.mp hi)
  have height : (8 : UInt64).toNat = 8 := rfl
  have hamount : (UInt64.ofNat i * 8).toNat % 64 = 8 * i := by
    rw [UInt64.toNat_mul, UInt64.toNat_ofNat', height]
    omega
  have hsplit : (2 : ℕ) ^ 64 = 2 ^ (8 * i) * 2 ^ (64 - 8 * i) := by
    rw [← pow_add]
    congr 1
    omega
  have hbyte : (256 : ℕ) ∣ 2 ^ (64 - 8 * i) := by
    have hpow : (256 : ℕ) = 2 ^ 8 := rfl
    rw [hpow]
    exact Nat.pow_dvd_pow 2 (by omega)
  apply UInt8.toNat_inj.mp
  rw [lowByte_toNat, UInt64.toNat_toUInt8, UInt64.toNat_shiftRight, hamount,
    Nat.shiftRight_eq_div_pow, UInt64.toNat_ofNat', hsplit, Nat.mod_mul_right_div_self]
  exact Nat.mod_mod_of_dvd _ hbyte

/-- The digest of what was fed. The padding byte fits the block; the zeros then run to the length
field of this block or of the next. -/
theorem final_eq {s : Sha256State} {t : Stream Words} (h : Represents s t) :
    final s = wordBytes (finish sha256Transform t) := by
  have hroom := h.room
  have hfront := take_putByte hroom 0x80
  rw [h.block] at hfront
  have hused : (putByte s 0x80).used = s.used + 1 := rfl
  have hlength : (t.block ++ [0x80]).length = s.used + 1 := by
    rw [List.length_append, ← h.used]
    rfl
  have hbits : s.bits + s.used.toUInt64 * 8 = UInt64.ofNat (t.bits + t.block.length * 8) := by
    rw [h.bits, UInt64.ofNat_add, UInt64.ofNat_mul, ← h.used]
    rfl
  have hlast : ∀ u : Sha256State, u.used ≤ 56 →
      (transform ((countBytes (UInt64.ofNat (t.bits + t.block.length * 8))).foldl putByte
        (putZeros 56 u))).state =
        sha256Transform u.state (fill 56 (u.block.toList.take u.used) ++
          bigEndian 8 (t.bits + t.block.length * 8)) := by
    intro u hu
    obtain ⟨hzeros, hat, hsame⟩ := take_putZeros (show 56 ≤ 64 by decide) u hu
    have hbytes := take_putBytes (bigEndian 8 (t.bits + t.block.length * 8))
      (s := putZeros 56 u) (by rw [hat, bigEndian_length])
    rw [hat, bigEndian_length, hzeros, hsame, List.take_of_length_le (by simp)] at hbytes
    unfold transform
    dsimp only
    rw [countBytes_eq, hbytes.1, hbytes.2]
  have hstate : (putByte s 0x80).state = t.chain := h.state
  have hwords : ∀ words : Words, [words.a, words.b, words.c, words.d, words.e, words.f, words.g,
      words.h].flatMap outBytes = wordBytes words := by
    intro words
    unfold wordBytes
    exact congrArg (List.flatMap · _) (funext outBytes_eq)
  unfold final finish
  dsimp only
  rw [hbits, hwords]
  congr 1
  by_cases hlong : s.used + 1 > 56
  · have hlong' : (t.block ++ [0x80]).length > 56 := by omega
    obtain ⟨hzeros, hat, hsame⟩ := take_putZeros (le_refl 64) (putByte s 0x80) (by omega)
    rw [hused, hfront, List.take_of_length_le (by simp)] at hzeros
    rw [if_pos hlong', if_pos (by rw [hused]; exact hlong), hlast _ (by simp)]
    unfold transform
    dsimp only
    rw [hzeros, hsame, hstate, List.take_zero]
  · have hshort : ¬ (t.block ++ [0x80]).length > 56 := by omega
    rw [if_neg hshort, if_neg (by rw [hused]; exact hlong), hlast _ (by omega), hstate, hused,
      hfront]

end Stream

section Digest

open SecureHash (byteBits)

/-- The pieces of a message, fed one after the other to a state with any block. -/
def digest (s : Sha256State) (pieces : List Bytes) : Bytes := final (pieces.foldl update (init s))

/-- Reading pieces one after the other is reading them joined. -/
theorem foldl_update (s : Sha256State) (pieces : List Bytes) :
    pieces.foldl update s = update s pieces.flatten := by
  induction pieces generalizing s with
  | nil => rfl
  | cons piece pieces ih =>
    rw [List.foldl_cons, ih, List.flatten_cons]
    exact (List.foldl_append (f := updateByte) (b := s)).symm

/-- The digest is the hash that the check of the metadata compares. -/
theorem digest_eq (s : Sha256State) (pieces : List Bytes) :
    digest s pieces = sha256 pieces.flatten := by
  have hfed := represents_update (represents_init s) pieces.flatten
  have hfinal := final_eq hfed
  have hwhole := finish_feed sha256Transform initialWords pieces.flatten
  unfold digest
  rw [foldl_update, hfinal, hwhole]
  rfl

/-- The digest of the native process is the digest of the standard, for every message and every
division of it into pieces. -/
theorem native_sha256 (s : Sha256State) (pieces : List Bytes) :
    byteBits (digest s pieces) = SecureHash.sha256 (byteBits pieces.flatten) := by
  rw [digest_eq]
  exact byteBits_sha256 pieces.flatten

/-- The example of the standard: three letters. -/
example : sha256 [0x61, 0x62, 0x63] =
    [0xba, 0x78, 0x16, 0xbf, 0x8f, 0x01, 0xcf, 0xea, 0x41, 0x41, 0x40, 0xde, 0x5d, 0xae, 0x22,
      0x23, 0xb0, 0x03, 0x61, 0xa3, 0x96, 0x17, 0x7a, 0x9c, 0xb4, 0x10, 0xff, 0x61, 0xf2, 0x00,
      0x15, 0xad] := by
  decide +kernel

end Digest

end Fipwave.NativeDigest
