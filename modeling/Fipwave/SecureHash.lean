import Mathlib.Data.Nat.NthRoot.Defs
import Mathlib.Data.Nat.Nth
import Mathlib.Data.Nat.Prime.Basic
import Mathlib.Tactic

/-!
# The Secure Hash Standard

SHA-256 as FIPS 180-4 defines it, on messages of any number of bits: the six
logical functions, the constants from the roots of the first primes, the
padding, the message schedule, the sixty-four rounds and the digest. Strings of
bits have their most significant bit first. The second half of the module reads
the words and blocks of a string of bits that is given in bytes.
-/

namespace Fipwave.SecureHash

section Standard

/-- A word of 32 bits. -/
abbrev Word := BitVec 32

/-- The value of a string of bits. -/
def value (bits : List Bool) : ℕ := bits.foldl (fun total bit => 2 * total + bit.toNat) 0

/-- The low bits of a number. -/
def digits (width number : ℕ) : List Bool :=
  (List.range width).map (fun i => number.testBit (width - 1 - i))

/-- `Ch`. -/
def choose (x y z : Word) : Word := (x &&& y) ^^^ (~~~x &&& z)

/-- `Maj`. -/
def majority (x y z : Word) : Word := (x &&& y) ^^^ (x &&& z) ^^^ (y &&& z)

/-- `Σ₀`. -/
def largeSigmaZero (x : Word) : Word := x.rotateRight 2 ^^^ x.rotateRight 13 ^^^ x.rotateRight 22

/-- `Σ₁`. -/
def largeSigmaOne (x : Word) : Word := x.rotateRight 6 ^^^ x.rotateRight 11 ^^^ x.rotateRight 25

/-- `σ₀`. -/
def smallSigmaZero (x : Word) : Word := x.rotateRight 7 ^^^ x.rotateRight 18 ^^^ (x >>> 3)

/-- `σ₁`. -/
def smallSigmaOne (x : Word) : Word := x.rotateRight 17 ^^^ x.rotateRight 19 ^^^ (x >>> 10)

/-- The first 32 bits of the fractional part of a root of a number: the root of the number times
`2 ^ (32 * degree)` is the root of the number times `2 ^ 32`. -/
def rootFraction (degree number : ℕ) : Word :=
  BitVec.ofNat 32 (Nat.nthRoot degree (number * 2 ^ (32 * degree)))

/-- The constants: the cube roots of the first primes. -/
noncomputable def constant (t : ℕ) : Word := rootFraction 3 (Nat.nth Nat.Prime t)

/-- The eight working variables, or the words of a hash value. -/
structure Registers where
  /-- First word. -/
  a : Word
  /-- Second word. -/
  b : Word
  /-- Third word. -/
  c : Word
  /-- Fourth word. -/
  d : Word
  /-- Fifth word. -/
  e : Word
  /-- Sixth word. -/
  f : Word
  /-- Seventh word. -/
  g : Word
  /-- Eighth word. -/
  h : Word
  deriving DecidableEq

/-- The initial hash value: the square roots of the first primes. -/
noncomputable def initial : Registers :=
  let word := fun i => rootFraction 2 (Nat.nth Nat.Prime i)
  ⟨word 0, word 1, word 2, word 3, word 4, word 5, word 6, word 7⟩

/-- Some number of zeros fills the last block up to its length field. -/
theorem zeros_exist (length : ℕ) : ∃ zeros, (length + 1 + zeros) % 512 = 448 :=
  ⟨(447 + 511 * (length % 512)) % 512, by omega⟩

/-- The least number of zeros after the one that ends a message. -/
def zeroBits (length : ℕ) : ℕ := Nat.find (zeros_exist length)

/-- A padded message. The standard admits messages of less than `2 ^ 64` bits. -/
def pad (message : List Bool) : List Bool :=
  message ++ true :: List.replicate (zeroBits message.length) false ++ digits 64 message.length

/-- A word of a block. -/
def blockWord (block : List Bool) (t : ℕ) : Word :=
  BitVec.ofNat 32 (value ((block.drop (32 * t)).take 32))

/-- The message schedule. -/
def scheduleWord (block : List Bool) (t : ℕ) : Word :=
  if t < 16 then blockWord block t
  else
    smallSigmaOne (scheduleWord block (t - 2)) + scheduleWord block (t - 7) +
      smallSigmaZero (scheduleWord block (t - 15)) + scheduleWord block (t - 16)
termination_by t
decreasing_by all_goals omega

/-- One round. -/
def round (constant word : Word) (s : Registers) : Registers :=
  let t1 := s.h + largeSigmaOne s.e + choose s.e s.f s.g + constant + word
  let t2 := largeSigmaZero s.a + majority s.a s.b s.c
  ⟨t1 + t2, s.a, s.b, s.c, s.d + t1, s.e, s.f, s.g⟩

/-- The working variables after a number of rounds. -/
noncomputable def rounds (block : List Bool) (s : Registers) : ℕ → Registers
  | 0 => s
  | t + 1 => round (constant t) (scheduleWord block t) (rounds block s t)

/-- The sum of the words of two hash values. -/
def add (s t : Registers) : Registers :=
  ⟨s.a + t.a, s.b + t.b, s.c + t.c, s.d + t.d, s.e + t.e, s.f + t.f, s.g + t.g, s.h + t.h⟩

/-- The next hash value. -/
noncomputable def compress (s : Registers) (block : List Bool) : Registers :=
  add s (rounds block s 64)

/-- The hash value after a number of blocks. -/
noncomputable def hashValue (padded : List Bool) : ℕ → Registers
  | 0 => initial
  | i + 1 => compress (hashValue padded i) ((padded.drop (512 * i)).take 512)

/-- The words of a hash value as one string. -/
def digest (s : Registers) : List Bool :=
  [s.a, s.b, s.c, s.d, s.e, s.f, s.g, s.h].flatMap (fun word => digits 32 word.toNat)

/-- SHA-256. -/
noncomputable def sha256 (message : List Bool) : List Bool :=
  digest (hashValue (pad message) ((pad message).length / 512))

end Standard

section Bits

@[simp] theorem digits_length (width number : ℕ) : (digits width number).length = width := by
  simp [digits]

/-- The digits of a wider number are those of its half, and its parity behind them. -/
theorem digits_succ (width number : ℕ) :
    digits (width + 1) number = digits width (number / 2) ++ [number.testBit 0] := by
  unfold digits
  rw [List.range_succ, List.map_append, List.map_singleton]
  have hlast : width + 1 - 1 - width = 0 := by omega
  rw [hlast]
  congr 1
  refine List.map_congr_left (fun i hi => ?_)
  have hi' : i < width := List.mem_range.mp hi
  have hindex : width + 1 - 1 - i = (width - 1 - i) + 1 := by omega
  rw [hindex, Nat.testBit_succ]

/-- Digits of a number and of its quotient by a power of two. -/
theorem digits_add (upper lower number : ℕ) :
    digits (upper + lower) number = digits upper (number / 2 ^ lower) ++ digits lower number := by
  induction lower generalizing number with
  | zero => simp [digits]
  | succ lower ih =>
    have hpow : number / 2 / 2 ^ lower = number / 2 ^ (lower + 1) := by
      rw [Nat.div_div_eq_div_mul, pow_succ']
    rw [← Nat.add_assoc, digits_succ, ih, hpow, digits_succ lower, List.append_assoc]

theorem digits_zero (width : ℕ) : digits width 0 = List.replicate width false := by
  simp [digits, List.map_const']

theorem value_snoc (bits : List Bool) (bit : Bool) :
    value (bits ++ [bit]) = 2 * value bits + bit.toNat := by
  simp [value]

/-- The value of two strings, one after the other. -/
theorem value_append (front back : List Bool) :
    value (front ++ back) = value front * 2 ^ back.length + value back := by
  induction back using List.reverseRecOn with
  | nil => simp [value]
  | append_singleton back bit ih =>
    rw [← List.append_assoc, value_snoc, value_snoc, ih, List.length_append, List.length_singleton,
      pow_succ]
    ring

/-- The digits of a number have its value. -/
theorem value_digits (width number : ℕ) : value (digits width number) = number % 2 ^ width := by
  induction width generalizing number with
  | zero => simp [digits, value, Nat.mod_one]
  | succ width ih =>
    have hbit : (number.testBit 0).toNat = number % 2 := by
      rw [Nat.testBit_zero]
      rcases Nat.mod_two_eq_zero_or_one number with h | h <;> simp [h]
    rw [digits_succ, value_snoc, ih, hbit, pow_succ', Nat.mod_mul]
    omega

/-- The number of zeros, computed. -/
theorem zeroBits_eq (length : ℕ) : zeroBits length = (447 + 511 * (length % 512)) % 512 := by
  refine (Nat.find_eq_iff _).mpr ⟨by omega, fun n hn => ?_⟩
  omega

end Bits

section Primes

/-- The numbers below a bound with a property, in order. -/
theorem nth_filter_range {p : ℕ → Prop} [DecidablePred p] (bound : ℕ) {i : ℕ}
    (hi : i < ((List.range bound).filter p).length) :
    Nat.nth p i = ((List.range bound).filter p).getD i 0 := by
  induction bound with
  | zero => exact absurd hi (Nat.not_lt_zero i)
  | succ bound ih =>
    have hcount : ((List.range bound).filter p).length = Nat.count p bound := by
      rw [Nat.count, List.countP_eq_length_filter]
    rw [List.range_succ, List.filter_append] at hi ⊢
    by_cases hearly : i < ((List.range bound).filter p).length
    · rw [List.getD_append _ _ _ _ hearly]
      exact ih hearly
    · by_cases hp : p bound
      · have hlast : i = Nat.count p bound := by
          simp only [List.length_append, List.filter_singleton, hp, decide_true] at hi
          have hone : (bif true then [bound] else []).length = 1 := rfl
          omega
        rw [List.getD_append_right _ _ _ _ (Nat.le_of_not_lt hearly), hcount, hlast,
          Nat.nth_count hp]
        simp [hp]
      · have hnone : [bound].filter p = [] := by simp [hp]
        rw [hnone, List.append_nil] at hi
        exact absurd hi hearly

end Primes

section Bytes

/-- The bits of bytes. -/
def byteBits (bytes : List UInt8) : List Bool := bytes.flatMap (fun byte => digits 8 byte.toNat)

@[simp] theorem byteBits_nil : byteBits [] = [] := rfl

theorem byteBits_cons (byte : UInt8) (bytes : List UInt8) :
    byteBits (byte :: bytes) = digits 8 byte.toNat ++ byteBits bytes := List.flatMap_cons

/-- The bits of joined bytes are joined. -/
theorem byteBits_append (front back : List UInt8) :
    byteBits (front ++ back) = byteBits front ++ byteBits back := List.flatMap_append

@[simp] theorem byteBits_length (bytes : List UInt8) :
    (byteBits bytes).length = 8 * bytes.length := by
  induction bytes with
  | nil => rfl
  | cons byte bytes ih =>
    rw [byteBits_cons, List.length_append, ih, digits_length, List.length_cons]
    omega

/-- Bytes left out are bits left out. -/
theorem byteBits_drop (count : ℕ) (bytes : List UInt8) :
    byteBits (bytes.drop count) = (byteBits bytes).drop (8 * count) := by
  induction bytes generalizing count with
  | nil => simp
  | cons byte bytes ih =>
    cases count with
    | zero => rfl
    | succ count =>
      have hskip : 8 * (count + 1) = (digits 8 byte.toNat).length + 8 * count := by
        rw [digits_length]
        omega
      rw [List.drop_succ_cons, ih, byteBits_cons, hskip, List.drop_length_add_append]

/-- Bytes taken are bits taken. -/
theorem byteBits_take (count : ℕ) (bytes : List UInt8) :
    byteBits (bytes.take count) = (byteBits bytes).take (8 * count) := by
  induction bytes generalizing count with
  | nil => simp
  | cons byte bytes ih =>
    cases count with
    | zero => rfl
    | succ count =>
      have htake : 8 * (count + 1) = (digits 8 byte.toNat).length + 8 * count := by
        rw [digits_length]
        omega
      rw [List.take_succ_cons, byteBits_cons, ih, byteBits_cons, htake,
        List.take_length_add_append]

/-- Zero bytes are zero bits. -/
theorem byteBits_zeros (count : ℕ) :
    byteBits (List.replicate count 0) = List.replicate (8 * count) false := by
  induction count with
  | zero => rfl
  | succ count ih =>
    have hbyte : digits 8 (0 : UInt8).toNat = List.replicate 8 false := digits_zero 8
    have hcount : 8 * (count + 1) = 8 + 8 * count := by omega
    rw [List.replicate_succ, byteBits_cons, ih, hbyte, hcount, List.replicate_add]

end Bytes

end Fipwave.SecureHash
