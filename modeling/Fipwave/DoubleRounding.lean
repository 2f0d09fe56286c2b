import Mathlib.Algebra.Order.Field.Power
import Mathlib.Algebra.Order.Floor.Semifield
import Mathlib.Data.Int.Log
import Mathlib.Data.Rat.Floor
import Mathlib.Tactic.Linarith
import Mathlib.Tactic.Positivity
import Mathlib.Tactic.Ring

/-!
# Rounding to doubles

A value that is not negative becomes the nearest double, and from the middle
between two of them the one with the even significand; from the middle above
the largest double on it becomes infinite. A bound that is a double with an
even significand is kept by every value up to half a spacing above it.
-/

namespace Fipwave.DoubleRounding

section Definitions

/-- A number of the language; both zeros are one. -/
inductive Number where
  | nan
  | infinity
  | negativeInfinity
  | finite (value : ℚ)
  deriving DecidableEq, Repr

/-- The nearest whole number, and from the middle the even one. -/
def roundEven (x : ℚ) : ℤ :=
  if x - ⌊x⌋ < 1 / 2 then ⌊x⌋
  else if 1 / 2 < x - ⌊x⌋ then ⌊x⌋ + 1
  else if ⌊x⌋ % 2 = 0 then ⌊x⌋ else ⌊x⌋ + 1

/-- Exponent of the spacing of the doubles around a value. -/
def spacing (x : ℚ) : ℤ := max (Int.log 2 x - 52) (-1074)

/-- The nearest multiple of the spacing. -/
def rounded (x : ℚ) : ℚ := roundEven (x / 2 ^ spacing x) * 2 ^ spacing x

/-- The least value above all doubles. -/
def overflow : ℚ := 2 ^ 1024

/-- The number a value becomes. -/
def ofRational (x : ℚ) : Number :=
  if overflow ≤ rounded x then .infinity else .finite (rounded x)

end Definitions

section WholeNumbers

/-- Whole numbers are kept. -/
@[simp] theorem roundEven_intCast (n : ℤ) : roundEven n = n := by
  simp [roundEven]

/-- A value lies at most half below its rounding. -/
theorem roundEven_sub_half_le (x : ℚ) : roundEven x - 1 / 2 ≤ x := by
  have hlow : (⌊x⌋ : ℚ) ≤ x := Int.floor_le x
  unfold roundEven
  split_ifs <;> push_cast <;> linarith

/-- A value lies at most half above its rounding. -/
theorem le_roundEven_add_half (x : ℚ) : x ≤ roundEven x + 1 / 2 := by
  have hhigh : x < ⌊x⌋ + 1 := Int.lt_floor_add_one x
  unfold roundEven
  split_ifs <;> push_cast <;> linarith

/-- A middle that is rounded down is rounded to an even number. -/
theorem roundEven_even_of_down {x : ℚ} (h : x = roundEven x + 1 / 2) : roundEven x % 2 = 0 := by
  have hhigh : x < ⌊x⌋ + 1 := Int.lt_floor_add_one x
  unfold roundEven at h ⊢
  split_ifs at h ⊢ with hbelow habove heven
  · linarith
  · push_cast at h
    linarith
  · exact heven
  · push_cast at h
    linarith

/-- A middle that is rounded up is rounded to an even number. -/
theorem roundEven_even_of_up {x : ℚ} (h : x = roundEven x - 1 / 2) : roundEven x % 2 = 0 := by
  have hlow : (⌊x⌋ : ℚ) ≤ x := Int.floor_le x
  unfold roundEven at h ⊢
  split_ifs at h ⊢ with hbelow habove heven
  · linarith
  · push_cast at h
    linarith
  · exact heven
  · omega

/-- A rounding stays below an even bound up to the middle above it. -/
theorem roundEven_le_iff {m : ℤ} (hm : m % 2 = 0) (x : ℚ) :
    roundEven x ≤ m ↔ x ≤ m + 1 / 2 := by
  have hbelow := roundEven_sub_half_le x
  have habove := le_roundEven_add_half x
  constructor
  · intro h
    have hcast : (roundEven x : ℚ) ≤ m := by exact_mod_cast h
    linarith
  · intro h
    by_contra hnot
    have hsucc : m + 1 ≤ roundEven x := by omega
    have hcast : (m : ℚ) + 1 ≤ roundEven x := by exact_mod_cast hsucc
    have hmiddle : x = roundEven x - 1 / 2 := by linarith
    have heven := roundEven_even_of_up hmiddle
    have hexact : (roundEven x : ℚ) = (m + 1 : ℤ) := by
      push_cast
      linarith
    have hround : roundEven x = m + 1 := by exact_mod_cast hexact
    omega

/-- A rounding stays strictly below an even bound up to the middle below it. -/
theorem roundEven_lt_iff {m : ℤ} (hm : m % 2 = 0) (x : ℚ) :
    roundEven x < m ↔ x < m - 1 / 2 := by
  have hbelow := roundEven_sub_half_le x
  have habove := le_roundEven_add_half x
  constructor
  · intro h
    have hpred : roundEven x ≤ m - 1 := by omega
    have hcast : (roundEven x : ℚ) ≤ m - 1 := by exact_mod_cast hpred
    by_contra hnot
    have hmiddle : x = roundEven x + 1 / 2 := by linarith
    have heven := roundEven_even_of_down hmiddle
    have hexact : (roundEven x : ℚ) = (m - 1 : ℤ) := by
      push_cast
      linarith
    have hround : roundEven x = m - 1 := by exact_mod_cast hexact
    omega
  · intro h
    have hcast : (roundEven x : ℚ) < m := by linarith
    exact_mod_cast hcast

/-- A whole bound above a value is above its rounding. -/
theorem roundEven_le_of_le {m : ℤ} {x : ℚ} (h : x ≤ m) : roundEven x ≤ m := by
  have hbelow := roundEven_sub_half_le x
  have hcast : (roundEven x : ℚ) < m + 1 := by linarith
  have hlt : roundEven x < m + 1 := by exact_mod_cast hcast
  omega

/-- A whole bound below a value is below its rounding. -/
theorem le_roundEven_of_le {m : ℤ} {x : ℚ} (h : m ≤ x) : m ≤ roundEven x := by
  have habove := le_roundEven_add_half x
  have hcast : (m : ℚ) < roundEven x + 1 := by linarith
  have hlt : m < roundEven x + 1 := by exact_mod_cast hcast
  omega

end WholeNumbers

section Binades

/-- The spacing is positive. -/
theorem spacing_pos (x : ℚ) : (0 : ℚ) < 2 ^ spacing x := by positivity

/-- A power of two that is no part of one is whole. -/
theorem zpow_eq_cast {k : ℤ} (hk : 0 ≤ k) : (2 : ℚ) ^ k = ((2 ^ k.toNat : ℤ) : ℚ) := by
  have hcast : ((k.toNat : ℕ) : ℤ) = k := Int.toNat_of_nonneg hk
  rw [← hcast, zpow_natCast]
  push_cast
  rw [Int.toNat_natCast]

/-- A quotient of two powers of two. -/
theorem zpow_div_zpow (a b : ℤ) : (2 : ℚ) ^ a / 2 ^ b = 2 ^ (a - b) := by
  rw [zpow_sub₀ (by norm_num)]

/-- Roundings of values that are not negative are not negative. -/
theorem rounded_nonneg {x : ℚ} (hx : 0 ≤ x) : 0 ≤ rounded x := by
  have hquotient : ((0 : ℤ) : ℚ) ≤ x / 2 ^ spacing x := by
    push_cast
    positivity
  have hround := le_roundEven_of_le hquotient
  have hcast : (0 : ℚ) ≤ roundEven (x / 2 ^ spacing x) := by exact_mod_cast hround
  unfold rounded
  positivity

/-- Zero is kept. -/
@[simp] theorem rounded_zero : rounded 0 = 0 := by
  have hround : roundEven 0 = 0 := by exact_mod_cast roundEven_intCast 0
  unfold rounded
  rw [zero_div, hround, Int.cast_zero, zero_mul]

/-- Below a power of two roundings stay at most at it. -/
theorem rounded_le_zpow {x : ℚ} {e : ℤ} (hx : 0 ≤ x) (he : -1074 ≤ e)
    (h : x < 2 ^ (52 + e)) : rounded x ≤ 2 ^ (52 + e) := by
  rcases hx.eq_or_lt with rfl | hxpos
  · rw [rounded_zero]
    positivity
  have hlog := (Int.lt_zpow_iff_log_lt (b := 2) (by norm_num) hxpos).mp (by exact_mod_cast h)
  have hspacing : spacing x ≤ e := by
    unfold spacing
    omega
  have hpos := spacing_pos x
  have hwhole := zpow_eq_cast (k := 52 + e - spacing x) (by omega)
  have hquotient : x / 2 ^ spacing x ≤ ((2 ^ (52 + e - spacing x).toNat : ℤ) : ℚ) := by
    rw [← hwhole, ← zpow_div_zpow]
    gcongr
  have hround := roundEven_le_of_le hquotient
  have hcast : (roundEven (x / 2 ^ spacing x) : ℚ) ≤ 2 ^ (52 + e - spacing x) := by
    rw [hwhole]
    exact Int.cast_le.mpr hround
  unfold rounded
  calc (roundEven (x / 2 ^ spacing x) : ℚ) * 2 ^ spacing x
      ≤ 2 ^ (52 + e - spacing x) * 2 ^ spacing x := by gcongr
    _ = 2 ^ (52 + e) := by rw [← zpow_add₀ (by norm_num)]; congr 1; omega

/-- From a power of two on roundings are at least it. -/
theorem zpow_le_rounded {x : ℚ} {e : ℤ} (he : -1074 ≤ e) (h : 2 ^ (53 + e) ≤ x) :
    2 ^ (53 + e) ≤ rounded x := by
  have hx : 0 < x := lt_of_lt_of_le (by positivity) h
  have hlog := (Int.zpow_le_iff_le_log (b := 2) (by norm_num) hx).mp (by exact_mod_cast h)
  have hspacing : spacing x = Int.log 2 x - 52 := by
    unfold spacing
    omega
  have hself : (2 : ℚ) ^ Int.log 2 x ≤ x := by
    exact_mod_cast Int.zpow_log_le_self (b := 2) (by norm_num) hx
  have hpos := spacing_pos x
  have hquotient : ((2 ^ 52 : ℤ) : ℚ) ≤ x / 2 ^ spacing x := by
    rw [le_div_iff₀ hpos]
    calc ((2 ^ 52 : ℤ) : ℚ) * 2 ^ spacing x
        = 2 ^ (52 : ℤ) * 2 ^ spacing x := by norm_num
      _ = 2 ^ Int.log 2 x := by rw [← zpow_add₀ (by norm_num)]; congr 1; omega
      _ ≤ x := hself
  have hround := le_roundEven_of_le hquotient
  have hcast : (2 : ℚ) ^ (52 : ℤ) ≤ roundEven (x / 2 ^ spacing x) := by exact_mod_cast hround
  unfold rounded
  calc (2 : ℚ) ^ (53 + e) ≤ 2 ^ Int.log 2 x := zpow_le_zpow_right₀ (by norm_num) (by omega)
    _ = 2 ^ (52 : ℤ) * 2 ^ spacing x := by rw [← zpow_add₀ (by norm_num)]; congr 1; omega
    _ ≤ roundEven (x / 2 ^ spacing x) * 2 ^ spacing x := by gcongr

/-- Between two powers of two the spacing is the same. -/
theorem spacing_eq {x : ℚ} {e : ℤ} (he : -1074 ≤ e) (hlow : 2 ^ (52 + e) ≤ x)
    (hhigh : x < 2 ^ (53 + e)) : spacing x = e := by
  have hx : 0 < x := lt_of_lt_of_le (by positivity) hlow
  have hle := (Int.zpow_le_iff_le_log (b := 2) (by norm_num) hx).mp (by exact_mod_cast hlow)
  have hlt := (Int.lt_zpow_iff_log_lt (b := 2) (by norm_num) hx).mp (by exact_mod_cast hhigh)
  unfold spacing
  omega

end Binades

section Bounds

variable {x : ℚ} {m e : ℤ}

/-- Between two powers of two a rounding is a whole number of spacings. -/
theorem rounded_eq (hx : spacing x = e) : rounded x = roundEven (x / 2 ^ e) * 2 ^ e := by
  unfold rounded
  rw [hx]

/-- A double with an even significand bounds the roundings of the values up to half a spacing
above it. -/
theorem rounded_le_iff (hx : 0 ≤ x) (he : -1074 ≤ e) (hlow : 2 ^ 52 ≤ m) (hhigh : m < 2 ^ 53)
    (hm : m % 2 = 0) : rounded x ≤ m * 2 ^ e ↔ x ≤ (m + 1 / 2) * 2 ^ e := by
  have hunit : (0 : ℚ) < 2 ^ e := by positivity
  have hlower : (2 : ℚ) ^ (52 + e) = 2 ^ 52 * 2 ^ e := zpow_add₀ (by norm_num) 52 e
  have hupper : (2 : ℚ) ^ (53 + e) = 2 ^ 53 * 2 ^ e := zpow_add₀ (by norm_num) 53 e
  have hlowCast : (2 : ℚ) ^ 52 ≤ m := by exact_mod_cast hlow
  have hhighCast : (m : ℚ) + 1 ≤ 2 ^ 53 := by exact_mod_cast hhigh
  by_cases hbelow : x < 2 ^ (52 + e)
  · have hround := rounded_le_zpow hx he hbelow
    rw [hlower] at hround hbelow
    constructor
    · intro _
      nlinarith
    · intro _
      nlinarith
  by_cases habove : 2 ^ (53 + e) ≤ x
  · have hround := zpow_le_rounded he habove
    rw [hupper] at hround habove
    constructor
    · intro h
      nlinarith
    · intro h
      nlinarith
  have hspacing := spacing_eq he (not_lt.mp hbelow) (not_le.mp habove)
  rw [rounded_eq hspacing, mul_le_mul_iff_left₀ hunit, Int.cast_le, roundEven_le_iff hm,
    div_le_iff₀ hunit]

/-- A double with an even significand bounds strictly the roundings of the values more than half a
spacing below it. -/
theorem rounded_lt_iff (hx : 0 ≤ x) (he : -1074 ≤ e) (hlow : 2 ^ 52 < m) (hhigh : m ≤ 2 ^ 53)
    (hm : m % 2 = 0) : rounded x < m * 2 ^ e ↔ x < (m - 1 / 2) * 2 ^ e := by
  have hunit : (0 : ℚ) < 2 ^ e := by positivity
  have hlower : (2 : ℚ) ^ (52 + e) = 2 ^ 52 * 2 ^ e := zpow_add₀ (by norm_num) 52 e
  have hupper : (2 : ℚ) ^ (53 + e) = 2 ^ 53 * 2 ^ e := zpow_add₀ (by norm_num) 53 e
  have hlowCast : (2 : ℚ) ^ 52 + 1 ≤ m := by exact_mod_cast hlow
  have hhighCast : (m : ℚ) ≤ 2 ^ 53 := by exact_mod_cast hhigh
  by_cases hbelow : x < 2 ^ (52 + e)
  · have hround := rounded_le_zpow hx he hbelow
    rw [hlower] at hround hbelow
    constructor
    · intro _
      nlinarith
    · intro _
      nlinarith
  by_cases habove : 2 ^ (53 + e) ≤ x
  · have hround := zpow_le_rounded he habove
    rw [hupper] at hround habove
    constructor
    · intro h
      nlinarith
    · intro h
      nlinarith
  have hspacing := spacing_eq he (not_lt.mp hbelow) (not_le.mp habove)
  rw [rounded_eq hspacing, mul_lt_mul_iff_left₀ hunit, Int.cast_lt, roundEven_lt_iff hm,
    div_lt_iff₀ hunit]

/-- The values that become infinite are those from half a spacing below the overflow on. -/
theorem overflow_le_rounded_iff (hx : 0 ≤ x) :
    overflow ≤ rounded x ↔ overflow - 2 ^ 970 ≤ x := by
  have hlt := rounded_lt_iff (m := 2 ^ 53) (e := 971) hx (by norm_num) (by norm_num) le_rfl
    (by norm_num)
  have hunit : (2 : ℚ) ^ (971 : ℤ) = 2 * 2 ^ 970 := zpow_one_add₀ two_ne_zero 970
  have hover : overflow = 2 ^ 54 * 2 ^ 970 := pow_add 2 54 970
  have htop : overflow = ((2 ^ 53 : ℤ) : ℚ) * 2 ^ (971 : ℤ) := by
    rw [hover, hunit, Int.cast_pow, Int.cast_ofNat]
    ring
  have hmiddle : overflow - 2 ^ 970 = (((2 ^ 53 : ℤ) : ℚ) - 1 / 2) * 2 ^ (971 : ℤ) := by
    rw [hover, hunit]
    push_cast
    ring
  rw [hmiddle, htop, ← not_lt, ← not_lt, hlt]

/-- Whole numbers below 2^53 are doubles. -/
theorem rounded_natCast {n : ℕ} (hn : n < 2 ^ 53) : rounded n = n := by
  have hlog : Int.log 2 (n : ℚ) ≤ 52 := by
    rw [Int.log_natCast]
    have hbits : Nat.log 2 n < 53 := Nat.log_lt_of_lt_pow' (by norm_num) hn
    omega
  have hspacing : spacing (n : ℚ) ≤ 0 := by
    unfold spacing
    omega
  have hpos := spacing_pos (n : ℚ)
  have hquotient : (n : ℚ) / 2 ^ spacing (n : ℚ) =
      ((n * 2 ^ (-spacing (n : ℚ)).toNat : ℤ) : ℚ) := by
    have hwhole := zpow_eq_cast (k := -spacing (n : ℚ)) (by omega)
    rw [Int.cast_mul, ← hwhole, zpow_neg, div_eq_mul_inv, Int.cast_natCast]
  unfold rounded
  rw [hquotient, roundEven_intCast, ← hquotient, div_mul_cancel₀ _ hpos.ne']

end Bounds

end Fipwave.DoubleRounding
