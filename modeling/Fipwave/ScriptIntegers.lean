import Mathlib.Tactic

/-!
# Bitwise operators of the scripting language

Bitwise operators take any number, keep its 32-bit pattern and answer with a
signed 32-bit number; the unsigned shift alone answers with an unsigned one.
-/

namespace Fipwave.ScriptIntegers

/-- The 32-bit pattern an operand is converted to. -/
def toBits (value : ℤ) : BitVec 32 := BitVec.ofInt 32 value

/-- Exclusive or, with its signed result. -/
def bitXor (left right : ℤ) : ℤ := (toBits left ^^^ toBits right).toInt

/-- Conjunction, with its signed result. -/
def bitAnd (left right : ℤ) : ℤ := (toBits left &&& toBits right).toInt

/-- The unsigned right shift, whose result is never negative. -/
def shiftRightUnsigned (value : ℤ) (places : ℕ) : ℤ := (toBits value >>> places).toNat

theorem shiftRightUnsigned_nonneg (value : ℤ) (places : ℕ) :
    0 ≤ shiftRightUnsigned value places := Int.natCast_nonneg _

theorem shiftRightUnsigned_lt (value : ℤ) (places : ℕ) :
    shiftRightUnsigned value places < 2 ^ 32 := by
  unfold shiftRightUnsigned
  exact_mod_cast (toBits value >>> places).isLt

/-- Rounding to the nearest integer, halves towards positive infinity. -/
def roundNumber (value : ℚ) : ℤ := ⌊value + 1 / 2⌋

/-- Rounding a quotient of non-negative integers up. -/
def ceilDivide (dividend divisor : ℕ) : ℕ := (dividend + divisor - 1) / divisor

end Fipwave.ScriptIntegers
