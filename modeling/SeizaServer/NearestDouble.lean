import Mathlib

/-!
# Doubles of a fraction

Doubles from `10⁻⁹` upwards are multiples of `2⁻⁸²` with at most 53 bits.  A
fraction is rounded to the nearest of them, ties to the even one, and small
enough counts of seconds and nanoseconds keep their place between two seconds.
-/

namespace NearestDouble

/-- The unit in which doubles are counted. -/
def unit : ℕ := 2 ^ 82

/-- The nearest natural number to a fraction, the even one of two. -/
def nearestEven (numerator denominator : ℕ) : ℕ :=
  let quotient := numerator / denominator
  let remainder := numerator % denominator
  if 2 * remainder < denominator then quotient
  else if denominator < 2 * remainder then quotient + 1
  else quotient + quotient % 2

/-- The bits of a number beyond the 53 of a double. -/
def surplus (value : ℕ) : ℕ := value.log2 - 52

/-- The nearest double to a fraction, both in units. -/
def round (numerator denominator : ℕ) : ℕ :=
  let step := 2 ^ surplus (numerator / denominator)
  nearestEven numerator (denominator * step) * step

/-- The least whole number that is not below a double. -/
def ceil (double : ℕ) : ℕ := (double + (unit - 1)) / unit

/-! ## The error of rounding -/

/-- Nanoseconds as a double of seconds: the whole seconds and the part of a
second are doubles, and so is their sum. -/
def ofNanoseconds (duration : ℕ) : ℕ :=
  round (round (duration / 10 ^ 9 * unit) 1 + round (duration % 10 ^ 9 * unit) (10 ^ 9)) 1

/-- One nanosecond more than `2²⁴` seconds is the double of `2²⁴` seconds. -/
example : ceil (ofNanoseconds (2 ^ 24 * 10 ^ 9 + 1)) = 2 ^ 24 := by decide

end NearestDouble
