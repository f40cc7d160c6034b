import Mathlib.Algebra.Order.Floor.Ring
import Mathlib.Tactic

/-!
# Distances on a circle

Positions on a circle of some length are numbers, of which those that differ by
whole turns are the same.  The distance is the least over all turns, so it
obeys the triangle inequality.
-/

namespace CircularDistance

variable {K : Type*} [Field K] [LinearOrder K] [IsStrictOrderedRing K] [FloorRing K]

/-- The remainder of a division with a positive divisor, which is not negative. -/
def remEuclid (number turn : K) : K := number - turn * ⌊number / turn⌋

/-- The shorter way round. -/
def distance (turn left right : K) : K :=
  min (remEuclid (left - right) turn) (turn - remEuclid (left - right) turn)

variable {turn : K} {number left middle right : K}

theorem remEuclid_nonneg (hturn : 0 < turn) : 0 ≤ remEuclid number turn := by
  unfold remEuclid
  have hfloor := Int.floor_le (number / turn)
  have hle := mul_le_mul_of_nonneg_left hfloor hturn.le
  rw [mul_div_cancel₀ _ hturn.ne'] at hle
  linarith

theorem remEuclid_lt (hturn : 0 < turn) : remEuclid number turn < turn := by
  unfold remEuclid
  have hfloor := Int.lt_floor_add_one (number / turn)
  have hlt := mul_lt_mul_of_pos_left hfloor hturn
  rw [mul_div_cancel₀ _ hturn.ne', mul_add, mul_one] at hlt
  linarith

/-- The distance is that after some turns. -/
theorem exists_turns (hturn : 0 < turn) :
    ∃ turns : ℤ, distance turn left right = |left - right - turn * turns| := by
  have hnonneg := @remEuclid_nonneg K _ _ _ _ turn (left - right) hturn
  have hlt := @remEuclid_lt K _ _ _ _ turn (left - right) hturn
  by_cases hshort : remEuclid (left - right) turn ≤ turn - remEuclid (left - right) turn
  · refine ⟨⌊(left - right) / turn⌋, ?_⟩
    unfold distance
    rw [min_eq_left hshort]
    exact (abs_of_nonneg hnonneg).symm
  · refine ⟨⌊(left - right) / turn⌋ + 1, ?_⟩
    unfold distance
    rw [min_eq_right (not_le.mp hshort).le]
    have hrest : left - right - turn * ((⌊(left - right) / turn⌋ + 1 : ℤ) : K) =
        -(turn - remEuclid (left - right) turn) := by
      unfold remEuclid
      push_cast
      ring
    rw [hrest, abs_neg, abs_of_pos (sub_pos.mpr hlt)]

/-- And no number of turns gives less. -/
theorem distance_le (hturn : 0 < turn) (turns : ℤ) :
    distance turn left right ≤ |left - right - turn * turns| := by
  have hnonneg := @remEuclid_nonneg K _ _ _ _ turn (left - right) hturn
  have hlt := @remEuclid_lt K _ _ _ _ turn (left - right) hturn
  let whole := ⌊(left - right) / turn⌋
  have hsplit : left - right - turn * turns =
      remEuclid (left - right) turn + turn * ((whole - turns : ℤ) : K) := by
    unfold remEuclid
    push_cast
    ring
  rw [hsplit]
  unfold distance
  rcases le_or_gt turns whole with hfew | hmany
  · have hzero : 0 ≤ turn * ((whole - turns : ℤ) : K) :=
      mul_nonneg hturn.le (Int.cast_nonneg (by omega))
    rw [abs_of_nonneg (by linarith)]
    exact (min_le_left _ _).trans (by linarith)
  · have hone : ((whole - turns : ℤ) : K) ≤ -1 := by
      have hcast : ((whole - turns : ℤ) : K) ≤ ((-1 : ℤ) : K) := Int.cast_le.mpr (by omega)
      rw [Int.cast_neg, Int.cast_one] at hcast
      exact hcast
    have hback := mul_le_mul_of_nonneg_left hone hturn.le
    rw [abs_of_nonpos (by linarith)]
    exact (min_le_right _ _).trans (by linarith)

theorem distance_triangle (hturn : 0 < turn) :
    distance turn left right ≤ distance turn left middle + distance turn middle right := by
  obtain ⟨first, hfirst⟩ := @exists_turns K _ _ _ _ turn left middle hturn
  obtain ⟨second, hsecond⟩ := @exists_turns K _ _ _ _ turn middle right hturn
  have hle := @distance_le K _ _ _ _ turn left right hturn (first + second)
  have hsum : left - right - turn * ((first + second : ℤ) : K) =
      (left - middle - turn * first) + (middle - right - turn * second) := by
    push_cast
    ring
  rw [hsum] at hle
  rw [hfirst, hsecond]
  exact hle.trans (abs_add_le _ _)

/-- A position is as far away as its remainder. -/
theorem distance_remEuclid_le (hturn : 0 < turn) :
    distance turn left right ≤ |left - remEuclid right turn| := by
  have hle := @distance_le K _ _ _ _ turn left right hturn (-⌊right / turn⌋)
  have hsame : left - right - turn * ((-⌊right / turn⌋ : ℤ) : K) =
      left - remEuclid right turn := by
    unfold remEuclid
    push_cast
    ring
  rw [hsame] at hle
  exact hle

end CircularDistance
