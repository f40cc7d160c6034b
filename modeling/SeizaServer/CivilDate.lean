import Mathlib.Tactic

/-!
# Days of the proleptic Gregorian calendar

A day is a year and the number of the day in it.  Month and day split that number
along the lengths of the months, and the order of days is the order of years, months
and days, and that of the number of days since the calendar's first.
-/

namespace CivilDate

/-! ## Splitting along lengths -/

/-- Which part the given position, counted from one, falls into, and where. -/
def split : List ℕ → ℕ → ℕ × ℕ
  | [], position => (0, position)
  | length :: lengths, position =>
      if position ≤ length then (0, position)
      else ((split lengths (position - length)).1 + 1, (split lengths (position - length)).2)

/-- The position of a place in a part. -/
def join : List ℕ → ℕ → ℕ → Option ℕ
  | [], _, _ => none
  | length :: _, 0, place => if 1 ≤ place ∧ place ≤ length then some place else none
  | length :: lengths, part + 1, place => (join lengths part place).map (length + ·)

theorem split_part_lt {lengths : List ℕ} {position : ℕ} (hpos : 1 ≤ position)
    (hle : position ≤ lengths.sum) : (split lengths position).1 < lengths.length := by
  induction lengths generalizing position with
  | nil =>
      rw [List.sum_nil] at hle
      omega
  | cons length lengths ih =>
      rw [List.sum_cons] at hle
      unfold split
      split_ifs with hfirst
      · exact Nat.succ_pos _
      · exact Nat.succ_lt_succ (ih (by omega) (by omega))

theorem split_place_le {lengths : List ℕ} {position bound : ℕ} (hle : position ≤ lengths.sum)
    (hbound : ∀ length ∈ lengths, length ≤ bound) : (split lengths position).2 ≤ bound := by
  induction lengths generalizing position with
  | nil =>
      rw [List.sum_nil] at hle
      exact hle.trans (Nat.zero_le bound)
  | cons length lengths ih =>
      rw [List.sum_cons] at hle
      unfold split
      split_ifs with hfirst
      · exact hfirst.trans (hbound length List.mem_cons_self)
      · exact ih (by omega) fun other hmem => hbound other (List.mem_cons_of_mem _ hmem)

theorem join_split {lengths : List ℕ} {position : ℕ} (hpos : 1 ≤ position)
    (hle : position ≤ lengths.sum) :
    join lengths (split lengths position).1 (split lengths position).2 = some position := by
  induction lengths generalizing position with
  | nil =>
      rw [List.sum_nil] at hle
      omega
  | cons length lengths ih =>
      rw [List.sum_cons] at hle
      unfold split
      split_ifs with hfirst
      · exact if_pos ⟨hpos, hfirst⟩
      · rw [join, ih (by omega) (by omega), Option.map_some]
        congr 1
        omega

/-- Positions are ordered as parts and places. -/
theorem split_lt_iff {lengths : List ℕ} {first second : ℕ} :
    first < second ↔ (split lengths first).1 < (split lengths second).1 ∨
      (split lengths first).1 = (split lengths second).1 ∧
        (split lengths first).2 < (split lengths second).2 := by
  induction lengths generalizing first second with
  | nil => simp [split]
  | cons length lengths ih =>
      unfold split
      split_ifs with hfirst hsecond hsecond
      · simp
      · exact iff_of_true (by omega) (.inl (Nat.succ_pos _))
      · refine iff_of_false (by omega) ?_
        simp
      · have hrest : first - length < second - length ↔ _ := ih
        dsimp only
        omega

/-! ## Years -/

def IsLeap (year : ℤ) : Prop := year % 4 = 0 ∧ (year % 100 ≠ 0 ∨ year % 400 = 0)

instance (year : ℤ) : Decidable (IsLeap year) := inferInstanceAs (Decidable (_ ∧ _))

def daysIn (year : ℤ) : ℕ := if IsLeap year then 366 else 365

def monthLengths (year : ℤ) : List ℕ :=
  [31, if IsLeap year then 29 else 28, 31, 30, 31, 30, 31, 31, 30, 31, 30, 31]

@[simp] theorem sum_monthLengths (year : ℤ) : (monthLengths year).sum = daysIn year := by
  unfold monthLengths daysIn
  split_ifs <;> rfl

theorem monthLengths_le (year : ℤ) : ∀ length ∈ monthLengths year, length ≤ 31 := by
  intro length hmem
  unfold monthLengths at hmem
  split_ifs at hmem <;> simp at hmem <;> omega

/-- The days from the first of January of the year 1 to that of the year. -/
def daysBefore (year : ℤ) : ℤ :=
  365 * (year - 1) + (year - 1) / 4 - (year - 1) / 100 + (year - 1) / 400

theorem daysBefore_succ (year : ℤ) : daysBefore (year + 1) = daysBefore year + daysIn year := by
  unfold daysBefore
  by_cases hleap : IsLeap year
  · rw [daysIn, if_pos hleap]
    unfold IsLeap at hleap
    push_cast
    omega
  · rw [daysIn, if_neg hleap]
    unfold IsLeap at hleap
    push_cast
    omega

theorem daysBefore_lt {first second : ℤ} (hlt : first < second) :
    daysBefore first + daysIn first ≤ daysBefore second := by
  induction second, hlt using Int.leInduction with
  | base => rw [daysBefore_succ]
  | succ second hle ih =>
      rw [daysBefore_succ]
      omega

/-! ## Days -/

/-- A day by its year and its number in the year. -/
@[ext] structure Day where
  year : ℤ
  ordinal : ℕ
  one_le : 1 ≤ ordinal
  le_daysIn : ordinal ≤ daysIn year
  deriving DecidableEq

namespace Day

/-- The month, counted from zero, and the day of the month. -/
def monthDay (day : Day) : ℕ × ℕ := split (monthLengths day.year) day.ordinal

/-- The number of the day, counted from the first day of the year 1. -/
def number (day : Day) : ℤ := daysBefore day.year + day.ordinal

/-- The day of a month of a year, if there is one. -/
def ofMonthDay (year : ℤ) (month place : ℕ) : Option Day :=
  match join (monthLengths year) month place with
  | some ordinal =>
      if h : 1 ≤ ordinal ∧ ordinal ≤ daysIn year then some ⟨year, ordinal, h.1, h.2⟩ else none
  | none => none

theorem le_sum (day : Day) : day.ordinal ≤ (monthLengths day.year).sum := by
  rw [sum_monthLengths]
  exact day.le_daysIn

theorem month_lt (day : Day) : day.monthDay.1 < 12 := split_part_lt day.one_le day.le_sum

theorem place_le (day : Day) : day.monthDay.2 ≤ 31 :=
  split_place_le day.le_sum (monthLengths_le day.year)

theorem ofMonthDay_monthDay (day : Day) :
    ofMonthDay day.year day.monthDay.1 day.monthDay.2 = some day := by
  unfold ofMonthDay monthDay
  rw [join_split day.one_le day.le_sum]
  exact dif_pos ⟨day.one_le, day.le_daysIn⟩

/-- Days of one year are ordered as months and days of the month. -/
theorem ordinal_lt_iff {first second : Day} (hyear : first.year = second.year) :
    first.ordinal < second.ordinal ↔ first.monthDay.1 < second.monthDay.1 ∨
      first.monthDay.1 = second.monthDay.1 ∧ first.monthDay.2 < second.monthDay.2 := by
  unfold monthDay
  rw [hyear]
  exact split_lt_iff

theorem eq_iff {first second : Day} : first = second ↔
    first.year = second.year ∧ first.monthDay = second.monthDay := by
  refine ⟨fun heq => by rw [heq]; exact ⟨rfl, rfl⟩, fun ⟨hyear, hday⟩ => ?_⟩
  have hsame := ofMonthDay_monthDay first
  rw [hyear, hday, ofMonthDay_monthDay] at hsame
  exact (Option.some.inj hsame).symm

theorem number_lt_iff {first second : Day} :
    first.number < second.number ↔ first.year < second.year ∨
      first.year = second.year ∧ first.ordinal < second.ordinal := by
  have hfirst := first.one_le
  have hsecond := second.one_le
  have hfirstLe := first.le_daysIn
  have hsecondLe := second.le_daysIn
  unfold number
  rcases lt_trichotomy first.year second.year with hlt | heq | hgt
  · have hdays := daysBefore_lt hlt
    omega
  · rw [heq]
    omega
  · have hdays := daysBefore_lt hgt
    omega

theorem number_inj {first second : Day} : first.number = second.number ↔ first = second := by
  refine ⟨fun hsame => ?_, congrArg number⟩
  have hlt := mt number_lt_iff.mpr (not_lt.mpr hsame.ge)
  have hgt := mt number_lt_iff.mpr (not_lt.mpr hsame.le)
  ext <;> omega

/-- The year, counted from zero, and the day in it of a day of an era of 400
years. -/
def yearOfEra (day : ℤ) : ℤ × ℤ :=
  let century := min (day / 36524) 3
  let cycle := (day - 36524 * century) / 1461
  let rest := day - 36524 * century - 1461 * cycle
  let year := min (rest / 365) 3
  (100 * century + 4 * cycle + year, rest - 365 * year)

/-- The parts of a day of an era: only the last year of a cycle of four has 366
days, and the last cycle of a century only in the last century. -/
theorem exists_yearOfEra {day : ℤ} (hnonneg : 0 ≤ day) (hlt : day < 146097) :
    ∃ century cycle year place : ℤ, yearOfEra day = (100 * century + 4 * cycle + year, place) ∧
      day = 36524 * century + 1461 * cycle + 365 * year + place ∧
      (0 ≤ century ∧ century ≤ 3) ∧ (0 ≤ cycle ∧ cycle ≤ 24) ∧ (0 ≤ year ∧ year ≤ 3) ∧
      0 ≤ place ∧ place ≤ 365 ∧ (place = 365 → year = 3 ∧ (cycle = 24 → century = 3)) := by
  refine ⟨min (day / 36524) 3, (day - 36524 * min (day / 36524) 3) / 1461, _, _, rfl, ?_⟩
  have hcentury : 0 ≤ min (day / 36524) 3 ∧ min (day / 36524) 3 ≤ 3 ∧
      0 ≤ day - 36524 * min (day / 36524) 3 ∧ day - 36524 * min (day / 36524) 3 ≤ 36524 ∧
      (day - 36524 * min (day / 36524) 3 = 36524 → min (day / 36524) 3 = 3) := by omega
  generalize min (day / 36524) 3 = century at hcentury ⊢
  omega

/-- The year of an era has the day in it. -/
theorem yearOfEra_spec {day : ℤ} (hnonneg : 0 ≤ day) (hlt : day < 146097) (era : ℤ) :
    daysBefore (400 * era + (yearOfEra day).1 + 1) + (yearOfEra day).2 = 146097 * era + day ∧
      0 ≤ (yearOfEra day).2 ∧
      (yearOfEra day).2 < daysIn (400 * era + (yearOfEra day).1 + 1) := by
  obtain ⟨century, cycle, year, place, hparts, hday, hcentury, hcycle, hyear, hplace, hmost,
    hlast⟩ := exists_yearOfEra hnonneg hlt
  have hfour : (400 * era + (100 * century + 4 * cycle + year)) / 4 =
      100 * era + 25 * century + cycle := by omega
  have hhundred : (400 * era + (100 * century + 4 * cycle + year)) / 100 = 4 * era + century := by
    omega
  have hera : (400 * era + (100 * century + 4 * cycle + year)) / 400 = era := by omega
  rw [hparts, daysBefore]
  dsimp only
  rw [add_sub_cancel_right, hfour, hhundred, hera]
  refine ⟨by omega, hplace, ?_⟩
  by_cases hleap : IsLeap (400 * era + (100 * century + 4 * cycle + year) + 1)
  · rw [daysIn, if_pos hleap]
    push_cast
    omega
  · rw [daysIn, if_neg hleap]
    unfold IsLeap at hleap
    push_cast
    omega

/-- The day with a number. -/
def ofNumber (number : ℤ) : Day where
  year := 400 * ((number - 1) / 146097) + (yearOfEra ((number - 1) % 146097)).1 + 1
  ordinal := (yearOfEra ((number - 1) % 146097)).2.toNat + 1
  one_le := Nat.succ_pos _
  le_daysIn := by
    have hspec := yearOfEra_spec (Int.emod_nonneg (number - 1) (by decide))
      (Int.emod_lt_of_pos (number - 1) (by decide)) ((number - 1) / 146097)
    omega

@[simp] theorem number_ofNumber (number : ℤ) : (ofNumber number).number = number := by
  have hspec := yearOfEra_spec (Int.emod_nonneg (number - 1) (by decide))
    (Int.emod_lt_of_pos (number - 1) (by decide)) ((number - 1) / 146097)
  have hsplit := Int.mul_ediv_add_emod (number - 1) 146097
  unfold Day.number ofNumber
  push_cast
  omega

/-- The years of days are ordered as their numbers. -/
theorem year_le_of_number_le {first second : Day} (hle : first.number ≤ second.number) :
    first.year ≤ second.year := by
  have hafter := mt number_lt_iff.mpr (not_lt.mpr hle)
  omega

end Day

end CivilDate
