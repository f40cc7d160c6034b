import SeizaServer.JobModel
import SeizaServer.TimeText

/-!
# Comparisons of stored times

The stores hold instants as the texts of `encode_time` and compare these texts.  A
database that compares bytes orders the texts of the years 0 to 9999 as the
instants; a later year is written with a sign, which comes before every digit.
-/

namespace SeizaServer

open Times

/-- The instant so many nanoseconds after the first of January 1970. -/
def Times.DateTime.ofTime (time : Time) : DateTime where
  date := CivilDate.Day.ofNumber (719163 + time / (86400 * 10 ^ 9))
  time :=
    { secs := (time / 10 ^ 9 % 86400).toNat
      frac := (time % 10 ^ 9).toNat
      secs_lt := by omega
      frac_lt := by omega
      leap := by omega }

namespace Times.DateTime

variable (time first second : ℤ)

@[simp] theorem number_ofTime :
    (ofTime time).date.number = 719163 + time / (86400 * 10 ^ 9) :=
  CivilDate.Day.number_ofNumber _

@[simp] theorem secs_ofTime :
    (ofTime time).time.secs = (time / 10 ^ 9 % 86400).toNat := rfl

@[simp] theorem frac_ofTime : (ofTime time).time.frac = (time % 10 ^ 9).toNat := rfl

theorem ofTime_lt_iff : ofTime first < ofTime second ↔ first < second := by
  change (_ ∨ _ ∧ (_ ∨ _ ∧ _)) ↔ _
  simp only [number_ofTime, secs_ofTime, frac_ofTime]
  omega

end Times.DateTime

/-- An instant of the years 0 to 9999. -/
def Time.FourDigitYear (time : Time) : Prop :=
  -62167219200 * 10 ^ 9 ≤ time ∧ time < 253402300800 * 10 ^ 9

instance (time : Time) : Decidable time.FourDigitYear := inferInstanceAs (Decidable (_ ∧ _))

theorem Time.FourDigitYear.year {time : Time} (htime : time.FourDigitYear) :
    0 ≤ (DateTime.ofTime time).date.year ∧ (DateTime.ofTime time).date.year ≤ 9999 := by
  have hlow : @LE.le ℤ _ (-62167219200 * 10 ^ 9) time := htime.1
  have hhigh : @LT.lt ℤ _ time (253402300800 * 10 ^ 9) := htime.2
  have hfirst : (⟨0, 1, by decide, by decide⟩ : CivilDate.Day).number ≤
      (DateTime.ofTime time).date.number := by
    rw [DateTime.number_ofTime, show (⟨0, 1, by decide, by decide⟩ : CivilDate.Day).number = -365
      by decide]
    omega
  have hlast : (DateTime.ofTime time).date.number ≤
      (⟨9999, 365, by decide, by decide⟩ : CivilDate.Day).number := by
    rw [DateTime.number_ofTime, show (⟨9999, 365, by decide, by decide⟩ : CivilDate.Day).number =
      3652059 by decide]
    omega
  exact ⟨CivilDate.Day.year_le_of_number_le hfirst, CivilDate.Day.year_le_of_number_le hlast⟩

/-! ## Stores of texts -/

/-- The calendar crate that writes the times of a store, and the order in which the
store compares texts. -/
class TimeStore where
  chrono : Chrono
  collate : List Char → List Char → Ordering

namespace TimeStore

section Comparisons

variable [TimeStore]

/-- The text of an instant. -/
def text (time : Time) : List Char := encodeTime chrono (.ofTime time)

/-- How the store orders two instants. -/
def compare (first second : Time) : Ordering := collate (text first) (text second)

/-- A clock has reached an expiry, as the store compares them. -/
def Lapsed (expires now : Time) : Prop := (compare expires now).isLE = true

/-- The crate does as documented, and texts are compared byte by byte, as DynamoDB,
SQLite and a PostgreSQL database with the collation `C` do. -/
structure Bytewise : Prop where
  documented : chrono.Documented
  lt_iff : ∀ first second : List Char,
    collate first second = .lt ↔ bytes first < bytes second
  gt_iff : ∀ first second : List Char,
    collate first second = .gt ↔ bytes second < bytes first

variable {first second : Time}

/-- `first > second` in a query. -/
theorem Bytewise.isGT_iff (hbytes : Bytewise) (hfirst : first.FourDigitYear)
    (hsecond : second.FourDigitYear) : (compare first second).isGT = true ↔ second < first := by
  rw [Ordering.isGT_iff_eq_gt, compare, hbytes.gt_iff, text, text,
    hbytes.documented.bytes_lt_iff hsecond.year hfirst.year, DateTime.ofTime_lt_iff]

/-- `first <= second` in a query. -/
theorem Bytewise.isLE_iff (hbytes : Bytewise) (hfirst : first.FourDigitYear)
    (hsecond : second.FourDigitYear) : (compare first second).isLE = true ↔ first ≤ second := by
  rw [← Ordering.not_isGT_eq_isLE, Bool.not_eq_true', ← Bool.not_eq_true,
    hbytes.isGT_iff hfirst hsecond, not_lt]

end Comparisons

/-- The texts of the crate, compared byte by byte. -/
@[reducible] def bytewise : TimeStore where
  chrono := calendarCrate
  collate first second :=
    if bytes first < bytes second then .lt
    else if bytes second < bytes first then .gt
    else .eq

theorem bytewise_spec : @Bytewise bytewise := by
  apply @Bytewise.mk bytewise documented_calendarCrate
  · intro first second
    change (if bytes first < bytes second then _ else _) = _ ↔ _
    split_ifs with hlt hgt <;> simp [hlt]
  · intro first second
    change (if bytes first < bytes second then _ else _) = _ ↔ _
    split_ifs with hlt hgt
    · simp [List.lt_asymm hlt]
    · simp [hgt]
    · simp [hgt]

end TimeStore

end SeizaServer
