import SeizaServer.CivilDate
import SeizaServer.DigitText

/-!
# Stored times

`encode_time` and `decode_time`: instants as RFC 3339 text with as many digits of the
second as it needs.  The bytes of such texts are ordered as the instants.
-/

namespace SeizaServer.Times

open DigitText

/-! ## Instants -/

/-- The second of the day and the nanoseconds of it; in a leap second the last second
of a minute has more than a second of them. -/
@[ext] structure NaiveTime where
  secs : ℕ
  frac : ℕ
  secs_lt : secs < 86400
  frac_lt : frac < 2000000000
  leap : 1000000000 ≤ frac → secs % 60 = 59
  deriving DecidableEq

/-- An instant in UTC. -/
@[ext] structure DateTime where
  date : CivilDate.Day
  time : NaiveTime
  deriving DecidableEq

/-- Before in time: by the day, the second of the day and its nanoseconds. -/
def DateTime.Before (a b : DateTime) : Prop :=
  a.date.number < b.date.number ∨ a.date.number = b.date.number ∧
    (a.time.secs < b.time.secs ∨ a.time.secs = b.time.secs ∧ a.time.frac < b.time.frac)

instance : LT DateTime := ⟨DateTime.Before⟩

/-! ## The text -/

namespace Rfc3339

def zone : List Char := ['+', '0', '0', ':', '0', '0']

/-- As many groups of three digits as the nanoseconds need. -/
def fraction (nano : ℕ) : List Char :=
  if nano = 0 then []
  else if nano % 1000000 = 0 then '.' :: digits 3 (nano / 1000000)
  else if nano % 1000 = 0 then '.' :: digits 6 (nano / 1000)
  else '.' :: digits 9 nano

/-- The text of an instant in the years 0 to 9999. -/
def write (instant : DateTime) : List Char :=
  let day := instant.date.monthDay
  let secs := instant.time.secs
  let frac := instant.time.frac
  digits 4 instant.date.year.toNat ++ '-' :: (digits 2 (day.1 + 1) ++ '-' :: (digits 2 day.2 ++
    'T' :: (digits 2 (secs / 3600) ++ ':' :: (digits 2 (secs / 60 % 60) ++
      ':' :: (digits 2 (secs % 60 + frac / 1000000000) ++
        (fraction (frac % 1000000000) ++ zone))))))

def literal (c : Char) : List Char → Option (List Char)
  | [] => none
  | first :: rest => if first = c then some rest else none

/-- The nanoseconds of a text, and what follows; digits past the ninth are left out. -/
def readFraction : List Char → Option (ℕ × List Char)
  | '.' :: text =>
      (number 1 9 text).map fun read =>
        (read.1 * 10 ^ (9 - (text.length - read.2.length)), read.2.dropWhile Char.isDigit)
  | text => some (0, text)

/-- The time of some fields; the second 60 is a leap second. -/
def timeOf (hour minute second nano : ℕ) : Option NaiveTime :=
  let secs := hour * 3600 + minute * 60 + min second 59
  let frac := nano + if second = 60 then 1000000000 else 0
  if h : (hour < 24 ∧ minute < 60 ∧ second ≤ 60) ∧ secs < 86400 ∧ frac < 2000000000 ∧
      (1000000000 ≤ frac → secs % 60 = 59) then
    some ⟨secs, frac, h.2.1, h.2.2.1, h.2.2.2⟩
  else none

/-- Reads a text in UTC. -/
def read (text : List Char) : Option DateTime := do
  let (year, text) ← number 4 4 text
  let text ← literal '-' text
  let (month, text) ← number 2 2 text
  let text ← literal '-' text
  let (day, text) ← number 2 2 text
  let text ← literal 'T' text
  let (hour, text) ← number 2 2 text
  let text ← literal ':' text
  let (minute, text) ← number 2 2 text
  let text ← literal ':' text
  let (second, text) ← number 2 2 text
  let (nano, text) ← readFraction text
  if text = ['Z'] ∨ text = zone then
    let date ← if month = 0 then none else CivilDate.Day.ofMonthDay year (month - 1) day
    let time ← timeOf hour minute second nano
    some ⟨date, time⟩
  else none

end Rfc3339

/-- The functions of the calendar crate. -/
structure Chrono where
  toRfc3339 : DateTime → List Char
  parseFromRfc3339 : List Char → Option DateTime

/-- Instants in the years 0 to 9999 are written as RFC 3339 with the shortest of no,
three, six and nine digits of the second, and what is RFC 3339 in UTC is read so. -/
structure Chrono.Documented (chrono : Chrono) : Prop where
  writes : ∀ instant : DateTime, 0 ≤ instant.date.year → instant.date.year ≤ 9999 →
    chrono.toRfc3339 instant = Rfc3339.write instant
  reads : ∀ text instant, Rfc3339.read text = some instant →
    chrono.parseFromRfc3339 text = some instant

def encodeTime (chrono : Chrono) (value : DateTime) : List Char := chrono.toRfc3339 value

def decodeTime (chrono : Chrono) (value : List Char) : Option DateTime :=
  chrono.parseFromRfc3339 value

/-- The text in UTF-8. -/
def bytes (text : List Char) : List UInt8 := text.flatMap String.utf8EncodeChar

/-! ## Bytes -/

theorem bytes_lt_iff {first second : List Char} (hfirst : ∀ c ∈ first, c.toNat < 128)
    (hsecond : ∀ c ∈ second, c.toNat < 128) : bytes first < bytes second ↔ first < second := by
  have hbyte : ∀ c : Char, c.toNat < 128 → String.utf8EncodeChar c = [UInt8.ofNat c.toNat] := by
    intro c hc
    rw [String.utf8EncodeChar.eq_1]
    exact if_pos (Nat.le_of_lt_succ hc)
  induction first generalizing second with
  | nil =>
      cases second with
      | nil => exact iff_of_false (List.lt_irrefl _) (List.lt_irrefl _)
      | cons d others =>
          have hd := hbyte d (hsecond d List.mem_cons_self)
          refine iff_of_true ?_ (List.nil_lt_cons d others)
          rw [bytes, bytes, List.flatMap_cons, hd]
          exact List.nil_lt_cons _ _
  | cons c rest ih =>
      have hc := hfirst c List.mem_cons_self
      cases second with
      | nil => exact iff_of_false (List.not_lt_nil _) (List.not_lt_nil _)
      | cons d others =>
          have hd := hsecond d List.mem_cons_self
          have hrest : bytes rest < bytes others ↔ rest < others :=
            ih (fun e hmem => hfirst e (List.mem_cons_of_mem _ hmem))
              fun e hmem => hsecond e (List.mem_cons_of_mem _ hmem)
          have hlt : UInt8.ofNat c.toNat < UInt8.ofNat d.toNat ↔ c < d := by
            rw [UInt8.lt_iff_toNat_lt, UInt8.toNat_ofNat', UInt8.toNat_ofNat',
              Nat.mod_eq_of_lt (by omega), Nat.mod_eq_of_lt (by omega)]
            exact Iff.rfl
          have heq : UInt8.ofNat c.toNat = UInt8.ofNat d.toNat ↔ c = d := by
            rw [← UInt8.toNat_inj, UInt8.toNat_ofNat', UInt8.toNat_ofNat',
              Nat.mod_eq_of_lt (by omega), Nat.mod_eq_of_lt (by omega), Char.toNat_inj]
          unfold bytes at hrest ⊢
          rw [List.flatMap_cons, List.flatMap_cons, hbyte c hc, hbyte d hd,
            List.singleton_append, List.singleton_append, List.cons_lt_cons_iff,
            List.cons_lt_cons_iff, hlt, heq, hrest]

/-! ## The fraction -/

namespace Rfc3339

/-- The sign of the zone comes before every digit. -/
theorem zone_lt_digits (count n : ℕ) (rest : List Char) :
    zone < digits (count + 1) n ++ rest := by
  cases htext : digits (count + 1) n with
  | nil =>
      have hlength := length_digits (count + 1) n
      rw [htext] at hlength
      cases hlength
  | cons c others =>
      have hdigit : c.isDigit = true := isDigit_of_mem_digits (htext ▸ List.mem_cons_self)
      have hc : '+' < c := by
        have hlow : 48 ≤ c.toNat := by
          simp only [Char.isDigit, Bool.and_eq_true, decide_eq_true_eq] at hdigit
          exact hdigit.1
        rw [char_lt_iff]
        exact Nat.lt_of_lt_of_le (by decide) hlow
      exact List.cons_lt_cons_iff.mpr (.inl hc)

/-- A fraction of fewer digits comes first unless the longer one is below it. -/
theorem shorter_lt_iff {width more q r : ℕ} (hq : q < 10 ^ width)
    (hr : r < 10 ^ (width + more + 1)) :
    (digits width q ++ zone < digits (width + more + 1) r ++ zone ↔ q * 10 ^ (more + 1) ≤ r) ∧
      (digits (width + more + 1) r ++ zone < digits width q ++ zone ↔
        r < q * 10 ^ (more + 1)) := by
  have hpos : 0 < 10 ^ (more + 1) := Nat.pow_pos (by decide)
  have hquotient : r / 10 ^ (more + 1) < 10 ^ width :=
    Nat.div_lt_of_lt_mul (by rwa [← pow_add, Nat.add_comm, ← Nat.add_assoc])
  have hzone := zone_lt_digits more (r % 10 ^ (more + 1)) zone
  rw [Nat.add_assoc, digits_add, List.append_assoc, digits_append_lt_iff hq hquotient,
    digits_append_lt_iff hquotient hq, ← Nat.le_div_iff_mul_le hpos, ← Nat.div_lt_iff_lt_mul hpos]
  constructor
  · rw [and_iff_left hzone]
    exact le_iff_lt_or_eq.symm
  · rw [or_iff_left fun h => List.lt_asymm hzone h.2]

/-- Fractions with a point, by the nanoseconds they stand for. -/
theorem digits_zone_lt_iff {width other q r : ℕ} (hwidth : width ≤ 9) (hother : other ≤ 9)
    (hq : q < 10 ^ width) (hr : r < 10 ^ other)
    (hne : width ≠ other → q * 10 ^ (9 - width) ≠ r * 10 ^ (9 - other)) :
    digits width q ++ zone < digits other r ++ zone ↔
      q * 10 ^ (9 - width) < r * 10 ^ (9 - other) := by
  have hscale : ∀ count, 0 < 10 ^ count := fun count => Nat.pow_pos (by decide)
  rcases lt_trichotomy width other with hlt | rfl | hgt
  · obtain ⟨more, rfl⟩ := Nat.exists_eq_add_of_lt hlt
    have hpow : 10 ^ (9 - width) = 10 ^ (more + 1) * 10 ^ (9 - (width + more + 1)) := by
      rw [← pow_add]
      congr 1
      omega
    rw [(shorter_lt_iff hq hr).1, lt_iff_le_and_ne, and_iff_left (hne (ne_of_lt hlt)),
      hpow, ← mul_assoc]
    exact (Nat.mul_le_mul_right_iff (hscale _)).symm
  · rw [digits_append_lt_iff hq hr, or_iff_left fun h => List.lt_irrefl _ h.2]
    exact (Nat.mul_lt_mul_right (hscale _)).symm
  · obtain ⟨more, rfl⟩ := Nat.exists_eq_add_of_lt hgt
    have hpow : 10 ^ (9 - other) = 10 ^ (more + 1) * 10 ^ (9 - (other + more + 1)) := by
      rw [← pow_add]
      congr 1
      omega
    rw [(shorter_lt_iff hr hq).2, hpow, ← mul_assoc]
    exact (Nat.mul_lt_mul_right (hscale _)).symm

/-- Nothing for a whole second, else a point and some digits of which the last ones
are not all zero. -/
theorem fraction_cases {nano : ℕ} (hnano : nano < 10 ^ 9) :
    (nano = 0 ∧ fraction nano = []) ∨ ∃ width q, 1 ≤ width ∧ width ≤ 9 ∧ 0 < nano ∧
      q < 10 ^ width ∧ nano = q * 10 ^ (9 - width) ∧ fraction nano = '.' :: digits width q := by
  unfold fraction
  split_ifs with hzero hmillis hmicros
  · exact .inl ⟨hzero, rfl⟩
  · exact .inr ⟨3, nano / 1000000, by omega, by omega, by omega, by omega, by omega, rfl⟩
  · exact .inr ⟨6, nano / 1000, by omega, by omega, by omega, by omega, by omega, rfl⟩
  · exact .inr ⟨9, nano, by omega, by omega, by omega, hnano, by omega, rfl⟩

theorem fraction_lt_iff {n m : ℕ} (hn : n < 10 ^ 9) (hm : m < 10 ^ 9) :
    fraction n ++ zone < fraction m ++ zone ↔ n < m := by
  rcases fraction_cases hn with ⟨hzero, htext⟩ | ⟨width, q, hone, hwidth, hpos, hq, hscaled, htext⟩
  · rcases fraction_cases hm with ⟨hother, hlast⟩ | ⟨_, _, _, _, hother, _, _, hlast⟩
    · rw [hzero, hother]
      exact iff_of_false (List.lt_irrefl _) (lt_irrefl 0)
    · rw [htext, hlast, List.nil_append]
      refine iff_of_true (List.cons_lt_cons_iff.mpr (.inl (by decide))) ?_
      omega
  · rcases fraction_cases hm with ⟨hother, hlast⟩ | ⟨width', r, _, hwidth', _, hr, hscaled', hlast⟩
    · rw [htext, hlast, List.nil_append]
      have hpoint : ¬ '.' :: digits width q ++ zone < zone := fun h =>
        List.lt_asymm h (List.cons_lt_cons_iff.mpr (.inl (by decide)))
      refine iff_of_false hpoint ?_
      omega
    · rw [htext, hlast, List.cons_append, List.cons_append, List.cons_lt_cons_self, hscaled,
        hscaled']
      apply digits_zone_lt_iff hwidth hwidth' hq hr
      -- Equal nanoseconds are written with equally many digits.
      intro hne heq
      rw [← hscaled, ← hscaled'] at heq
      rw [heq, hlast] at htext
      have hlength := congrArg List.length (List.cons.inj htext).2
      rw [length_digits, length_digits] at hlength
      exact hne hlength.symm

/-! ## The whole text -/

/-- The clock of an instant: hour, minute, second and nanoseconds, where the leap
second is the sixtieth. -/
theorem clock_lt_iff (first second : NaiveTime) :
    (first.secs < second.secs ∨ first.secs = second.secs ∧ first.frac < second.frac) ↔
      first.secs / 3600 < second.secs / 3600 ∨ first.secs / 3600 = second.secs / 3600 ∧
        (first.secs / 60 % 60 < second.secs / 60 % 60 ∨
          first.secs / 60 % 60 = second.secs / 60 % 60 ∧
          (first.secs % 60 + first.frac / 1000000000 <
              second.secs % 60 + second.frac / 1000000000 ∨
            first.secs % 60 + first.frac / 1000000000 =
              second.secs % 60 + second.frac / 1000000000 ∧
            first.frac % 1000000000 < second.frac % 1000000000)) := by
  have hfirst := first.leap
  have hsecond := second.leap
  have hlimit := first.frac_lt
  have hlimit' := second.frac_lt
  omega

theorem write_lt_iff {a b : DateTime} (ha : 0 ≤ a.date.year ∧ a.date.year ≤ 9999)
    (hb : 0 ≤ b.date.year ∧ b.date.year ≤ 9999) : write a < write b ↔ a < b := by
  have hyear : ∀ instant : DateTime, instant.date.year ≤ 9999 →
      instant.date.year.toNat < 10 ^ 4 := fun instant hle => by omega
  have hmonth : ∀ instant : DateTime, instant.date.monthDay.1 + 1 < 10 ^ 2 := fun instant => by
    have hlt := instant.date.month_lt
    omega
  have hday : ∀ instant : DateTime, instant.date.monthDay.2 < 10 ^ 2 := fun instant => by
    have hle := instant.date.place_le
    omega
  have hhour : ∀ instant : DateTime, instant.time.secs / 3600 < 10 ^ 2 := fun instant => by
    have hlt := instant.time.secs_lt
    omega
  have hminute : ∀ instant : DateTime, instant.time.secs / 60 % 60 < 10 ^ 2 := fun instant => by
    omega
  have hsecond : ∀ instant : DateTime,
      instant.time.secs % 60 + instant.time.frac / 1000000000 < 10 ^ 2 := fun instant => by
    have hlt := instant.time.frac_lt
    omega
  have hnano : ∀ instant : DateTime, instant.time.frac % 1000000000 < 10 ^ 9 := fun instant => by
    omega
  have horder : a < b ↔ a.date.number < b.date.number ∨ a.date.number = b.date.number ∧
      (a.time.secs < b.time.secs ∨ a.time.secs = b.time.secs ∧ a.time.frac < b.time.frac) :=
    Iff.rfl
  unfold write
  rw [horder, clock_lt_iff, digits_append_lt_iff (hyear a ha.2) (hyear b hb.2),
    List.cons_lt_cons_self, digits_append_lt_iff (hmonth a) (hmonth b), List.cons_lt_cons_self,
    digits_append_lt_iff (hday a) (hday b), List.cons_lt_cons_self,
    digits_append_lt_iff (hhour a) (hhour b), List.cons_lt_cons_self,
    digits_append_lt_iff (hminute a) (hminute b), List.cons_lt_cons_self,
    digits_append_lt_iff (hsecond a) (hsecond b), fraction_lt_iff (hnano a) (hnano b),
    CivilDate.Day.number_inj, CivilDate.Day.number_lt_iff, CivilDate.Day.eq_iff, Prod.ext_iff]
  by_cases hsame : a.date.year = b.date.year
  · rw [CivilDate.Day.ordinal_lt_iff hsame, hsame]
    omega
  · omega

theorem toNat_lt_of_mem_digits {width n : ℕ} {c : Char} (hmem : c ∈ digits width n) :
    c.toNat < 128 := by
  have hdigit := isDigit_of_mem_digits hmem
  simp only [Char.isDigit, Bool.and_eq_true, decide_eq_true_eq] at hdigit
  have hle : c.toNat ≤ 57 := hdigit.2
  omega

theorem toNat_lt_of_mem_fraction {nano : ℕ} {c : Char} (hmem : c ∈ fraction nano) :
    c.toNat < 128 := by
  unfold fraction at hmem
  split_ifs at hmem
  · cases hmem
  all_goals
    rcases List.mem_cons.mp hmem with rfl | hdigits
    · decide
    · exact toNat_lt_of_mem_digits hdigits

theorem toNat_lt_of_mem_write {instant : DateTime} {c : Char} (hmem : c ∈ write instant) :
    c.toNat < 128 := by
  have hall : (zone.all fun c => decide (c.toNat < 128)) = true := by decide
  have hzone : ∀ c ∈ zone, c.toNat < 128 := fun c hmem =>
    of_decide_eq_true (List.all_eq_true.mp hall c hmem)
  simp only [write, List.mem_append, List.mem_cons] at hmem
  rcases hmem with h | rfl | h | rfl | h | rfl | h | rfl | h | rfl | h | h | h
  all_goals first
    | decide
    | exact toNat_lt_of_mem_digits h
    | exact toNat_lt_of_mem_fraction h
    | exact hzone c h

/-! ## Reading it back -/

theorem number_field {width n : ℕ} (hn : n < 10 ^ width) (rest : List Char) :
    number width width (digits width n ++ rest) = some (n, rest) :=
  number_digits le_rfl le_rfl hn (.inl rfl)

theorem readFraction_fraction {nano : ℕ} (hnano : nano < 10 ^ 9) :
    readFraction (fraction nano ++ zone) = some (nano, zone) := by
  rcases fraction_cases hnano with ⟨hzero, htext⟩ | ⟨width, q, hone, hwidth, _, hq, hscaled, htext⟩
  · rw [htext, hzero]
    rfl
  · have hread : number 1 9 (digits width q ++ zone) = some (q, zone) :=
      number_digits hone hwidth hq (.inr rfl)
    rw [htext, List.cons_append, readFraction, hread, Option.map_some]
    have hcount : (digits width q ++ zone).length - zone.length = width := by simp
    rw [hcount, ← hscaled]
    rfl

theorem timeOf_fields (time : NaiveTime) :
    timeOf (time.secs / 3600) (time.secs / 60 % 60) (time.secs % 60 + time.frac / 1000000000)
      (time.frac % 1000000000) = some time := by
  have hsecs := time.secs_lt
  have hfrac := time.frac_lt
  have hleap := time.leap
  have hsame : time.secs / 3600 * 3600 + time.secs / 60 % 60 * 60 +
      min (time.secs % 60 + time.frac / 1000000000) 59 = time.secs := by omega
  have hnano : (time.frac % 1000000000 +
      if time.secs % 60 + time.frac / 1000000000 = 60 then 1000000000 else 0) = time.frac := by
    split_ifs <;> omega
  unfold timeOf
  simp only [hsame, hnano]
  rw [dif_pos]
  exact ⟨⟨by omega, by omega, by omega⟩, hsecs, hfrac, hleap⟩

theorem read_write {instant : DateTime} (hpos : 0 ≤ instant.date.year)
    (hle : instant.date.year ≤ 9999) : read (write instant) = some instant := by
  have hmonth := instant.date.month_lt
  have hday := instant.date.place_le
  have hsecs := instant.time.secs_lt
  have hfrac := instant.time.frac_lt
  have hfull : ((instant.date.year.toNat : ℕ) : ℤ) = instant.date.year := Int.toNat_of_nonneg hpos
  have hyear : instant.date.year.toNat < 10 ^ 4 := by omega
  have hmonthField : instant.date.monthDay.1 + 1 < 10 ^ 2 := by omega
  have hdayField : instant.date.monthDay.2 < 10 ^ 2 := by omega
  have hhour : instant.time.secs / 3600 < 10 ^ 2 := by omega
  have hminute : instant.time.secs / 60 % 60 < 10 ^ 2 := by omega
  have hsecond : instant.time.secs % 60 + instant.time.frac / 1000000000 < 10 ^ 2 := by omega
  have hnano : instant.time.frac % 1000000000 < 10 ^ 9 := by omega
  have hdate : CivilDate.Day.ofMonthDay instant.date.year.toNat
      (instant.date.monthDay.1 + 1 - 1) instant.date.monthDay.2 = some instant.date := by
    rw [hfull, Nat.add_sub_cancel, CivilDate.Day.ofMonthDay_monthDay]
  -- Field by field, each with the separator after it.
  refine Option.bind_eq_some_iff.mpr ⟨(_, _), number_field hyear _, ?_⟩
  refine Option.bind_eq_some_iff.mpr ⟨_, rfl, ?_⟩
  refine Option.bind_eq_some_iff.mpr ⟨(_, _), number_field hmonthField _, ?_⟩
  refine Option.bind_eq_some_iff.mpr ⟨_, rfl, ?_⟩
  refine Option.bind_eq_some_iff.mpr ⟨(_, _), number_field hdayField _, ?_⟩
  refine Option.bind_eq_some_iff.mpr ⟨_, rfl, ?_⟩
  refine Option.bind_eq_some_iff.mpr ⟨(_, _), number_field hhour _, ?_⟩
  refine Option.bind_eq_some_iff.mpr ⟨_, rfl, ?_⟩
  refine Option.bind_eq_some_iff.mpr ⟨(_, _), number_field hminute _, ?_⟩
  refine Option.bind_eq_some_iff.mpr ⟨_, rfl, ?_⟩
  refine Option.bind_eq_some_iff.mpr ⟨(_, _), number_field hsecond _, ?_⟩
  refine Option.bind_eq_some_iff.mpr ⟨(_, _), readFraction_fraction hnano, ?_⟩
  dsimp only
  rw [if_pos (.inr rfl), if_neg (Nat.succ_ne_zero _), hdate, timeOf_fields]
  rfl

end Rfc3339

/-- The bytes of what the crate writes are ordered as the instants. -/
theorem Chrono.Documented.bytes_lt_iff {chrono : Chrono} (hchrono : chrono.Documented)
    {a b : DateTime} (ha : 0 ≤ a.date.year ∧ a.date.year ≤ 9999)
    (hb : 0 ≤ b.date.year ∧ b.date.year ≤ 9999) :
    bytes (encodeTime chrono a) < bytes (encodeTime chrono b) ↔ a < b := by
  have hwritten : encodeTime chrono a = Rfc3339.write a := hchrono.writes a ha.1 ha.2
  have hother : encodeTime chrono b = Rfc3339.write b := hchrono.writes b hb.1 hb.2
  rw [hwritten, hother, Times.bytes_lt_iff (fun _ => Rfc3339.toNat_lt_of_mem_write)
    fun _ => Rfc3339.toNat_lt_of_mem_write]
  exact Rfc3339.write_lt_iff ha hb

/-- What the crate writes is read back. -/
theorem Chrono.Documented.decodeTime_encodeTime {chrono : Chrono} (hchrono : chrono.Documented)
    {a : DateTime} (ha : 0 ≤ a.date.year ∧ a.date.year ≤ 9999) :
    decodeTime chrono (encodeTime chrono a) = some a := by
  have hwritten : encodeTime chrono a = Rfc3339.write a := hchrono.writes a ha.1 ha.2
  rw [hwritten]
  exact hchrono.reads _ a (Rfc3339.read_write ha.1 ha.2)

/-! ## The crate -/

namespace Rfc3339

/-- A year beyond the four digits has a sign. -/
def writeYear (year : ℤ) : List Char :=
  if 0 ≤ year ∧ year ≤ 9999 then digits 4 year.toNat
  else (if year < 0 then '-' else '+') :: digits (max 4 (Nat.log 10 year.natAbs + 1)) year.natAbs

end Rfc3339

/-- The crate: the text of any instant is that of the same instant in a year of four
digits, with its own year in front. -/
def calendarCrate : Chrono where
  toRfc3339 instant :=
    Rfc3339.writeYear instant.date.year ++ (Rfc3339.write instant).drop 4
  parseFromRfc3339 := Rfc3339.read

theorem documented_calendarCrate : calendarCrate.Documented where
  writes instant hpos hle := by
    change Rfc3339.writeYear instant.date.year ++ (Rfc3339.write instant).drop 4 = _
    rw [Rfc3339.writeYear, if_pos ⟨hpos, hle⟩, Rfc3339.write, List.drop_left' (length_digits 4 _)]
  reads _ _ hread := hread

end SeizaServer.Times
