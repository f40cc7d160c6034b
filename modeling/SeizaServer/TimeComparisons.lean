import SeizaServer.DynamoTable
import SeizaServer.SqlxRepository

/-!
# Queries on stored times

What the comparisons of texts in queries and condition expressions say of the
instants, in a store that compares texts byte by byte.
-/

namespace SeizaServer.Times

variable [TimeStore]

/-! ## Leases -/

section Leases

variable {Options Solution : Type} {now : Time} {token : String}

/-- The query for leases that have run out selects those of which the expiry is not
after the clock. -/
theorem expiredBy_row_iff (hbytes : TimeStore.Bytewise) {row : JobRow Options Solution}
    (hnow : now.FourDigitYear) (hexpiry : ∀ expires ∈ row.leaseExpiresAt, expires.FourDigitYear) :
    row.expiredBy now = true ↔
      row.status = .solving ∧ ∃ expires ∈ row.leaseExpiresAt, expires ≤ now := by
  cases hexpires : row.leaseExpiresAt with
  | none => simp [JobRow.expiredBy, hexpires]
  | some expires => simp [JobRow.expiredBy, hexpires, hbytes.isLE_iff (hexpiry expires hexpires) hnow]

/-- The condition on the holder of a lease is that the clock is before the expiry. -/
theorem leasedTo_row_iff (hbytes : TimeStore.Bytewise) {row : JobRow Options Solution}
    (hnow : now.FourDigitYear) (hexpiry : ∀ expires ∈ row.leaseExpiresAt, expires.FourDigitYear) :
    row.leasedTo token now = true ↔ row.status = .solving ∧ row.leaseToken = some token ∧
      ∃ expires ∈ row.leaseExpiresAt, now < expires := by
  cases hexpires : row.leaseExpiresAt with
  | none => simp [JobRow.leasedTo, hexpires]
  | some expires =>
      simp [JobRow.leasedTo, hexpires, hbytes.isGT_iff (hexpiry expires hexpires) hnow, and_assoc]

theorem expiredBy_attributes_iff (hbytes : TimeStore.Bytewise)
    {attributes : JobAttributes Options Solution} (hnow : now.FourDigitYear)
    (hexpiry : ∀ expires ∈ attributes.leaseExpiresAt, expires.FourDigitYear) :
    attributes.expiredBy now = true ↔
      attributes.status = .solving ∧ ∃ expires ∈ attributes.leaseExpiresAt, expires ≤ now := by
  cases hexpires : attributes.leaseExpiresAt with
  | none => simp [JobAttributes.expiredBy, hexpires]
  | some expires =>
      simp [JobAttributes.expiredBy, hexpires, hbytes.isLE_iff (hexpiry expires hexpires) hnow]

theorem leasedTo_attributes_iff (hbytes : TimeStore.Bytewise)
    {attributes : JobAttributes Options Solution} (hnow : now.FourDigitYear)
    (hexpiry : ∀ expires ∈ attributes.leaseExpiresAt, expires.FourDigitYear) :
    attributes.leasedTo token now = true ↔
      attributes.status = .solving ∧ attributes.leaseToken = some token ∧
        ∃ expires ∈ attributes.leaseExpiresAt, now < expires := by
  cases hexpires : attributes.leaseExpiresAt with
  | none => simp [JobAttributes.leasedTo, hexpires]
  | some expires =>
      simp [JobAttributes.leasedTo, hexpires, hbytes.isGT_iff (hexpiry expires hexpires) hnow,
        and_assoc]

end Leases

/-! ## Every comparison -/

omit [TimeStore] in
theorem DateTime.eq_of_not_before {a b : DateTime} (hbefore : ¬ a < b) (hafter : ¬ b < a) :
    a = b := by
  change ¬ (_ ∨ _ ∧ (_ ∨ _ ∧ _)) at hbefore hafter
  have hdate : a.date = b.date := CivilDate.Day.number_inj.mp (by omega)
  ext1
  · exact hdate
  · ext <;> omega

omit [TimeStore] in
theorem DateTime.not_before_self (a : DateTime) : ¬ a < a := by
  change ¬ (_ ∨ _ ∧ (_ ∨ _ ∧ _))
  omega

/-- A comparison of two stored instants that is neither way is of equal instants. -/
theorem collate_eq_iff (hbytes : TimeStore.Bytewise) {a b : DateTime}
    (ha : 0 ≤ a.date.year ∧ a.date.year ≤ 9999) (hb : 0 ≤ b.date.year ∧ b.date.year ≤ 9999) :
    TimeStore.collate (encodeTime TimeStore.chrono a) (encodeTime TimeStore.chrono b) = .eq ↔
      a = b := by
  have hlt := (hbytes.lt_iff _ _).trans (hbytes.documented.bytes_lt_iff ha hb)
  have hgt := (hbytes.gt_iff _ _).trans (hbytes.documented.bytes_lt_iff hb ha)
  constructor
  · intro heq
    rw [heq] at hlt hgt
    apply DateTime.eq_of_not_before
    · intro hbefore
      cases hlt.mpr hbefore
    · intro hafter
      cases hgt.mpr hafter
  · intro hsame
    have hself := DateTime.not_before_self b
    rw [hsame] at hlt hgt ⊢
    generalize TimeStore.collate _ _ = order at hlt hgt ⊢
    cases order with
    | lt => exact absurd (hlt.mp rfl) hself
    | gt => exact absurd (hgt.mp rfl) hself
    | eq => rfl

/-- For instants in the years 0 to 9999: the bytes of their texts are ordered as the
instants and each is read back from its text, so in a store that compares bytes every
comparison of texts is that of the instants, as are the conditions on leases. -/
theorem time_text (hbytes : TimeStore.Bytewise) (a b : DateTime)
    (ha : 0 ≤ a.date.year ∧ a.date.year ≤ 9999) (hb : 0 ≤ b.date.year ∧ b.date.year ≤ 9999) :
    (bytes (encodeTime TimeStore.chrono a) < bytes (encodeTime TimeStore.chrono b) ↔ a < b) ∧
    (bytes (encodeTime TimeStore.chrono a) = bytes (encodeTime TimeStore.chrono b) ↔ a = b) ∧
    decodeTime TimeStore.chrono (encodeTime TimeStore.chrono a) = some a ∧
    (TimeStore.collate (encodeTime TimeStore.chrono a) (encodeTime TimeStore.chrono b) = .lt ↔
      a < b) ∧
    (TimeStore.collate (encodeTime TimeStore.chrono a) (encodeTime TimeStore.chrono b) = .eq ↔
      a = b) ∧
    (TimeStore.collate (encodeTime TimeStore.chrono a) (encodeTime TimeStore.chrono b) = .gt ↔
      b < a) ∧
    (∀ {Options Solution : Type} (row : JobRow Options Solution) (token : String) (now : Time),
      now.FourDigitYear → (∀ expires ∈ row.leaseExpiresAt, expires.FourDigitYear) →
        (row.expiredBy now = true ↔
          row.status = .solving ∧ ∃ expires ∈ row.leaseExpiresAt, expires ≤ now) ∧
        (row.leasedTo token now = true ↔ row.status = .solving ∧ row.leaseToken = some token ∧
          ∃ expires ∈ row.leaseExpiresAt, now < expires)) ∧
    ∀ {Options Solution : Type} (attributes : JobAttributes Options Solution) (token : String)
      (now : Time), now.FourDigitYear →
        (∀ expires ∈ attributes.leaseExpiresAt, expires.FourDigitYear) →
          (attributes.expiredBy now = true ↔
            attributes.status = .solving ∧ ∃ expires ∈ attributes.leaseExpiresAt, expires ≤ now) ∧
          (attributes.leasedTo token now = true ↔
            attributes.status = .solving ∧ attributes.leaseToken = some token ∧
              ∃ expires ∈ attributes.leaseExpiresAt, now < expires) := by
  have hlt := hbytes.documented.bytes_lt_iff ha hb
  have hgt := hbytes.documented.bytes_lt_iff hb ha
  refine ⟨hlt, ?_, hbytes.documented.decodeTime_encodeTime ha, (hbytes.lt_iff _ _).trans hlt,
    collate_eq_iff hbytes ha hb, (hbytes.gt_iff _ _).trans hgt, ?_, ?_⟩
  · constructor
    · intro hsame
      rw [hsame] at hlt hgt
      exact DateTime.eq_of_not_before (fun h => List.lt_irrefl _ (hlt.mpr h))
        fun h => List.lt_irrefl _ (hgt.mpr h)
    · intro hsame
      rw [hsame]
  · intro Options Solution row token now hnow hexpiry
    exact ⟨expiredBy_row_iff hbytes hnow hexpiry, leasedTo_row_iff hbytes hnow hexpiry⟩
  · intro Options Solution attributes token now hnow hexpiry
    exact ⟨expiredBy_attributes_iff hbytes hnow hexpiry,
      leasedTo_attributes_iff hbytes hnow hexpiry⟩

/-- Five milliseconds into a leap second. -/
def inLeapSecond : DateTime :=
  ⟨⟨2016, 366, by decide, by decide⟩, ⟨86399, 1005000000, by decide, by decide, by decide⟩⟩

def secondOfJanuary : DateTime :=
  ⟨⟨2017, 2, by decide, by decide⟩, ⟨5, 250000000, by decide, by decide, by decide⟩⟩

omit [TimeStore] in
theorem time_text_leapSecond :
    bytes (encodeTime calendarCrate inLeapSecond) <
        bytes (encodeTime calendarCrate secondOfJanuary) ∧
      decodeTime calendarCrate (encodeTime calendarCrate inLeapSecond) = some inLeapSecond ∧
      TimeStore.bytewise.collate (encodeTime calendarCrate secondOfJanuary)
        (encodeTime calendarCrate inLeapSecond) = .gt := by
  have htext := @time_text TimeStore.bytewise TimeStore.bytewise_spec inLeapSecond secondOfJanuary
    (by decide) (by decide)
  have hother := @time_text TimeStore.bytewise TimeStore.bytewise_spec secondOfJanuary inLeapSecond
    (by decide) (by decide)
  have hbefore : inLeapSecond < secondOfJanuary := .inl (by decide)
  exact ⟨htext.1.mpr hbefore, htext.2.2.1, hother.2.2.2.2.2.1.mpr hbefore⟩

end SeizaServer.Times
