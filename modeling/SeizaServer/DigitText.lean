import Mathlib

/-!
# Decimal numbers of a fixed width

Numbers padded with zeros to a width, as text.  Texts of one width are ordered as
their numbers, and so are texts that continue after them; a number is read back from
its digits.
-/

namespace DigitText

/-! ## Texts that begin alike -/

theorem append_lt_append_iff {α : Type*} [LT α] {first second : List α}
    (hlength : first.length = second.length) (rest last : List α) :
    first ++ rest < second ++ last ↔ first < second ∨ first = second ∧ rest < last := by
  induction first generalizing second with
  | nil =>
      obtain rfl := List.length_eq_zero_iff.mp hlength.symm
      simp
  | cons head tail ih =>
      cases second with
      | nil => cases hlength
      | cons other others =>
          have hrest := ih (Nat.succ.inj hlength)
          simp only [List.cons_append, List.cons_lt_cons_iff, List.cons.injEq, hrest]
          tauto

/-! ## Digits -/

/-- The last digits of a number, the most significant first. -/
def digits : ℕ → ℕ → List Char
  | 0, _ => []
  | width + 1, n => digits width (n / 10) ++ [Nat.digitChar (n % 10)]

@[simp] theorem length_digits (width n : ℕ) : (digits width n).length = width := by
  induction width generalizing n with
  | zero => rfl
  | succ width ih => rw [digits, List.length_append, ih, List.length_singleton]

/-- What a decimal digit is, for the ten of them. -/
theorem digitChar_spec : ∀ digit : Fin 10, (Nat.digitChar digit).isDigit = true ∧
    (Nat.digitChar digit).toNat = digit + 48 := by
  decide

theorem isDigit_digitChar (n : ℕ) : (Nat.digitChar (n % 10)).isDigit = true :=
  (digitChar_spec ⟨n % 10, Nat.mod_lt n (by decide)⟩).1

theorem toNat_digitChar (n : ℕ) : (Nat.digitChar (n % 10)).toNat = n % 10 + 48 :=
  (digitChar_spec ⟨n % 10, Nat.mod_lt n (by decide)⟩).2

theorem isDigit_of_mem_digits {width n : ℕ} {c : Char} (hmem : c ∈ digits width n) :
    c.isDigit = true := by
  induction width generalizing n with
  | zero => cases hmem
  | succ width ih =>
      rw [digits, List.mem_append, List.mem_singleton] at hmem
      rcases hmem with hfront | rfl
      · exact ih hfront
      · exact isDigit_digitChar n

theorem char_lt_iff (c d : Char) : c < d ↔ c.toNat < d.toNat := Iff.rfl

theorem digitChar_lt_iff (n m : ℕ) :
    Nat.digitChar (n % 10) < Nat.digitChar (m % 10) ↔ n % 10 < m % 10 := by
  rw [char_lt_iff, toNat_digitChar, toNat_digitChar]
  omega

theorem digitChar_eq_iff (n m : ℕ) :
    Nat.digitChar (n % 10) = Nat.digitChar (m % 10) ↔ n % 10 = m % 10 := by
  constructor
  · intro heq
    have hnat := congrArg Char.toNat heq
    rw [toNat_digitChar, toNat_digitChar] at hnat
    omega
  · exact congrArg Nat.digitChar

/-- Numbers of one digit more: first the others, then the last digit. -/
theorem div_lt_of_lt_pow_succ {width n : ℕ} (hn : n < 10 ^ (width + 1)) : n / 10 < 10 ^ width :=
  Nat.div_lt_of_lt_mul (by rwa [pow_succ'] at hn)

theorem digits_inj {width n m : ℕ} (hn : n < 10 ^ width) (hm : m < 10 ^ width) :
    digits width n = digits width m ↔ n = m := by
  refine ⟨fun hsame => ?_, congrArg _⟩
  induction width generalizing n m with
  | zero =>
      rw [pow_zero, Nat.lt_one_iff] at hn hm
      rw [hn, hm]
  | succ width ih =>
      obtain ⟨hfront, hlast⟩ := List.append_inj' hsame rfl
      have hquotient := ih (div_lt_of_lt_pow_succ hn) (div_lt_of_lt_pow_succ hm) hfront
      have hdigit := (digitChar_eq_iff n m).mp (List.singleton_inj.mp hlast)
      omega

theorem digits_lt_iff {width n m : ℕ} (hn : n < 10 ^ width) (hm : m < 10 ^ width) :
    digits width n < digits width m ↔ n < m := by
  induction width generalizing n m with
  | zero =>
      rw [pow_zero, Nat.lt_one_iff] at hn hm
      rw [hn, hm]
      exact iff_of_false (List.lt_irrefl _) (lt_irrefl 0)
  | succ width ih =>
      have hquotient := div_lt_of_lt_pow_succ hn
      have hother := div_lt_of_lt_pow_succ hm
      have hlast : [Nat.digitChar (n % 10)] < [Nat.digitChar (m % 10)] ↔ n % 10 < m % 10 := by
        rw [List.cons_lt_cons_iff, digitChar_lt_iff]
        simp
      rw [digits, digits, append_lt_append_iff (by simp), ih hquotient hother,
        digits_inj hquotient hother, hlast]
      omega

/-- Two numbers of a width and what follows them. -/
theorem digits_append_lt_iff {width n m : ℕ} (hn : n < 10 ^ width) (hm : m < 10 ^ width)
    (rest last : List Char) :
    digits width n ++ rest < digits width m ++ last ↔ n < m ∨ n = m ∧ rest < last := by
  rw [append_lt_append_iff (by simp), digits_lt_iff hn hm, digits_inj hn hm]

/-- The first digits of a number are those of its quotient. -/
theorem digits_add (front back n : ℕ) :
    digits (front + back) n = digits front (n / 10 ^ back) ++ digits back (n % 10 ^ back) := by
  induction back generalizing n with
  | zero => simp [digits]
  | succ back ih =>
      have hquotient : n / 10 / 10 ^ back = n / 10 ^ (back + 1) := by
        rw [Nat.div_div_eq_div_mul, pow_succ']
      have hremainder : n / 10 % 10 ^ back = n % 10 ^ (back + 1) / 10 := by
        rw [pow_succ', Nat.mod_mul_right_div_self]
      have hlast : n % 10 ^ (back + 1) % 10 = n % 10 :=
        Nat.mod_mod_of_dvd n (dvd_pow_self 10 (Nat.succ_ne_zero back))
      rw [← Nat.add_assoc, digits, ih, digits, hquotient, hremainder, hlast, List.append_assoc]

/-! ## Reading -/

/-- The number some digits write. -/
def value (text : List Char) : ℕ := text.foldl (fun n c => 10 * n + (c.toNat - 48)) 0

/-- The number at the start of a text, of at most so many digits, and what follows. -/
def number (least most : ℕ) (text : List Char) : Option (ℕ × List Char) :=
  let front := (text.take most).takeWhile Char.isDigit
  if front.length < least then none else some (value front, text.drop front.length)

theorem value_digits {width n : ℕ} (hn : n < 10 ^ width) : value (digits width n) = n := by
  induction width generalizing n with
  | zero => exact (Nat.lt_one_iff.mp hn).symm
  | succ width ih =>
      have hfront : value (digits width (n / 10)) = n / 10 := ih (div_lt_of_lt_pow_succ hn)
      unfold value at hfront ⊢
      rw [digits, List.foldl_append, hfront]
      simp only [List.foldl_cons, List.foldl_nil, toNat_digitChar]
      omega

/-- A number is read as far as its digits go, or as many are wanted. -/
theorem number_digits {least most width n : ℕ} (hleast : least ≤ width) (hmost : width ≤ most)
    (hn : n < 10 ^ width) {rest : List Char}
    (hrest : width = most ∨ rest.takeWhile Char.isDigit = []) :
    number least most (digits width n ++ rest) = some (n, rest) := by
  have hstop : (rest.take (most - width)).takeWhile Char.isDigit = [] := by
    rcases hrest with rfl | hend
    · simp
    · cases rest with
      | nil => simp
      | cons c tail =>
          have hc : c.isDigit = false := by
            by_contra hdigit
            rw [List.takeWhile_cons, if_pos (by simpa using hdigit)] at hend
            cases hend
          cases most - width with
          | zero => rfl
          | succ left => simp [hc]
  have hfront : ((digits width n ++ rest).take most).takeWhile Char.isDigit = digits width n := by
    rw [List.take_append, length_digits, List.take_of_length_le (by simpa using hmost),
      List.takeWhile_append_of_pos (fun c hmem => isDigit_of_mem_digits hmem), hstop,
      List.append_nil]
  unfold number
  simp only [hfront, length_digits]
  rw [if_neg (by omega), value_digits hn, List.drop_left' (length_digits width n)]

end DigitText
