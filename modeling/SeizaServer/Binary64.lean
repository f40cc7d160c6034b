import Mathlib

/-!
# Normal binary64 numbers

The logical model of `Float` rounds a mantissa with enough bits to a full one.
Integers of 64 bits convert to normal doubles, and quotients of normal doubles
whose exponents are far from the ends of the range are normal again.
-/

namespace Binary64

open Float.Model Float.Model.UnpackedFloat

/-- A double with a full mantissa and an exponent between two bounds. -/
def IsNormal (x : Float) (sign : Sign) (low high : ℤ) : Prop :=
  ∃ mantissa exponent hpos, x.toModel.unpack = .finite sign mantissa exponent hpos ∧
    mantissa.log2 = 52 ∧ low ≤ exponent ∧ exponent ≤ high

/-! ## Packing -/

theorem unpackSign_packComponents {spec : Format} {sign : Sign}
    {exponent : BitVec spec.exponentBits} {mantissa : BitVec spec.mantissaBitsWithoutImplicit} :
    Sign.ofBitVec (unpackSign (packComponents spec sign exponent mantissa)) = sign := by
  have hbits : unpackSign (packComponents spec sign exponent mantissa) = sign.toBitVec := by
    ext i hi
    have hzero : i = 0 := by omega
    subst hzero
    simp [unpackSign, packComponents, BitVec.getLsbD_append, ← BitVec.getLsbD_eq_getElem]
  rw [hbits]
  cases sign <;> rfl

/-- A normal number survives packing. -/
theorem unpack_pack {sign : Sign} {mantissa : ℕ} {exponent : ℤ} (hpos : 0 < mantissa)
    (hmantissa : mantissa.log2 = 52) (hlow : -1074 ≤ exponent) (hhigh : exponent ≤ 971) :
    (Float.Model.pack (.finite sign mantissa exponent hpos)).unpack =
      .finite sign mantissa exponent hpos := by
  have hbounds := (Nat.log2_eq_iff (Nat.ne_of_gt hpos)).mp hmantissa
  let biased := (exponent + 1075).toNat
  have hbiased : (exponent + Format.binary64.exponentBias +
      Format.binary64.mantissaBitsWithoutImplicit).toNat = biased := by
    change (exponent + 1023 + 52).toNat = (exponent + 1075).toNat
    congr 1
    ring
  have hpacked : UnpackedFloat.pack Format.binary64 (.finite sign mantissa exponent hpos) =
      packComponents Format.binary64 sign (BitVec.ofNat 11 biased) (BitVec.ofNat 52 mantissa) := by
    unfold UnpackedFloat.pack
    dsimp only
    rw [hbiased, if_neg, if_pos]
    · change mantissa.log2 + 1 = 53
      omega
    · change ¬ 2048 ≤ biased + 1
      omega
  change UnpackedFloat.unpack Format.binary64 (UnpackedFloat.pack Format.binary64 _) = _
  rw [hpacked]
  unfold UnpackedFloat.unpack
  dsimp only
  simp only [unpackExponent_packComponents, unpackMantissa_packComponents, unpackSign_packComponents]
  have hall : BitVec.ofNat 11 biased ≠ -1#11 := by
    intro heq
    have hnat := congrArg BitVec.toNat heq
    simp at hnat
    omega
  have hzero : BitVec.ofNat 11 biased ≠ 0#11 := by
    intro heq
    have hnat := congrArg BitVec.toNat heq
    simp at hnat
    omega
  rw [if_neg hall, if_neg hzero]
  have hmantissaBits : (1#1 ++ BitVec.ofNat 52 mantissa).toNat = mantissa := by
    have hlow : (BitVec.ofNat 52 mantissa).toNat = mantissa - 2 ^ 52 := by
      rw [BitVec.toNat_ofNat]
      omega
    rw [BitVec.toNat_append, hlow, ← Nat.shiftLeft_add_eq_or_of_lt (by omega)]
    change 1 <<< 52 + (mantissa - 2 ^ 52) = mantissa
    rw [Nat.shiftLeft_eq]
    omega
  have hexponentBits : ((BitVec.ofNat 11 biased).toNat : ℤ) -
      (Format.binary64.exponentBias + Format.binary64.mantissaBitsWithoutImplicit) = exponent := by
    change ((BitVec.ofNat 11 biased).toNat : ℤ) - (1023 + 52) = exponent
    rw [BitVec.toNat_ofNat, Nat.mod_eq_of_lt (by omega)]
    omega
  congr 1

/-! ## Rounding -/

theorem shift_mantissa (extended : ExtendedMantissa) (count : ℕ) :
    (extended >>> count).mantissa = extended.mantissa / 2 ^ count := by
  induction count with
  | zero =>
      rw [pow_zero, Nat.div_one]
      rfl
  | succ count ih =>
      have hstep : (extended >>> (count + 1)).mantissa = (extended >>> count).mantissa / 2 := rfl
      rw [hstep, ih, Nat.div_div_eq_div_mul, pow_succ]

theorem roundedMantissa_bounds (extended : ExtendedMantissa) :
    extended.roundedMantissa = extended.mantissa ∨
      extended.roundedMantissa = extended.mantissa + 1 := by
  obtain ⟨mantissa, roundBit, stickyBit⟩ := extended
  unfold ExtendedMantissa.roundedMantissa
  cases roundBit
  · cases stickyBit <;> exact .inl rfl
  · cases stickyBit
    · have heven : mantissa % 2 = 0 ∨ mantissa % 2 = 1 := by omega
      change mantissa + mantissa % 2 = mantissa ∨ mantissa + mantissa % 2 = mantissa + 1
      omega
    · exact .inr rfl

theorem ofMantissaAndAccuracy_mantissa (mantissa : ℕ) (accuracy : Accuracy) :
    (ExtendedMantissa.ofMantissaAndAccuracy mantissa accuracy).mantissa = mantissa := by
  unfold ExtendedMantissa.ofMantissaAndAccuracy
  split <;> rfl

theorem targetExponent_eq (mantissa : ℕ) (exponent : ℤ) (hmantissa : 52 ≤ mantissa.log2)
    (hexponent : -1074 ≤ exponent) :
    Format.binary64.targetExponent (totalExponent mantissa exponent) =
      exponent + (mantissa.log2 - 52 : ℕ) := by
  change max ((mantissa.log2 : ℤ) + 1 + exponent - 53) (-1074) = _
  omega

/-- A mantissa with enough bits loses the rest of them. -/
theorem shiftToTargetExponent_eq {mantissa : ℕ} {exponent : ℤ} {accuracy : Accuracy}
    (hmantissa : 52 ≤ mantissa.log2) (hexponent : -1074 ≤ exponent) :
    (shiftToTargetExponent Format.binary64 mantissa exponent accuracy).1.mantissa =
        mantissa / 2 ^ (mantissa.log2 - 52) ∧
      (shiftToTargetExponent Format.binary64 mantissa exponent accuracy).2 =
        exponent + (mantissa.log2 - 52 : ℕ) := by
  unfold shiftToTargetExponent shiftToExponent
  rw [targetExponent_eq mantissa exponent hmantissa hexponent]
  have hshift : (exponent + (mantissa.log2 - 52 : ℕ) - exponent).toNat = mantissa.log2 - 52 := by
    omega
  dsimp only
  rw [hshift, shift_mantissa, ofMantissaAndAccuracy_mantissa]
  exact ⟨rfl, rfl⟩

/-- A mantissa with enough bits is rounded to a full one. -/
theorem roundWithAccuracy_normal {sign : Sign} {mantissa : ℕ} {exponent : ℤ} {accuracy : Accuracy}
    (hmantissa : 52 ≤ mantissa.log2) (hexponent : -1074 ≤ exponent) :
    ∃ rounded final hpos,
      roundWithAccuracy Format.binary64 sign mantissa exponent accuracy =
        .finite sign rounded final hpos ∧ rounded.log2 = 52 ∧
      exponent + (mantissa.log2 - 52 : ℕ) ≤ final ∧
      final ≤ exponent + (mantissa.log2 - 52 : ℕ) + 1 := by
  obtain ⟨hfirst, hfirstExponent⟩ :=
    @shiftToTargetExponent_eq mantissa exponent accuracy hmantissa hexponent
  have hne : mantissa ≠ 0 := by
    intro hzero
    rw [hzero] at hmantissa
    exact absurd hmantissa (by decide)
  have hbounds := (Nat.log2_eq_iff hne).mp rfl
  have hsplit : (2 : ℕ) ^ mantissa.log2 = 2 ^ 52 * 2 ^ (mantissa.log2 - 52) := by
    rw [← pow_add]
    congr 1
    omega
  have hkept : 2 ^ 52 ≤ mantissa / 2 ^ (mantissa.log2 - 52) ∧
      mantissa / 2 ^ (mantissa.log2 - 52) < 2 ^ 53 := by
    constructor
    · rw [Nat.le_div_iff_mul_le (by positivity), ← hsplit]
      exact hbounds.1
    · rw [Nat.div_lt_iff_lt_mul (by positivity)]
      calc
        mantissa < 2 ^ (mantissa.log2 + 1) := hbounds.2
        _ = 2 ^ 53 * 2 ^ (mantissa.log2 - 52) := by
          rw [pow_succ, hsplit]
          ring
  have hrounded := roundedMantissa_bounds
    (shiftToTargetExponent Format.binary64 mantissa exponent accuracy).1
  rw [hfirst] at hrounded
  generalize hextended : shiftToTargetExponent Format.binary64 mantissa exponent accuracy =
    extended at hfirst hfirstExponent hrounded
  obtain ⟨shifted, next⟩ := extended
  dsimp only at hfirst hfirstExponent hrounded
  have hroundedLog : 52 ≤ shifted.roundedMantissa.log2 := by
    rw [Nat.le_log2 (by omega)]
    omega
  obtain ⟨hsecond, hsecondExponent⟩ := @shiftToTargetExponent_eq shifted.roundedMantissa next
    .exact hroundedLog (by omega)
  have hlogs : shifted.roundedMantissa.log2 = 52 ∨
      shifted.roundedMantissa = 2 ^ 53 := by
    by_cases hfull : shifted.roundedMantissa < 2 ^ 53
    · left
      rw [Nat.log2_eq_iff (by omega)]
      omega
    · right
      omega
  unfold roundWithAccuracy
  rw [hextended]
  dsimp only
  generalize shiftToTargetExponent Format.binary64 shifted.roundedMantissa next .exact = final
    at hsecond hsecondExponent
  obtain ⟨finalExtended, finalExponent⟩ := final
  dsimp only at hsecond hsecondExponent ⊢
  have hfinal : finalExtended.mantissa.log2 = 52 ∧ next ≤ finalExponent ∧
      finalExponent ≤ next + 1 := by
    cases hlogs with
    | inl hlog =>
        rw [hlog, Nat.sub_self, pow_zero, Nat.div_one] at hsecond
        rw [hlog] at hsecondExponent
        rw [hsecond]
        omega
    | inr hfull =>
        have hlog : shifted.roundedMantissa.log2 = 53 := by
          rw [hfull]
          exact Nat.log2_two_pow
        rw [hlog] at hsecond hsecondExponent
        rw [hfull] at hsecond
        have hvalue : finalExtended.mantissa = 2 ^ 52 := by
          rw [hsecond]
          norm_num
        rw [hvalue, Nat.log2_two_pow]
        omega
  have hpositive : finalExtended.mantissa ≠ 0 := by
    intro hzero
    rw [hzero] at hfinal
    exact absurd hfinal.1 (by decide)
  rw [dif_neg hpositive]
  exact ⟨_, _, Nat.pos_of_ne_zero hpositive, rfl, hfinal.1, by omega, by omega⟩

/-! ## Normal numbers -/

theorem isNormal_pack {sign : Sign} {mantissa : ℕ} {exponent low high : ℤ} {accuracy : Accuracy}
    (hmantissa : 52 ≤ mantissa.log2) (hlow : low ≤ exponent + (mantissa.log2 - 52 : ℕ))
    (hhigh : exponent + (mantissa.log2 - 52 : ℕ) + 1 ≤ high) (hmin : -1074 ≤ exponent)
    (hmax : high ≤ 971) :
    IsNormal (Float.ofModel (Float.Model.pack
      (roundWithAccuracy Format.binary64 sign mantissa exponent accuracy))) sign low high := by
  obtain ⟨rounded, final, hpos, hround, hlog, hfinalLow, hfinalHigh⟩ :=
    @roundWithAccuracy_normal sign mantissa exponent accuracy hmantissa hmin
  rw [hround]
  exact ⟨rounded, final, hpos, unpack_pack hpos hlog (by omega) (by omega), hlog, by omega,
    by omega⟩

theorem log2_shiftLeft {mantissa : ℕ} (hpos : 0 < mantissa) (count : ℕ) :
    (mantissa <<< count).log2 = mantissa.log2 + count := by
  have hbounds := (Nat.log2_eq_iff (Nat.ne_of_gt hpos)).mp rfl
  have hpower : 0 < 2 ^ count := by positivity
  rw [Nat.shiftLeft_eq, Nat.log2_eq_iff (Nat.mul_ne_zero (Nat.ne_of_gt hpos) hpower.ne')]
  constructor
  · rw [pow_add]
    exact Nat.mul_le_mul_right _ hbounds.1
  · rw [add_right_comm, pow_add]
    exact Nat.mul_lt_mul_of_pos_right hbounds.2 hpower

/-- Numbers that fit into 64 bits convert to normal doubles. -/
theorem isNormal_round {sign : Sign} {magnitude : ℕ} (hpos : 0 < magnitude)
    (hlog : magnitude.log2 ≤ 63) :
    IsNormal (Float.ofModel (Float.Model.pack
      (UnpackedFloat.round Format.binary64 sign magnitude 0))) sign (-52) 12 := by
  have htarget : Format.binary64.targetExponent (totalExponent magnitude 0) =
      (magnitude.log2 : ℤ) - 52 := by
    change max ((magnitude.log2 : ℤ) + 1 + 0 - 53) (-1074) = _
    omega
  unfold UnpackedFloat.round
  rw [htarget]
  unfold decreaseExponent
  dsimp only
  have hshifted := log2_shiftLeft hpos (0 - ((magnitude.log2 : ℤ) - 52)).toNat
  apply isNormal_pack
  · omega
  · omega
  · omega
  · omega
  · omega

theorem isNormal_ofInt64 {n : Int64} (hne : n.toInt ≠ 0) :
    IsNormal (Float.ofModel (Float.Model.ofInt64 n)) (if 0 < n.toInt then .positive else .negative)
      (-52) 12 := by
  have hlow := n.le_toInt
  have hhigh := n.toInt_lt
  change IsNormal (Float.ofModel (Float.Model.pack
    (UnpackedFloat.normalize Format.binary64 n.toInt 0 .positive))) _ _ _
  unfold UnpackedFloat.normalize
  by_cases hpositive : 0 < n.toInt
  · rw [Int.compare_eq_gt.mpr hpositive, if_pos hpositive]
    apply isNormal_round
    · omega
    · have hlt : n.toInt.toNat.log2 < 64 := (Nat.log2_lt (by omega)).mpr (by omega)
      omega
  · rw [Int.compare_eq_lt.mpr (by omega), if_neg hpositive]
    apply isNormal_round
    · omega
    · have hlt : (-n.toInt).toNat.log2 < 64 := (Nat.log2_lt (by omega)).mpr (by omega)
      omega

theorem isNormal_ofUInt32 {n : UInt32} (hne : n ≠ 0) :
    IsNormal n.toFloat .positive (-52) 12 := by
  have hlt := n.toNat_lt
  have hpos : 0 < n.toNat := by
    rw [Nat.pos_iff_ne_zero]
    intro hzero
    exact hne (UInt32.toNat_inj.mp hzero)
  change IsNormal (Float.ofModel (Float.Model.pack
    (UnpackedFloat.ofNat Format.binary64 n.toNat))) _ _ _
  unfold UnpackedFloat.ofNat UnpackedFloat.ofInt UnpackedFloat.normalize
  rw [Int.compare_eq_gt.mpr (by omega)]
  dsimp only
  rw [Int.toNat_natCast]
  apply isNormal_round
  · omega
  · have hlog : n.toNat.log2 < 32 := (Nat.log2_lt (by omega)).mpr (by omega)
    omega

/-- A quotient of normal numbers is normal where its exponent fits. -/
theorem IsNormal.div {x y : Float} {sign : Sign} {low high least most : ℤ}
    (hx : IsNormal x sign low high) (hy : IsNormal y .positive least most)
    (hmin : -1000 ≤ low - most) (hmax : high - least ≤ 900) :
    IsNormal (x / y) (sign / .positive) (low - most - 53) (high - least - 50) := by
  obtain ⟨first, firstExponent, hfirstPos, hfirst, hfirstLog, hfirstLow, hfirstHigh⟩ := hx
  obtain ⟨second, secondExponent, hsecondPos, hsecond, hsecondLog, hsecondLow, hsecondHigh⟩ := hy
  change IsNormal (Float.ofModel (Float.Model.pack
    (UnpackedFloat.div Format.binary64 x.toModel.unpack y.toModel.unpack))) _ _ _
  rw [hfirst, hsecond]
  have htarget : min (firstExponent - secondExponent) (Format.binary64.targetExponent
      (totalExponent first firstExponent - totalExponent second secondExponent)) =
        firstExponent - secondExponent - 53 := by
    unfold totalExponent
    rw [hfirstLog, hsecondLog]
    change min _ (max (((52 : ℕ) + 1 + firstExponent) - ((52 : ℕ) + 1 + secondExponent) - 53)
      (-1074)) = _
    omega
  unfold UnpackedFloat.div divCore
  dsimp only
  rw [htarget]
  have hcount : (firstExponent - secondExponent -
      (firstExponent - secondExponent - 53)).toNat = 53 := by omega
  rw [hcount]
  have hfirstBounds := (Nat.log2_eq_iff (Nat.ne_of_gt hfirstPos)).mp hfirstLog
  have hsecondBounds := (Nat.log2_eq_iff (Nat.ne_of_gt hsecondPos)).mp hsecondLog
  have hquotient : 2 ^ 52 ≤ first <<< 53 / second ∧ first <<< 53 / second < 2 ^ 54 := by
    rw [Nat.shiftLeft_eq]
    constructor
    · rw [Nat.le_div_iff_mul_le hsecondPos]
      omega
    · rw [Nat.div_lt_iff_lt_mul hsecondPos]
      omega
  have hlogLow : 52 ≤ (first <<< 53 / second).log2 := (Nat.le_log2 (by omega)).mpr hquotient.1
  have hlogHigh : (first <<< 53 / second).log2 < 54 :=
    (Nat.log2_lt (by omega)).mpr hquotient.2
  apply isNormal_pack
  · exact hlogLow
  · omega
  · omega
  · omega
  · omega

theorem IsNormal.isFinite {x : Float} {sign : Sign} {low high : ℤ}
    (hx : IsNormal x sign low high) : x.isFinite = true := by
  obtain ⟨mantissa, exponent, hpos, hunpack, _⟩ := hx
  change x.toModel.unpack.isFinite = true
  rw [hunpack]
  rfl

theorem IsNormal.pos {x : Float} {low high : ℤ} (hx : IsNormal x .positive low high) : 0 < x := by
  obtain ⟨mantissa, exponent, hpos, hunpack, _⟩ := hx
  have hzero : (0 : Float).toModel.unpack = .zero .positive := by rfl
  have hless : UnpackedFloat.lt (0 : Float).toModel.unpack x.toModel.unpack = true := by
    rw [hunpack, hzero]
    rfl
  exact decide_eq_true hless

theorem IsNormal.beq_zero {x : Float} {low high : ℤ} (hx : IsNormal x .positive low high) :
    (x == 0) = false := by
  obtain ⟨mantissa, exponent, hpos, hunpack, _⟩ := hx
  have hzero : (0 : Float).toModel.unpack = .zero .positive := by rfl
  change UnpackedFloat.beq x.toModel.unpack (0 : Float).toModel.unpack = false
  rw [hunpack, hzero]
  rfl

/-- An integer converts to zero only if it is zero. -/
theorem ofUInt32_beq_zero (n : UInt32) : (n.toFloat == 0) = decide (n = 0) := by
  by_cases hzero : n = 0
  · rw [hzero, decide_eq_true rfl]
    decide
  · rw [decide_eq_false hzero]
    exact (isNormal_ofUInt32 hzero).beq_zero

/-- What lies between two finite numbers is finite. -/
theorem isFinite_of_between {low high x : Float} (hlow : low.isFinite = true)
    (hhigh : high.isFinite = true) (habove : low ≤ x) (hbelow : x ≤ high) :
    x.isFinite = true := by
  change low.toModel.unpack.isFinite = true at hlow
  change high.toModel.unpack.isFinite = true at hhigh
  have hless : UnpackedFloat.le low.toModel.unpack x.toModel.unpack = true :=
    of_decide_eq_true habove
  have hmore : UnpackedFloat.le x.toModel.unpack high.toModel.unpack = true :=
    of_decide_eq_true hbelow
  change x.toModel.unpack.isFinite = true
  cases hx : x.toModel.unpack with
  | zero sign => rfl
  | finite sign mantissa exponent hpos => rfl
  | notANumber =>
      rw [hx] at hmore
      cases hmore
  | infinity sign =>
      rw [hx] at hless hmore
      cases sign with
      | positive =>
          cases hcase : high.toModel.unpack with
          | zero other =>
              rw [hcase] at hmore
              cases hmore
          | finite other mantissa exponent hpos =>
              rw [hcase] at hmore
              cases hmore
          | notANumber =>
              rw [hcase] at hhigh
              cases hhigh
          | infinity other =>
              rw [hcase] at hhigh
              cases hhigh
      | negative =>
          cases hcase : low.toModel.unpack with
          | zero other =>
              rw [hcase] at hless
              cases other <;> cases hless
          | finite other mantissa exponent hpos =>
              rw [hcase] at hless
              cases other <;> cases hless
          | notANumber =>
              rw [hcase] at hlow
              cases hlow
          | infinity other =>
              rw [hcase] at hlow
              cases hlow

end Binary64
