import MediaCatalog.Proofs.Decimal.Widening
import MediaCatalog.Proofs.Double

/-!
Integers as floats. The float of an integer stands for the integer rounded to 53 binary digits. The
conversion shifts the mantissa bit by bit and keeps in two more bits what it has shifted out; those
tell how to round. Small numbers take a way of their own through a product with one.
-/

namespace MediaCatalog.Decimal

open Float.Model Float.Model.UnpackedFloat

/-! ### Shifting mantissas -/

/-- An extended mantissa that stands for a number with so many binary places cut off. -/
def cutMantissa (number places : Nat) : ExtendedMantissa where
  mantissa := number / 2 ^ places
  roundBit := 2 ^ places ≤ 2 * (number % 2 ^ places)
  stickyBit := number % 2 ^ places ≠ 0 ∧ 2 * (number % 2 ^ places) ≠ 2 ^ places

theorem shiftRightOne_cutMantissa (number places : Nat) :
    (cutMantissa number places).shiftRightOne = cutMantissa number (places + 1) := by
  have hrest := Nat.mod_lt number (Nat.two_pow_pos places)
  have hnext : number % 2 ^ (places + 1) =
      number % 2 ^ places + 2 ^ places * (number / 2 ^ places % 2) := by
    rw [Nat.pow_succ, Nat.mod_mul]
  rw [ExtendedMantissa.shiftRightOne, cutMantissa, cutMantissa, hnext, Nat.pow_succ,
    ← Nat.div_div_eq_div_mul]
  -- The digit shifted out becomes the round bit, and all that was there goes into the sticky bit.
  congr 1 <;> rw [Bool.eq_iff_iff] <;>
    rcases Nat.mod_two_eq_zero_or_one (number / 2 ^ places) with h | h <;> simp [h] <;> omega

theorem shiftRight_eq_cutMantissa (number places : Nat) :
    (ExtendedMantissa.ofMantissaAndAccuracy number .exact) >>> places =
      cutMantissa number places := by
  have hrepeat : places.repeat ExtendedMantissa.shiftRightOne ⟨number, false, false⟩ =
      cutMantissa number places := by
    induction places with
    | zero => simp [Nat.repeat, cutMantissa, Nat.mod_one]
    | succ places ih => rw [Nat.repeat, ih, shiftRightOne_cutMantissa]
  exact hrepeat

theorem roundedMantissa_cutMantissa (number places : Nat) :
    (cutMantissa number places).roundedMantissa = cutPlaces number places := by
  have hpos := Nat.two_pow_pos places
  unfold ExtendedMantissa.roundedMantissa cutPlaces cutMantissa
  dsimp only
  split_ifs with hbelow hhalf
  · have hround : ¬ 2 ^ places ≤ 2 * (number % 2 ^ places) := by omega
    by_cases hrest : number % 2 ^ places = 0 <;>
      simp [hround, hrest, hbelow.ne, ExtendedMantissa.accuracy, Accuracy.roundToNearestEven]
  · simp [hhalf, ExtendedMantissa.accuracy, Accuracy.roundToNearestEven]
  · have hround : 2 ^ places ≤ 2 * (number % 2 ^ places) := by omega
    have hrest : number % 2 ^ places ≠ 0 := by omega
    simp [hround, hrest, hhalf, ExtendedMantissa.accuracy, Accuracy.roundToNearestEven]

/-! ### Rounding to a double -/

/-- A mantissa that has all 53 digits, with an exponent in the range of doubles. -/
structure Full (mantissa : Nat) (exponent : Int) : Prop where
  low : 2 ^ 52 ≤ mantissa
  high : mantissa < 2 ^ 53
  small : -1074 ≤ exponent
  large : exponent ≤ 971

theorem Full.pos {mantissa : Nat} {exponent : Int} (h : Full mantissa exponent) : 0 < mantissa :=
  Nat.lt_of_lt_of_le (Nat.two_pow_pos 52) h.low

theorem Full.log2_eq {mantissa : Nat} {exponent : Int} (h : Full mantissa exponent) :
    mantissa.log2 = 52 :=
  (Nat.log2_eq_iff h.pos.ne').mpr ⟨h.low, h.high⟩

/-- The number that an unpacked double stands for, which is zero or has a full mantissa. -/
inductive StandsFor : UnpackedFloat → ℚ → Prop where
  | zero : StandsFor (.zero .positive) 0
  | finite (sign : Sign) {mantissa : Nat} {exponent : Int} (h : Full mantissa exponent) :
      StandsFor (.finite sign mantissa exponent h.pos) (sign.apply mantissa * 2 ^ exponent)

/-- A mantissa with enough digits is cut to 53 of them. -/
theorem shiftToTargetExponent_eq {mantissa : Nat} {exponent : Int} (h : 2 ^ 52 ≤ mantissa)
    (hsmall : -1022 ≤ mantissa.log2 + exponent) :
    shiftToTargetExponent .binary64 mantissa exponent .exact =
      (cutMantissa mantissa (mantissa.log2 - 52), exponent + (mantissa.log2 - 52 : Nat)) := by
  have hlog : 52 ≤ mantissa.log2 := (Nat.le_log2 (by omega)).mpr h
  have htarget : Format.binary64.targetExponent (totalExponent mantissa exponent) =
      exponent + (mantissa.log2 - 52 : Nat) := by
    simp only [Format.targetExponent, totalExponent, Format.mantissaBits, Format.minExponent]
    norm_num
    omega
  rw [shiftToTargetExponent, htarget, shiftToExponent, shiftRight_eq_cutMantissa]
  simp

theorem cast_apply (sign : Sign) (mantissa : Nat) :
    ((sign.apply mantissa : Int) : ℚ) = sign.apply 1 * mantissa := by
  cases sign <;> simp [Sign.apply]

theorem cast_apply_positive (mantissa : Nat) :
    ((Sign.positive.apply mantissa : Int) : ℚ) = mantissa := by
  simp [Sign.apply]

theorem cast_apply_negative (mantissa : Nat) :
    ((Sign.negative.apply mantissa : Int) : ℚ) = -mantissa := by
  simp [Sign.apply]

/-- Rounding cuts the mantissa, and once more if it has got a digit too many by that. -/
theorem standsFor_roundWithAccuracy (sign : Sign) {mantissa : Nat} {exponent : Int}
    (h : 2 ^ 52 ≤ mantissa) (hsmall : -1022 ≤ mantissa.log2 + exponent)
    (hlarge : mantissa.log2 + exponent ≤ 1022) :
    StandsFor (roundWithAccuracy .binary64 sign mantissa exponent .exact)
      (sign.apply (widenedNat mantissa) * 2 ^ exponent) := by
  have hlow := two_pow_le_cutPlaces h
  have hhigh := cutPlaces_le_two_pow mantissa
  have hlog : 52 ≤ mantissa.log2 := (Nat.le_log2 (by omega)).mpr h
  have hvalue : (sign.apply (widenedNat mantissa) * 2 ^ exponent : ℚ) =
      sign.apply (cutPlaces mantissa (mantissa.log2 - 52)) *
        2 ^ (exponent + (mantissa.log2 - 52 : Nat)) := by
    rw [cast_apply, cast_apply, widenedNat, zpow_add₀ two_ne_zero, zpow_natCast]
    push_cast
    ring
  rw [roundWithAccuracy, shiftToTargetExponent_eq h hsmall, hvalue]
  dsimp only
  rw [roundedMantissa_cutMantissa]
  rcases Nat.eq_or_lt_of_le hhigh with heq | hlt
  · -- Rounding up has carried through all digits, so the digit cut off in addition is a zero.
    have hcarry (exponent : Int) : (sign.apply (2 ^ 53 : Nat) * 2 ^ exponent : ℚ) =
        sign.apply (2 ^ 52 : Nat) * 2 ^ (exponent + 1) := by
      rw [cast_apply, cast_apply, zpow_add_one₀ two_ne_zero]
      push_cast
      ring
    have hmantissa : (cutMantissa (2 ^ 53) (53 - 52)).mantissa = 2 ^ 52 := by decide
    rw [heq, shiftToTargetExponent_eq (by decide) (by rw [Nat.log2_two_pow]; omega),
      Nat.log2_two_pow, hcarry]
    simp only [hmantissa]
    rw [dif_neg (by decide)]
    exact .finite sign ⟨le_rfl, by decide, by omega, by omega⟩
  · have hfull : Full (cutPlaces mantissa (mantissa.log2 - 52))
        (exponent + (mantissa.log2 - 52 : Nat)) := ⟨hlow, hlt, by omega, by omega⟩
    rw [shiftToTargetExponent_eq hlow (by rw [hfull.log2_eq]; omega), hfull.log2_eq]
    simp only [cutMantissa, Nat.sub_self, Nat.pow_zero, Nat.div_one, Nat.cast_zero, add_zero]
    rw [dif_neg hfull.pos.ne']
    exact .finite sign hfull

/-! ### Packing a double -/

theorem exponentBias_binary64 : (Format.binary64.exponentBias : Int) = 1023 := rfl

section Packing

variable {mantissa : Nat} {exponent : Int}

/-- The bits of a double with a full mantissa. -/
theorem pack_finite (sign : Sign) (h : Full mantissa exponent) :
    UnpackedFloat.pack .binary64 (.finite sign mantissa exponent h.pos) =
      packComponents .binary64 sign (BitVec.ofNat 11 (exponent + 1075).toNat)
        (BitVec.ofNat 52 mantissa) := by
  have hlarge := h.large
  have hbiased : (exponent + Format.binary64.exponentBias +
      Format.binary64.mantissaBitsWithoutImplicit).toNat = (exponent + 1075).toNat := by
    rw [exponentBias_binary64]
    exact congrArg Int.toNat (by norm_num; ring)
  rw [UnpackedFloat.pack]
  dsimp only
  rw [hbiased, if_neg (by norm_num; omega), if_pos (by rw [h.log2_eq]; rfl)]

theorem Full.toNat_exponent (h : Full mantissa exponent) :
    (BitVec.ofNat 11 (exponent + 1075).toNat).toNat = (exponent + 1075).toNat := by
  have hlarge := h.large
  rw [BitVec.toNat_ofNat, Nat.mod_eq_of_lt (by omega)]

/-- The leading digit is left out. -/
theorem Full.toNat_mantissa (h : Full mantissa exponent) :
    (BitVec.ofNat 52 mantissa).toNat = mantissa - 2 ^ 52 := by
  have hlow := h.low
  have hhigh := h.high
  rw [BitVec.toNat_ofNat]
  omega

theorem toNat_append_eq_add {width width' : Nat} (front : BitVec width) (back : BitVec width') :
    (front ++ back).toNat = front.toNat * 2 ^ width' + back.toNat := by
  rw [BitVec.toNat_append, ← Nat.shiftLeft_add_eq_or_of_lt back.isLt, Nat.shiftLeft_eq]

theorem Full.toNat_leading (h : Full mantissa exponent) :
    (1#1 ++ BitVec.ofNat 52 mantissa).toNat = mantissa := by
  rw [toNat_append_eq_add, h.toNat_mantissa]
  exact Nat.add_sub_cancel' h.low

/-- Packing loses nothing of such doubles. -/
theorem StandsFor.unpack_pack {number : UnpackedFloat} {value : ℚ} (h : StandsFor number value) :
    (Float.Model.pack number).unpack = number := by
  have hpacked : (Float.Model.pack number).unpack =
      UnpackedFloat.unpack .binary64 (UnpackedFloat.pack .binary64 number) := rfl
  rw [hpacked]
  cases h with
  | zero => exact unpack_packedZero
  | @finite sign mantissa exponent h =>
      have hexponent := h.toNat_exponent
      have hsmall := h.small
      have hlarge := h.large
      have hlow := h.low
      rw [pack_finite sign h, UnpackedFloat.unpack]
      simp only [unpackMantissa_packComponents, unpackExponent_packComponents,
        unpackSign_packComponents, Sign.ofBitVec_toBitVec]
      -- The exponent has neither all bits set nor none, so the leading digit is put back.
      rw [if_neg, if_neg]
      · simp only [hexponent, h.toNat_leading, exponentBias_binary64]
        congr 1
        norm_num
        omega
      · intro hzero
        rw [hzero] at hexponent
        simp at hexponent
        omega
      · intro hones
        rw [hones] at hexponent
        simp at hexponent
        omega

end Packing

/-! ### Integers as floats -/

theorem standsFor_neg {number : UnpackedFloat} {value : ℚ} (h : StandsFor number value)
    (hvalue : value ≠ 0) : StandsFor number.neg (-value) := by
  cases h with
  | zero => exact absurd rfl hvalue
  | @finite sign mantissa exponent h =>
      have hsign : (-(sign.apply mantissa * 2 ^ exponent) : ℚ) =
          (-sign).apply mantissa * 2 ^ exponent := by
        cases sign <;> simp [Sign.apply]
      rw [hsign]
      exact .finite (-sign) h

/-- Rounding takes the zeros behind a full mantissa away. -/
theorem roundWithAccuracy_full (sign : Sign) {mantissa : Nat} {exponent : Int}
    (h : Full mantissa exponent) (zeros : Nat) :
    roundWithAccuracy .binary64 sign (mantissa * 2 ^ zeros) (exponent - zeros) .exact =
      .finite sign mantissa exponent h.pos := by
  have hsmall := h.small
  have hlog : (mantissa * 2 ^ zeros).log2 = 52 + zeros := by
    rw [log2_mul_two_pow h.pos.ne', h.log2_eq]
  have hlow : 2 ^ 52 ≤ mantissa * 2 ^ zeros :=
    h.low.trans (Nat.le_mul_of_pos_right _ (Nat.two_pow_pos zeros))
  rw [roundWithAccuracy, shiftToTargetExponent_eq hlow (by rw [hlog]; omega), hlog]
  dsimp only
  rw [roundedMantissa_cutMantissa, Nat.add_sub_cancel_left, cutPlaces_mul_two_pow, sub_add_cancel,
    shiftToTargetExponent_eq h.low (by rw [h.log2_eq]; omega), h.log2_eq]
  simp only [cutMantissa, Nat.sub_self, Nat.pow_zero, Nat.div_one, Nat.cast_zero, add_zero]
  exact dif_neg h.pos.ne'

/-- A number with 53 digits or less becomes a double as it is. -/
theorem standsFor_normalize {number : Nat} (h : number < 2 ^ 53) :
    StandsFor (UnpackedFloat.ofNat .binary64 number) number := by
  rcases Nat.eq_zero_or_pos number with rfl | hpos
  · exact .zero
  · have hlog : number.log2 ≤ 52 := by
      have hlt := (Nat.log2_lt hpos.ne').mpr h
      omega
    obtain ⟨zeros, hzeros⟩ := Nat.exists_eq_add_of_le hlog
    have hfull : Full (number * 2 ^ zeros) (-(zeros : Int)) := by
      refine ⟨?_, ?_, by omega, by omega⟩
      · rw [hzeros, Nat.pow_add]
        exact Nat.mul_le_mul_right _ (Nat.log2_self_le hpos.ne')
      · have hdigits : 53 = number.log2 + 1 + zeros := by omega
        rw [hdigits, Nat.pow_add]
        exact Nat.mul_lt_mul_of_pos_right Nat.lt_log2_self (Nat.two_pow_pos zeros)
    have htarget : Format.binary64.targetExponent (totalExponent number 0) = -(zeros : Int) := by
      simp only [Format.targetExponent, totalExponent, Format.mantissaBits, Format.minExponent]
      norm_num
      omega
    have hrounded : UnpackedFloat.ofNat .binary64 number =
        .finite .positive (number * 2 ^ zeros) (-zeros) hfull.pos := by
      have hsign : compare (number : Int) 0 = .gt := compare_gt_iff_gt.mpr (by omega)
      rw [UnpackedFloat.ofNat, UnpackedFloat.ofInt, UnpackedFloat.normalize, hsign]
      dsimp only
      rw [UnpackedFloat.round, Int.toNat_natCast, htarget, decreaseExponent]
      have hexact := roundWithAccuracy_full .positive hfull 0
      simpa [Nat.shiftLeft_eq] using hexact
    have hvalue : (number : ℚ) =
        Sign.positive.apply (number * 2 ^ zeros : Nat) * 2 ^ (-(zeros : Int)) := by
      rw [cast_apply_positive, zpow_neg, zpow_natCast]
      push_cast
      exact (mul_inv_cancel_right₀ (pow_ne_zero _ two_ne_zero) _).symm
    rw [hrounded, hvalue]
    exact .finite .positive hfull

theorem mul_one_eq_of_standsFor {number : UnpackedFloat} {value : ℚ} (h : StandsFor number value) :
    UnpackedFloat.mul .binary64 number (.finite .positive (2 ^ 52) (-52) (Nat.two_pow_pos 52)) =
      number := by
  cases h with
  | zero => rfl
  | finite sign h =>
      have hsign : sign * .positive = sign := by cases sign <;> rfl
      rw [UnpackedFloat.mul, hsign]
      exact roundWithAccuracy_full sign h 52

theorem ofScientific_eq_roundWithAccuracy {number : Nat} (hpos : 0 < number) :
    UnpackedFloat.ofScientific .binary64 number 0 =
      roundWithAccuracy .binary64 .positive (number * 2 ^ 53) (-53) .exact := by
  rw [UnpackedFloat.ofScientific, dif_neg hpos.ne', if_neg (by norm_num), if_neg (by norm_num),
    if_pos le_rfl, UnpackedFloat.mul]
  simp only [Nat.shiftLeft_eq, Format.mantissaBits, Int.toNat_zero, Nat.pow_zero, Nat.mul_one,
    add_zero]
  rfl

/-- The float of a number with 53 digits or less is that number multiplied by one. -/
theorem unpack_ofNat_of_lt {number : Nat} (h : number < 2 ^ 53) :
    (Float.ofNat number).toModel.unpack = UnpackedFloat.ofNat .binary64 number := by
  have hstands := standsFor_normalize h
  have hdigits : number.toUInt64.toFloat.toModel.unpack = UnpackedFloat.ofNat .binary64 number := by
    have hnumber : number.toUInt64.toNat = number := Nat.mod_eq_of_lt (by omega)
    rw [← hstands.unpack_pack]
    nth_rewrite 2 [← hnumber]
    rfl
  have hfloat : Float.ofNat number =
      number.toUInt64.toFloat * Float.exactlyRepresentablePowersOfTen[0] :=
    dif_pos ⟨h, by decide⟩
  rw [hfloat, ← hstands.unpack_pack, ← mul_one_eq_of_standsFor hstands, ← hdigits]
  rfl

/-- The float of a number with more digits is rounded from decimal digits. -/
theorem unpack_ofNat_of_le {number : Nat} (h : 2 ^ 53 ≤ number) :
    (Float.ofNat number).toModel.unpack =
      (Float.Model.pack (UnpackedFloat.ofScientific .binary64 number 0)).unpack := by
  have hfloat : Float.ofNat number = .ofModel (.ofScientific number 0) :=
    dif_neg fun hboth => not_lt.mpr h hboth.1
  rw [hfloat]
  rfl

theorem standsFor_ofScientific {number : Nat} (h : 2 ^ 52 ≤ number) (hlarge : number.log2 ≤ 1022) :
    StandsFor (UnpackedFloat.ofScientific .binary64 number 0) (widenedNat number) := by
  have hlog : (number * 2 ^ 53).log2 = number.log2 + 53 := log2_mul_two_pow (by omega) 53
  have hvalue : (Sign.positive.apply (widenedNat (number * 2 ^ 53)) * 2 ^ (-53 : Int) : ℚ) =
      widenedNat number := by
    rw [widenedNat_mul_two_pow h, cast_apply_positive]
    push_cast
    norm_num
    ring
  rw [ofScientific_eq_roundWithAccuracy (by omega), ← hvalue]
  exact standsFor_roundWithAccuracy .positive (by omega) (by rw [hlog]; omega)
    (by rw [hlog]; omega)

theorem standsFor_ofNat {number : Nat} (h : number.log2 ≤ 1022) :
    StandsFor (Float.ofNat number).toModel.unpack (widenedNat number) := by
  rcases Nat.lt_or_ge number (2 ^ 53) with hsmall | hlarge
  · rw [unpack_ofNat_of_lt hsmall, widenedNat_of_le hsmall.le]
    exact standsFor_normalize hsmall
  · have hstands := standsFor_ofScientific (by omega) h
    rw [unpack_ofNat_of_le hlarge, hstands.unpack_pack]
    exact hstands

/-- The float of an integer stands for the integer as doubles have it. -/
theorem standsFor_ofInt {number : Int} (h : number.natAbs.log2 ≤ 1022) :
    StandsFor (Float.ofInt number).toModel.unpack (widened number) := by
  cases number with
  | ofNat number =>
      rw [Int.ofNat_eq_natCast, widened_natCast, Int.cast_natCast]
      exact standsFor_ofNat h
  | negSucc number =>
      have hstands : StandsFor (Float.ofNat (number + 1)).toModel.unpack
          (widenedNat (number + 1)) := standsFor_ofNat h
      have hneg := standsFor_neg hstands (by exact_mod_cast (widenedNat_pos number.succ_pos).ne')
      have hfloat : (Float.ofInt (Int.negSucc number)).toModel.unpack =
          (Float.Model.pack (Float.ofNat (number + 1)).toModel.unpack.neg).unpack := rfl
      rw [hfloat, hneg.unpack_pack, Int.negSucc_eq, widened_neg, ← Nat.cast_succ, widened_natCast,
        Int.cast_neg, Int.cast_natCast]
      exact hneg

end MediaCatalog.Decimal
