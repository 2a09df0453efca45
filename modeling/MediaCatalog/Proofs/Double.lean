import Mathlib
import MediaCatalog.Double

/-!
Doubles as floats. A float has one NaN, so the bits of a double are more than the float that they
stand for; apart from that the two are the same. Equality goes by the float, and negation turns both
over. The lemmas on floats are in no single file of Mathlib, so here all of it is imported.
-/

namespace MediaCatalog.Double

open Float.Model Float.Model.UnpackedFloat

@[simp] theorem toFloat_ofFloat (number : Float) : (ofFloat number).toFloat = number :=
  Float.ofBits_toBits number

variable {number : Double}

theorem isNaN_iff : number.isNaN ↔ number.toFloat = Float.nan := by
  rw [isNaN, Float.isNaN_eq_decide_eq_nan, decide_eq_true_iff]

theorem isNaN_ofFloat {number : Float} : (ofFloat number).isNaN ↔ number = Float.nan := by
  rw [isNaN_iff, toFloat_ofFloat]

/-! ### Bits -/

/-- The sign, the mantissa and the exponent. -/
def unpack (number : Double) : UnpackedFloat := number.toFloat.toModel.unpack

theorem isNaN_iff_unpack : number.isNaN ↔ number.unpack = .notANumber := UnpackedFloat.isNaN_iff

/-- They are read off the bits. -/
theorem unpack_eq (number : Double) :
    number.unpack = UnpackedFloat.unpack .binary64 number.toBits.toBitVec := by
  have hpacked : number.unpack = UnpackedFloat.unpack .binary64
      (UnpackedFloat.pack .binary64 (UnpackedFloat.unpack .binary64 number.toBits.toBitVec)) := rfl
  rw [hpacked, @pack_unpack .binary64 number.toBits.toBitVec (by decide)]
  split
  · next hnan =>
    rw [isNaNBits, decide_eq_true_iff] at hnan
    rw [unpack_packedNaN, UnpackedFloat.unpack, if_pos hnan.1, if_neg hnan.2]
  · rfl

/-- A number that is not NaN has one bit pattern. -/
theorem pack_unpack_of_not_isNaN (h : ¬ number.isNaN) :
    UnpackedFloat.pack .binary64 number.unpack = number.toBits.toBitVec := by
  rw [isNaN_iff_unpack, unpack_eq] at h
  rw [unpack_eq, @pack_unpack .binary64 number.toBits.toBitVec (by decide), if_neg]
  intro hnan
  rw [isNaNBits, decide_eq_true_iff] at hnan
  exact h (by rw [UnpackedFloat.unpack, if_pos hnan.1, if_neg hnan.2])

/-- The bits of NaN, the sign aside, are those beyond infinity. -/
theorem isNaN_iff_lt : number.isNaN ↔ 2047 * 2 ^ 52 < number.toBits.toNat % 2 ^ 63 := by
  have hexponent : @unpackExponent .binary64 number.toBits.toBitVec = -1#11 ↔
      number.toBits.toNat / 2 ^ 52 % 2 ^ 11 = 2047 := by
    rw [unpackExponent_def, ← BitVec.toNat_inj, BitVec.extractLsb'_toNat, Nat.shiftRight_eq_div_pow]
    rfl
  have hmantissa : @unpackMantissa .binary64 number.toBits.toBitVec = 0#52 ↔
      number.toBits.toNat % 2 ^ 52 = 0 := by
    rw [unpackMantissa_def, ← BitVec.toNat_inj, BitVec.extractLsb'_toNat]
    rfl
  rw [isNaN_iff_unpack, unpack_eq, UnpackedFloat.unpack]
  dsimp only
  split
  · next hones =>
    rw [hexponent] at hones
    split
    · next hzero =>
      rw [hmantissa] at hzero
      refine iff_of_false UnpackedFloat.noConfusion ?_
      omega
    · next hzero =>
      rw [hmantissa] at hzero
      refine iff_of_true rfl ?_
      omega
  · next hones =>
    rw [hexponent] at hones
    refine iff_of_false ?_ (by omega)
    split
    · split <;> exact UnpackedFloat.noConfusion
    · exact UnpackedFloat.noConfusion

/-! ### Equality -/

theorem beq_iff_toFloat_beq {other : Double} :
    (number == other) = true ↔ (number.toFloat == other.toFloat) = true := Iff.rfl

/-- NaN alone differs from itself. -/
theorem beq_self_iff : (number == number) = true ↔ ¬ number.isNaN := by
  rw [beq_iff_toFloat_beq, Float.beq_self_iff, isNaN_iff]

instance : PartialEquivBEq Double where
  symm := fun h => PartialEquivBEq.symm (α := Float) h
  trans := fun h h' => PartialEquivBEq.trans (α := Float) h h'

/-! ### Negation -/

section Sign

variable (bits : BitVec 64)

theorem unpackExponent_xor_signBit :
    @unpackExponent .binary64 (bits ^^^ signBit.toBitVec) = @unpackExponent .binary64 bits := by
  have hzero : signBit.toBitVec.extractLsb' 52 11 = 0#11 := rfl
  rw [unpackExponent_def, unpackExponent_def]
  exact (BitVec.extractLsb'_xor ..).trans ((congrArg _ hzero).trans BitVec.xor_zero)

theorem unpackMantissa_xor_signBit :
    @unpackMantissa .binary64 (bits ^^^ signBit.toBitVec) = @unpackMantissa .binary64 bits := by
  have hzero : signBit.toBitVec.extractLsb' 0 52 = 0#52 := rfl
  rw [unpackMantissa_def, unpackMantissa_def]
  exact (BitVec.extractLsb'_xor ..).trans ((congrArg _ hzero).trans BitVec.xor_zero)

theorem ofBitVec_unpackSign_xor_signBit :
    Sign.ofBitVec (@unpackSign .binary64 (bits ^^^ signBit.toBitVec)) =
      -Sign.ofBitVec (@unpackSign .binary64 bits) := by
  have hone : signBit.toBitVec.extractLsb' 63 1 = 1#1 := rfl
  have hturn (sign : BitVec 1) : Sign.ofBitVec (sign ^^^ 1#1) = -Sign.ofBitVec sign := by
    rcases sign.eq_zero_or_eq_one with rfl | rfl <;> rfl
  rw [unpackSign_def, unpackSign_def, ← hturn]
  exact congrArg Sign.ofBitVec ((BitVec.extractLsb'_xor ..).trans (congrArg _ hone))

/-- Turning the first bit over turns the sign over and nothing else. -/
theorem unpack_xor_signBit : UnpackedFloat.unpack .binary64 (bits ^^^ signBit.toBitVec) =
    (UnpackedFloat.unpack .binary64 bits).neg := by
  simp only [UnpackedFloat.unpack, unpackExponent_xor_signBit, unpackMantissa_xor_signBit,
    ofBitVec_unpackSign_xor_signBit]
  split_ifs <;> rfl

end Sign

theorem unpack_neg (number : Double) : (-number).unpack = number.unpack.neg := by
  rw [unpack_eq, unpack_eq, ← unpack_xor_signBit]
  rfl

/-- A double is NaN with either sign. -/
theorem isNaN_neg : (-number).isNaN ↔ number.isNaN := by
  rw [isNaN_iff_unpack, isNaN_iff_unpack, unpack_neg]
  cases number.unpack <;> simp [UnpackedFloat.neg]

end MediaCatalog.Double
