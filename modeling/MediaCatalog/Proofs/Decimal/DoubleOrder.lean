import MediaCatalog.Proofs.Decimal.Doubles
import MediaCatalog.Proofs.Double
import MediaCatalog.Value.Order

/-!
The order of doubles. Doubles that stand for numbers compare as these numbers do, both when they are
tested as numbers and in the total order of their bits. So do the doubles of integers. NaN comes
before or behind all of them, by its sign.
-/

namespace MediaCatalog.Decimal

open Float.Model Float.Model.UnpackedFloat

/-! ### Order -/

section Magnitudes

variable {mantissa mantissa' : Nat} {exponent exponent' : Int}

theorem compare_eq_compare {α β : Type*} [LinearOrder α] [LinearOrder β] {a b : α} {c d : β}
    (hlt : a < b ↔ c < d) (hgt : b < a ↔ d < c) : compare a b = compare c d := by
  rw [← cmp_eq_compare, ← cmp_eq_compare, cmp, cmp, cmpUsing, cmpUsing]
  simp only [hlt, hgt]

theorem mul_two_zpow_lt (h : Full mantissa exponent) (h' : Full mantissa' exponent')
    (hlt : exponent < exponent') : (mantissa * 2 ^ exponent : ℚ) < mantissa' * 2 ^ exponent' :=
  calc
    (mantissa * 2 ^ exponent : ℚ) < 2 ^ 53 * 2 ^ exponent :=
      mul_lt_mul_of_pos_right (by exact_mod_cast h.high) (zpow_pos two_pos exponent)
    _ = 2 ^ 52 * 2 ^ (exponent + 1) := by
      rw [zpow_add_one₀ two_ne_zero]
      ring
    _ ≤ mantissa' * 2 ^ exponent' :=
      mul_le_mul (by exact_mod_cast h'.low) (zpow_le_zpow_right₀ one_le_two hlt) (by positivity)
        (by positivity)

/-- Full mantissas count after their exponents. -/
theorem compare_mul_two_zpow (h : Full mantissa exponent) (h' : Full mantissa' exponent') :
    compare (mantissa * 2 ^ exponent : ℚ) (mantissa' * 2 ^ exponent') =
      (compare exponent exponent').then (compare mantissa mantissa') := by
  rcases lt_trichotomy exponent exponent' with hlt | rfl | hgt
  · rw [compare_lt_iff_lt.mpr hlt, compare_lt_iff_lt.mpr (mul_two_zpow_lt h h' hlt)]
    rfl
  · have hpos : (0 : ℚ) < 2 ^ exponent := zpow_pos two_pos exponent
    rw [compare_eq_iff_eq.mpr rfl, Ordering.eq_then]
    refine compare_eq_compare ?_ ?_ <;> rw [mul_lt_mul_iff_left₀ hpos, Nat.cast_lt]
  · rw [compare_gt_iff_gt.mpr hgt, compare_gt_iff_gt.mpr (mul_two_zpow_lt h' h hgt)]
    rfl

/-- The bits of exponent and mantissa as one number, which counts the doubles from zero on. -/
def place (mantissa : Nat) (exponent : Int) : Nat := (exponent + 1074).toNat * 2 ^ 52 + mantissa

theorem Full.magnitude_pos (h : Full mantissa exponent) : (0 : ℚ) < mantissa * 2 ^ exponent :=
  mul_pos (Nat.cast_pos.mpr h.pos) (zpow_pos two_pos exponent)

theorem Full.place_pos (h : Full mantissa exponent) : 0 < place mantissa exponent :=
  Nat.add_pos_right _ h.pos

theorem Full.place_lt (h : Full mantissa exponent) : place mantissa exponent < 2 ^ 63 := by
  have hhigh := h.high
  have hlarge := h.large
  unfold place
  omega

theorem compare_place (h : Full mantissa exponent) (h' : Full mantissa' exponent') :
    compare (place mantissa exponent) (place mantissa' exponent') =
      (compare exponent exponent').then (compare mantissa mantissa') := by
  obtain ⟨hlow, hhigh, hsmall, -⟩ := h
  obtain ⟨hlow', hhigh', hsmall', -⟩ := h'
  unfold place
  rcases lt_trichotomy exponent exponent' with hlt | rfl | hgt
  · rw [compare_lt_iff_lt.mpr hlt, compare_lt_iff_lt.mpr (by omega)]
    rfl
  · rw [compare_eq_iff_eq.mpr rfl, Ordering.eq_then]
    refine compare_eq_compare ?_ ?_ <;> omega
  · rw [compare_gt_iff_gt.mpr hgt, compare_gt_iff_gt.mpr (by omega)]
    rfl

theorem place_lt_place_iff (h : Full mantissa exponent) (h' : Full mantissa' exponent') :
    place mantissa exponent < place mantissa' exponent' ↔
      (mantissa * 2 ^ exponent : ℚ) < mantissa' * 2 ^ exponent' := by
  rw [← compare_lt_iff_lt, compare_place h h', ← compare_lt_iff_lt, compare_mul_two_zpow h h']

end Magnitudes

/-- The total rank of a double, as seen unpacked. -/
def rank : UnpackedFloat → Nat
  | .finite .positive mantissa exponent _ => 2 ^ 63 + place mantissa exponent
  | .finite .negative mantissa exponent _ => 2 ^ 63 - 1 - place mantissa exponent
  | .zero _ | .infinity _ | .notANumber => 2 ^ 63

theorem totalRank_of_lt {number : Double} (h : number.toBits.toNat < 2 ^ 63) :
    totalRank number = 2 ^ 63 + number.toBits.toNat := by
  rw [Nat.add_comm]
  exact if_pos h

theorem totalRank_of_le {number : Double} (h : 2 ^ 63 ≤ number.toBits.toNat) :
    totalRank number = 2 ^ 64 - 1 - number.toBits.toNat :=
  if_neg (not_lt.mpr h)

/-- A NaN that has a sign comes before all that is no NaN. -/
theorem totalRank_lt_of_isNaN {number other : Double} (h : number.isNaN) (hother : ¬ other.isNaN)
    (hsign : 2 ^ 63 ≤ number.toBits.toNat) : totalRank number < totalRank other := by
  rw [Double.isNaN_iff_lt] at h hother
  have hnumber := number.toBits.toNat_lt
  have hbound := other.toBits.toNat_lt
  rw [totalRank_of_le hsign, totalRank]
  split <;> omega

/-- A NaN without a sign comes behind all that is no NaN. -/
theorem lt_totalRank_of_isNaN {number other : Double} (h : number.isNaN) (hother : ¬ other.isNaN)
    (hsign : number.toBits.toNat < 2 ^ 63) : totalRank other < totalRank number := by
  rw [Double.isNaN_iff_lt] at h hother
  rw [totalRank_of_lt hsign, totalRank]
  split <;> omega

theorem StandsFor.not_isNaN {number : Double} {value : ℚ} (h : StandsFor number.unpack value) :
    ¬ number.isNaN := by
  rw [Double.isNaN_iff_unpack]
  intro hnan
  rw [hnan] at h
  cases h

theorem totalRank_eq_rank {number : Double} {value : ℚ} (h : StandsFor number.unpack value) :
    totalRank number = rank number.unpack := by
  have hbits : number.toBits.toNat = (UnpackedFloat.pack .binary64 number.unpack).toNat :=
    congrArg BitVec.toNat (Double.pack_unpack_of_not_isNaN h.not_isNaN).symm
  generalize number.unpack = unpacked at h hbits
  cases h with
  | zero =>
      have hzero : number.toBits.toNat = 0 := hbits
      rw [totalRank_of_lt (by omega), hzero]
      rfl
  | @finite sign mantissa exponent h =>
      have hplace := h.place_lt
      have hlow := h.low
      have hsmall := h.small
      -- The bits lack the leading digit and count exponents from one, so both counts agree.
      have hplace' : (exponent + 1075).toNat * 2 ^ 52 + (mantissa - 2 ^ 52) =
          place mantissa exponent := by
        unfold place
        omega
      rw [pack_finite sign h, packComponents, toNat_append_eq_add, toNat_append_eq_add,
        h.toNat_exponent, h.toNat_mantissa, Nat.add_mul, Nat.add_assoc, hplace', Nat.mul_assoc,
        ← Nat.pow_add] at hbits
      cases sign with
      | positive =>
          have hsign : Sign.positive.toBitVec.toNat = 0 := rfl
          rw [hsign, Nat.zero_mul, Nat.zero_add] at hbits
          rw [totalRank_of_lt (by omega), hbits, rank]
      | negative =>
          have hsign : Sign.negative.toBitVec.toNat = 1 := rfl
          rw [hsign, Nat.one_mul] at hbits
          rw [totalRank_of_le (by omega), hbits, rank]
          omega

section Comparing

variable {left right : UnpackedFloat} {first second : ℚ}

theorem rank_lt_rank_iff (hleft : StandsFor left first) (hright : StandsFor right second) :
    rank left < rank right ↔ first < second := by
  cases hleft with
  | zero =>
      cases hright with
      | zero => simp
      | @finite sign mantissa exponent h =>
          have hplace := h.place_pos
          have hmagnitude := h.magnitude_pos
          cases sign <;> simp only [cast_apply_positive, cast_apply_negative, rank, neg_mul]
          · exact iff_of_false (by omega) (by linarith)
          · exact iff_of_true (by omega) hmagnitude
  | @finite sign mantissa exponent h =>
      have hplace := h.place_lt
      have hmagnitude := h.magnitude_pos
      cases hright with
      | zero =>
          cases sign <;> simp only [cast_apply_positive, cast_apply_negative, rank, neg_mul]
          · exact iff_of_true (by omega) (by linarith)
          · exact iff_of_false (by omega) (by linarith)
      | @finite sign' mantissa' exponent' h' =>
          have hplace' := h'.place_lt
          have hmagnitude' := h'.magnitude_pos
          cases sign <;> cases sign' <;>
            simp only [cast_apply_positive, cast_apply_negative, rank, neg_mul]
          · rw [neg_lt_neg_iff, ← place_lt_place_iff h' h]
            omega
          · exact iff_of_true (by omega) (by linarith)
          · exact iff_of_false (by omega) (by linarith)
          · rw [Nat.add_lt_add_iff_left, place_lt_place_iff h h']

theorem compare_eq_compare_rank (hleft : StandsFor left first) (hright : StandsFor right second) :
    left.compare right = some (compare (rank left) (rank right)) := by
  cases hleft with
  | zero =>
      cases hright with
      | zero => rfl
      | @finite sign mantissa exponent h =>
          have hplace := h.place_pos
          cases sign <;> refine congrArg some ?_ <;> simp only [rank]
          · exact (compare_gt_iff_gt.mpr (by omega)).symm
          · exact (compare_lt_iff_lt.mpr (by omega)).symm
  | @finite sign mantissa exponent h =>
      have hplace := h.place_pos
      have hplace' := h.place_lt
      cases hright with
      | zero =>
          cases sign <;> refine congrArg some ?_ <;> simp only [rank]
          · exact (compare_lt_iff_lt.mpr (by omega)).symm
          · exact (compare_gt_iff_gt.mpr (by omega)).symm
      | @finite sign' mantissa' exponent' h' =>
          have hplace'' := h'.place_lt
          cases sign <;> cases sign' <;> refine congrArg some ?_ <;> simp only [rank]
          · rw [← compare_place h h', Nat.compare_swap]
            exact compare_eq_compare (by omega) (by omega)
          · exact (compare_lt_iff_lt.mpr (by omega)).symm
          · exact (compare_gt_iff_gt.mpr (by omega)).symm
          · rw [← compare_place h h']
            exact compare_eq_compare (by omega) (by omega)

end Comparing

/-! ### Doubles that stand for numbers -/

section Doubles

variable {left right : Double} {first second : ℚ}

/-- In the total order of doubles they are ordered as numbers. -/
theorem compare_totalRank (hleft : StandsFor left.unpack first)
    (hright : StandsFor right.unpack second) :
    compare (totalRank left) (totalRank right) = compare first second := by
  rw [totalRank_eq_rank hleft, totalRank_eq_rank hright]
  exact compare_eq_compare (rank_lt_rank_iff hleft hright) (rank_lt_rank_iff hright hleft)

theorem unpackedCompare_eq (hleft : StandsFor left.unpack first)
    (hright : StandsFor right.unpack second) :
    left.unpack.compare right.unpack = some (compare first second) := by
  rw [compare_eq_compare_rank hleft hright]
  exact congrArg some
    (compare_eq_compare (rank_lt_rank_iff hleft hright) (rank_lt_rank_iff hright hleft))

theorem beq_iff_eq_of_standsFor (hleft : StandsFor left.unpack first)
    (hright : StandsFor right.unpack second) : (left == right) = true ↔ first = second := by
  have hbeq : (left == right) =
      (left.unpack.compare right.unpack == some .eq) := rfl
  rw [hbeq, unpackedCompare_eq hleft hright, beq_iff_eq, Option.some_inj, compare_eq_iff_eq]

theorem lt_iff_lt_of_standsFor (hleft : StandsFor left.unpack first)
    (hright : StandsFor right.unpack second) : left < right ↔ first < second := by
  have hlt : left < right ↔
      (left.unpack.compare right.unpack == some .lt) = true :=
    decide_eq_true_iff (p := left.toFloat.toModel < right.toFloat.toModel)
  rw [hlt, unpackedCompare_eq hleft hright, beq_iff_eq, Option.some_inj, compare_lt_iff_lt]

end Doubles

/-! ### Doubles of integers -/

theorem standsFor_toInt (number : Int64) :
    StandsFor (Double.ofInt number.toInt).unpack (widened number.toInt) := by
  have hlow := number.le_toInt
  have hhigh := number.toInt_lt
  have habs : number.toInt.natAbs ≤ 2 ^ 63 := by omega
  rw [Double.unpack, Double.ofInt, Double.toFloat_ofFloat]
  refine standsFor_ofInt ((log2_mono habs).trans ?_)
  rw [Nat.log2_two_pow]
  decide

section Integers

variable (first second : Int64)

theorem compare_totalRank_ofInt :
    compare (totalRank (.ofInt first.toInt)) (totalRank (.ofInt second.toInt)) =
      compare (widened first.toInt) (widened second.toInt) := by
  rw [compare_totalRank (standsFor_toInt first) (standsFor_toInt second)]
  exact compare_eq_compare Int.cast_lt Int.cast_lt

theorem ofInt_beq_ofInt_iff :
    (Double.ofInt first.toInt == Double.ofInt second.toInt) = true ↔
      widened first.toInt = widened second.toInt := by
  rw [beq_iff_eq_of_standsFor (standsFor_toInt first) (standsFor_toInt second), Int.cast_inj]

theorem ofInt_lt_ofInt_iff :
    Double.ofInt first.toInt < Double.ofInt second.toInt ↔
      widened first.toInt < widened second.toInt := by
  rw [lt_iff_lt_of_standsFor (standsFor_toInt first) (standsFor_toInt second), Int.cast_lt]

end Integers

end MediaCatalog.Decimal
