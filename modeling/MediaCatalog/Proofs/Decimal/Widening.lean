import Mathlib.Algebra.Order.Ring.Int
import Mathlib.Data.Nat.Cast.Order.Ring
import Mathlib.Tactic.NormNum
import Mathlib.Tactic.Positivity
import Mathlib.Tactic.Ring

/-!
Widening integers to doubles. A double keeps 53 binary digits, so an integer is rounded to that many
when it is widened. This keeps the order of integers, except that different ones may become equal,
and it keeps all integers of 53 digits or less. No integer that a double can hold is nearer.
-/

namespace MediaCatalog.Decimal

/-! ### Cutting binary places -/

/-- A number with so many binary places cut off, rounded to the nearest one, and to the even one
when it lies halfway. -/
def cutPlaces (number places : Nat) : Nat :=
  let whole := number / 2 ^ places
  let rest := number % 2 ^ places
  if 2 * rest < 2 ^ places then whole
  else if 2 * rest = 2 ^ places then whole + whole % 2
  else whole + 1

theorem cutPlaces_mul_two_pow (number places : Nat) :
    cutPlaces (number * 2 ^ places) places = number := by
  have hpos := Nat.two_pow_pos places
  rw [cutPlaces, Nat.mul_mod_left, Nat.mul_div_cancel _ hpos]
  exact if_pos hpos

@[simp] theorem cutPlaces_zero (number : Nat) : cutPlaces number 0 = number := by
  simpa using cutPlaces_mul_two_pow number 0

/-- Places that are all zero can be added before a cut. -/
theorem cutPlaces_mul_two_pow_add (number places more : Nat) :
    cutPlaces (number * 2 ^ more) (places + more) = cutPlaces number places := by
  have hpos := Nat.two_pow_pos more
  simp only [cutPlaces, Nat.pow_add, Nat.mul_div_mul_right _ _ hpos, Nat.mul_mod_mul_right,
    ← Nat.mul_assoc, Nat.mul_lt_mul_right hpos, Nat.mul_left_inj hpos.ne']

theorem div_le_cutPlaces (number places : Nat) : number / 2 ^ places ≤ cutPlaces number places := by
  unfold cutPlaces
  dsimp only
  split_ifs <;> omega

theorem cutPlaces_le (number places : Nat) :
    cutPlaces number places ≤ number / 2 ^ places + 1 := by
  unfold cutPlaces
  dsimp only
  split_ifs <;> omega

theorem cutPlaces_mono {left right : Nat} (h : left ≤ right) (places : Nat) :
    cutPlaces left places ≤ cutPlaces right places := by
  rcases Nat.eq_or_lt_of_le (Nat.div_le_div_right (c := 2 ^ places) h) with hwhole | hwhole
  · have hrest : left % 2 ^ places ≤ right % 2 ^ places := by
      have hleft := Nat.div_add_mod left (2 ^ places)
      have hright := Nat.div_add_mod right (2 ^ places)
      rw [hwhole] at hleft
      omega
    unfold cutPlaces
    dsimp only
    split_ifs <;> omega
  · calc
      cutPlaces left places ≤ left / 2 ^ places + 1 := cutPlaces_le left places
      _ ≤ right / 2 ^ places := hwhole
      _ ≤ cutPlaces right places := div_le_cutPlaces right places

/-! ### The nearest double -/

theorem log2_mul_two_pow {number : Nat} (h : number ≠ 0) (more : Nat) :
    (number * 2 ^ more).log2 = number.log2 + more := by
  have hpos := Nat.two_pow_pos more
  rw [Nat.log2_eq_iff (Nat.mul_ne_zero h hpos.ne')]
  constructor
  · rw [Nat.pow_add]
    exact Nat.mul_le_mul_right _ (Nat.log2_self_le h)
  · rw [Nat.add_right_comm, Nat.pow_add]
    exact Nat.mul_lt_mul_of_pos_right Nat.lt_log2_self hpos

theorem log2_mono {left right : Nat} (h : left ≤ right) : left.log2 ≤ right.log2 := by
  by_cases hleft : left = 0
  · rw [hleft, Nat.log2_zero]
    exact Nat.zero_le _
  · rw [Nat.le_log2 (by omega)]
    exact (Nat.log2_self_le hleft).trans h

/-- A natural number rounded to the 53 binary digits that a double keeps. -/
def widenedNat (number : Nat) : Nat :=
  cutPlaces number (number.log2 - 52) * 2 ^ (number.log2 - 52)

/-- An integer rounded to the 53 binary digits that a double keeps, to the nearest such number, and
to the even one when it lies halfway. -/
def widened (number : Int) : Int := number.sign * widenedNat number.natAbs

theorem cutPlaces_le_two_pow (number : Nat) : cutPlaces number (number.log2 - 52) ≤ 2 ^ 53 := by
  have hwhole : number / 2 ^ (number.log2 - 52) < 2 ^ 53 := by
    rw [Nat.div_lt_iff_lt_mul (Nat.two_pow_pos _), ← Nat.pow_add]
    exact Nat.lt_log2_self.trans_le (Nat.pow_le_pow_right (by decide) (by omega))
  have hle := cutPlaces_le number (number.log2 - 52)
  omega

theorem two_pow_le_cutPlaces {number : Nat} (h : 2 ^ 52 ≤ number) :
    2 ^ 52 ≤ cutPlaces number (number.log2 - 52) := by
  have hlog : 52 ≤ number.log2 := (Nat.le_log2 (by omega)).mpr h
  refine le_trans ?_ (div_le_cutPlaces number (number.log2 - 52))
  rw [Nat.le_div_iff_mul_le (Nat.two_pow_pos _), ← Nat.pow_add, Nat.add_sub_cancel' hlog]
  exact Nat.log2_self_le (by omega)

/-- A number that has 53 binary digits or less is kept. -/
theorem widenedNat_of_le {number : Nat} (h : number ≤ 2 ^ 53) : widenedNat number = number := by
  rcases Nat.eq_or_lt_of_le h with rfl | hlt
  · have hpower : (2 ^ 53 : Nat) = 2 ^ 52 * 2 ^ 1 := by rw [← Nat.pow_add]
    rw [widenedNat, Nat.log2_two_pow]
    nth_rewrite 1 [hpower]
    rw [cutPlaces_mul_two_pow, hpower]
  · have hlog : number.log2 - 52 = 0 := by
      by_cases hzero : number = 0
      · rw [hzero, Nat.log2_zero]
      · have hdigits := (Nat.log2_lt hzero).mpr hlt
        omega
    rw [widenedNat, hlog, cutPlaces_zero, Nat.pow_zero, Nat.mul_one]

theorem widenedNat_mul_two_pow {number : Nat} (h : 2 ^ 52 ≤ number) (more : Nat) :
    widenedNat (number * 2 ^ more) = widenedNat number * 2 ^ more := by
  have hlog : 52 ≤ number.log2 := (Nat.le_log2 (by omega)).mpr h
  have hplaces : number.log2 + more - 52 = number.log2 - 52 + more := by omega
  rw [widenedNat, widenedNat, log2_mul_two_pow (by omega), hplaces, cutPlaces_mul_two_pow_add,
    Nat.pow_add, Nat.mul_assoc]

/-- Numbers with equally many digits keep their order when they are cut, and those with more digits
come behind the power of two that separates them. -/
theorem widenedNat_mono {left right : Nat} (h : left ≤ right) :
    widenedNat left ≤ widenedNat right := by
  have hlog := log2_mono h
  rcases Nat.eq_or_lt_of_le (show left.log2 - 52 ≤ right.log2 - 52 by omega) with heq | hlt
  · rw [widenedNat, widenedNat, heq]
    exact Nat.mul_le_mul_right _ (cutPlaces_mono h _)
  · have hright : 2 ^ 52 ≤ right := by
      by_contra hsmall
      by_cases hzero : right = 0
      · simp [hzero] at hlt
      · have hdigits := (Nat.log2_lt hzero).mpr (not_le.mp hsmall)
        omega
    calc
      widenedNat left ≤ 2 ^ 53 * 2 ^ (left.log2 - 52) :=
        Nat.mul_le_mul_right _ (cutPlaces_le_two_pow left)
      _ = 2 ^ 52 * 2 ^ (left.log2 - 52 + 1) := by ring
      _ ≤ 2 ^ 52 * 2 ^ (right.log2 - 52) :=
        Nat.mul_le_mul_left _ (Nat.pow_le_pow_right (by decide) hlt)
      _ ≤ widenedNat right := Nat.mul_le_mul_right _ (two_pow_le_cutPlaces hright)

theorem widenedNat_pos {number : Nat} (h : 0 < number) : 0 < widenedNat number := by
  have hone : widenedNat 1 = 1 := widenedNat_of_le (by decide)
  exact Nat.lt_of_lt_of_le (hone.symm ▸ Nat.one_pos) (widenedNat_mono h)

theorem widened_natCast (number : Nat) : widened number = widenedNat number := by
  rcases Nat.eq_zero_or_pos number with rfl | hpos
  · rfl
  · rw [widened, Int.natAbs_natCast, Int.sign_natCast_of_ne_zero hpos.ne', one_mul]

theorem widened_neg (number : Int) : widened (-number) = -widened number := by
  rw [widened, widened, Int.sign_neg, Int.natAbs_neg, neg_mul]

theorem widened_of_abs_le {number : Int} (h : |number| ≤ 2 ^ 53) : widened number = number := by
  rw [Int.abs_eq_natAbs] at h
  rw [widened, widenedNat_of_le (by omega), Int.sign_mul_natAbs]

theorem widened_mono {left right : Int} (h : left ≤ right) : widened left ≤ widened right := by
  rcases Int.eq_nat_or_neg left with ⟨left, rfl | rfl⟩ <;>
    rcases Int.eq_nat_or_neg right with ⟨right, rfl | rfl⟩ <;>
    simp only [widened_neg, widened_natCast]
  · exact_mod_cast widenedNat_mono (by omega)
  · obtain rfl : left = 0 := by omega
    obtain rfl : right = 0 := by omega
    rfl
  · exact (neg_nonpos.mpr (Int.natCast_nonneg _)).trans (Int.natCast_nonneg _)
  · exact neg_le_neg (by exact_mod_cast widenedNat_mono (by omega))

/-! ### Nothing is nearer -/

/-- Cutting moves a number by half a unit of the last place at most. -/
theorem two_mul_abs_sub_cutPlaces_le (number places : Nat) :
    2 * |(number : Int) - cutPlaces number places * 2 ^ places| ≤ 2 ^ places := by
  have hrest := Nat.mod_lt number (Nat.two_pow_pos places)
  have hsplit : (number : Int) =
      (number / 2 ^ places : Nat) * (2 ^ places : Nat) + (number % 2 ^ places : Nat) := by
    exact_mod_cast (Nat.div_add_mod' number (2 ^ places)).symm
  have hmoved (carry : Nat) :
      (number : Int) - ((number / 2 ^ places + carry : Nat) : Int) * (2 ^ places : Nat) =
        (number % 2 ^ places : Nat) - carry * (2 ^ places : Nat) := by
    rw [hsplit]
    push_cast
    ring
  have hcast : (2 ^ places : Int) = (2 ^ places : Nat) := by push_cast; rfl
  rw [hcast, cutPlaces]
  split_ifs with hbelow hhalf
  · have hkept := hmoved 0
    rw [Nat.add_zero] at hkept
    rw [hkept, Int.abs_eq_natAbs]
    omega
  · rw [hmoved, Int.abs_eq_natAbs]
    rcases Nat.mod_two_eq_zero_or_one (number / 2 ^ places) with h | h <;> rw [h] <;> omega
  · rw [hmoved, Int.abs_eq_natAbs]
    omega

/-- No other number without these places is nearer. -/
theorem abs_sub_cutPlaces_le (number places : Nat) (other : Int) :
    |(number : Int) - cutPlaces number places * 2 ^ places| ≤
      |(number : Int) - other * 2 ^ places| := by
  rcases eq_or_ne other (cutPlaces number places) with rfl | hne
  · exact le_rfl
  · have hhalf := two_mul_abs_sub_cutPlaces_le number places
    have hunit : (2 ^ places : Int) ≤ |(cutPlaces number places - other) * 2 ^ places| := by
      rw [abs_mul, abs_of_pos (pow_pos two_pos places : (0 : Int) < 2 ^ places)]
      exact le_mul_of_one_le_left (by positivity) (Int.one_le_abs (sub_ne_zero.mpr hne.symm))
    have htriangle := abs_sub_le ((cutPlaces number places : Int) * 2 ^ places) number
      (other * 2 ^ places)
    rw [← sub_mul, abs_sub_comm _ (number : Int)] at htriangle
    omega

/-- An integer that has at most 53 binary digits, apart from zeros behind them. -/
def FitsDouble (number : Int) : Prop :=
  ∃ (mantissa : Int) (places : Nat), |mantissa| ≤ 2 ^ 53 ∧ number = mantissa * 2 ^ places

theorem FitsDouble.neg {number : Int} (h : FitsDouble number) : FitsDouble (-number) := by
  obtain ⟨mantissa, places, hmantissa, rfl⟩ := h
  exact ⟨-mantissa, places, by rwa [abs_neg], (neg_mul _ _).symm⟩

theorem fitsDouble_widened (number : Int) : FitsDouble (widened number) := by
  have hnat (number : Nat) : FitsDouble (widened number) := by
    refine ⟨cutPlaces number (number.log2 - 52), number.log2 - 52, ?_, ?_⟩
    · rw [Nat.abs_cast]
      exact_mod_cast cutPlaces_le_two_pow number
    · rw [widened_natCast, widenedNat]
      push_cast
      rfl
  rcases Int.eq_nat_or_neg number with ⟨number, rfl | rfl⟩
  · exact hnat number
  · rw [widened_neg]
    exact (hnat number).neg

/-- No other integer that a double holds is nearer. -/
theorem abs_sub_widened_le (number : Int) {other : Int} (h : FitsDouble other) :
    |number - widened number| ≤ |number - other| := by
  have hnat (number : Nat) (other : Int) (h : FitsDouble other) :
      |(number : Int) - widened number| ≤ |(number : Int) - other| := by
    obtain ⟨mantissa, places, hmantissa, rfl⟩ := h
    rw [widened_natCast, widenedNat]
    push_cast
    rcases le_or_gt (number.log2 - 52) places with hcoarse | hfine
    · -- The other number has no place within the cut ones either.
      obtain ⟨more, rfl⟩ := Nat.exists_eq_add_of_le hcoarse
      have hother := abs_sub_cutPlaces_le number (number.log2 - 52) (mantissa * 2 ^ more)
      rwa [mul_assoc, ← pow_add, Nat.add_comm more] at hother
    · -- The other number has fewer digits, so a power of two lies between.
      have hnear := abs_sub_cutPlaces_le number (number.log2 - 52) (2 ^ 52)
      have hpower : (2 ^ 52 * 2 ^ (number.log2 - 52) : Int) ≤ number := by
        rw [← pow_add, Nat.add_sub_cancel' (by omega)]
        exact_mod_cast Nat.log2_self_le (by rintro rfl; simp at hfine)
      have hother : mantissa * 2 ^ places ≤ 2 ^ 52 * 2 ^ (number.log2 - 52) := by
        calc
          mantissa * 2 ^ places ≤ 2 ^ 53 * 2 ^ places :=
            mul_le_mul_of_nonneg_right ((le_abs_self _).trans hmantissa) (by positivity)
          _ = 2 ^ 52 * 2 ^ (places + 1) := by ring
          _ ≤ 2 ^ 52 * 2 ^ (number.log2 - 52) :=
            mul_le_mul_of_nonneg_left (pow_le_pow_right₀ (by norm_num) hfine) (by positivity)
      rw [abs_of_nonneg (sub_nonneg.mpr hpower)] at hnear
      exact hnear.trans ((sub_le_sub_left hother _).trans (le_abs_self _))
  rcases Int.eq_nat_or_neg number with ⟨number, rfl | rfl⟩
  · exact hnat number other h
  · have hneg := hnat number (-other) h.neg
    rw [widened_neg, ← abs_neg (_ - _), ← abs_neg (_ - other)]
    convert hneg using 2 <;> ring

end MediaCatalog.Decimal
