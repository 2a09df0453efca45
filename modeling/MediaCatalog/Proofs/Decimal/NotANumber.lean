import MediaCatalog.Decimal.Numeral
import MediaCatalog.Proofs.Double

/-!
Which numerals denote NaN. Rounding and packing never make a NaN of a number, so what digits denote
is a number, if only infinity. A numeral denotes NaN only by its name, in whatever case and behind
whatever sign.
-/

namespace MediaCatalog.Decimal

open Float.Model Float.Model.UnpackedFloat

/-! ### Packing -/

theorem unpack_packComponents_eq_nan_iff {spec : Format} {sign : Sign}
    {exponent : BitVec spec.exponentBits} {mantissa : BitVec spec.mantissaBitsWithoutImplicit} :
    UnpackedFloat.unpack spec (packComponents spec sign exponent mantissa) = .notANumber ↔
      exponent = -1#_ ∧ mantissa ≠ 0#_ := by
  simp only [UnpackedFloat.unpack, unpackExponent_packComponents, unpackMantissa_packComponents]
  split
  · split <;> simp_all
  · split
    · split <;> simp_all
    · simp_all

/-- Packing makes a NaN of a NaN only. -/
theorem unpack_pack_eq_nan_iff {number : UnpackedFloat} :
    (Float.Model.pack number).unpack = .notANumber ↔ number = .notANumber := by
  have hpacked : (Float.Model.pack number).unpack =
      UnpackedFloat.unpack .binary64 (UnpackedFloat.pack .binary64 number) := rfl
  rw [hpacked]
  cases number with
  | notANumber => simp [UnpackedFloat.pack, unpack_packedNaN]
  | infinity sign => simp [UnpackedFloat.pack, packedInfinity, unpack_packComponents_eq_nan_iff]
  | zero sign => simp [UnpackedFloat.pack, unpack_packedZero]
  | finite sign mantissa exponent hpos =>
      simp only [reduceCtorEq, iff_false]
      rw [UnpackedFloat.pack]
      dsimp only
      split
      · simp [packedInfinity, unpack_packComponents_eq_nan_iff]
      · next hrange =>
        -- An exponent in range is not the one of NaN, which has all bits set.
        split <;> rw [unpack_packComponents_eq_nan_iff] <;> rintro ⟨hones, -⟩
        · have hbits := congrArg BitVec.toNat hones
          simp at hbits hrange
          omega
        · exact absurd hones (by decide)

theorem eq_nan_iff {number : Float} : number = Float.nan ↔ number.toModel.unpack = .notANumber := by
  have hdecide : decide (number = Float.nan) = number.toModel.unpack.isNaN :=
    Float.isNaN_eq_decide_eq_nan.symm
  rw [← isNaN_iff, ← hdecide, decide_eq_true_iff]

theorem ofModel_pack_eq_nan_iff {number : UnpackedFloat} :
    Float.ofModel (.pack number) = Float.nan ↔ number = .notANumber := by
  rw [eq_nan_iff, unpack_pack_eq_nan_iff]

theorem neg_eq_nan_iff {number : Float} : -number = Float.nan ↔ number = Float.nan := by
  have hneg : -number = Float.ofModel (.pack number.toModel.unpack.neg) := rfl
  rw [hneg, ofModel_pack_eq_nan_iff, eq_nan_iff]
  cases number.toModel.unpack <;> simp [UnpackedFloat.neg]

/-! ### Rounding -/

theorem roundWithAccuracy_ne_nan (spec : Format) (sign : Sign) (mantissa : Nat) (exponent : Int)
    (accuracy : Accuracy) :
    roundWithAccuracy spec sign mantissa exponent accuracy ≠ .notANumber := by
  unfold roundWithAccuracy
  dsimp only
  split <;> exact UnpackedFloat.noConfusion

theorem ofNat_ne_nan (spec : Format) (number : Nat) :
    UnpackedFloat.ofNat spec number ≠ .notANumber := by
  unfold UnpackedFloat.ofNat UnpackedFloat.ofInt UnpackedFloat.normalize UnpackedFloat.round
  split
  · exact roundWithAccuracy_ne_nan _ _ _ _ _
  · exact UnpackedFloat.noConfusion
  · exact roundWithAccuracy_ne_nan _ _ _ _ _

/-- Whether a number is finite and not zero. -/
def isNonzero : UnpackedFloat → Bool
  | .finite .. => true
  | _ => false

theorem mul_ne_nan {spec : Format} {left right : UnpackedFloat} (h : left ≠ .notANumber)
    (hright : isNonzero right) : UnpackedFloat.mul spec left right ≠ .notANumber := by
  cases right with
  | finite =>
      cases left with
      | notANumber => exact absurd rfl h
      | infinity | zero => exact UnpackedFloat.noConfusion
      | finite => exact roundWithAccuracy_ne_nan _ _ _ _ _
  | infinity | notANumber | zero => cases hright

theorem div_ne_nan {spec : Format} {left right : UnpackedFloat} (h : left ≠ .notANumber)
    (hright : isNonzero right) : UnpackedFloat.div spec left right ≠ .notANumber := by
  cases right with
  | finite =>
      cases left with
      | notANumber => exact absurd rfl h
      | infinity | zero => exact UnpackedFloat.noConfusion
      | finite => exact roundWithAccuracy_ne_nan _ _ _ _ _
  | infinity | notANumber | zero => cases hright

theorem unpackedOfScientific_ne_nan (spec : Format) (mantissa : Nat) (exponent : Int) :
    UnpackedFloat.ofScientific spec mantissa exponent ≠ .notANumber := by
  fun_cases UnpackedFloat.ofScientific with
  | case1 | case2 | case3 => exact UnpackedFloat.noConfusion
  | case4 => exact mul_ne_nan UnpackedFloat.noConfusion rfl
  | case5 => exact div_ne_nan UnpackedFloat.noConfusion rfl

theorem isNonzero_powerOfTen (power : Nat)
    (h : power < Float.exactlyRepresentablePowersOfTen.size) :
    isNonzero Float.exactlyRepresentablePowersOfTen[power].toModel.unpack := by
  have hall : Float.exactlyRepresentablePowersOfTen.all (isNonzero ·.toModel.unpack) := by
    decide +kernel
  exact Array.all_eq_true.mp hall power h

theorem ofScientific_ne_nan (mantissa : Nat) (negative : Bool) (power : Nat) :
    Float.ofScientific mantissa negative power ≠ Float.nan := by
  unfold Float.ofScientific
  split
  · -- Both the digits and the power of ten are floats.
    have hdigits : mantissa.toUInt64.toFloat.toModel.unpack ≠ .notANumber :=
      unpack_pack_eq_nan_iff.not.mpr (ofNat_ne_nan _ _)
    dsimp only
    split
    · exact ofModel_pack_eq_nan_iff.not.mpr (div_ne_nan hdigits (isNonzero_powerOfTen _ _))
    · exact ofModel_pack_eq_nan_iff.not.mpr (mul_ne_nan hdigits (isNonzero_powerOfTen _ _))
  · exact ofModel_pack_eq_nan_iff.not.mpr (unpackedOfScientific_ne_nan _ _ _)

theorem ofInt_ne_nan (number : Int) : Float.ofInt number ≠ Float.nan := by
  cases number with
  | ofNat number => exact ofScientific_ne_nan number false 0
  | negSucc number => exact neg_eq_nan_iff.not.mpr (ofScientific_ne_nan (number + 1) false 0)

/-! ### Numerals -/

theorem not_isNaN_ofInt (number : Int) : ¬ (Double.ofInt number).isNaN :=
  Double.isNaN_ofFloat.not.mpr (ofInt_ne_nan number)

theorem not_isNaN_infinity : ¬ (Double.ofBits 0x7FF0000000000000).isNaN := by decide

theorem isNaN_usual : (Double.ofBits 0x7FF8000000000000).isNaN := by decide

theorem not_isNaN_nearest (digits : List Char) (power : Int) : ¬ (nearest digits power).isNaN := by
  unfold nearest
  dsimp only
  split
  · exact Double.isNaN_ofFloat.not.mpr (ofScientific_ne_nan 0 true 1)
  split
  · exact not_isNaN_infinity
  · exact Double.isNaN_ofFloat.not.mpr (ofScientific_ne_nan _ _ _)

/-- What the digits and the exponent of a numeral denote is no NaN. -/
theorem not_any_isNaN_nearest (digits : List Char) (exponent? : Option Int) (places : Int) :
    ¬ (exponent?.map fun exponent => nearest digits (exponent - places)).any Double.isNaN := by
  cases exponent? with
  | none => exact Bool.false_ne_true
  | some exponent => exact not_isNaN_nearest _ _

theorem any_isNaN_unsigned?_iff {chars : List Char} :
    (unsigned? chars).any Double.isNaN ↔ chars.map Char.toLower = "nan".toList := by
  unfold unsigned?
  dsimp only
  split
  · next hinfinity =>
    refine iff_of_false not_isNaN_infinity fun hname => ?_
    rw [hname] at hinfinity
    exact absurd hinfinity (by decide)
  split
  · next hname => exact iff_of_true isNaN_usual hname
  · next hname =>
    refine iff_of_false ?_ hname
    split
    all_goals
      split
      · exact Bool.false_ne_true
      · exact not_any_isNaN_nearest _ _ _

/-- A text that names NaN: the name in whatever case, with or without a sign. -/
def NamesNaN (text : String) : Prop :=
  ∃ sign name, sign ∈ [[], ['-'], ['+']] ∧ text.toList = sign ++ name ∧
    name.map Char.toLower = "nan".toList

/-- What `takeSign` takes is a sign if there is one, and the name of NaN does not begin with one. -/
theorem namesNaN_iff {text : String} :
    NamesNaN text ↔ (takeSign text.toList).2.map Char.toLower = "nan".toList := by
  constructor
  · rintro ⟨sign, name, hsign, htext, hname⟩
    rw [htext]
    simp only [List.mem_cons, List.not_mem_nil, or_false] at hsign
    rcases hsign with rfl | rfl | rfl
    · suffices htake : (takeSign name).2 = name by rwa [List.nil_append, htake]
      unfold takeSign
      split
      · cases hname
      · cases hname
      · rfl
    · exact hname
    · exact hname
  · intro hname
    unfold takeSign at hname
    split at hname
    · next rest htext => exact ⟨['-'], rest, by decide, htext, hname⟩
    · next rest htext => exact ⟨['+'], rest, by decide, htext, hname⟩
    · exact ⟨[], _, by decide, rfl, hname⟩

instance (text : String) : Decidable (NamesNaN text) := decidable_of_iff' _ namesNaN_iff

/-- The texts that are read as NaN are those that name it. -/
theorem any_isNaN_parse?_iff {text : String} :
    (parse? text).any Double.isNaN ↔ NamesNaN text := by
  rw [namesNaN_iff, ← any_isNaN_unsigned?_iff, parse?]
  dsimp only
  cases unsigned? (takeSign text.toList).2 with
  | none => rfl
  | some number =>
      simp only [Option.map_some, Option.any_some]
      split
      · exact Double.isNaN_neg
      · rfl

end MediaCatalog.Decimal
