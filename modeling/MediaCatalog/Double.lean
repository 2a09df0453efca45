/-!
Doubles. A double is its 64 bits, so the two zeros are told apart, and so are all the bit patterns
that stand for NaN. Arithmetic, equality and order go by the number that the bits stand for; there
all patterns of NaN are one.
-/

namespace MediaCatalog

/-- A double-precision number as its bits: one for the sign, eleven for the exponent and 52 for the
fraction. -/
structure Double where
  ofBits ::
  toBits : UInt64
  deriving DecidableEq, Repr

namespace Double

/-- The number that the bits stand for. -/
def toFloat (number : Double) : Float := .ofBits number.toBits

/-- The bits of a number. Which pattern a computed NaN has is left open where numbers are computed;
here it is the one without sign and payload. -/
def ofFloat (number : Float) : Double := ofBits number.toBits

instance : Coe Float Double := ⟨ofFloat⟩

/-- The double nearest to an integer. -/
def ofInt (number : Int) : Double := Float.ofInt number

def isNaN (number : Double) : Bool := number.toFloat.isNaN

/-- Equality as numbers: the zeros are equal, and NaN equals nothing. -/
instance : BEq Double := ⟨fun left right => left.toFloat == right.toFloat⟩

instance : LT Double := ⟨fun left right => left.toFloat < right.toFloat⟩

instance : DecidableLT Double := fun left right =>
  inferInstanceAs (Decidable (left.toFloat < right.toFloat))

instance : Add Double := ⟨fun left right => ofFloat (left.toFloat + right.toFloat)⟩

instance : Div Double := ⟨fun left right => ofFloat (left.toFloat / right.toFloat)⟩

def signBit : UInt64 := 0x8000000000000000

/-- Negation turns the sign over, that of NaN as well. -/
instance : Neg Double := ⟨fun number => ofBits (number.toBits ^^^ signBit)⟩

instance {digits : Nat} : OfNat Double digits := ⟨ofFloat (OfNat.ofNat digits)⟩

instance : OfScientific Double :=
  ⟨fun digits negative places => ofFloat (OfScientific.ofScientific digits negative places)⟩

end Double

end MediaCatalog
