import MediaCatalog.Double

/-!
Shortest decimals of floats: the fewest digits that read back as the same
float, and of those the nearest to it. The work is done in exact arithmetic on
the two numbers a float is made of, its significand and its power of two.
-/

namespace MediaCatalog.Decimal

/-- A positive finite float, `significand * 2 ^ exponent`. -/
structure Binary where
  significand : Nat
  exponent : Int
  /-- The next smaller float is only half as far away as the next larger one. -/
  narrowBelow : Bool

/-- The significand and exponent in the bits of a positive finite float. -/
def Binary.ofBits (bits : Nat) : Binary :=
  let hidden : Nat := 0x10000000000000
  let field : Nat := bits / hidden % 0x800
  let fraction : Nat := bits % hidden
  if field = 0 then ⟨fraction, -1074, false⟩
  else ⟨hidden + fraction, (field : Int) - 1075, fraction = 0 ∧ 1 < field⟩

/-- A power of a base; 1 for a negative exponent. -/
def power (base : Nat) (exponent : Int) : Nat := Nat.pow base exponent.toNat

/-- The reals that round to a float, over one denominator: from `low / unit` to
`high / unit`, with the float itself at `value / unit`. The ends belong to the range
when it is `closed`. -/
structure Rounding where
  low : Nat
  value : Nat
  high : Nat
  unit : Nat
  closed : Bool

/-- Halfway to either neighbour. Quarters of the last place hold all the bounds. -/
def Binary.rounding (binary : Binary) : Rounding :=
  let quarter := binary.exponent - 2
  let scale := power 2 quarter
  let value := 4 * binary.significand
  { low := (if binary.narrowBelow then value - 1 else value - 2) * scale
    value := value * scale
    high := (value + 2) * scale
    unit := power 2 (-quarter)
    closed := binary.significand % 2 = 0 }

/-- Whether `digits * 10 ^ place` rounds to the float. -/
def Rounding.holds (range : Rounding) (place : Int) (digits : Nat) : Bool :=
  let point := digits * power 10 place * range.unit
  let scale := power 10 (-place)
  if range.closed then range.low * scale ≤ point ∧ point ≤ range.high * scale
  else range.low * scale < point ∧ point < range.high * scale

/-- How many digits stand before the point, negative for zeros after it. -/
def Rounding.magnitude (range : Rounding) : Int :=
  ((range.value * power 10 400 / range.unit).repr.length : Int) - 400

/-- The digits down to the place `10 ^ place` that round to the float, if there are
any: of the two neighbours of the float on that grid the nearer, the upper on a tie. -/
def Rounding.digitsAt? (range : Rounding) (place : Int) : Option Nat :=
  let scaled := range.value * power 10 (-place)
  let step := range.unit * power 10 place
  let below := scaled / step
  let above := below + 1
  match range.holds place below, range.holds place above with
  | true, true => if 2 * (scaled % step) < step then some below else some above
  | true, false => some below
  | false, true => some above
  | false, false => none

/-- The shortest digits of a positive finite float and the place of the last of them.
Seventeen digits are always enough. An upper neighbour can have a digit more than its
grid; that digit is a zero then and is taken off. -/
def shortest (bits : Nat) : Nat × Int :=
  let range := (Binary.ofBits bits).rounding
  let magnitude := range.magnitude
  let found := (List.range 17).findSome? fun (count : Nat) =>
    let place : Int := magnitude - (count + 1)
    (range.digitsAt? place).map (·, place)
  match found with
  | some (digits, place) => if digits % 10 = 0 then (digits / 10, place + 1) else (digits, place)
  | none => (0, 0)

/-- Digits times a power of ten, written without an exponent. -/
def positional (digits : Nat) (place : Int) : String :=
  let text := digits.repr
  if 0 ≤ place then text ++ String.ofList (List.replicate place.toNat '0')
  else
    let places := (-place).toNat
    let padded := List.replicate (places + 1 - text.length) '0' ++ text.toList
    let point := padded.length - places
    String.ofList (padded.take point ++ '.' :: padded.drop point)

/-- The text of a double: its shortest digits, never with an exponent. NaN shows no
sign. -/
def ofDouble (number : Double) : String :=
  let bits := number.toBits.toNat
  let signBit : Nat := 0x8000000000000000
  let sign := if bits < signBit then "" else "-"
  let size := bits % signBit
  if 0x7FF0000000000000 < size then "NaN"
  else if size = 0x7FF0000000000000 then sign ++ "inf"
  else if size = 0 then sign ++ "0"
  else
    let (digits, place) := shortest size
    sign ++ positional digits place

end MediaCatalog.Decimal
