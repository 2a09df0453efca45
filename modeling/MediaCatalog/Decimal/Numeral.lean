import MediaCatalog.Double

/-!
Reading numerals. A numeral is an optional sign before digits, with a point
anywhere among them and an exponent after them, or one of the names of infinity
and of NaN. The value is rounded once, to the nearest float.
-/

namespace MediaCatalog.Decimal

/-- The digits at the front of a text, and what follows them. -/
def takeDigits (chars : List Char) : List Char × List Char := chars.span Char.isDigit

/-- The number that a digit stands for. -/
def digitValue (digit : Char) : Nat := digit.toNat - '0'.toNat

/-- The number that digits denote. -/
def ofDigits (digits : List Char) : Nat :=
  digits.foldl (fun number digit => number * 10 + digitValue digit) 0

/-- An optional sign: whether it is a minus, and what follows. -/
def takeSign : List Char → Bool × List Char
  | '-' :: rest => (true, rest)
  | '+' :: rest => (false, rest)
  | chars => (false, chars)

/-- The size of an exponent. Once it has reached 65536 further digits do not count,
as it is far beyond the range of floats. -/
def exponentSize (digits : List Char) : Nat :=
  digits.foldl (fun size digit => if size < 65536 then size * 10 + digitValue digit else size) 0

/-- The exponent that ends a numeral. -/
def exponent? : List Char → Option Int
  | [] => some 0
  | char :: rest =>
    if char = 'e' ∨ char = 'E' then
      let (negative, rest) := takeSign rest
      match takeDigits rest with
      | ([], _) => none
      | (digits, []) => some (if negative then -exponentSize digits else exponentSize digits)
      | _ => none
    else none

/-- Every float, and every number halfway between two neighbouring floats, has fewer
significant digits than this. -/
def significantDigits : Nat := 800

/-- Digits cut to the significant ones, and how many places were cut off. If anything
but zeros was cut off, a digit at the end stands for it, so that the number stays on
its side of every halfway number. -/
def cutDigits (digits : List Char) : Nat × Nat :=
  let kept := ofDigits (digits.take significantDigits)
  match digits.drop significantDigits with
  | [] => (kept, 0)
  | tail => (kept * 10 + (if tail.all (· = '0') then 0 else 1), tail.length - 1)

/-- The float nearest to the number of the digits times `10 ^ power`. Beyond these
bounds every float is nearer to infinity or to zero. -/
def nearest (digits : List Char) (power : Int) : Double :=
  let digits := digits.dropWhile (· = '0')
  let magnitude := (digits.length : Int) + power
  if digits.isEmpty ∨ magnitude < -330 then 0.0
  else if 310 < magnitude then Double.ofBits 0x7FF0000000000000
  else
    let (number, places) := cutDigits digits
    let power := power + places
    Float.ofScientific number (power < 0) power.natAbs

/-- A numeral without its sign. -/
def unsigned? (chars : List Char) : Option Double :=
  let name := chars.map Char.toLower
  if name = "inf".toList ∨ name = "infinity".toList then
    some (Double.ofBits 0x7FF0000000000000)
  else if name = "nan".toList then some (Double.ofBits 0x7FF8000000000000)
  else
    let (whole, rest) := takeDigits chars
    let (fraction, rest) :=
      match rest with
      | '.' :: rest => takeDigits rest
      | _ => ([], rest)
    if whole.isEmpty ∧ fraction.isEmpty then none
    else
      (exponent? rest).map fun exponent =>
        nearest (whole ++ fraction) (exponent - fraction.length)

/-- The float that a numeral denotes. -/
def parse? (text : String) : Option Double :=
  let (negative, rest) := takeSign text.toList
  (unsigned? rest).map fun number => if negative then -number else number

end MediaCatalog.Decimal
