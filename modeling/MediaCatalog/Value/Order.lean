import MediaCatalog.Decimal.Numeral
import MediaCatalog.Decimal.Shortest
import MediaCatalog.Text.Blank
import MediaCatalog.Text.Lowercase
import MediaCatalog.Value.Basic

/-!
How property values compare. Three views of a value serve three purposes: its
place in the order of values, its number, and its text. Sorting looks at the
type first and never reads a string as a number; tests for equality and size
do read numeric strings.
-/

namespace MediaCatalog

/-- The place of a double in the total order of all doubles: negative ones below
positive ones, minus zero below zero, and NaN beyond infinity on the side of its
sign. -/
def totalRank (number : Double) : Nat :=
  let bits := number.toBits.toNat
  let signBit : Nat := 0x8000000000000000
  if bits < signBit then bits + signBit else 0xFFFFFFFFFFFFFFFF - bits

namespace Value

/-- The order of values: numbers, then strings without regard to case, then all
the rest, which is not told apart. Strings that differ in case alone come in the
order of their characters. -/
def compare (left right : Value) : Ordering :=
  match left, right with
  | string first, string second =>
    (Ord.compare (Text.lowercase first) (Text.lowercase second)).then (Ord.compare first second)
  | _, _ =>
    match left.float?, right.float? with
    | some first, some second => Ord.compare (totalRank first) (totalRank second)
    | some _, Option.none => .lt
    | Option.none, some _ => .gt
    | Option.none, Option.none =>
      match left.string?, right.string? with
      | some _, Option.none => .lt
      | Option.none, some _ => .gt
      | _, _ => .eq

/-- The number of a value; a numeric string counts. -/
def number? (value : Value) : Option Double :=
  match value.float? with
  | some number => some number
  | Option.none => value.string?.bind fun text => Decimal.parse? (Text.trim text)

/-- The text by which a value is matched and grouped. -/
def text : Value → String
  | string text => text
  | int number => toString number.toInt
  | float number => Decimal.ofDouble number
  | error message => message
  | other => other.typeName

/-- Equality of properties: as numbers if both are numbers, else as texts. -/
def alike (left right : Value) : Bool :=
  match left.number?, right.number? with
  | some first, some second => first == second
  | _, _ => left.text == right.text

end Value

end MediaCatalog
