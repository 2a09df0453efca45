/-!
Sets of characters, given by the numbers at which membership changes: the first
bound opens a range, the second closes it, and so on in ascending order.
-/

namespace MediaCatalog.Text

/-- A set of characters as the ascending bounds of its ranges. -/
structure CharSet where
  ofBounds ::
  bounds : List Nat

/-- Whether an odd number of ascending bounds are not above a number. -/
def oddBoundsUpTo (number : Nat) : (bounds : List Nat) → Bool
  | [] => false
  | bound :: bounds => if number < bound then false else !oddBoundsUpTo number bounds

/-- A character belongs to the set when an odd number of bounds are not above it. -/
def CharSet.contains (set : CharSet) (char : Char) : Bool :=
  oddBoundsUpTo char.toNat set.bounds

end MediaCatalog.Text
