/-!
The byte format. Every value starts with a marker byte; numbers are written
with their most significant byte first; lengths and counts take four bytes.
-/

namespace MediaCatalog.Wire

/-- A number's lowest `width` bytes, the most significant one first. -/
def bigEndian : (width : Nat) → Nat → List UInt8
  | 0, _ => []
  | width + 1, number => bigEndian width (number / 256) ++ [UInt8.ofNat number]

/-- The number that the bytes denote, the most significant one first. -/
def ofBigEndian (bytes : List UInt8) : Nat :=
  bytes.foldl (fun number byte => number * 256 + byte.toNat) 0

/-- A length, a count or an identifier. -/
def word (number : Nat) : List UInt8 := bigEndian 4 number

/-- The bytes of a text, after their number. -/
def text (string : String) : List UInt8 :=
  let bytes := string.toUTF8.data.toList
  word bytes.length ++ bytes

/-- What follows a marker byte. -/
inductive Marker where
  | none
  | int
  | float
  | string
  | binary
  | list
  | dict
  | collection
  | error
  | reference
  deriving DecidableEq, Repr

namespace Marker

def code : Marker → UInt8
  | none => 0
  | int => 1
  | float => 2
  | string => 3
  | binary => 4
  | list => 5
  | dict => 6
  | collection => 7
  | error => 8
  | reference => 9

def ofCode? : UInt8 → Option Marker
  | 0 => some none
  | 1 => some int
  | 2 => some float
  | 3 => some string
  | 4 => some binary
  | 5 => some list
  | 6 => some dict
  | 7 => some collection
  | 8 => some error
  | 9 => some reference
  | _ => Option.none

@[simp] theorem ofCode?_code (marker : Marker) : ofCode? marker.code = some marker := by
  cases marker <;> rfl

end Marker

@[simp] theorem length_bigEndian (width number : Nat) :
    (bigEndian width number).length = width := by
  induction width generalizing number with
  | zero => rfl
  | succ width ih => simp [bigEndian, ih]

end MediaCatalog.Wire
