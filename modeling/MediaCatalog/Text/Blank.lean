import MediaCatalog.Text.CharSet

/-!
Blank characters are those of the property White_Space. Trimming takes them
from both ends of a text.
-/

namespace MediaCatalog.Text

/-- The property White_Space. -/
def blanks : CharSet := .ofBounds [
    0x9, 0xE, 0x20, 0x21, 0x85, 0x86, 0xA0, 0xA1, 0x1680, 0x1681, 0x2000, 0x200B, 0x2028, 0x202A,
    0x202F, 0x2030, 0x205F, 0x2060, 0x3000, 0x3001]

def isBlank (char : Char) : Bool := blanks.contains char

/-- The characters without the blanks at either end. -/
def trimChars (chars : List Char) : List Char :=
  ((chars.dropWhile isBlank).reverse.dropWhile isBlank).reverse

def trim (text : String) : String := String.ofList (trimChars text.toList)

end MediaCatalog.Text
