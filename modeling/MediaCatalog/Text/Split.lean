/-!
Splitting a text at a character. A text with n separators has n + 1 parts.
-/

namespace MediaCatalog.Text

/-- The parts between the separators. -/
def splitChars (separator : Char) : List Char → List (List Char)
  | [] => [[]]
  | char :: rest =>
    if char = separator then [] :: splitChars separator rest
    else
      match splitChars separator rest with
      | [] => [[char]]
      | part :: parts => (char :: part) :: parts

def split (separator : Char) (text : String) : List String :=
  (splitChars separator text.toList).map String.ofList

/-- Whether `part` stands somewhere in the characters. -/
def containsChars (part : List Char) : List Char → Bool
  | [] => part.isEmpty
  | char :: rest => part.isPrefixOf (char :: rest) || containsChars part rest

/-- Whether the text holds the mark between a scheme and what follows. -/
def hasScheme (text : String) : Bool := containsChars "://".toList text.toList

end MediaCatalog.Text
