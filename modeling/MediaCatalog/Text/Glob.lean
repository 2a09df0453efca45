import MediaCatalog.Text.Lowercase
import MediaCatalog.Text.Split

/-!
Patterns with `*` for any run of characters and `?` for any one character.
Patterns match without regard to case: both sides are lower-cased first.

The stars cut a pattern into pieces. The first piece stands at the front of the
text and the last one at its end; each piece between them is taken where it first
occurs after the piece before. A later occurrence would only leave less text to
the pieces that follow, so the first one is as good as any.
-/

namespace MediaCatalog.Text

/-- What follows a piece without stars at the front of a text, if it stands there. -/
def afterPiece? : (piece : List Char) → (text : List Char) → Option (List Char)
  | [], text => some text
  | _ :: _, [] => none
  | char :: piece, next :: text =>
    if char = '?' ∨ char = next then afterPiece? piece text else none

/-- What follows the first occurrence of a piece in a text. -/
def afterFirst? (piece : List Char) : (text : List Char) → Option (List Char)
  | [] => afterPiece? piece []
  | next :: text =>
    match afterPiece? piece (next :: text) with
    | some rest => some rest
    | none => afterFirst? piece text

/-- Whether a piece stands at the end of a text. -/
def endsWithPiece (piece text : List Char) : Bool :=
  piece.length ≤ text.length
    && (afterPiece? piece (text.drop (text.length - piece.length))).isSome

/-- Whether a star before each of the pieces makes them match a text. Without any
piece only the empty text is left. -/
def globPieces : (pieces : List (List Char)) → (text : List Char) → Bool
  | [], text => text.isEmpty
  | [piece], text => endsWithPiece piece text
  | piece :: pieces, text =>
    match afterFirst? piece text with
    | some rest => globPieces pieces rest
    | none => false

/-- Whether the pattern matches the whole text, letter by letter. -/
def globChars (pattern text : List Char) : Bool :=
  match splitChars '*' pattern with
  | [] => text.isEmpty
  | piece :: pieces =>
    match afterPiece? piece text with
    | some rest => globPieces pieces rest
    | none => false

def glob (pattern text : String) : Bool :=
  globChars (lowerChars pattern.toList) (lowerChars text.toList)

end MediaCatalog.Text
