import MediaCatalog.Text.CaseTable

/-!
Lower-casing by the full Unicode mappings. One character depends on its
neighbours: a capital sigma at the end of a word becomes the final form.
-/

namespace MediaCatalog.Text

/-- The lower-case form of a character by itself. -/
def lowerChar (char : Char) : List Char :=
  if char.toNat < 0x80 then [char.toLower]
  else if char = 'İ' then ['i', '\u0307']
  else
    let number := char.toNat
    match lowerRanges.find? fun (first, last, stride, _) =>
        first ≤ number ∧ number ≤ last ∧ (number - first) % stride = 0 with
    | some (_, _, _, distance) => [Char.ofNat (number + distance).toNat]
    | none => [char]

/-- Whether a cased letter comes first, after case-ignorable characters. -/
def startsCased (chars : List Char) : Bool :=
  match chars.dropWhile caseIgnorable.contains with
  | char :: _ => casedLetters.contains char
  | [] => false

/-- Lower-case characters that follow `before`, which is given backwards. -/
def lowerAfter (before : List Char) : List Char → List Char
  | [] => []
  | char :: rest =>
    (if char = 'Σ' then
      [if startsCased before && !startsCased rest then 'ς' else 'σ']
    else lowerChar char) ++ lowerAfter (char :: before) rest

def lowerChars (chars : List Char) : List Char := lowerAfter [] chars

def lowercase (text : String) : String := String.ofList (lowerChars text.toList)

end MediaCatalog.Text
