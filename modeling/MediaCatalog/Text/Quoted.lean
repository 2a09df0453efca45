import MediaCatalog.Text.PlainTable

/-!
Quoted texts, as messages show names: between double quotes, with escapes for
the quote, the backslash, control characters and whatever has no shape of its
own on the page.
-/

namespace MediaCatalog.Text

/-- The digits of a number in base sixteen, lower-case. -/
def hexDigits (number : Nat) : List Char := Nat.toDigits 16 number

/-- A character as it stands inside quotes. -/
def quoteChar (char : Char) : List Char :=
  if char = '\x00' then ['\\', '0']
  else if char = '\t' then ['\\', 't']
  else if char = '\r' then ['\\', 'r']
  else if char = '\n' then ['\\', 'n']
  else if char = '"' ∨ char = '\\' then ['\\', char]
  else if plainChars.contains char then [char]
  else ['\\', 'u', '\x7b'] ++ hexDigits char.toNat ++ ['\x7d']

def quoted (text : String) : String :=
  String.ofList ('"' :: text.toList.flatMap quoteChar ++ ['"'])

end MediaCatalog.Text
