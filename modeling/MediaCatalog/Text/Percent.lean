import MediaCatalog.Error

/-!
Percent escapes. Writing escapes every byte of the UTF-8 form that is not an
ASCII letter, a digit or one of the marks that the caller keeps; reading
replaces every `%` before two hexadecimal digits and leaves all else alone.
-/

namespace MediaCatalog.Text

def isAsciiAlphanumeric (byte : UInt8) : Bool :=
  (0x30 ≤ byte && byte ≤ 0x39) || (0x41 ≤ byte && byte ≤ 0x5A)
    || (0x61 ≤ byte && byte ≤ 0x7A)

/-- The upper-case hexadecimal digit of a number below sixteen, as a byte. -/
def hexDigitByte (digit : Nat) : UInt8 :=
  UInt8.ofNat (if digit < 10 then 0x30 + digit else 0x41 + (digit - 10))

/-- The number that a hexadecimal digit of either case stands for. -/
def hexValue? (byte : UInt8) : Option Nat :=
  if 0x30 ≤ byte ∧ byte ≤ 0x39 then some (byte.toNat - 0x30)
  else if 0x41 ≤ byte ∧ byte ≤ 0x46 then some (byte.toNat - 0x41 + 10)
  else if 0x61 ≤ byte ∧ byte ≤ 0x66 then some (byte.toNat - 0x61 + 10)
  else none

/-- Escape all bytes but alphanumeric ones and those that `keep` accepts. -/
def percentEncode (keep : UInt8 → Bool) (bytes : List UInt8) : List UInt8 :=
  bytes.flatMap fun byte =>
    if isAsciiAlphanumeric byte || keep byte then [byte]
    else [0x25, hexDigitByte (byte.toNat / 16), hexDigitByte (byte.toNat % 16)]

/-- Replace escapes by their bytes; a `%` that starts no escape stays. -/
def percentDecode : List UInt8 → List UInt8
  | [] => []
  | [byte] => [byte]
  | [first, second] => [first, second]
  | byte :: high :: low :: rest =>
    match byte == 0x25, hexValue? high, hexValue? low with
    | true, some high, some low => UInt8.ofNat (high * 16 + low) :: percentDecode rest
    | _, _, _ => byte :: percentDecode (high :: low :: rest)

end MediaCatalog.Text
