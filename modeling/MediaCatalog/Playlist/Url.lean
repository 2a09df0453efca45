import MediaCatalog.Text.Percent
import MediaCatalog.Text.Split

/-!
Addresses of playlist files. A path is sent as a file url with percent escapes,
in which a space is written as a plus; the receiver undoes that and takes the
scheme of files off again.
-/

namespace MediaCatalog.Playlist

/-- The scheme of files. -/
def fileScheme : String := "file://"

/-- The marks that stay as they are in an encoded path; the space is written as a
plus afterwards. -/
def keptInPath (byte : UInt8) : Bool :=
  byte == 0x3A || byte == 0x2F || byte == 0x2D || byte == 0x2E || byte == 0x5F || byte == 0x20

/-- One byte in place of another. -/
def replaceByte (old new : UInt8) (bytes : List UInt8) : List UInt8 :=
  bytes.map fun byte => if byte == old then new else byte

/-- The url of a path. What has a scheme already is taken as a url. -/
def urlOfPath (path : String) : String :=
  let url := if Text.hasScheme path then path else fileScheme ++ path
  let escaped := Text.percentEncode keptInPath url.toUTF8.data.toList
  String.ofList ((replaceByte 0x20 0x2B escaped).map fun byte => Char.ofNat byte.toNat)

/-- A text without a scheme of files at its front. -/
def withoutFileScheme (text : String) : String :=
  let chars := text.toList
  if fileScheme.toList.isPrefixOf chars then
    String.ofList (chars.drop fileScheme.toList.length)
  else text

/-- The path that a url names. -/
def pathOfUrl (url : String) : Except Error String :=
  let spaced := replaceByte 0x2B 0x20 url.toUTF8.data.toList
  match String.fromUTF8? (Text.percentDecode spaced).toByteArray with
  | some text => .ok (withoutFileScheme text)
  | none => .error (.remote ("playlist url is not valid UTF-8: " ++ url))

end MediaCatalog.Playlist
