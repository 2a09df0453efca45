import MediaCatalog.Playlist.FileTree
import MediaCatalog.Playlist.Url
import MediaCatalog.Text.Blank

/-!
Entries of a playlist. Each line names one file; blank lines and lines that
start with `#` do not count. A line that is no url is a path, taken from the
directory of the playlist.
-/

namespace MediaCatalog.Playlist

/-- The directory of a path: the path without its last name. Separators and dots
that then stand at the end go too, but not the first part of the path. -/
def parent (path : String) : String :=
  let names := (Text.split '/' path).dropLast
  let trailing := (names.drop 1).reverse.dropWhile fun name => name = "" ∨ name = "."
  match names.take 1 ++ trailing.reverse with
  | [""] => "/"
  | names => "/".intercalate names

/-- A path seen from a directory. An absolute path stays as it is. -/
def join (directory path : String) : String :=
  if path.toList.head? = some '/' ∨ directory = "" then path
  else if directory.toList.getLast? = some '/' then directory ++ path
  else directory ++ "/" ++ path

/-- The url of a line. -/
def urlOfLine (directory line : String) : String :=
  if Text.hasScheme line then line else fileScheme ++ join directory line

/-- The urls of a playlist that lies in a directory. -/
def urls (directory text : String) : List String :=
  ((Text.split '\n' text).map Text.trim).filterMap fun line =>
    if line = "" ∨ line.toList.head? = some '#' then none else some (urlOfLine directory line)

/-- Read the playlist at a path. -/
def read (tree : FileTree) (path : String) : Except Error (List String) :=
  match tree.readText path with
  | .ok text => .ok (urls (parent path) text)
  | .error cause => .error (.remote s!"cannot read playlist {path}: {cause.message}")

end MediaCatalog.Playlist
