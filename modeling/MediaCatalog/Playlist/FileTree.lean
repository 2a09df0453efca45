import MediaCatalog.Text.Split

/-!
A tree of files, and reading a text file by its path. A path is a sequence of
names; it is followed from the root or from the working directory, and every
name but the last has to lead to a directory.
-/

namespace MediaCatalog.Playlist

/-- A place in the tree: the names that lead to it from the root. -/
abbrev Place := List String

structure FileTree where
  /-- Where relative paths start. -/
  working : Place
  /-- The files, the newest first. -/
  files : List (Place × List UInt8) := []

/-- Why a file could not be read. -/
inductive FileError where
  | notFound
  | notADirectory
  | isADirectory
  | nameTooLong
  | nulInName
  | notUtf8
  deriving DecidableEq, Repr

def FileError.message : FileError → String
  | notFound => "No such file or directory (os error 2)"
  | notADirectory => "Not a directory (os error 20)"
  | isADirectory => "Is a directory (os error 21)"
  | nameTooLong => "File name too long (os error 36)"
  | nulInName => "file name contained an unexpected NUL byte"
  | notUtf8 => "stream did not contain valid UTF-8"

namespace FileTree

/-- The content of the file at a place. -/
def file? (tree : FileTree) (place : Place) : Option (List UInt8) :=
  (tree.files.find? fun (other, _) => other == place).map Prod.snd

/-- Directories lead to the working directory or to a file. -/
def isDirectory (tree : FileTree) (place : Place) : Bool :=
  place.isPrefixOf tree.working
    || tree.files.any fun (other, _) => place.isPrefixOf other && place.length < other.length

/-- One step of a path. An empty name and a dot stay, two dots go up. -/
def step (tree : FileTree) (place : Place) (name : String) : Except FileError Place :=
  if !tree.isDirectory place then .error .notADirectory
  else if name = "" ∨ name = "." then .ok place
  else if name = ".." then .ok place.dropLast
  else if 255 < name.utf8ByteSize then .error .nameTooLong
  else
    let next := place ++ [name]
    if tree.isDirectory next ∨ (tree.file? next).isSome then .ok next else .error .notFound

/-- Where a path starts. -/
def start (tree : FileTree) (path : String) : Place :=
  if path.toList.head? = some '/' then [] else tree.working

/-- The place that a path leads to. -/
def resolve (tree : FileTree) (path : String) : Except FileError Place :=
  if '\x00' ∈ path.toList then .error .nulInName
  else if path = "" then .error .notFound
  else if 4096 ≤ path.utf8ByteSize then .error .nameTooLong
  else (Text.split '/' path).foldlM tree.step (tree.start path)

/-- The text of the file at a path. -/
def readText (tree : FileTree) (path : String) : Except FileError String := do
  let place ← tree.resolve path
  match tree.file? place with
  | none => throw .isADirectory
  | some bytes =>
    match String.fromUTF8? bytes.toByteArray with
    | some text => return text
    | none => throw .notUtf8

/-- Put a file at a path, with the directories that lead to it. -/
def write (tree : FileTree) (path : String) (bytes : List UInt8) : FileTree :=
  let place := (Text.split '/' path).foldl
    (fun place name =>
      if name = "" ∨ name = "." then place
      else if name = ".." then place.dropLast
      else place ++ [name])
    (tree.start path)
  { tree with files := (place, bytes) :: tree.files }

end FileTree

end MediaCatalog.Playlist
