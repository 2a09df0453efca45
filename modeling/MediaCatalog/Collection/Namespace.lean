import MediaCatalog.Error

/-!
Namespaces of saved collections. `all` stands for the other two when reading
and cannot be written to.
-/

namespace MediaCatalog

inductive Namespace where
  | collections
  | playlists
  | all
  deriving DecidableEq, Repr, Inhabited

namespace Namespace

def name : Namespace → String
  | collections => "Collections"
  | playlists => "Playlists"
  | all => "*"

/-- Where a read looks, in this order. -/
def expand : Namespace → List Namespace
  | collections => [collections]
  | playlists => [playlists]
  | all => [collections, playlists]

def ofName? : String → Option Namespace
  | "Collections" => some collections
  | "Playlists" => some playlists
  | "*" => some all
  | _ => none

def parse (name : String) : Except Error Namespace :=
  match ofName? name with
  | some space => .ok space
  | none => .error (.invalidArgument ("unknown namespace: " ++ name))

/-- Only a single namespace can be written to. -/
def ensureWritable : Namespace → Except Error Unit
  | all => .error (.invalidArgument "the All namespace is read-only")
  | _ => .ok ()

@[simp] theorem parse_name (space : Namespace) : parse space.name = .ok space := by
  cases space <;> rfl

end Namespace

end MediaCatalog
