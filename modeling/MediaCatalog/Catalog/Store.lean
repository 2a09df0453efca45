import Std.Data.TreeMap
import MediaCatalog.Catalog.Change

/-!
Saved collections, one table for each namespace that can be written to. Each
operation that changes the store answers with the change it made.
-/

namespace MediaCatalog

structure Store where
  collections : Std.TreeMap String Collection := {}
  playlists : Std.TreeMap String Collection := {}

namespace Store

def empty : Store := {}

instance : Inhabited Store := ⟨empty⟩

/-- The table of a namespace; reading all of them has no table of its own. -/
def table (store : Store) : Namespace → Std.TreeMap String Collection
  | .collections => store.collections
  | .playlists => store.playlists
  | .all => {}

/-- Replace the table of a namespace. -/
def withTable (store : Store) (space : Namespace) (table : Std.TreeMap String Collection) :
    Store :=
  match space with
  | .collections => { store with collections := table }
  | .playlists => { store with playlists := table }
  | .all => store

theorem table_withTable (store : Store) (space other : Namespace)
    (table : Std.TreeMap String Collection) :
    (store.withTable space table).table other =
      if other = space ∧ space ≠ .all then table else store.table other := by
  cases space <;> cases other <;> rfl

/-- The error that tells a name which is not there. -/
def missing (name : String) (space : Namespace) : Error :=
  .notFound s!"{name} in {space.name}"

/-- Save a collection in place of any other of the name. -/
def save (store : Store) (name : String) (space : Namespace) (collection : Collection) :
    Except Error (Change × Store) := do
  if name = "" then throw (.invalidArgument "collection name must not be empty")
  space.ensureWritable
  let table := store.table space
  let kind := if table.contains name then ChangeKind.update else .add
  return ({ kind, name, space }, store.withTable space (table.insert name collection))

/-- The collection saved under a name, from the first namespace that has it. -/
def get (store : Store) (name : String) (space : Namespace) : Except Error Collection :=
  match space.expand.findSome? fun space => (store.table space)[name]? with
  | some collection => .ok collection
  | none => .error (missing name space)

/-- All saved collections that a namespace shows, sorted by name in each table. -/
def entries (store : Store) (space : Namespace) : List (Namespace × String × Collection) :=
  space.expand.flatMap fun space =>
    (store.table space).toList.map fun (name, collection) => (space, name, collection)

/-- The names that a namespace shows. -/
def names (store : Store) (space : Namespace) : List String :=
  space.expand.flatMap fun space => (store.table space).keys

def remove (store : Store) (name : String) (space : Namespace) :
    Except Error (Change × Store) := do
  space.ensureWritable
  let table := store.table space
  unless table.contains name do throw (missing name space)
  return ({ kind := .remove, name, space }, store.withTable space (table.erase name))

/-- Move a collection to a name that is free. -/
def rename (store : Store) (name newName : String) (space : Namespace) :
    Except Error (Change × Store) := do
  if newName = "" then throw (.invalidArgument "collection name must not be empty")
  space.ensureWritable
  let table := store.table space
  if table.contains newName then
    throw (.remote s!"a collection named {newName} already exists in {space.name}")
  match table[name]? with
  | none => throw (missing name space)
  | some collection =>
    return ({ kind := .rename, name, space, newName := some newName },
      store.withTable space ((table.erase name).insert newName collection))

def size (store : Store) : Nat := store.collections.size + store.playlists.size

end Store

end MediaCatalog
