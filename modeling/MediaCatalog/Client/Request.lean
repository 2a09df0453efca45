import MediaCatalog.Collection.Build
import MediaCatalog.Fetch.Spec
import MediaCatalog.Playlist.Url
import MediaCatalog.Wire.Address

/-!
Requests of a client. A request is checked before anything is sent, and laid out
as a command with its arguments in their order.
-/

namespace MediaCatalog

/-- What a client can ask of the collection service. -/
inductive Request where
  /-- The collection saved under a name. -/
  | get (name : String) (space : Namespace)
  /-- Write saved collections to storage. -/
  | sync
  /-- The names in a namespace. -/
  | list (space : Namespace)
  | save (collection : Collection) (name : String) (space : Namespace)
  | remove (name : String) (space : Namespace)
  /-- The names of saved collections that hold an entry. -/
  | find (id : Int64) (space : Namespace)
  | rename (name newName : String) (space : Namespace)
  /-- What a fetch spec retrieves for a collection. -/
  | query (collection : Collection) (spec : Value)
  /-- The ids on one page of an ordered collection. -/
  | queryIds (collection : Collection) (order : List String) (start length : UInt32)
  /-- Rows of properties, one for each match or each combination of `group` values. -/
  | queryInfos (collection : Collection) (order : List String) (start length : UInt32)
      (properties group : List String)
  /-- The entries of a playlist file. -/
  | importPlaylist (path : String)

/-- A command to an object, with its arguments. -/
structure Command where
  object : ServerObject
  number : UInt32
  args : List Value

namespace Request

/-- A name may not be empty. -/
def requireName (name what : String) : Except Error Unit :=
  if name = "" then .error (.invalidArgument (what ++ " must not be empty")) else .ok ()

def spaceArg (space : Namespace) : Value := .string space.name

def countArg (count : UInt32) : Value := .int count.toUInt64.toInt64

/-- What is wrong with a request, if anything is. -/
def check : Request → Except Error Unit
  | get name _ => requireName name "collection name"
  | sync | list _ | queryIds _ _ _ _ => .ok ()
  | save _ name space | remove name space => do
    requireName name "collection name"
    space.ensureWritable
  | find id _ =>
    if id ≤ 0 then .error (.invalidArgument "media id must be positive") else .ok ()
  | rename name newName space => do
    requireName name "source name"
    requireName newName "target name"
    space.ensureWritable
  | query _ spec =>
    if spec.isNone then .error (.invalidArgument "fetch spec is required") else .ok ()
  | queryInfos _ _ _ _ properties _ =>
    if properties.isEmpty then
      .error (.invalidArgument "at least one property to fetch is required")
    else .ok ()
  | importPlaylist path => requireName path "playlist path"

/-- A command of the collection object. -/
def collectionCommand (command : CollectionCommand) (args : List Value) : Command :=
  { object := .collection, number := command.number, args }

/-- The command of a request. Queries for ids and for rows wrap their collection in
new nodes. -/
def command : Request → Build Command
  | get name space => return collectionCommand .get [.string name, spaceArg space]
  | sync => return { object := .sync, number := syncCommand, args := [] }
  | list space => return collectionCommand .list [spaceArg space]
  | save collection name space =>
    return collectionCommand .save [.string name, spaceArg space, .collection collection]
  | remove name space => return collectionCommand .remove [.string name, spaceArg space]
  | find id space => return collectionCommand .find [.int id, spaceArg space]
  | rename name newName space =>
    return collectionCommand .rename [.string name, .string newName, spaceArg space]
  | query collection spec => return collectionCommand .query [.collection collection, spec]
  | queryIds collection order start length => do
    let page ← collection.page order start length
    return collectionCommand .query [.collection page, FetchSpec.ids.toValue]
  | queryInfos collection order start length properties group => do
    let ordered ← collection.ordered order
    return collectionCommand .queryInfos
      [.collection ordered, countArg start, countArg length,
        .ofStrings properties, .ofStrings group]
  | importPlaylist path =>
    return collectionCommand .importPlaylist [.string (Playlist.urlOfPath path)]

end Request

end MediaCatalog
