import MediaCatalog.Fetch.Run
import MediaCatalog.Object.Arguments
import MediaCatalog.Playlist.Entries
import MediaCatalog.Server.Service

/-!
The commands of the collection object. Each reads its arguments in order and stops
at the first that is missing or wrong, before it changes anything. A command that
changes the store tells which change it made.
-/

namespace MediaCatalog.Service

/-- A command that succeeded: its value, the service after it, and the change it made. -/
structure Done where
  value : Value := .none
  service : Service
  change : Option Change := none

/-! ### Arguments -/

def spaceArg (call : Arguments) (index : Nat) : Except Error Namespace := do
  Namespace.parse (← call.string index "namespace")

/-- An offset or a length. -/
def countArg (call : Arguments) (index : Nat) (name : String) : Except Error Nat := do
  let number ← call.int index name
  if 0 ≤ number then return number.toInt.toNat
  throw (.invalidArgument (name ++ " must not be negative"))

/-! ### Commands -/

def get (service : Service) (call : Arguments) : Except Error Done := do
  let name ← call.string 0 "name"
  let space ← spaceArg call 1
  let collection ← service.store.get name space
  return { value := .collection collection, service }

def list (service : Service) (call : Arguments) : Except Error Done := do
  let space ← spaceArg call 0
  return { value := .ofStrings (service.store.names space), service }

/-- The result of a command that changed the store. -/
def changed (service : Service) (result : Change × Store) : Done :=
  { service := { service with store := result.2 }, change := some result.1 }

def save (service : Service) (call : Arguments) : Except Error Done := do
  let name ← call.string 0 "name"
  let space ← spaceArg call 1
  let collection ← call.collection 2 "collection"
  return service.changed (← service.store.save name space collection)

def remove (service : Service) (call : Arguments) : Except Error Done := do
  let name ← call.string 0 "name"
  let space ← spaceArg call 1
  return service.changed (← service.store.remove name space)

def rename (service : Service) (call : Arguments) : Except Error Done := do
  let name ← call.string 0 "from_name"
  let newName ← call.string 1 "to_name"
  let space ← spaceArg call 2
  return service.changed (← service.store.rename name newName space)

/-- The service after one more evaluation. -/
def evaluated (service : Service) : Service :=
  { service with evaluations := service.evaluations + 1 }

/-- Whether a collection selects an entry; one that cannot be evaluated does not. -/
def selects (service : Service) (collection : Collection) (id : Int64) : Bool :=
  match service.catalog.evaluate collection with
  | .ok ids => ids.contains id
  | .error _ => false

def find (service : Service) (call : Arguments) : Except Error Done := do
  let id ← call.int 0 "mid"
  let space ← spaceArg call 1
  let found := (service.store.entries space).filter fun (_, _, collection) =>
    service.selects collection id
  return { value := .ofStrings (found.map fun (_, name, _) => name), service := service.evaluated }

def query (service : Service) (call : Arguments) : Except Error Done := do
  let collection ← call.collection 0 "collection"
  let spec ← call.arg 1 "fetch"
  let ids ← service.catalog.evaluate collection
  let value ← service.catalog.fetch (.ofValue service.settings.strict spec) ids
  return { value, service := service.evaluated }

/-- The properties to group by; none at all count as an empty list. -/
def groupArg (call : Arguments) (index : Nat) : Except Error (List String) :=
  match call.args[index]? with
  | none | some .none => .ok []
  | some _ => call.strings index "group"

def queryInfos (service : Service) (call : Arguments) : Except Error Done := do
  let collection ← call.collection 0 "collection"
  let start ← countArg call 1 "start"
  let length ← countArg call 2 "length"
  let properties ← call.strings 3 "fetch"
  let group ← groupArg call 4
  if properties.isEmpty then throw (.invalidArgument "fetch list must not be empty")
  let ids ← service.catalog.evaluate collection
  let rows := service.catalog.infos ids properties group { start, length }
  return { value := .list rows, service := service.evaluated }

/-- The entry of a url: the first one that has it, or a new one. -/
def entryOfUrl (library : Library) (url : String) : Int64 × Library :=
  match library.findBy? Library.urlProperty (.string url) with
  | some id => (id, library)
  | none => library.add [(Library.urlProperty, .string url)]

/-- The entries of urls, in their order. -/
def entriesOfUrls (library : Library) : List String → List Int64 × Library
  | [] => ([], library)
  | url :: rest =>
    let (id, library) := entryOfUrl library url
    let (ids, library) := entriesOfUrls library rest
    (id :: ids, library)

/-- The urls of the playlist that a command names. -/
def playlistUrls (service : Service) (call : Arguments) : Except Error (List String) := do
  let path ← Playlist.pathOfUrl (← call.string 0 "url")
  Playlist.read service.files path

def importPlaylist (service : Service) (call : Arguments) : Build (Except Error Done) :=
  match service.playlistUrls call with
  | .error error => return .error error
  | .ok urls => do
    let (ids, library) := entriesOfUrls service.library urls
    let collection ← Collection.idlist ids
    return .ok { value := .collection collection, service := { service with library } }

/-- Carry out a command of the collection object. -/
def handle (service : Service) (command : CollectionCommand) (call : Arguments) :
    Build (Except Error Done) :=
  match command with
  | .get => return service.get call
  | .list => return service.list call
  | .save => return service.save call
  | .remove => return service.remove call
  | .find => return service.find call
  | .rename => return service.rename call
  | .query => return service.query call
  | .queryInfos => return service.queryInfos call
  | .importPlaylist => service.importPlaylist call

end MediaCatalog.Service
