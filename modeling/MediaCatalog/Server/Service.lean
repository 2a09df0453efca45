import MediaCatalog.Catalog.Evaluate
import MediaCatalog.Object.Registry
import MediaCatalog.Playlist.FileTree
import MediaCatalog.Server.Settings
import MediaCatalog.Wire.Address

/-!
The collection service: a library and a store behind addressable objects. The
commands of these objects are looked up by number; further ones can be registered.
Listeners connect to the signals of the collection object.
-/

namespace MediaCatalog

/-- What answers a command of a served object. -/
inductive CommandHandler where
  | collection (command : CollectionCommand)
  | sync
  /-- A fixed answer, registered from outside; registrations are told apart. -/
  | fixed (registration : Nat) (answer : String)
  deriving DecidableEq, Repr

/-- Who listens to a served object. -/
inductive Observer where
  /-- A listener in the same process. -/
  | direct (name : String)
  /-- The forwarding of a signal to a client. -/
  | forwarder (client : Nat)
  deriving DecidableEq, Repr

/-- The tables of a served object. Nobody connects with a context. -/
abbrev ServedObject := Registry CommandHandler Observer Empty

structure Service where
  settings : ServiceSettings
  library : Library := .empty
  store : Store := .empty
  /-- Sync requests served. -/
  syncs : Nat := 0
  /-- Evaluations so far; each has a random order of its own. -/
  evaluations : Nat := 0
  collection : ServedObject
  sync : ServedObject
  files : Playlist.FileTree

namespace Service

/-- The commands of the collection object from the start. -/
def builtinCommands : Std.TreeMap UInt32 CommandHandler :=
  Std.TreeMap.ofList
    (CollectionCommand.all.map fun command => (command.number, CommandHandler.collection command))

def create (settings : ServiceSettings) (files : Playlist.FileTree) : Service :=
  { settings
    collection := { name := settings.name ++ ".collection", commands := builtinCommands }
    sync :=
      { name := settings.name ++ ".coll_sync"
        commands := Std.TreeMap.ofList [(syncCommand, CommandHandler.sync)] }
    files }

/-- The object that a number addresses; the signal object has no commands here. -/
def object? (service : Service) : ServerObject → Option ServedObject
  | .collection => some service.collection
  | .sync => some service.sync
  | .signal => none

/-- What collections are evaluated against now. -/
def catalog (service : Service) : Catalog where
  library := service.library
  store := service.store
  seed := Chance.scatter (service.settings.seed.getD 0 + UInt64.ofNat service.evaluations)

/-- Add a media entry. -/
def addMedia (service : Service) (properties : List (String × Value)) : Int64 × Service :=
  let (id, library) := service.library.add properties
  (id, { service with library })

/-- Register a further command of the collection object. -/
def registerCommand (service : Service) (command : UInt32) (handler : CommandHandler) :
    Except Error Service := do
  return { service with collection := ← service.collection.register command handler }

/-- Connect a listener to a signal of the collection object. -/
def connect (service : Service) (signal : UInt32) (observer : Observer) : Service :=
  { service with collection := (service.collection.connect signal observer none).2 }

/-- Take a listener off a signal of the collection object, if it is connected. -/
def disconnect (service : Service) (signal : UInt32) (observer : Observer) : Service :=
  match service.collection.disconnect signal observer none with
  | .ok collection => { service with collection }
  | .error _ => service

end Service

end MediaCatalog
