/-!
What messages address: the objects of the server, the commands of the
collection object with the arguments they take, the signals that can be
forwarded, and the outcomes of a reply. Command numbers start at 32; the
numbers below are kept for replies.
-/

namespace MediaCatalog

/-- The objects that a client can address. -/
inductive ServerObject where
  /-- Asks for signals to be forwarded. -/
  | signal
  /-- Saved collections and queries. -/
  | collection
  /-- Storage of saved collections. -/
  | sync
  deriving DecidableEq, Repr, Inhabited

namespace ServerObject

def number : ServerObject → UInt32
  | signal => 0
  | collection => 1
  | sync => 2

def ofNumber? : UInt32 → Option ServerObject
  | 0 => some signal
  | 1 => some collection
  | 2 => some sync
  | _ => none

/-- The name that error texts use. -/
def name : ServerObject → String
  | signal => "Signal"
  | collection => "Collection"
  | sync => "CollSync"

@[simp] theorem ofNumber?_number (object : ServerObject) :
    ofNumber? object.number = some object := by
  cases object <;> rfl

end ServerObject

/-- The signals that a server forwards on request. -/
inductive SignalKind where
  /-- A saved collection was added, updated, removed or renamed. -/
  | collectionChanged
  deriving DecidableEq, Repr, Inhabited

namespace SignalKind

def number : SignalKind → UInt32
  | collectionChanged => 1

def ofNumber? : UInt32 → Option SignalKind
  | 1 => some collectionChanged
  | _ => none

end SignalKind

/-- The lowest number of a command. -/
def firstCommand : UInt32 := 32

/-- The command of the signal object that asks for forwarding. -/
def forwardCommand : UInt32 := firstCommand

/-- The command of the sync object. -/
def syncCommand : UInt32 := firstCommand

/-- The commands of the collection object. -/
inductive CollectionCommand where
  | get
  | list
  | save
  | remove
  | find
  | rename
  | query
  | queryInfos
  | importPlaylist
  deriving DecidableEq, Repr, Inhabited

namespace CollectionCommand

/-- All commands, in the order of their numbers. -/
def all : List CollectionCommand :=
  [get, list, save, remove, find, rename, query, queryInfos, importPlaylist]

def number : CollectionCommand → UInt32
  | get => firstCommand
  | list => firstCommand + 1
  | save => firstCommand + 2
  | remove => firstCommand + 3
  | find => firstCommand + 4
  | rename => firstCommand + 5
  | query => firstCommand + 6
  | queryInfos => firstCommand + 7
  | importPlaylist => firstCommand + 8

def ofNumber? (number : UInt32) : Option CollectionCommand :=
  all.find? (·.number == number)

def name : CollectionCommand → String
  | get => "get"
  | list => "list"
  | save => "save"
  | remove => "remove"
  | find => "find"
  | rename => "rename"
  | query => "query"
  | queryInfos => "query_infos"
  | importPlaylist => "idlist_from_playlist"

/-- The names of the arguments, in the order in which they are sent. -/
def arguments : CollectionCommand → List String
  | get => ["name", "namespace"]
  | list => ["namespace"]
  | save => ["name", "namespace", "collection"]
  | remove => ["name", "namespace"]
  | find => ["mid", "namespace"]
  | rename => ["from_name", "to_name", "namespace"]
  | query => ["collection", "fetch"]
  | queryInfos => ["collection", "start", "length", "fetch", "group"]
  | importPlaylist => ["url"]

@[simp] theorem ofNumber?_number (command : CollectionCommand) :
    ofNumber? command.number = some command := by
  cases command <;> decide

end CollectionCommand

end MediaCatalog
