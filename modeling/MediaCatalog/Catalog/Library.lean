import Std.Data.TreeMap
import MediaCatalog.Value.Equality

/-!
The media library: entries of properties by media id. Ids are given out in
ascending order from 1 and are never given out again. Every entry has the
property `id`, whether or not one of that name was stored.
-/

namespace MediaCatalog

structure Library where
  entries : Std.TreeMap Int64 (Dict Value)
  /-- The next id to give out, unless it is below 1. -/
  nextId : Int64

namespace Library

def empty : Library := { entries := {}, nextId := 1 }

instance : Inhabited Library := ⟨{ entries := {}, nextId := 0 }⟩

/-- The property that holds the id. -/
def idProperty : String := "id"

/-- The property that holds the address of a media file. -/
def urlProperty : String := "url"

/-- Add an entry: its id and the library with it. -/
def add (library : Library) (properties : List (String × Value)) : Int64 × Library :=
  let id := max library.nextId 1
  (id, { entries := library.entries.insert id (Dict.ofEntries properties), nextId := id + 1 })

def contains (library : Library) (id : Int64) : Bool := library.entries.contains id

/-- Set one property of an entry, if it is there. -/
def set (library : Library) (id : Int64) (key : String) (value : Value) : Library :=
  { library with entries := library.entries.modify id fun entry => Dict.insert entry key value }

def remove (library : Library) (id : Int64) : Library :=
  { library with entries := library.entries.erase id }

def size (library : Library) : Nat := library.entries.size

/-- All ids, ascending. -/
def ids (library : Library) : List Int64 := library.entries.keys

/-- A property of an entry that is there. -/
def property? (library : Library) (id : Int64) (key : String) : Option Value :=
  match library.entries[id]? with
  | none => none
  | some entry => if key = idProperty then some (.int id) else Dict.find? entry key

/-- The first entry whose stored property `key` equals `value`. -/
def findBy? (library : Library) (key : String) (value : Value) : Option Int64 :=
  (library.entries.toList.find? fun (_, entry) =>
    match Dict.find? entry key with
    | some stored => stored == value
    | none => false).map Prod.fst

end Library

end MediaCatalog
