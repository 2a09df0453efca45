import MediaCatalog.Object.Program

/-!
Objects that come and go. An object lives as long as there are references to it:
its handles, the emissions that run its handlers, and the actions that are at work
on it. With the last reference the object is gone, there and then.
-/

namespace MediaCatalog

/-- The identity of an object. -/
abbrev ObjectId := Nat

structure LiveObject where
  tables : ObjectTables
  references : Nat
  /-- Whether its disposal is noted. -/
  noted : Bool

structure ObjectSpace where
  objects : Std.TreeMap ObjectId LiveObject := {}
  nextObject : ObjectId := 0
  handles : Std.TreeMap String ObjectId := {}
  weakHandles : Std.TreeMap String ObjectId := {}
  subscriptions : List Subscription := []
  /-- Everything noted, the oldest first. -/
  trace : List ObjectEvent := []

namespace ObjectSpace

def note (space : ObjectSpace) (event : ObjectEvent) : ObjectSpace :=
  { space with trace := space.trace ++ [event] }

/-- Take one more reference to an object. -/
def retain (space : ObjectSpace) (object : ObjectId) : ObjectSpace :=
  { space with
    objects := space.objects.modify object fun live =>
      { live with references := live.references + 1 } }

/-- Give a reference back. With the last one the object is disposed of. -/
def release (space : ObjectSpace) (object : ObjectId) : ObjectSpace :=
  match space.objects[object]? with
  | none => space
  | some live =>
    if 1 < live.references then
      { space with
        objects := space.objects.insert object { live with references := live.references - 1 } }
    else
      let space := { space with objects := space.objects.erase object }
      if live.noted then space.note (.disposed live.tables.name) else space

/-- Let a handle name an object to which a reference was taken for it. What it named
before loses its reference after that. -/
def setHandle (space : ObjectSpace) (handle : String) (object : ObjectId) : ObjectSpace :=
  let old := space.handles[handle]?
  let space := { space with handles := space.handles.insert handle object }
  match old with
  | none => space
  | some old => space.release old

/-- Replace the tables of an object. -/
def setTables (space : ObjectSpace) (object : ObjectId) (tables : ObjectTables) : ObjectSpace :=
  { space with objects := space.objects.modify object fun live => { live with tables } }

/-- Create an object under a handle. -/
def create (space : ObjectSpace) (handle name : String) (noted : Bool) : ObjectSpace :=
  let object := space.nextObject
  let live : LiveObject := { tables := { name }, references := 1, noted }
  { space with
    objects := space.objects.insert object live
    nextObject := object + 1 }.setHandle handle object

/-- The handle of the object that a handler runs for. -/
def selfHandle : String := "$"

/-- The object that a handle names, for a handler of `self`. -/
def lookup? (space : ObjectSpace) (self : Option ObjectId) (handle : String) : Option ObjectId :=
  if handle = selfHandle then self else space.handles[handle]?

end ObjectSpace

end MediaCatalog
