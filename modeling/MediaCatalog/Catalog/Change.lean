import MediaCatalog.Collection.Namespace
import MediaCatalog.Value.Basic

/-!
Changes of saved collections, as they are announced. A change travels as a
dictionary; whoever reads announcements in order can keep account of the saved
names.
-/

namespace MediaCatalog

inductive ChangeKind where
  | add
  | update
  | remove
  | rename
  deriving DecidableEq, Repr, Inhabited

namespace ChangeKind

def name : ChangeKind → String
  | add => "add"
  | update => "update"
  | remove => "remove"
  | rename => "rename"

def ofName? : String → Option ChangeKind
  | "add" => some add
  | "update" => some update
  | "remove" => some remove
  | "rename" => some rename
  | _ => none

@[simp] theorem ofName?_name (kind : ChangeKind) : ofName? kind.name = some kind := by
  cases kind <;> rfl

end ChangeKind

/-- What happened to a saved collection. -/
structure Change where
  kind : ChangeKind
  name : String
  space : Namespace
  /-- The name after a rename. -/
  newName : Option String := none
  deriving DecidableEq, Repr

namespace Change

def toValue (change : Change) : Value :=
  .dict <|
    [("type", .string change.kind.name), ("name", .string change.name),
        ("namespace", .string change.space.name)]
      ++ (change.newName.map fun name => ("newname", Value.string name)).toList

/-- Read an announcement. -/
def ofValue? (value : Value) : Option Change := do
  let kind ← ChangeKind.ofName? (← value.entryString? "type")
  let name ← value.entryString? "name"
  let space ← Namespace.ofName? (← value.entryString? "namespace")
  return { kind, name, space, newName := value.entryString? "newname" }

end Change

end MediaCatalog
