import MediaCatalog.Collection.Build
import MediaCatalog.Text.Glob
import MediaCatalog.Value.Order

/-!
Reading operator nodes. A node comes from a client and may lack what its kind
needs; reading it either gives what it asks for in typed form or says what is
wrong with it.
-/

namespace MediaCatalog

/-- A test of one property. -/
structure Filter where
  predicate : Predicate
  field : String
  expected : Option Value

namespace Filter

def ofNode (node : Collection) : Except Error Filter := do
  let some predicate := (node.attributeString? Attribute.type).bind Predicate.ofName?
    | throw (.remote "filter node with unknown type")
  let some field := node.attributeString? Attribute.field
    | throw (.remote "filter node without a field")
  let expected := node.attribute? Attribute.value
  if expected.isNone ∧ predicate ≠ .has then
    throw (.remote (predicate.name ++ " filter without a value"))
  return { predicate, field, expected }

/-- Whether both sides are numbers and the first is below the second. -/
def below (left right : Value) : Bool :=
  match left.number?, right.number? with
  | some first, some second => first < second
  | _, _ => false

/-- Whether an entry with this value of the property passes. -/
def accepts (filter : Filter) (actual : Option Value) : Bool :=
  match filter.predicate, actual, filter.expected with
  | .has, actual, _ => actual.isSome
  | .notEqual, none, _ => true
  | _, none, _ => false
  | _, _, none => false
  | .equals, some actual, some expected => actual.alike expected
  | .notEqual, some actual, some expected => !actual.alike expected
  | .matching, some actual, some expected => Text.glob expected.text actual.text
  | .smaller, some actual, some expected => below actual expected
  | .greater, some actual, some expected => below expected actual

end Filter

namespace SortKey

def ofNode (node : Collection) : Except Error SortKey :=
  let descending := node.attributeString? Attribute.direction = some Attribute.descending
  match (node.attributeString? Attribute.type).getD "value" with
  | "random" => .ok random
  | "id" => .ok (id descending)
  | "value" =>
    match node.attributeString? Attribute.field with
    | some field => .ok (property field descending)
    | none => .error (.remote "order node without a field")
  | other => .error (.remote ("unknown order type " ++ other))

end SortKey

/-- A stretch of a list. -/
structure Window where
  start : Nat
  /-- How many items at most, 0 for all. -/
  length : Nat
  deriving DecidableEq, Repr

namespace Window

/-- A count among the attributes; it counts as 0 when it is missing. -/
def count (node : Collection) (key : String) : Except Error Nat :=
  match node.attribute? key with
  | none => .ok 0
  | some value =>
    match value.int? with
    | some number =>
      if 0 ≤ number then .ok number.toInt.toNat
      else .error (.remote (key ++ " must be a non-negative integer"))
    | none => .error (.remote (key ++ " must be a non-negative integer"))

def ofNode (node : Collection) : Except Error Window := do
  let start ← count node Attribute.start
  let length ← count node Attribute.length
  return { start, length }

/-- Skip the start and keep the length. -/
def cut {α : Type} (window : Window) (items : List α) : List α :=
  let rest := items.drop window.start
  if window.length = 0 then rest else rest.take window.length

end Window

/-- What a reference node stands for. -/
inductive Target where
  | everything
  | saved (space : Namespace) (name : String)
  deriving DecidableEq, Repr

namespace Target

/-- The reserved name of the whole library. -/
def allMedia : String := "All Media"

def ofNode (node : Collection) : Except Error Target :=
  match node.attributeString? Attribute.reference with
  | none => .error (.remote "reference node without a name")
  | some name =>
    if name = allMedia then .ok .everything
    else
      let space := (node.attributeString? Attribute.space).getD Namespace.collections.name
      match Namespace.ofName? space with
      | some space => .ok (.saved space name)
      | none => .error (.remote "reference node with unknown namespace")

end Target

end MediaCatalog
