import MediaCatalog.Collection.Attribute
import MediaCatalog.Collection.Namespace
import MediaCatalog.Value.Basic

/-!
Building collections. A builder wraps the collections it is given in a new
node and leaves them as they are; when it has nothing to add it returns its
base itself, the very same node.
-/

namespace MediaCatalog

/-- The test that a filter node makes of a property. -/
inductive Predicate where
  | equals
  | notEqual
  /-- A pattern with `*` and `?`. -/
  | matching
  /-- The property is there. -/
  | has
  | smaller
  | greater
  deriving DecidableEq, Repr, Inhabited

namespace Predicate

def name : Predicate → String
  | equals => "equals"
  | notEqual => "notequal"
  | matching => "match"
  | has => "has"
  | smaller => "smaller"
  | greater => "greater"

def ofName? : String → Option Predicate
  | "equals" => some equals
  | "notequal" => some notEqual
  | "match" => some matching
  | "has" => some has
  | "smaller" => some smaller
  | "greater" => some greater
  | _ => none

@[simp] theorem ofName?_name (predicate : Predicate) :
    ofName? predicate.name = some predicate := by
  cases predicate <;> rfl

end Predicate

/-- What an order node sorts by. -/
inductive SortKey where
  | random
  | id (descending : Bool)
  | property (field : String) (descending : Bool)
  deriving DecidableEq, Repr

namespace SortKey

/-- The variety of order node. -/
def typeName : SortKey → String
  | random => "random"
  | id _ => "id"
  | property _ _ => "value"

/-- The ordering syntax of clients: a leading `-` sorts downwards, `id` sorts by
media id, `random` shuffles, and anything else names a property. -/
def parse (text : String) : SortKey :=
  let (descending, name) :=
    match text.toList with
    | '-' :: rest => (true, String.ofList rest)
    | _ => (false, text)
  if name = "random" then random
  else if name = "id" then id descending
  else property name descending

private def directionName (descending : Bool) : Value :=
  .string (if descending then Attribute.descending else Attribute.ascending)

def attributes (key : SortKey) : Dict Value :=
  (Attribute.type, .string key.typeName) ::
    match key with
    | random => []
    | id descending => [(Attribute.direction, directionName descending)]
    | property field descending =>
      [(Attribute.field, .string field), (Attribute.direction, directionName descending)]

end SortKey

namespace Collection

/-- Every entry of the library. -/
def everything : Build Collection := make .everything [] [] []

/-- The collection saved under a name, looked up when it is evaluated. -/
def reference (name : String) (space : Namespace) : Build Collection :=
  make .reference
    [(Attribute.reference, .string name), (Attribute.space, .string space.name)] [] []

/-- The listed entries, in this order. -/
def idlist (ids : List Int64) : Build Collection := make .idlist [] [] ids

def union (operands : List Collection) : Build Collection := make .union [] operands []

def intersection (operands : List Collection) : Build Collection :=
  make .intersection [] operands []

def complement (base : Collection) : Build Collection := make .complement [] [base] []

/-- `complement`, taken `count` times. -/
def complements (base : Collection) : (count : Nat) → Build Collection
  | 0 => return base
  | count + 1 => do complement (← complements base count)

/-- Entries of `base`, or of the whole library, that pass a test of `field`. A
value of none is left out of the node. -/
def filter (predicate : Predicate) (field : String) (value : Value)
    (base : Option Collection) : Build Collection :=
  make .filter
    ([(Attribute.type, .string predicate.name), (Attribute.field, .string field)]
      ++ if value.isNone then [] else [(Attribute.value, value)])
    base.toList []

/-- Sort `base` by one key. -/
def orderedBy (base : Collection) (key : SortKey) : Build Collection :=
  make .order key.attributes [base] []

/-- Sort `base` by several keys, given in the ordering syntax. The first is the
outermost node and decides; each later one only breaks ties. -/
def ordered (base : Collection) : (properties : List String) → Build Collection
  | [] => return base
  | property :: rest => do orderedBy (← ordered base rest) (SortKey.parse property)

/-- Skip `start` entries and keep `length` of the rest, all of them for 0. -/
def limited (base : Collection) (start length : UInt32) : Build Collection :=
  if start = 0 ∧ length = 0 then return base
  else
    make .limit
      [(Attribute.start, .int start.toUInt64.toInt64),
        (Attribute.length, .int length.toUInt64.toInt64)]
      [base] []

/-- Sort, then cut: the page of an ordered collection. -/
def page (base : Collection) (properties : List String) (start length : UInt32) :
    Build Collection := do
  limited (← ordered base properties) start length

end Collection

end MediaCatalog
