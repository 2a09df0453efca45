import MediaCatalog.Double
import MediaCatalog.Value.Dict

/-!
Values and collection nodes. A value is what crosses between client and
server. A collection is an operator node over other collections, and its
attributes hold values again, so the two types are defined together.

Nodes are shared: the same node may stand at several places of a value. Which
occurrences are one node is part of the data, as the node's identity. Two
occurrences with one identity are one node, and `Value.WellShared` says that
identities are used this way.
-/

namespace MediaCatalog

/-- What a collection node does with its operands. -/
inductive CollectionKind where
  | reference
  | everything
  | union
  | intersection
  | complement
  | filter
  | order
  | limit
  | idlist
  deriving DecidableEq, Repr, Inhabited

namespace CollectionKind

def name : CollectionKind → String
  | reference => "reference"
  | everything => "universe"
  | union => "union"
  | intersection => "intersection"
  | complement => "complement"
  | filter => "filter"
  | order => "order"
  | limit => "limit"
  | idlist => "idlist"

/-- The byte that stands for the kind. -/
def code : CollectionKind → UInt8
  | reference => 0
  | everything => 1
  | union => 2
  | intersection => 3
  | complement => 4
  | filter => 5
  | order => 6
  | limit => 7
  | idlist => 8

def ofCode? : UInt8 → Option CollectionKind
  | 0 => some reference
  | 1 => some everything
  | 2 => some union
  | 3 => some intersection
  | 4 => some complement
  | 5 => some filter
  | 6 => some order
  | 7 => some limit
  | 8 => some idlist
  | _ => none

@[simp] theorem ofCode?_code (kind : CollectionKind) : ofCode? kind.code = some kind := by
  cases kind <;> rfl

end CollectionKind

/-- Identity of a collection node. -/
abbrev NodeId := Nat

mutual

/-- A tagged value. -/
inductive Value where
  | none
  | int (number : Int64)
  | float (number : Double)
  | string (text : String)
  | binary (bytes : List UInt8)
  | list (items : List Value)
  | dict (entries : List (String × Value))
  | collection (node : Collection)
  | error (message : String)

/-- A collection operator node. -/
inductive Collection where
  | node (id : NodeId) (kind : CollectionKind) (attributes : List (String × Value))
      (operands : List Collection) (ids : List Int64)

end

instance : Inhabited Value := ⟨.none⟩

instance : Inhabited Collection := ⟨.node 0 .everything [] [] []⟩

namespace Collection

def id : Collection → NodeId
  | node id _ _ _ _ => id

def kind : Collection → CollectionKind
  | node _ kind _ _ _ => kind

def attributes : Collection → Dict Value
  | node _ _ attributes _ _ => attributes

def operands : Collection → List Collection
  | node _ _ _ operands _ => operands

/-- The media ids listed in the node itself. -/
def ids : Collection → List Int64
  | node _ _ _ _ ids => ids

def attribute? (collection : Collection) (key : String) : Option Value :=
  Dict.find? collection.attributes key

/-- The operand of a node that has one. -/
def operand? (collection : Collection) : Option Collection := collection.operands.head?

end Collection

namespace Value

/-- The name of a value's type, as texts for people give it. -/
def typeName : Value → String
  | none => "none"
  | int _ => "int64"
  | float _ => "float64"
  | string _ => "string"
  | binary _ => "binary"
  | list _ => "list"
  | dict _ => "dict"
  | collection _ => "collection"
  | error _ => "error"

/-! ### Views -/

def isNone : Value → Bool
  | none => true
  | _ => false

def int? : Value → Option Int64
  | int number => some number
  | _ => Option.none

/-- The numeric view: an integer is widened to the nearest double. -/
def float? : Value → Option Double
  | float number => some number
  | int number => some (.ofInt number.toInt)
  | _ => Option.none

def string? : Value → Option String
  | string text => some text
  | _ => Option.none

def binary? : Value → Option (List UInt8)
  | binary bytes => some bytes
  | _ => Option.none

def list? : Value → Option (List Value)
  | list items => some items
  | _ => Option.none

def dict? : Value → Option (Dict Value)
  | dict entries => some entries
  | _ => Option.none

def collection? : Value → Option Collection
  | collection node => some node
  | _ => Option.none

def error? : Value → Option String
  | error message => some message
  | _ => Option.none

/-- The entry of a dictionary value. -/
def entry? (value : Value) (key : String) : Option Value :=
  value.dict?.bind (Dict.find? · key)

def entryString? (value : Value) (key : String) : Option String :=
  (value.entry? key).bind string?

def entryInt? (value : Value) (key : String) : Option Int64 :=
  (value.entry? key).bind int?

/-- The strings of a list that holds nothing else. -/
def strings? (value : Value) : Option (List String) :=
  value.list?.bind (·.mapM string?)

/-! ### Building -/

/-- A dictionary value; a repeated key keeps its first place and its last value. -/
def ofEntries (entries : List (String × Value)) : Value := dict (Dict.ofEntries entries)

def ofStrings (texts : List String) : Value := list (texts.map string)

/-- A list with one more item at its end. -/
def push? (value item : Value) : Option Value :=
  value.list?.map fun items => list (items ++ [item])

/-- A dictionary with `key` set. -/
def insert? (value : Value) (key : String) (item : Value) : Option Value :=
  value.dict?.map fun entries => dict (Dict.insert entries key item)

end Value

/-- The attribute of a node, if it is a string. -/
def Collection.attributeString? (collection : Collection) (key : String) : Option String :=
  (collection.attribute? key).bind Value.string?

/-! ### Nodes of a value -/

mutual

/-- All node occurrences of a value, each after the nodes inside it. -/
def Value.nodes : Value → List Collection
  | .list items => nodesOfItems items
  | .dict entries => nodesOfEntries entries
  | .collection node => node.nodes
  | _ => []

def Collection.nodes : Collection → List Collection
  | .node id kind attributes operands ids =>
    nodesOfEntries attributes ++ nodesOfOperands operands ++
      [.node id kind attributes operands ids]

def nodesOfItems : List Value → List Collection
  | [] => []
  | item :: rest => item.nodes ++ nodesOfItems rest

def nodesOfEntries : List (String × Value) → List Collection
  | [] => []
  | (_, value) :: rest => value.nodes ++ nodesOfEntries rest

def nodesOfOperands : List Collection → List Collection
  | [] => []
  | operand :: rest => operand.nodes ++ nodesOfOperands rest

end

/-- One identity stands for one node. -/
def SharedNodes (nodes : List Collection) : Prop :=
  ∀ first ∈ nodes, ∀ second ∈ nodes, first.id = second.id → first = second

/-- Identities in these values are used as identities: equal ones mark one node. -/
def WellShared (values : List Value) : Prop := SharedNodes (nodesOfItems values)

/-! ### New nodes -/

/-- A computation that may make nodes. Its state is the next unused identity. -/
abbrev Build := StateM NodeId

/-- Draw an identity that was never drawn before. -/
def freshId : Build NodeId := modifyGet fun next => (next, next + 1)

/-- Make a new node. -/
def Collection.make (kind : CollectionKind) (attributes : Dict Value)
    (operands : List Collection) (ids : List Int64) : Build Collection := do
  return .node (← freshId) kind attributes operands ids

end MediaCatalog
