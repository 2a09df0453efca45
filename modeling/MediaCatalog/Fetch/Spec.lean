import MediaCatalog.Value.Basic

/-!
Fetch specs: what to retrieve for the matches of a collection. A spec travels
as a dictionary value; `FetchSpec` is its typed form and `FetchSpec.toValue`
writes it down. Nothing is checked here: reading a spec, and refusing it, is
the business of its evaluation.
-/

namespace MediaCatalog

/-- The shape of a fetch result. -/
inductive FetchType where
  | metadata
  | clusterList
  | clusterDict
  | count
  | organize
  deriving DecidableEq, Repr, Inhabited

namespace FetchType

def name : FetchType → String
  | metadata => "metadata"
  | clusterList => "cluster-list"
  | clusterDict => "cluster-dict"
  | count => "count"
  | organize => "organize"

def ofName? : String → Option FetchType
  | "metadata" => some metadata
  | "cluster-list" => some clusterList
  | "cluster-dict" => some clusterDict
  | "count" => some count
  | "organize" => some organize
  | _ => none

def isCluster : FetchType → Bool
  | clusterList | clusterDict => true
  | _ => false

@[simp] theorem ofName?_name (type : FetchType) : ofName? type.name = some type := by
  cases type <;> rfl

end FetchType

/-- How the values of one property are folded over the matches of a group. -/
inductive Aggregate where
  | first
  | list
  | sum
  | max
  | min
  | avg
  | random
  deriving DecidableEq, Repr, Inhabited

namespace Aggregate

def name : Aggregate → String
  | first => "first"
  | list => "list"
  | sum => "sum"
  | max => "max"
  | min => "min"
  | avg => "avg"
  | random => "random"

def ofName? : String → Option Aggregate
  | "first" => some first
  | "list" => some list
  | "sum" => some sum
  | "max" => some max
  | "min" => some min
  | "avg" => some avg
  | "random" => some random
  | _ => none

@[simp] theorem ofName?_name (aggregate : Aggregate) :
    ofName? aggregate.name = some aggregate := by
  cases aggregate <;> rfl

end Aggregate

/-! ### Keys of a spec -/

namespace FetchSpec.Key

def type : String := "type"

def aggregate : String := "aggregate"

def get : String := "get"

def clusterBy : String := "cluster-by"

def data : String := "data"

end FetchSpec.Key

/-- A typed fetch spec. -/
inductive FetchSpec where
  | count
  /-- Values of the properties `get`. -/
  | metadata (get : List String) (aggregate : Aggregate)
  /-- Clusters with one value of `by`, in order of first appearance. -/
  | clusterList (property : String) (data : FetchSpec)
  /-- The same, under the texts of these values. -/
  | clusterDict (property : String) (data : FetchSpec)
  /-- Several specs over the same matches, by name. -/
  | organize (entries : List (String × FetchSpec))
  deriving Inhabited

namespace FetchSpec

def type : FetchSpec → FetchType
  | count => .count
  | metadata _ _ => .metadata
  | clusterList _ _ => .clusterList
  | clusterDict _ _ => .clusterDict
  | organize _ => .organize

/-- Cluster by this to get one cluster per match. -/
def byPosition : String := "position"

/-- Cluster by this to group by media id. -/
def byId : String := "id"

mutual

/-- The dictionary of a spec. -/
def toDict : FetchSpec → Dict Value
  | count => [(Key.type, .string FetchType.count.name)]
  | metadata get aggregate =>
    [(Key.type, .string FetchType.metadata.name), (Key.aggregate, .string aggregate.name),
      (Key.get, Value.ofStrings get)]
  | clusterList property data =>
    [(Key.type, .string FetchType.clusterList.name), (Key.clusterBy, .string property),
      (Key.data, .dict data.toDict)]
  | clusterDict property data =>
    [(Key.type, .string FetchType.clusterDict.name), (Key.clusterBy, .string property),
      (Key.data, .dict data.toDict)]
  | organize entries =>
    [(Key.type, .string FetchType.organize.name), (Key.data, Value.ofEntries (toDicts entries))]

def toDicts : List (String × FetchSpec) → List (String × Value)
  | [] => []
  | (name, spec) :: rest => (name, .dict spec.toDict) :: toDicts rest

end

def toValue (spec : FetchSpec) : Value := .dict spec.toDict

/-- The id of each match, in order. -/
def ids : FetchSpec := clusterList byPosition (metadata ["id"] .first)

end FetchSpec

end MediaCatalog
