import MediaCatalog.Catalog.Evaluate
import MediaCatalog.Fetch.Grouping
import MediaCatalog.Fetch.Plan

/-!
Fetching: what a plan retrieves for a list of ids. Properties that an entry does
not have are passed over, so an aggregate is over the entries that have one.
-/

namespace MediaCatalog

namespace Aggregate

/-- The last of the largest values. -/
def largest : List Value → Value
  | [] => .none
  | head :: rest =>
    rest.foldl (fun best next => if best.compare next = .gt then best else next) head

/-- The first of the smallest values. -/
def smallest : List Value → Value
  | [] => .none
  | head :: rest =>
    rest.foldl (fun best next => if best.compare next = .gt then next else best) head

/-- The integer sum, unless a value is no integer or a partial sum leaves the
range of integers. -/
def exactSum? (values : List Value) : Option Int64 :=
  values.foldlM
    (fun total value => do
      let sum := total.toInt + (← value.int?).toInt
      if Int64.minValue.toInt ≤ sum ∧ sum ≤ Int64.maxValue.toInt then some (Int64.ofInt sum)
      else none)
    0

/-- Floats added from left to right, starting from minus zero. -/
def floatSum (numbers : List Double) : Double := numbers.foldl (· + ·) (-0.0)

/-- The numbers among the values, numeric strings included. -/
def numbers (values : List Value) : List Double := values.filterMap Value.number?

/-- Fold the values that a property has over the matches. -/
def fold (aggregate : Aggregate) (seed : UInt64) (values : List Value) : Value :=
  match values with
  | [] => .none
  | head :: _ =>
    match aggregate with
    | .first => head
    | .list => .list values
    | .random => (Chance.pick? seed values).getD .none
    | .max => largest values
    | .min => smallest values
    | .sum =>
      match exactSum? values with
      | some total => .int total
      | none => .float (floatSum (numbers values))
    | .avg =>
      match numbers values with
      | [] => .none
      | numbers => .float (floatSum numbers / .ofInt numbers.length)

end Aggregate

namespace Catalog

/-- An aggregate of a property over ids. -/
def aggregate (catalog : Catalog) (ids : List Int64) (property : String)
    (aggregate : Aggregate) : Value :=
  aggregate.fold catalog.seed (ids.filterMap (catalog.library.property? · property))

/-- Properties by name, without those whose aggregate is none. -/
def record (catalog : Catalog) (ids : List Int64) (properties : List String)
    (aggregate : Aggregate) : Dict Value :=
  properties.foldl
    (fun row property =>
      let value := catalog.aggregate ids property aggregate
      if value.isNone then row else Dict.insert row property value)
    []

/-- The text by which an entry at a position is clustered. -/
def clusterKey? (catalog : Catalog) (property : String) (position : Nat) (id : Int64) :
    Option String :=
  if property = FetchSpec.byPosition then some (toString position)
  else if property = FetchSpec.byId then some (toString id.toInt)
  else (catalog.library.property? id property).map Value.text

/-- Clusters of ids, in order of first appearance. -/
def clusters (catalog : Catalog) (property : String) (ids : List Int64) :
    Groups String Int64 :=
  Groups.ofList <| ids.zipIdx.filterMap fun (id, position) =>
    (catalog.clusterKey? property position id).map (·, id)

mutual

/-- What a plan retrieves for ids. -/
def fetch (catalog : Catalog) : Plan → List Int64 → Except Error Value
  | .fails cause, _ => .error cause
  | .count, ids => .ok (.int (Int64.ofNat ids.length))
  | .metadata [property] aggregate, ids => .ok (catalog.aggregate ids property aggregate)
  | .metadata properties aggregate, ids =>
    .ok (.dict (catalog.record ids properties aggregate))
  | .clusterList property data, ids => do
    let results ← (catalog.clusters property ids).mapM fun (_, members) =>
      fetch catalog data members
    return .list results
  | .clusterDict property data, ids => do
    let results ← (catalog.clusters property ids).mapM fun (key, members) =>
      return (key, ← fetch catalog data members)
    return .dict (Dict.ofEntries results)
  | .organize entries, ids => do
    return .dict (Dict.ofEntries (← fetchEntries catalog entries ids))

/-- What each of several named plans retrieves. -/
def fetchEntries (catalog : Catalog) :
    List (String × Plan) → List Int64 → Except Error (List (String × Value))
  | [], _ => .ok []
  | (name, plan) :: rest, ids => do
    let value ← fetch catalog plan ids
    return (name, value) :: (← fetchEntries catalog rest ids)

end

/-- The texts by which an entry is grouped into a row. Without properties to group
by, it is its id. -/
def rowKey (catalog : Catalog) (group : List String) (id : Int64) : List String :=
  if group.isEmpty then [toString id.toInt]
  else group.map fun property =>
    ((catalog.library.property? id property).map Value.text).getD ""

/-- One row for each distinct key, with the first value of each property among the
entries of that key. -/
def rows (catalog : Catalog) (ids : List Int64) (properties group : List String) :
    List Value :=
  (Groups.ofList (ids.map fun id => (catalog.rowKey group id, id))).map fun (_, members) =>
    .dict (catalog.record members properties .first)

/-- A stretch of the rows. -/
def infos (catalog : Catalog) (ids : List Int64) (properties group : List String)
    (window : Window) : List Value :=
  window.cut (catalog.rows ids properties group)

end Catalog

end MediaCatalog
