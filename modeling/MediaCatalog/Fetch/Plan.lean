import MediaCatalog.Error
import MediaCatalog.Fetch.Spec
import MediaCatalog.Text.Quoted

/-!
Reading fetch specs. A plan is what a spec asks for, in typed form. A part of a
spec that cannot be read becomes a plan that fails: the failure comes up when
the part is reached, and a part that is never reached does no harm.

A strict reading refuses `get` outside metadata and `cluster-by` outside
clusters; a lenient one ignores them there.
-/

namespace MediaCatalog

inductive Plan where
  | fails (cause : Error)
  | count
  | metadata (get : List String) (aggregate : Aggregate)
  | clusterList (property : String) (data : Plan)
  | clusterDict (property : String) (data : Plan)
  | organize (entries : List (String × Plan))

namespace Plan

open FetchSpec

/-- The error of a name that is none of a kind of thing. -/
def unknown (thing name : String) : Error :=
  .invalidArgument (s!"unknown {thing} " ++ Text.quoted name)

/-- The type of a result, by its name. -/
def typeOfName (name : String) : Except Error FetchType :=
  match FetchType.ofName? name with
  | some type => .ok type
  | none => .error (unknown "fetch type" name)

def aggregateOfName (name : String) : Except Error Aggregate :=
  match Aggregate.ofName? name with
  | some aggregate => .ok aggregate
  | none => .error (unknown "aggregate" name)

/-- An error of the spec, as it is reported to the client. -/
def refuse {α : Type} (reason : String) : Except Error α := .error (.remote reason)

/-- Report a local error to the client by its text. -/
def reported {α : Type} : Except Error α → Except Error α
  | .ok value => .ok value
  | .error error => refuse error.message

/-- The type of a spec. -/
def readType (spec : Dict Value) : Except Error FetchType :=
  match (Dict.find? spec Key.type).bind Value.string? with
  | none => refuse "fetch spec without a type"
  | some name => reported (typeOfName name)

/-- Whether the spec has the keys that its type needs, and in strict reading no others. -/
def checkShape (strict : Bool) (type : FetchType) (spec : Dict Value) : Except Error Unit := do
  let hasGet := ((Dict.find? spec Key.get).bind Value.list?).any fun items => !items.isEmpty
  let hasClusterBy := Dict.contains spec Key.clusterBy
  if type = .metadata ∧ !hasGet then
    refuse "metadata fetch needs a non-empty get list"
  if type.isCluster ∧ !hasClusterBy then
    refuse (type.name ++ " fetch needs cluster-by")
  if strict ∧ type ≠ .metadata ∧ Dict.contains spec Key.get then
    refuse ("get is only valid for metadata, not " ++ type.name)
  if strict ∧ !type.isCluster ∧ hasClusterBy then
    refuse ("cluster-by is not valid for " ++ type.name)

/-- The type of a spec whose shape is right. -/
def readShape (strict : Bool) (spec : Dict Value) : Except Error FetchType := do
  let type ← readType spec
  checkShape strict type spec
  return type

def readMetadata (spec : Dict Value) : Except Error Plan := do
  let aggregate ←
    match Dict.find? spec Key.aggregate with
    | none => pure Aggregate.first
    | some value =>
      match value.string? with
      | none => refuse "aggregate must be a string"
      | some name => reported (aggregateOfName name)
  match (Dict.find? spec Key.get).bind Value.strings? with
  | none => refuse "get must be a list of property names"
  | some get => return .metadata get aggregate

/-- The property to cluster by and the plan for each cluster. -/
def readCluster (spec : Dict Value) (data : Option Plan) : Except Error (String × Plan) :=
  match (Dict.find? spec Key.clusterBy).bind Value.string?, data with
  | none, _ => refuse "cluster-by must be a string"
  | some _, none => refuse "cluster spec without data"
  | some property, some data => .ok (property, data)

/-- The plan of a spec, given the plan of its data and the plans of its data's entries. -/
def assemble (strict : Bool) (spec : Dict Value) (data : Option Plan)
    (entries : Option (List (String × Plan))) : Except Error Plan := do
  match ← readShape strict spec with
  | .count => return .count
  | .metadata => readMetadata spec
  | .clusterList =>
    let (property, data) ← readCluster spec data
    return .clusterList property data
  | .clusterDict =>
    let (property, data) ← readCluster spec data
    return .clusterDict property data
  | .organize =>
    match entries with
    | none => refuse "organize spec without a data dict"
    | some entries => return .organize entries

/-- A reading that failed is a plan that fails. -/
def ofExcept : Except Error Plan → Plan
  | .ok plan => plan
  | .error cause => .fails cause

mutual

/-- The plan of a spec. -/
def ofValue (strict : Bool) : Value → Plan
  | .dict spec =>
    ofExcept (assemble strict spec (ofData strict spec) (ofDataEntries strict spec))
  | other => .fails (.remote ("fetch spec must be a dict, got " ++ other.typeName))

/-- The plan of the data of a spec. -/
def ofData (strict : Bool) : List (String × Value) → Option Plan
  | [] => none
  | (key, value) :: rest =>
    if key = Key.data then some (ofValue strict value) else ofData strict rest

/-- The plans of the entries of the data of a spec. -/
def ofDataEntries (strict : Bool) : List (String × Value) → Option (List (String × Plan))
  | [] => none
  | (key, value) :: rest =>
    if key = Key.data then
      match value with
      | .dict entries => some (ofEntries strict entries)
      | _ => none
    else ofDataEntries strict rest

def ofEntries (strict : Bool) : List (String × Value) → List (String × Plan)
  | [] => []
  | (name, value) :: rest => (name, ofValue strict value) :: ofEntries strict rest

end

end Plan

end MediaCatalog
