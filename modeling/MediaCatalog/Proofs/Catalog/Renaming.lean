import MediaCatalog.Fetch.Run
import MediaCatalog.Proofs.Catalog.Layer
import MediaCatalog.Proofs.Value.Renaming

/-!
Evaluation of copies. What a collection selects depends on its content only, so a copy selects the
same ids, also against a store that holds copies. In the same way a copy of a fetch spec asks for
the same.
-/

namespace MediaCatalog

variable {rename : NodeId → NodeId}

/-! ### Reading nodes -/

/-- The filter that a copy of a node asks for. -/
def Filter.renamed (rename : NodeId → NodeId) (filter : Filter) : Filter :=
  { filter with expected := filter.expected.map (Value.renamed rename) }

theorem Filter.ofNode_renamed (node : Collection) :
    Filter.ofNode (node.renamed rename) = (Filter.ofNode node).map (Filter.renamed rename) := by
  unfold Filter.ofNode
  simp only [Collection.attributeString?_renamed, Collection.attribute?_renamed]
  cases (node.attributeString? Attribute.type).bind Predicate.ofName? with
  | none => rfl
  | some predicate =>
      cases node.attributeString? Attribute.field with
      | none => rfl
      | some field =>
          cases node.attribute? Attribute.value with
          | some expected => rfl
          | none =>
              by_cases hhas : predicate = .has <;> simp [hhas] <;> rfl

theorem Filter.accepts_renamed (filter : Filter) (actual : Option Value) :
    (filter.renamed rename).accepts actual = filter.accepts actual := by
  obtain ⟨predicate, field, expected⟩ := filter
  cases expected with
  | none => rfl
  | some expected =>
      cases predicate <;> cases actual <;>
        simp [Filter.renamed, accepts, below, Value.alike_renamed]

theorem SortKey.ofNode_renamed (node : Collection) :
    SortKey.ofNode (node.renamed rename) = SortKey.ofNode node := by
  simp only [SortKey.ofNode, Collection.attributeString?_renamed]

theorem Window.count_renamed (node : Collection) (key : String) :
    Window.count (node.renamed rename) key = Window.count node key := by
  simp only [Window.count, Collection.attribute?_renamed]
  cases node.attribute? key with
  | none => rfl
  | some value => simp only [Option.map_some, Value.int?_renamed]

theorem Window.ofNode_renamed (node : Collection) :
    Window.ofNode (node.renamed rename) = Window.ofNode node := by
  simp only [Window.ofNode, Window.count_renamed]

theorem Target.ofNode_renamed (node : Collection) :
    Target.ofNode (node.renamed rename) = Target.ofNode node := by
  simp only [Target.ofNode, Collection.attributeString?_renamed]

theorem Collection.inputs_renamed (node : Collection) :
    (node.renamed rename).inputs = node.inputs.map (Collection.renamed rename) := by
  rw [inputs, inputs, kind_renamed, operands_renamed, List.length_map, List.map_take]

namespace Catalog

variable {catalog copy : Catalog}

/-- One level does not show the identities in its node. -/
theorem layer_renamed (node : Collection) (results : List Selection)
    (follow : Namespace → String → Selection) :
    catalog.layer (node.renamed rename) results follow = catalog.layer node results follow := by
  unfold layer
  simp only [Collection.kind_renamed, Collection.ids_renamed, Target.ofNode_renamed,
    SortKey.ofNode_renamed, Window.ofNode_renamed, Filter.ofNode_renamed]
  cases node.kind with
  | filter =>
      cases Filter.ofNode node with
      | error cause => rfl
      | ok filter =>
          simp only [Except.map, bind, Except.bind, Filter.accepts_renamed]
          rfl
  | _ => rfl

end Catalog

/-! ### Reading fetch specs -/

namespace Plan

theorem readType_renamed (spec : Dict Value) :
    readType (renamedEntries rename spec) = readType spec := by
  unfold readType
  rw [Dict.find?_renamed]
  cases Dict.find? spec FetchSpec.Key.type <;> simp

theorem contains_renamed (spec : Dict Value) (key : String) :
    Dict.contains (renamedEntries rename spec) key = Dict.contains spec key := by
  rw [Dict.contains, Dict.contains, Dict.find?_renamed, Option.isSome_map]

theorem checkShape_renamed (strict : Bool) (type : FetchType) (spec : Dict Value) :
    checkShape strict type (renamedEntries rename spec) = checkShape strict type spec := by
  have hget : ((Dict.find? (renamedEntries rename spec) FetchSpec.Key.get).bind Value.list?).any
      (fun items => !items.isEmpty) =
        ((Dict.find? spec FetchSpec.Key.get).bind Value.list?).any fun items => !items.isEmpty := by
    rw [Dict.find?_renamed]
    cases Dict.find? spec FetchSpec.Key.get with
    | none => rfl
    | some value =>
        simp only [Option.map_some, Option.bind_some, Value.list?_renamed]
        cases value.list? with
        | none => rfl
        | some items => cases items <;> rfl
  simp only [checkShape, hget, contains_renamed]

theorem readMetadata_renamed (spec : Dict Value) :
    readMetadata (renamedEntries rename spec) = readMetadata spec := by
  unfold readMetadata
  rw [Dict.find?_renamed, Dict.find?_renamed]
  have hget : ((Dict.find? spec FetchSpec.Key.get).map (Value.renamed rename)).bind Value.strings? =
      (Dict.find? spec FetchSpec.Key.get).bind Value.strings? := by
    cases Dict.find? spec FetchSpec.Key.get <;> simp
  rw [hget]
  cases Dict.find? spec FetchSpec.Key.aggregate with
  | none => rfl
  | some value => simp only [Option.map_some, Value.string?_renamed]

theorem readCluster_renamed (spec : Dict Value) (data : Option Plan) :
    readCluster (renamedEntries rename spec) data = readCluster spec data := by
  unfold readCluster
  rw [Dict.find?_renamed]
  cases Dict.find? spec FetchSpec.Key.clusterBy <;> simp

theorem assemble_renamed (strict : Bool) (spec : Dict Value) (data : Option Plan)
    (entries : Option (List (String × Plan))) :
    assemble strict (renamedEntries rename spec) data entries =
      assemble strict spec data entries := by
  simp only [assemble, readShape, readType_renamed, checkShape_renamed, readMetadata_renamed,
    readCluster_renamed]

mutual

/-- A copy of a spec asks for the same. -/
theorem ofValue_renamed (strict : Bool) :
    ∀ value : Value, ofValue strict (value.renamed rename) = ofValue strict value
  | .none | .int _ | .float _ | .string _ | .binary _ | .list _ | .collection _ | .error _ => rfl
  | .dict spec => by
      simp only [Value.renamed, ofValue, assemble_renamed, ofData_renamed strict spec,
        ofDataEntries_renamed strict spec]

theorem ofData_renamed (strict : Bool) :
    ∀ spec : List (String × Value),
      ofData strict (renamedEntries rename spec) = ofData strict spec
  | [] => rfl
  | (key, value) :: rest => by
      simp only [renamedEntries, ofData, ofValue_renamed strict value, ofData_renamed strict rest]

theorem ofDataEntries_renamed (strict : Bool) :
    ∀ spec : List (String × Value),
      ofDataEntries strict (renamedEntries rename spec) = ofDataEntries strict spec
  | [] => rfl
  | (key, value) :: rest => by
      have hrest := ofDataEntries_renamed strict rest
      cases value with
      | dict entries =>
          have hentries := ofEntries_renamed strict entries
          simp only [renamedEntries, Value.renamed, ofDataEntries, hentries, hrest]
      | _ => simp only [renamedEntries, Value.renamed, ofDataEntries, hrest]

theorem ofEntries_renamed (strict : Bool) :
    ∀ entries : List (String × Value),
      ofEntries strict (renamedEntries rename entries) = ofEntries strict entries
  | [] => rfl
  | (name, value) :: rest => by
      simp only [renamedEntries, ofEntries, ofValue_renamed strict value,
        ofEntries_renamed strict rest]

end

end Plan

end MediaCatalog
