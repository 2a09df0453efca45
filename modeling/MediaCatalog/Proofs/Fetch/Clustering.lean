import Mathlib.Algebra.GroupWithZero.Nat
import MediaCatalog.Proofs.Fetch.Typed

/-!
Clusters. Over a property of the entries the clusters share out the ids that have the property: one
cluster for each text that its values have, with the ids of these values in their order. A list and
a dictionary of clusters come from the same clusters, so the one is answered exactly if the other
is, and with the same values.
-/

namespace MediaCatalog

/-! ### Reading specs of clusters -/

theorem Value.eq_string_of_string? {found : Option Value} {text : String}
    (h : found.bind string? = some text) : found = some (.string text) := by
  obtain ⟨value, rfl, hvalue⟩ := Option.bind_eq_some_iff.mp h
  cases value <;> simp_all [string?]

theorem Plan.ofData_eq (strict : Bool) (spec : Dict Value) :
    ofData strict spec = (Dict.find? spec FetchSpec.Key.data).map (ofValue strict) := by
  induction spec with
  | nil => rfl
  | cons entry rest ih =>
      rw [ofData, Dict.find?_cons, ih]
      split <;> rfl

/-- What a spec is read as when its type is set. -/
def Plan.ofSpec (strict : Bool) (type : FetchType) (spec : Dict Value) : Plan :=
  ofValue strict (.dict (Dict.insert spec FetchSpec.Key.type (.string type.name)))

/-- A spec tells what to cluster by and what to retrieve for each cluster. In strict reading it may
not ask for properties by itself. -/
structure FetchSpec.ClustersBy (strict : Bool) (spec : Dict Value) (property : String)
    (data : Value) : Prop where
  property : Dict.find? spec Key.clusterBy = some (.string property)
  data : Dict.find? spec Key.data = some data
  noGet : strict = true → Dict.contains spec Key.get = false

namespace Plan

open FetchSpec

variable {strict : Bool} {type : FetchType} {spec : Dict Value}

theorem readType_insert (type : FetchType) (spec : Dict Value) :
    readType (Dict.insert spec Key.type (.string type.name)) = .ok type := by
  rw [readType, Dict.find?_insert, if_pos rfl]
  simp [Value.string?, typeOfName, reported]

/-- The type of a spec is no part of what it asks for. -/
theorem find?_insert_type {key : String} (h : Key.type ≠ key) (value : Value) :
    Dict.find? (Dict.insert spec Key.type value) key = Dict.find? spec key := by
  rw [Dict.find?_insert, if_neg h]

theorem readShape_insert (htype : type.isCluster) :
    readShape strict (Dict.insert spec Key.type (.string type.name)) =
      if !Dict.contains spec Key.clusterBy then
        refuse (type.name ++ " fetch needs cluster-by")
      else if strict ∧ Dict.contains spec Key.get then
        refuse ("get is only valid for metadata, not " ++ type.name)
      else .ok type := by
  have hne : type ≠ .metadata := by
    rintro rfl
    exact nomatch htype
  rw [readShape, readType_insert]
  unfold checkShape Dict.contains
  rw [find?_insert_type (by decide), find?_insert_type (by decide)]
  cases (Dict.find? spec Key.clusterBy).isSome <;> cases (Dict.find? spec Key.get).isSome <;>
    cases strict <;> simp [htype, hne, refuse, bind, Except.bind, pure, Except.pure]

theorem readCluster_insert (value : Value) (data : Option Plan) :
    readCluster (Dict.insert spec Key.type value) data = readCluster spec data := by
  unfold readCluster
  rw [find?_insert_type (by decide)]

theorem ofSpec_eq (type : FetchType) :
    ofSpec strict type spec = ofExcept
      (assemble strict (Dict.insert spec Key.type (.string type.name))
        ((Dict.find? spec Key.data).map (ofValue strict))
        (ofDataEntries strict (Dict.insert spec Key.type (.string type.name)))) := by
  rw [ofSpec, ofValue, ofData_eq, find?_insert_type (by decide)]

variable {property : String} {data : Value}

/-- A spec that tells both has the shape of clusters. -/
theorem readShape_of_clustersBy (h : ClustersBy strict spec property data)
    (htype : type.isCluster) :
    readShape strict (Dict.insert spec Key.type (.string type.name)) = .ok type := by
  have hby : Dict.contains spec Key.clusterBy = true := by
    rw [Dict.contains, h.property]
    rfl
  have hget : ¬ (strict = true ∧ Dict.contains spec Key.get = true) := fun hboth => by
    rw [h.noGet hboth.1] at hboth
    exact nomatch hboth.2
  rw [readShape_insert htype, hby, if_neg (by simp), if_neg hget]

theorem readCluster_of_clustersBy (h : ClustersBy strict spec property data) :
    readCluster spec ((Dict.find? spec Key.data).map (ofValue strict)) =
      .ok (property, ofValue strict data) := by
  unfold readCluster
  rw [h.property, h.data]
  rfl

theorem ofSpec_clusterList (h : ClustersBy strict spec property data) :
    ofSpec strict .clusterList spec = .clusterList property (ofValue strict data) := by
  rw [ofSpec_eq]
  unfold assemble
  rw [readShape_of_clustersBy h rfl]
  simp only [bind, Except.bind, readCluster_insert, readCluster_of_clustersBy h]
  rfl

theorem ofSpec_clusterDict (h : ClustersBy strict spec property data) :
    ofSpec strict .clusterDict spec = .clusterDict property (ofValue strict data) := by
  rw [ofSpec_eq]
  unfold assemble
  rw [readShape_of_clustersBy h rfl]
  simp only [bind, Except.bind, readCluster_insert, readCluster_of_clustersBy h]
  rfl

/-- A spec that does not tell both cannot be read as clusters of either type. -/
theorem ofSpec_fails (type : FetchType) (htype : type.isCluster)
    (h : ∀ property data, ¬ ClustersBy strict spec property data) :
    ∃ cause, ofSpec strict type spec = .fails cause := by
  have hread : ∃ cause, assemble strict (Dict.insert spec Key.type (.string type.name))
      ((Dict.find? spec Key.data).map (ofValue strict))
      (ofDataEntries strict (Dict.insert spec Key.type (.string type.name))) = .error cause := by
    unfold assemble
    rw [readShape_insert htype]
    split
    · exact ⟨_, rfl⟩
    · split
      · exact ⟨_, rfl⟩
      · next hby hget =>
        have hcluster : ∃ cause, readCluster spec
            ((Dict.find? spec Key.data).map (ofValue strict)) = .error cause := by
          unfold readCluster
          split
          · exact ⟨_, rfl⟩
          · exact ⟨_, rfl⟩
          · next property plan hproperty hdata =>
            obtain ⟨data, hfound, rfl⟩ := Option.map_eq_some_iff.mp hdata
            refine absurd ⟨Value.eq_string_of_string? hproperty, hfound, fun hstrict => ?_⟩
              (h property data)
            simpa [hstrict] using hget
        obtain ⟨cause, hcause⟩ := hcluster
        refine ⟨cause, ?_⟩
        simp only [bind, Except.bind]
        cases type with
        | clusterList | clusterDict => simp only [readCluster_insert, hcause]
        | metadata | count | organize => exact nomatch htype
  obtain ⟨cause, hcause⟩ := hread
  exact ⟨cause, by rw [ofSpec_eq, hcause, ofExcept]⟩

end Plan

/-! ### Answers for each cluster -/

/-- Some steps come to results together exactly if each of them comes to its own. -/
theorem mapM_eq_ok_iff {ε α β : Type} {step : α → Except ε β} {items : List α}
    {results : List β} : items.mapM step = .ok results ↔
      List.Forall₂ (fun item result => step item = .ok result) items results := by
  induction items generalizing results with
  | nil =>
      rw [List.forall₂_nil_left_iff]
      exact ⟨fun h => (Except.ok.inj h).symm, fun h => h ▸ rfl⟩
  | cons item rest ih =>
      rw [List.mapM_cons]
      constructor
      · intro h
        obtain ⟨result, hresult, h⟩ := exists_of_bind_ok h
        obtain ⟨others, hothers, h⟩ := exists_of_bind_ok h
        obtain rfl := Except.ok.inj h
        exact .cons hresult (ih.mp hothers)
      · rintro (_ | ⟨hresult, hothers⟩)
        rw [hresult, ih.mpr hothers]
        rfl

namespace Catalog

variable {catalog : Catalog} {property : String} {data : Plan} {ids : List Int64} {answer : Value}

/-- A list has the answer for each cluster. -/
theorem fetch_clusterList_iff : catalog.fetch (.clusterList property data) ids = .ok answer ↔
    ∃ results, answer = .list results ∧
      List.Forall₂ (fun cluster result => catalog.fetch data cluster.2 = .ok result)
        (catalog.clusters property ids) results := by
  rw [fetch]
  constructor
  · intro h
    obtain ⟨results, hresults, h⟩ := exists_of_bind_ok h
    exact ⟨results, (Except.ok.inj h).symm, mapM_eq_ok_iff.mp hresults⟩
  · rintro ⟨results, rfl, hresults⟩
    simp only [mapM_eq_ok_iff.mpr hresults]
    rfl

/-- An answer under a name. -/
theorem named_eq_ok_iff {key : String} {result : Except Error Value} {entry : String × Value} :
    (do return (key, ← result) : Except Error (String × Value)) = .ok entry ↔
      entry.1 = key ∧ result = .ok entry.2 := by
  cases result with
  | error cause => exact ⟨fun h => (nomatch h), fun h => (nomatch h.2)⟩
  | ok value =>
      constructor
      · intro h
        obtain rfl := Except.ok.inj h
        exact ⟨rfl, rfl⟩
      · rintro ⟨rfl, h⟩
        obtain rfl := Except.ok.inj h
        rfl

/-- A dictionary has the answer for each cluster under the text of the cluster. -/
theorem fetch_clusterDict_iff : catalog.fetch (.clusterDict property data) ids = .ok answer ↔
    ∃ row, answer = .dict row ∧
      List.Forall₂ (fun cluster entry => entry.1 = cluster.1 ∧
        catalog.fetch data cluster.2 = .ok entry.2) (catalog.clusters property ids) row := by
  have hdict {row : Dict Value} (hrow : List.Forall₂ (fun cluster entry => entry.1 = cluster.1 ∧
      catalog.fetch data cluster.2 = .ok entry.2) (catalog.clusters property ids) row) :
      Dict.ofEntries row = row := by
    refine Dict.ofEntries_of_distinct ?_
    rw [Dict.Distinct, Dict.keys_of_forall₂ hrow]
    exact distinct_clusters property
  rw [fetch]
  constructor
  · intro h
    obtain ⟨row, hrow, h⟩ := exists_of_bind_ok h
    have hentries := (mapM_eq_ok_iff.mp hrow).imp fun _ _ => named_eq_ok_iff.mp
    rw [hdict hentries] at h
    exact ⟨row, (Except.ok.inj h).symm, hentries⟩
  · rintro ⟨row, rfl, hrow⟩
    have hentries := mapM_eq_ok_iff.mpr (hrow.imp fun _ _ => named_eq_ok_iff.mpr)
    simp only [hentries]
    exact congrArg (fun row => Except.ok (Value.dict row)) (hdict hrow)

/-! ### Clusters of a property -/

/-- Over a property of the entries the clusters share out the ids that have it, by the text of the
value. -/
theorem partitions_clusters (catalog : Catalog) (ids : List Int64)
    (hposition : property ≠ FetchSpec.byPosition) (hid : property ≠ FetchSpec.byId) :
    Groups.Partitions (fun id => (catalog.library.property? id property).map Value.text) ids
      (catalog.clusters property ids) := by
  have hclusters : catalog.clusters property ids =
      Groups.ofList (ids.filterMap fun id =>
        ((catalog.library.property? id property).map Value.text).map (·, id)) := by
    -- the places along which clusters are formed do not matter to these keys
    conv_rhs => rw [← List.zipIdx_map_fst 0 ids, List.filterMap_map]
    simp only [clusters, clusterKey?, if_neg hposition, if_neg hid]
    rfl
  rw [hclusters]
  exact Groups.partitions_ofList _ ids

/-- A dictionary of counts has the size of each cluster. -/
theorem fetch_clusterDict_count : catalog.fetch (.clusterDict property .count) ids =
    .ok (.dict ((catalog.clusters property ids).map fun cluster =>
      (cluster.1, .int (Int64.ofNat cluster.2.length)))) := by
  refine fetch_clusterDict_iff.mpr ⟨_, rfl, ?_⟩
  rw [List.forall₂_map_right_iff, List.forall₂_same]
  exact fun cluster _ => ⟨rfl, rfl⟩

end Catalog

/-! ### Lists and dictionaries of clusters -/

/-- Results that follow items are the values of entries that follow the items by name. -/
theorem Dict.forall₂_values_iff {α β : Type} (R : α → β → Prop) (dict : Dict α)
    (results : List β) : List.Forall₂ (fun entry result => R entry.2 result) dict results ↔
      ∃ row : Dict β, List.Forall₂ (fun entry entry' => entry'.1 = entry.1 ∧ R entry.2 entry'.2)
        dict row ∧ results = values row := by
  constructor
  · intro h
    induction h with
    | nil => exact ⟨[], .nil, rfl⟩
    | @cons entry result _ _ hresult _ ih =>
        obtain ⟨row, hrow, rfl⟩ := ih
        exact ⟨(entry.1, result) :: row, .cons ⟨rfl, hresult⟩ hrow, rfl⟩
  · rintro ⟨row, hrow, rfl⟩
    rw [values, List.forall₂_map_right_iff]
    exact hrow.imp fun _ _ hentry => hentry.2

namespace Catalog

variable {catalog : Catalog} {strict : Bool} {spec : Dict Value} {ids : List Int64}

/-- A list of clusters holds the values of the dictionary of them. -/
theorem fetch_clusterList_iff_clusterDict (strict : Bool) (spec : Dict Value) {answer : Value} :
    catalog.fetch (.ofSpec strict .clusterList spec) ids = .ok answer ↔
      ∃ row, catalog.fetch (.ofSpec strict .clusterDict spec) ids = .ok (.dict row) ∧
        answer = .list (Dict.values row) := by
  by_cases h : ∃ property data, FetchSpec.ClustersBy strict spec property data
  · obtain ⟨property, data, h⟩ := h
    have hvalues := Dict.forall₂_values_iff
      (fun members result => catalog.fetch (.ofValue strict data) members = .ok result)
      (catalog.clusters property ids)
    rw [Plan.ofSpec_clusterList h, Plan.ofSpec_clusterDict h, fetch_clusterList_iff]
    constructor
    · rintro ⟨results, rfl, hresults⟩
      obtain ⟨row, hrow, rfl⟩ := (hvalues results).mp hresults
      exact ⟨row, fetch_clusterDict_iff.mpr ⟨row, rfl, hrow⟩, rfl⟩
    · rintro ⟨row, hrow, rfl⟩
      obtain ⟨row', hsame, hentries⟩ := fetch_clusterDict_iff.mp hrow
      obtain rfl := Value.dict.inj hsame
      exact ⟨_, rfl, (hvalues _).mpr ⟨row, hentries, rfl⟩⟩
  · simp only [not_exists] at h
    obtain ⟨cause, hlist⟩ := Plan.ofSpec_fails .clusterList rfl h
    obtain ⟨cause', hdict⟩ := Plan.ofSpec_fails .clusterDict rfl h
    rw [hlist, hdict, fetch, fetch]
    exact ⟨fun h => (nomatch h), fun ⟨_, h, _⟩ => nomatch h⟩

theorem exists_dict_of_fetch_clusterDict {answer : Value}
    (h : catalog.fetch (.ofSpec strict .clusterDict spec) ids = .ok answer) :
    ∃ row, answer = .dict row := by
  by_cases hby : ∃ property data, FetchSpec.ClustersBy strict spec property data
  · obtain ⟨property, data, hby⟩ := hby
    rw [Plan.ofSpec_clusterDict hby, fetch_clusterDict_iff] at h
    obtain ⟨row, rfl, -⟩ := h
    exact ⟨row, rfl⟩
  · simp only [not_exists] at hby
    obtain ⟨cause, hdict⟩ := Plan.ofSpec_fails .clusterDict rfl hby
    rw [hdict, fetch] at h
    exact nomatch h

/-- A spec of clusters asks for no random value if its data asks for none. -/
theorem not_asks_ofSpec {type : FetchType} (htype : type.isCluster)
    (h : ∀ data, Dict.find? spec FetchSpec.Key.data = some data →
      ¬ (Plan.ofValue strict data).Asks .random) :
    ¬ (Plan.ofSpec strict type spec).Asks .random := by
  by_cases hby : ∃ property data, FetchSpec.ClustersBy strict spec property data
  · obtain ⟨property, data, hby⟩ := hby
    cases type with
    | clusterList =>
        rw [Plan.ofSpec_clusterList hby]
        rintro (_ | ⟨hasks⟩)
        exact h data hby.data hasks
    | clusterDict =>
        rw [Plan.ofSpec_clusterDict hby]
        rintro (_ | _ | ⟨hasks⟩)
        exact h data hby.data hasks
    | metadata | count | organize => exact nomatch htype
  · simp only [not_exists] at hby
    obtain ⟨cause, hfails⟩ := Plan.ofSpec_fails type htype hby
    rw [hfails]
    exact fun hasks => nomatch hasks

/-- Over a property of the entries, the position and the id apart, clusters share out the ids that
have the property, by the text of its value: one cluster for each text in the order of first
appearance, with the ids of that text in their order. A list and a dictionary of clusters hold what
the data of the spec comes to for each of them, and a dictionary of counts accounts for all these
ids. Whatever a spec clusters by, it is answered with a list exactly if it is answered with a
dictionary, and then with the values of that; where its data asks for no random value this is so
with any source of choice. -/
theorem clusters_share_out (catalog : Catalog) (strict : Bool) (spec : Dict Value)
    (ids : List Int64) :
    (∀ property data, FetchSpec.ClustersBy strict spec property data →
      property ≠ FetchSpec.byPosition → property ≠ FetchSpec.byId →
      ∃ clusters : Groups String Int64,
        Groups.Partitions (fun id => (catalog.library.property? id property).map Value.text) ids
          clusters ∧
        (∀ answer, catalog.fetch (.ofSpec strict .clusterList spec) ids = .ok answer ↔
          ∃ results, answer = .list results ∧ List.Forall₂ (fun cluster result =>
            catalog.fetch (.ofValue strict data) cluster.2 = .ok result) clusters results) ∧
        (∀ answer, catalog.fetch (.ofSpec strict .clusterDict spec) ids = .ok answer ↔
          ∃ row, answer = .dict row ∧ List.Forall₂ (fun cluster entry => entry.1 = cluster.1 ∧
            catalog.fetch (.ofValue strict data) cluster.2 = .ok entry.2) clusters row) ∧
        (Plan.ofValue strict data = .count → ∃ counts : Dict Nat,
          catalog.fetch (.ofSpec strict .clusterDict spec) ids = .ok (.dict (counts.map fun entry =>
            (entry.1, .int (Int64.ofNat entry.2)))) ∧
          (Dict.values counts).sum =
            ids.countP fun id => (catalog.library.property? id property).isSome)) ∧
    (∀ answer, catalog.fetch (.ofSpec strict .clusterList spec) ids = .ok answer ↔
      ∃ row, catalog.fetch (.ofSpec strict .clusterDict spec) ids = .ok (.dict row) ∧
        answer = .list (Dict.values row)) ∧
    (∀ answer, catalog.fetch (.ofSpec strict .clusterDict spec) ids = .ok answer →
      ∃ row, answer = .dict row) ∧
    ((∀ data, Dict.find? spec FetchSpec.Key.data = some data →
        ¬ (Plan.ofValue strict data).Asks .random) →
      ∀ type : FetchType, type.isCluster → ∀ {σ : Type} (chooser : Chooser σ) (source : σ),
        catalog.gather chooser (.ofSpec strict type spec) ids source =
          (catalog.fetch (.ofSpec strict type spec) ids).map (·, source)) := by
  refine ⟨fun property data hby hposition hid => ?_,
    fun _ => fetch_clusterList_iff_clusterDict strict spec,
    fun _ => exists_dict_of_fetch_clusterDict, fun hdata type htype σ chooser source =>
      gather_of_not_asks (not_asks_ofSpec htype hdata) chooser catalog ids source⟩
  have hpartitions := partitions_clusters catalog ids hposition hid
  rw [Plan.ofSpec_clusterList hby, Plan.ofSpec_clusterDict hby]
  refine ⟨catalog.clusters property ids, hpartitions, fun _ => fetch_clusterList_iff,
    fun _ => fetch_clusterDict_iff, fun hcount => ?_⟩
  refine ⟨(catalog.clusters property ids).map fun cluster => (cluster.1, cluster.2.length), ?_, ?_⟩
  · rw [hcount, fetch_clusterDict_count, List.map_map]
    rfl
  · have htogether := hpartitions.together.length_eq
    rw [List.length_flatMap, ← List.countP_eq_length_filter] at htogether
    simpa [Dict.values, Function.comp_def] using htogether

/-- A year written in two ways, an entry without one, and another year. -/
def releases : Catalog where
  library := ((((Library.empty.add [("year", .int 1998)]).2.add [("year", .string "1998")]).2.add
    []).2.add [("year", .int 2001)]).2
  store := .empty
  seed := 0

/-- How many entries there are of each year. -/
def countsByYear : Dict Value :=
  [(FetchSpec.Key.clusterBy, .string "year"), (FetchSpec.Key.data, FetchSpec.count.toValue)]

theorem clustersBy_countsByYear :
    FetchSpec.ClustersBy true countsByYear "year" FetchSpec.count.toValue :=
  ⟨rfl, rfl, fun _ => rfl⟩

theorem clusters_share_out_releases :
    FetchSpec.ClustersBy true countsByYear "year" FetchSpec.count.toValue ∧
      "year" ≠ FetchSpec.byPosition ∧ "year" ≠ FetchSpec.byId ∧
      Plan.ofValue true FetchSpec.count.toValue = .count ∧
      (∃ clusters, Groups.Partitions
        (fun id => (releases.library.property? id "year").map Value.text) [2, 3, 4, 1, 2]
        clusters) ∧
      (∃ counts : Dict Nat,
        releases.fetch (.ofSpec true .clusterDict countsByYear) [2, 3, 4, 1, 2] =
          .ok (.dict (counts.map fun entry => (entry.1, .int (Int64.ofNat entry.2)))) ∧
        (Dict.values counts).sum = 4) ∧
      (∃ row, releases.fetch (.ofSpec true .clusterDict countsByYear) [2, 3, 4, 1, 2] =
        .ok (.dict row) ∧ Value.list [.int 3, .int 1] = .list (Dict.values row)) ∧
      (¬ (Plan.ofValue true FetchSpec.count.toValue).Asks .random) ∧
      releases.gather .seeded (.ofSpec true .clusterList countsByYear) [2, 3, 4, 1, 2] 9 =
        .ok (.list [.int 3, .int 1], 9) := by
  obtain ⟨hclusters, hlist, -, hsource⟩ :=
    clusters_share_out releases true countsByYear [2, 3, 4, 1, 2]
  obtain ⟨clusters, hpartitions, -, -, hcount⟩ := hclusters "year" FetchSpec.count.toValue
    clustersBy_countsByYear (by decide) (by decide)
  have hread : Plan.ofValue true FetchSpec.count.toValue = .count := rfl
  have hanswer : releases.fetch (.ofSpec true .clusterList countsByYear) [2, 3, 4, 1, 2] =
      .ok (.list [.int 3, .int 1]) := rfl
  have hasks : ¬ (Plan.ofValue true FetchSpec.count.toValue).Asks .random := by
    rw [hread]
    exact fun hasks => nomatch hasks
  refine ⟨clustersBy_countsByYear, by decide, by decide, hread, ⟨clusters, hpartitions⟩, ?_,
    (hlist _).mp hanswer, hasks, ?_⟩
  · obtain ⟨counts, hfetch, hsum⟩ := hcount hread
    exact ⟨counts, hfetch, hsum.trans (by decide)⟩
  · rw [hsource (fun data hdata => Option.some.inj hdata ▸ hasks) .clusterList rfl, hanswer]
    rfl

end Catalog

end MediaCatalog
