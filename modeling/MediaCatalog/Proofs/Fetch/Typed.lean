import MediaCatalog.Proofs.Fetch.Choosing
import MediaCatalog.Proofs.Value.Entries

/-!
Typed specs. What a typed spec writes down is read back as it is meant, so a spec that names
properties wherever it asks for some is always answered, and in the shape that it declares: the
number of ids, an aggregate or a row of them, a list or a dictionary with an answer for each
cluster, or a dictionary with an answer under each name.
-/

namespace MediaCatalog

/-! ### Specs as they are read -/

theorem Plan.ofEntries_eq_map (strict : Bool) (entries : List (String × Value)) :
    ofEntries strict entries = entries.map fun entry => (entry.1, ofValue strict entry.2) := by
  induction entries with
  | nil => rfl
  | cons entry rest ih =>
      rw [ofEntries, ih]
      rfl

namespace FetchSpec

/-- The plan that a typed spec is read as, strictly. -/
def plan (spec : FetchSpec) : Plan := Plan.ofValue true spec.toValue

theorem toDicts_eq_map (entries : List (String × FetchSpec)) :
    toDicts entries = entries.map fun entry => (entry.1, entry.2.toValue) := by
  induction entries with
  | nil => rfl
  | cons entry rest ih =>
      rw [toDicts, ih]
      rfl

theorem plan_count : plan .count = .count := rfl

theorem plan_metadata {get : List String} (hget : get ≠ []) (aggregate : Aggregate) :
    plan (.metadata get aggregate) = .metadata get aggregate := by
  obtain ⟨property, rest, rfl⟩ := List.exists_cons_of_ne_nil hget
  have hshape : plan (.metadata (property :: rest) aggregate) =
      .ofExcept (Plan.readMetadata (toDict (.metadata (property :: rest) aggregate))) := rfl
  have hname : Plan.reported (Plan.aggregateOfName aggregate.name) = .ok aggregate := by
    rw [Plan.aggregateOfName, Aggregate.ofName?_name]
    rfl
  rw [hshape, toDict, Plan.readMetadata]
  simp [Dict.find?, Key.type, Key.aggregate, Key.get, Value.strings?_ofStrings, hname,
    Value.string?, Plan.ofExcept]

theorem plan_clusterList (property : String) (data : FetchSpec) :
    plan (.clusterList property data) = .clusterList property data.plan := rfl

theorem plan_clusterDict (property : String) (data : FetchSpec) :
    plan (.clusterDict property data) = .clusterDict property data.plan := rfl

/-- Of the entries under one name only the last is read. -/
theorem plan_organize (entries : List (String × FetchSpec)) :
    plan (.organize entries) =
      .organize ((Dict.ofEntries entries).map fun entry => (entry.1, entry.2.plan)) := by
  have hread : plan (.organize entries) =
      .organize (Plan.ofEntries true (Dict.ofEntries (toDicts entries))) := rfl
  rw [hread, toDicts_eq_map, Dict.ofEntries_map, Plan.ofEntries_eq_map, List.map_map]
  rfl

/-- Wherever the spec asks for properties it names some. -/
inductive Filled : FetchSpec → Prop where
  | count : Filled .count
  | metadata {get : List String} {aggregate : Aggregate} (hget : get ≠ []) :
      Filled (.metadata get aggregate)
  | clusterList {property : String} {data : FetchSpec} (h : Filled data) :
      Filled (.clusterList property data)
  | clusterDict {property : String} {data : FetchSpec} (h : Filled data) :
      Filled (.clusterDict property data)
  | organize {entries : List (String × FetchSpec)}
      (h : ∀ name spec, (name, spec) ∈ entries → Filled spec) : Filled (.organize entries)

end FetchSpec

/-! ### The declared shape -/

namespace Catalog

variable {σ : Type} {chooser : Chooser σ} {catalog : Catalog} {ids : List Int64}

/-- What an aggregate of a property over ids may be: a random one is any of the values. -/
def AggregateOf (catalog : Catalog) (ids : List Int64) (property : String)
    (aggregate : Aggregate) (value : Value) : Prop :=
  let values := ids.filterMap (catalog.library.property? · property)
  if aggregate = .random ∧ values ≠ [] then value ∈ values
  else value = catalog.aggregate ids property aggregate

/-- A row holds an aggregate of each of the properties, none values apart. The keys stand in the
order of the properties. -/
def RecordOf (catalog : Catalog) (ids : List Int64) (properties : List String)
    (aggregate : Aggregate) (row : Dict Value) : Prop :=
  ∃ found : List (String × Value),
    List.Forall₂ (fun property entry => entry.1 = property ∧
      catalog.AggregateOf ids property aggregate entry.2) properties found ∧
    Dict.keys row = ((found.filter fun entry => !entry.2.isNone).map Prod.fst).eraseDups ∧
    ∀ entry ∈ row, entry ∈ found ∧ entry.2.isNone = false

/-- What a spec gives alone, for some run of the source, and for every one if it asks for no random
value. -/
structure Gives (chooser : Chooser σ) (catalog : Catalog) (spec : FetchSpec) (ids : List Int64)
    (answer : Value) : Prop where
  once : ∃ source rest, catalog.gather chooser spec.plan ids source = .ok (answer, rest)
  always : ¬ spec.plan.Asks .random →
    ∀ source, catalog.gather chooser spec.plan ids source = .ok (answer, source)

/-- The answer has the shape that the spec declares. -/
def Shaped (chooser : Chooser σ) (catalog : Catalog) (spec : FetchSpec) (ids : List Int64)
    (answer : Value) : Prop :=
  match spec with
  | .count => answer = .int (Int64.ofNat ids.length)
  | .metadata [property] aggregate => catalog.AggregateOf ids property aggregate answer
  | .metadata properties aggregate =>
    ∃ row, answer = .dict row ∧ catalog.RecordOf ids properties aggregate row
  | .clusterList property data =>
    ∃ results, answer = .list results ∧
      List.Forall₂ (fun cluster result => catalog.Gives chooser data cluster.2 result)
        (catalog.clusters property ids) results
  | .clusterDict property data =>
    ∃ results, answer = .dict results ∧
      List.Forall₂ (fun cluster result => result.1 = cluster.1 ∧
        catalog.Gives chooser data cluster.2 result.2) (catalog.clusters property ids) results
  | .organize entries =>
    ∃ results, answer = .dict results ∧
      List.Forall₂ (fun entry result => result.1 = entry.1 ∧
        catalog.Gives chooser entry.2 ids result.2) (Dict.ofEntries entries) results

theorem gives_of_gather {spec : FetchSpec} {answer : Value} {source rest : σ}
    (h : catalog.gather chooser spec.plan ids source = .ok (answer, rest)) :
    catalog.Gives chooser spec ids answer where
  once := ⟨source, rest, h⟩
  always hasks source' := by
    have hfetch := (gather_of_not_asks hasks chooser catalog ids source).plain_eq h
    have hsame := gather_of_not_asks hasks chooser catalog ids source'
    rw [hfetch] at hsame
    exact hsame

/-! ### Answers -/

/-- Whatever is answered in the right shape is what the spec gives alone. -/
theorem exists_gives {spec : FetchSpec} {source : σ}
    (h : ∃ answer rest, catalog.gather chooser spec.plan ids source = .ok (answer, rest) ∧
      catalog.Shaped chooser spec ids answer) :
    ∃ answer rest, catalog.gather chooser spec.plan ids source = .ok (answer, rest) ∧
      catalog.Gives chooser spec ids answer := by
  obtain ⟨answer, rest, hanswer, -⟩ := h
  exact ⟨answer, rest, hanswer, gives_of_gather hanswer⟩

theorem aggregateOf_gatherOne (chooser : Chooser σ) (catalog : Catalog) (ids : List Int64)
    (property : String) (aggregate : Aggregate) (source : σ) :
    catalog.AggregateOf ids property aggregate
      (catalog.gatherOne chooser ids property aggregate source).1 := by
  unfold AggregateOf gatherOne
  dsimp only
  split
  · next h =>
    rw [if_pos (by simpa using h)]
    exact chooser.mem h.2 source
  · next h =>
    rw [if_neg (by simpa using h)]
    rfl

theorem recordOf_gatherRecord (chooser : Chooser σ) (catalog : Catalog) (ids : List Int64)
    (properties : List String) (aggregate : Aggregate) (source : σ) :
    catalog.RecordOf ids properties aggregate
      (catalog.gatherRecord chooser ids properties aggregate source).1 := by
  have hstep (row : Dict Value) : ∃ found : List (String × Value),
      List.Forall₂ (fun property entry => entry.1 = property ∧
        catalog.AggregateOf ids property aggregate entry.2) properties found ∧
      (properties.foldlM (fun (row : Dict Value) property => do
          let value ← catalog.gatherOne chooser ids property aggregate
          return if value.isNone then row else Dict.insert row property value) row source).1 =
        (found.filter fun entry => !entry.2.isNone).foldl
          (fun row entry => Dict.insert row entry.1 entry.2) row := by
    induction properties generalizing row source with
    | nil => exact ⟨[], .nil, rfl⟩
    | cons property rest ih =>
        have hvalue := aggregateOf_gatherOne chooser catalog ids property aggregate source
        rcases hdraw : catalog.gatherOne chooser ids property aggregate source with
          ⟨value, source'⟩
        rw [hdraw] at hvalue
        obtain ⟨found, hfound, hrow⟩ := ih source'
          (if value.isNone then row else Dict.insert row property value)
        refine ⟨(property, value) :: found, .cons ⟨rfl, hvalue⟩ hfound, ?_⟩
        rw [List.foldlM_cons]
        simp only [bind, StateT.bind, hdraw]
        refine hrow.trans ?_
        cases hnone : value.isNone <;> simp [hnone]
  obtain ⟨found, hfound, hrow⟩ := hstep []
  refine ⟨found, hfound, ?_⟩
  have hentries : (catalog.gatherRecord chooser ids properties aggregate source).1 =
      Dict.ofEntries (found.filter fun entry => !entry.2.isNone) := hrow
  rw [hentries]
  refine ⟨Dict.keys_ofEntries _, fun entry hentry => ?_⟩
  simpa using List.mem_filter.mp (Dict.mem_of_mem_ofEntries hentry)

theorem bind_of_ok {α β : Type} {action : StateT σ (Except Error) α}
    {next : α → StateT σ (Except Error) β} {source rest : σ} {value : α}
    (h : action source = .ok (value, rest)) : (action >>= next) source = next value rest := by
  simp only [bind, StateT.bind, h]
  rfl

/-- If every step succeeds from whatever source, all of them do, one after the other. -/
theorem exists_forall₂_of_mapM {α β : Type} (step : α → StateT σ (Except Error) β)
    (R : α → β → Prop) {items : List α}
    (h : ∀ item ∈ items, ∀ source, ∃ result rest,
      step item source = .ok (result, rest) ∧ R item result) (source : σ) :
    ∃ results rest, items.mapM step source = .ok (results, rest) ∧
      List.Forall₂ R items results := by
  induction items generalizing source with
  | nil => exact ⟨[], source, rfl, .nil⟩
  | cons item rest ih =>
      rw [List.forall_mem_cons] at h
      obtain ⟨result, source', hstep, hresult⟩ := h.1 source
      obtain ⟨results, source'', hrest, hresults⟩ := ih h.2 source'
      refine ⟨result :: results, source'', ?_, .cons hresult hresults⟩
      rw [List.mapM_cons, bind_of_ok hstep, bind_of_ok hrest]
      rfl

theorem gatherEntries_eq_mapM (entries : List (String × Plan)) :
    catalog.gatherEntries chooser entries ids = entries.mapM fun entry => do
      return (entry.1, ← catalog.gather chooser entry.2 ids) := by
  induction entries with
  | nil => rfl
  | cons entry rest ih =>
      rw [gatherEntries, List.mapM_cons, ih]
      simp only [bind_assoc, pure_bind]

/-- Answers under names of which none comes twice are the dictionary that they are set to. -/
theorem exists_named_of_mapM {α : Type} (step : α → StateT σ (Except Error) Value)
    (R : α → Value → Prop) {items : Dict α} (hdistinct : Dict.Distinct items)
    (h : ∀ item ∈ items, ∀ source, ∃ answer rest,
      step item.2 source = .ok (answer, rest) ∧ R item.2 answer) (source : σ) :
    ∃ (results : Dict Value) (rest : σ),
      (items.mapM fun item : String × α => do return (item.1, ← step item.2)) source =
        .ok (results, rest) ∧
      Dict.ofEntries results = results ∧
      List.Forall₂ (fun (item : String × α) (result : String × Value) =>
        result.1 = item.1 ∧ R item.2 result.2) items results := by
  obtain ⟨results, rest, hresults, hgiven⟩ := exists_forall₂_of_mapM
    (fun item : String × α => do return (item.1, ← step item.2))
    (fun item result => result.1 = item.1 ∧ R item.2 result.2)
    (fun item hitem source =>
      have ⟨answer, rest, hanswer, hgiven⟩ := h item hitem source
      ⟨(item.1, answer), rest, bind_of_ok hanswer, rfl, hgiven⟩) source
  exact ⟨results, rest, hresults,
    Dict.ofEntries_of_distinct (by rwa [Dict.Distinct, Dict.keys_of_forall₂ hgiven]), hgiven⟩

theorem distinct_clusters (property : String) :
    Dict.Distinct (catalog.clusters property ids) := by
  rw [Dict.Distinct, Dict.keys, clusters, Groups.ofList_eq, List.map_map]
  exact (List.map_id _).symm ▸ nodup_eraseDups _

/-- A spec that names properties wherever it asks for some is answered in the shape that it
declares. -/
theorem gather_shaped {spec : FetchSpec} (h : spec.Filled) (catalog : Catalog)
    (ids : List Int64) (source : σ) :
    ∃ answer rest, catalog.gather chooser spec.plan ids source = .ok (answer, rest) ∧
      catalog.Shaped chooser spec ids answer := by
  induction h generalizing ids source with
  | count =>
      rw [FetchSpec.plan_count, gather]
      exact ⟨_, source, rfl, rfl⟩
  | @metadata get aggregate hget =>
      rw [FetchSpec.plan_metadata hget]
      match get, hget with
      | [property], _ =>
          rw [gather]
          exact ⟨_, _, rfl, aggregateOf_gatherOne chooser catalog ids property aggregate source⟩
      | property :: other :: rest, _ =>
          rw [gather]
          · exact ⟨_, _, rfl, _, rfl, recordOf_gatherRecord chooser catalog ids
              (property :: other :: rest) aggregate source⟩
          · simp
  | @clusterList property data _ ih =>
      obtain ⟨results, rest, hresults, hgiven⟩ := exists_forall₂_of_mapM
        (fun cluster : String × List Int64 => catalog.gather chooser data.plan cluster.2)
        (fun cluster result => catalog.Gives chooser data cluster.2 result)
        (fun cluster (_ : cluster ∈ catalog.clusters property ids) source =>
          exists_gives (ih cluster.2 source)) source
      rw [FetchSpec.plan_clusterList, gather]
      exact ⟨.list results, rest, bind_of_ok hresults, results, rfl, hgiven⟩
  | @clusterDict property data _ ih =>
      obtain ⟨results, rest, hresults, hdict, hgiven⟩ := exists_named_of_mapM
        (catalog.gather chooser data.plan) (catalog.Gives chooser data)
        (distinct_clusters property) (fun cluster _ source => exists_gives (ih cluster.2 source))
        source
      rw [FetchSpec.plan_clusterDict, gather]
      refine ⟨.dict results, rest, (bind_of_ok hresults).trans ?_, results, rfl, hgiven⟩
      rw [hdict]
      rfl
  | @organize entries _ ih =>
      obtain ⟨results, rest, hresults, hdict, hgiven⟩ := exists_named_of_mapM
        (fun spec : FetchSpec => catalog.gather chooser spec.plan ids)
        (catalog.Gives chooser · ids) (Dict.distinct_ofEntries entries)
        (fun entry hentry source => exists_gives
          (ih entry.1 entry.2 (Dict.mem_of_mem_ofEntries hentry) ids source))
        source
      rw [FetchSpec.plan_organize, gather, gatherEntries_eq_mapM, List.mapM_map]
      refine ⟨.dict results, rest, (bind_of_ok hresults).trans ?_, results, rfl, hgiven⟩
      rw [hdict]
      rfl

/-- A typed spec that names properties wherever it asks for some is accepted, over whatever ids, and
answered in the shape that it declares. Random values may come from any source of choice, of which
the one that fetching uses is a case. What the parts of the spec give has their shape in turn. -/
theorem fetch_shaped {spec : FetchSpec} (h : spec.Filled) (catalog : Catalog) (ids : List Int64) :
    (∃ answer, catalog.fetch spec.plan ids = .ok answer ∧
      catalog.Shaped .seeded spec ids answer) ∧
    catalog.gather .seeded spec.plan ids catalog.seed =
      (catalog.fetch spec.plan ids).map (·, catalog.seed) ∧
    ∀ {σ : Type} (chooser : Chooser σ),
      (∀ source, ∃ answer rest,
        catalog.gather chooser spec.plan ids source = .ok (answer, rest)) ∧
      ∀ answer, catalog.Gives chooser spec ids answer →
        catalog.Shaped chooser spec ids answer := by
  refine ⟨?_, gather_seeded catalog spec.plan ids, fun chooser => ⟨fun source => ?_, ?_⟩⟩
  · obtain ⟨answer, rest, hanswer, hshaped⟩ := gather_shaped h catalog ids catalog.seed
    exact ⟨answer, (gather_seeded catalog spec.plan ids).plain_eq hanswer, hshaped⟩
  · obtain ⟨answer, rest, hanswer, -⟩ := gather_shaped h catalog ids source
    exact ⟨answer, rest, hanswer⟩
  · rintro answer ⟨⟨source, rest, hgiven⟩, -⟩
    obtain ⟨answer', rest', hanswer, hshaped⟩ := gather_shaped h catalog ids source
    obtain ⟨rfl, -⟩ := Prod.mk.inj (Except.ok.inj (hgiven.symm.trans hanswer))
    exact hshaped

end Catalog

/-- How many entries there are, something of each artist, and the ids. -/
def FetchSpec.overview : FetchSpec :=
  .organize [("count", .count),
    ("artists", .clusterDict "artist" (.metadata ["title", "year"] .random)), ("ids", .ids)]

theorem FetchSpec.filled_overview : overview.Filled := by
  refine .organize fun name spec hentry => ?_
  simp only [List.mem_cons, Prod.mk.injEq, List.not_mem_nil, or_false] at hentry
  rcases hentry with ⟨-, rfl⟩ | ⟨-, rfl⟩ | ⟨-, rfl⟩
  · exact .count
  · exact .clusterDict (.metadata (List.cons_ne_nil _ _))
  · exact .clusterList (.metadata (List.cons_ne_nil _ _))

namespace Catalog

/-- Two entries of one artist. -/
def discography : Catalog where
  library := ((Library.empty.add [("artist", .string "Air"), ("title", .string "a")]).2.add
    [("artist", .string "Air"), ("title", .string "b"), ("year", .int 1998)]).2
  store := .empty
  seed := 4

theorem fetch_shaped_overview :
    FetchSpec.overview.Filled ∧
      (∃ answer, discography.fetch FetchSpec.overview.plan [2, 1, 2] = .ok answer ∧
        discography.Shaped .seeded FetchSpec.overview [2, 1, 2] answer) ∧
      ∃ answer rest, discography.gather .seeded FetchSpec.overview.plan [2, 1, 2] 9 =
        .ok (answer, rest) :=
  have hshaped := fetch_shaped FetchSpec.filled_overview discography [2, 1, 2]
  ⟨FetchSpec.filled_overview, hshaped.1, (hshaped.2.2 .seeded).1 9⟩

end Catalog

end MediaCatalog
