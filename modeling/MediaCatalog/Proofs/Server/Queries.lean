import MediaCatalog.Client.Request
import MediaCatalog.Proofs.Fetch.Rows
import MediaCatalog.Proofs.Value.Entries
import MediaCatalog.Server.Call

/-!
Requests for ids and for rows. Both read the same ordered collection, but the ids are cut to a
page before they are fetched, one for each match, while the rows are cut after they were made,
one for each entry.
-/

namespace MediaCatalog

namespace Service

/-- What a request of a client comes to when the service is called with it directly. -/
def ask (service : Service) (request : Request) : Build (Except Error Value) :=
  match request.check with
  | .error cause => return .error cause
  | .ok () => do
    let command ← request.command
    return (← service.call command.object command.number command.args).outcome

/-- The service handles a command of the collection object the way it was made to. -/
def Offers (service : Service) (command : CollectionCommand) : Prop :=
  service.collection.commands[command.number]? = some (.collection command)

theorem builtinCommands_number (command : CollectionCommand) :
    builtinCommands[command.number]? = some (.collection command) := by
  cases command <;> decide

theorem create_offers (settings : ServiceSettings) (files : Playlist.FileTree)
    (command : CollectionCommand) : (create settings files).Offers command :=
  builtinCommands_number command

variable {service : Service}

/-- A command that is called by its number is carried out. -/
theorem call_outcome {command : CollectionCommand} (h : service.Offers command) (args : List Value)
    (next : NodeId) : (service.call .collection command.number args next).1.outcome =
      (service.handle command { args } next).1.map Done.value := by
  rw [Offers] at h
  simp only [call, object?, h, run, bind, StateT.bind]
  generalize service.handle command { args } next = result
  obtain ⟨outcome, after⟩ := result
  cases outcome <;> rfl

theorem call_query (h : service.Offers .query) (args : List Value) (next : NodeId) :
    (service.call .collection CollectionCommand.query.number args next).1.outcome =
      (service.query { args }).map Done.value :=
  call_outcome h args next

theorem call_queryInfos (h : service.Offers .queryInfos) (args : List Value) (next : NodeId) :
    (service.call .collection CollectionCommand.queryInfos.number args next).1.outcome =
      (service.queryInfos { args }).map Done.value :=
  call_outcome h args next

theorem countArg_eq {call : Arguments} {index : Nat} {name : String} (count : UInt32)
    (h : call.args[index]? = some (Request.countArg count)) :
    countArg call index name = .ok count.toNat := by
  simp only [countArg, Arguments.int, Arguments.argAs, Arguments.arg, h, Request.countArg]
  simp only [bind, Except.bind, Value.int?, nonneg_count, if_true, toInt_count]
  rfl

theorem strings_eq {call : Arguments} {index : Nat} {name : String} (texts : List String)
    (h : call.args[index]? = some (Value.ofStrings texts)) :
    call.strings index name = .ok texts := by
  simp only [Arguments.strings, Arguments.argAs, Arguments.arg, h, bind, Except.bind,
    Value.strings?_ofStrings]

/-- The spec of ids gives the matches of a collection themselves. -/
theorem query_ids_eq (service : Service) (node : Collection) :
    service.query { args := [.collection node, FetchSpec.ids.toValue] } =
      (service.catalog.evaluate node).map fun ids =>
        { value := .list (ids.map .int), service := service.evaluated } := by
  have hthere := service.catalog.select_subset_library [] node
  simp only [query, Arguments.collection, Arguments.argAs, Arguments.arg, Catalog.evaluate,
    List.getElem?_cons_zero, List.getElem?_cons_succ, Value.collection?, bind, Except.bind]
  cases hids : service.catalog.select [] node with
  | error cause => rfl
  | ok ids =>
      simp only [Except.map, Plan.ofValue_ids, Catalog.fetch_ids _ (hthere ids hids)]
      rfl

/-- The ids of a page are the page of the matches. -/
theorem ask_queryIds (h : service.Offers .query) (collection : Collection) (order : List String)
    (start length : UInt32) (next : NodeId) :
    (service.ask (.queryIds collection order start length) next).1 =
      (service.catalog.evaluate collection).map fun ids => .list
        ((Window.cut ⟨start.toNat, length.toNat⟩ (service.catalog.sorted order ids)).map .int) := by
  have hask : (service.ask (.queryIds collection order start length) next).1 =
      (service.query { args := [.collection (collection.page order start length next).1,
        FetchSpec.ids.toValue] }).map Done.value :=
    call_query h _ _
  have hpage : service.catalog.select [] (collection.page order start length next).1 =
      (service.catalog.select [] collection).map fun ids =>
        Window.cut ⟨start.toNat, length.toNat⟩ (service.catalog.sorted order ids) :=
    service.catalog.select_page collection order start length next
  rw [hask, query_ids_eq, Catalog.evaluate, hpage, Catalog.evaluate]
  cases service.catalog.select [] collection <;> rfl

theorem queryInfos_eq (node : Collection) (start length : UInt32) {properties : List String}
    (hproperties : properties ≠ []) :
    service.queryInfos { args := [.collection node, Request.countArg start,
        Request.countArg length, .ofStrings properties, .ofStrings []] } =
      (service.catalog.evaluate node).map fun ids =>
        { value := .list (service.catalog.infos ids properties [] ⟨start.toNat, length.toNat⟩)
          service := service.evaluated } := by
  have hempty : properties.isEmpty = false := by simpa using hproperties
  have hgroup (call : Arguments) (h : call.args[4]? = some (.ofStrings [])) :
      groupArg call 4 = .ok [] := by
    rw [groupArg, h]
    exact strings_eq [] h
  rw [queryInfos, countArg_eq start rfl, countArg_eq length rfl, strings_eq properties rfl,
    hgroup _ rfl]
  simp only [Arguments.collection, Arguments.argAs, Arguments.arg, List.getElem?_cons_zero,
    Value.collection?, bind, Except.bind, hempty]
  cases service.catalog.evaluate node <;> rfl

/-- The rows of a page are cut out of the rows of all matches. -/
theorem ask_queryInfos (h : service.Offers .queryInfos) (collection : Collection)
    (order : List String) (start length : UInt32) {properties : List String}
    (hproperties : properties ≠ []) (next : NodeId) :
    (service.ask (.queryInfos collection order start length properties []) next).1 =
      (service.catalog.evaluate collection).map fun ids => .list
        ((Window.cut ⟨start.toNat, length.toNat⟩ (service.catalog.sorted order ids).eraseDups).map
          fun id => .dict (service.catalog.record [id] properties .first)) := by
  have hask : (service.ask (.queryInfos collection order start length properties []) next).1 =
      (service.queryInfos { args := [.collection (collection.ordered order next).1,
        Request.countArg start, Request.countArg length, .ofStrings properties,
        .ofStrings []] }).map Done.value := by
    have hcheck : (Request.queryInfos collection order start length properties []).check =
        .ok () := by
      simp [Request.check, hproperties]
    rw [ask, hcheck]
    exact call_queryInfos h _ _
  rw [hask, queryInfos_eq _ start length hproperties, Catalog.evaluate, Catalog.evaluate,
    Catalog.select_ordered]
  cases service.catalog.select [] collection with
  | error cause => rfl
  | ok ids => simp [Except.map, Catalog.infos, Catalog.rows_ungrouped, Window.map_cut]

/-- One row for each id, in the order of the ids, and in it the listed properties of the entry. -/
def RowForEach (library : Library) (properties : List String) (ids rows : Except Error Value) :
    Prop :=
  ∃ matched dicts, ids = .ok (.list (matched.map .int)) ∧ rows = .ok (.list (dicts.map .dict)) ∧
    List.Forall₂ (library.RowOf properties) matched dicts

theorem int_injective : Function.Injective Value.int := fun _ _ h => Value.int.inj h

theorem dict_injective : Function.Injective Value.dict := fun _ _ h => Value.dict.inj h

/-- Rows that hold the id tell which entries they are the rows of. -/
theorem eq_of_rowOf_id {catalog : Catalog} {matched listed : List Int64}
    (hmatched : matched ⊆ catalog.library.ids) (hlisted : listed ⊆ catalog.library.ids)
    (h : List.Forall₂ (fun id other => catalog.library.RowOf [Library.idProperty] id
      (catalog.record [other] [Library.idProperty] .first)) matched listed) : listed = matched := by
  induction h with
  | nil => rfl
  | @cons id other matched listed hrow _ ih =>
      rw [List.cons_subset] at hmatched hlisted
      have hsame : id = other := hrow.id_unique (catalog.rowOf_record _ other)
        (Library.mem_ids.mp hmatched.1) (Library.mem_ids.mp hlisted.1)
      rw [hsame, ih hmatched.2 hlisted.2]

/-- Rows of some ids agree with other ids only if these are the same, for the id may be among the
properties. -/
theorem rowForEach_iff (catalog : Catalog) {matched listed : List Int64}
    (hmatched : matched ⊆ catalog.library.ids) (hlisted : listed ⊆ catalog.library.ids) :
    (∀ properties, properties ≠ [] →
      RowForEach catalog.library properties (.ok (.list (matched.map .int)))
        (.ok (.list (listed.map fun id => .dict (catalog.record [id] properties .first))))) ↔
      listed = matched := by
  constructor
  · intro hagree
    obtain ⟨ids, dicts, hids, hdicts, hrows⟩ := hagree [Library.idProperty] (by simp)
    have hids' : matched = ids :=
      List.map_injective_iff.mpr int_injective (Value.list.inj (Except.ok.inj hids))
    have hdicts' : listed.map (fun id => catalog.record [id] [Library.idProperty] .first) =
        dicts := by
      apply List.map_injective_iff.mpr dict_injective
      rw [List.map_map]
      exact Value.list.inj (Except.ok.inj hdicts)
    subst hids' hdicts'
    rw [List.forall₂_map_right_iff] at hrows
    exact eq_of_rowOf_id hmatched hlisted hrows
  · rintro rfl properties -
    refine ⟨listed, listed.map fun id => catalog.record [id] properties .first, rfl, ?_, ?_⟩
    · rw [List.map_map]
      rfl
    · rw [List.forall₂_map_right_iff, List.forall₂_same]
      exact fun id _ => catalog.rowOf_record properties id

/-- When the rows of a request agree with the ids of the same request, whatever properties are
fetched: exactly if the page starts behind the last match, or no entry is matched twice up to
the end of the page. An entry that is matched again has no row of its own. -/
theorem queryInfos_agrees_iff {service service' : Service} (hids : service.Offers .query)
    (hinfos : service'.Offers .queryInfos) (hlibrary : service.library = service'.library)
    (hstore : service.store = service'.store) {collection : Collection}
    (hrandom : RandomFree service.store collection) {order : List String}
    (horder : ∀ property ∈ order, SortKey.parse property ≠ .random) {matched : List Int64}
    (next next' : NodeId)
    (hmatched : (service.ask (.queryIds collection order 0 0) next).1 =
      .ok (.list (matched.map .int)))
    (start length : UInt32) :
    (∀ properties, properties ≠ [] →
      RowForEach service.library properties
        (service.ask (.queryIds collection order start length) next).1
        (service'.ask (.queryInfos collection order start length properties []) next').1) ↔
    matched.length ≤ start.toNat ∨
      (Window.front ⟨start.toNat, length.toNat⟩ matched).Nodup := by
  rw [ask_queryIds hids] at hmatched ⊢
  cases hselected : service.catalog.evaluate collection with
  | error cause =>
      rw [hselected] at hmatched
      cases hmatched
  | ok ids =>
      -- Nothing random takes part, so both requests go by the same matches.
      have hselected' : service'.catalog.evaluate collection = .ok ids := by
        rw [← hselected]
        exact (Catalog.select_of_randomFree hlibrary hstore [] collection hrandom).symm
      have hthere : service.catalog.sorted order ids ⊆ service.library.ids :=
        List.Subset.trans (Catalog.sorted_perm order ids).subset
          (service.catalog.select_subset_library [] collection ids hselected)
      have hsorted : service.catalog.sorted order ids = matched := by
        rw [hselected] at hmatched
        have hlist := Value.list.inj (Except.ok.inj hmatched)
        exact List.map_injective_iff.mpr int_injective hlist
      have hsorted' : service'.catalog.sorted order ids = matched :=
        (Catalog.sorted_of_library hlibrary horder ids).symm.trans hsorted
      have hrows (properties : List String) (hproperties : properties ≠ []) :=
        ask_queryInfos hinfos collection order start length hproperties next'
      simp only [hselected', hsorted', Except.map] at hrows
      simp only [Except.map, hsorted] at hthere ⊢
      have hagree := rowForEach_iff service.catalog
        (List.Subset.trans (Window.cut_subset ⟨start.toNat, length.toNat⟩ matched) hthere)
        (List.Subset.trans (Window.cut_subset ⟨start.toNat, length.toNat⟩ matched.eraseDups)
          fun id hid => hthere (List.mem_eraseDups.mp hid))
      refine Iff.trans (Iff.trans (forall₂_congr fun properties hproperties => ?_) hagree)
        (Window.cut_eraseDups_iff _ matched)
      have hrecord (id : Int64) : service'.catalog.record [id] properties .first =
          service.catalog.record [id] properties .first :=
        (Catalog.record_of_library hlibrary [id] properties).symm
      rw [hrows properties hproperties]
      simp only [hrecord]
      rfl

/-- A service with two entries. -/
def titled : Service :=
  { create {} { working := [] } with
    library := ((Library.empty.add [("title", .string "a")]).2.add [("title", .string "b")]).2 }

theorem titled_offers (command : CollectionCommand) : titled.Offers command :=
  builtinCommands_number command

/-- A list of ids that comes back to its first one. -/
def returning : Collection := .node 0 .idlist [] [] [2, 1, 2]

theorem evaluate_returning : titled.catalog.evaluate returning = .ok [2, 1, 2] := by
  have hthere : ([2, 1, 2] : List Int64).filter titled.library.contains = [2, 1, 2] := by decide
  rw [Catalog.evaluate, returning, Catalog.select]
  exact congrArg Except.ok hthere

theorem randomFree_returning : RandomFree titled.store returning :=
  .of_leaf (by decide) (by decide) rfl

theorem ask_returning :
    (titled.ask (.queryIds returning [] 0 0) 7).1 = .ok (.list ([2, 1, 2].map .int)) := by
  rw [ask_queryIds (titled_offers _), evaluate_returning]
  rfl

/-- Up to the second of its ids the list does not come back. -/
theorem queryInfos_agrees_returning :
    (Window.front ⟨(0 : UInt32).toNat, (2 : UInt32).toNat⟩ ([2, 1, 2] : List Int64)).Nodup ∧
      RowForEach titled.library ["title"] (titled.ask (.queryIds returning [] 0 2) 7).1
        (titled.ask (.queryInfos returning [] 0 2 ["title"] []) 8).1 := by
  have hnodup : (Window.front ⟨(0 : UInt32).toNat, (2 : UInt32).toNat⟩
      ([2, 1, 2] : List Int64)).Nodup := by decide
  exact ⟨hnodup, (queryInfos_agrees_iff (titled_offers _) (titled_offers _) rfl rfl
    randomFree_returning (by simp) 7 8 ask_returning 0 2).mpr (.inr hnodup) ["title"] (by simp)⟩

/-- Three ids are matched, and there are rows for two of them only. -/
theorem queryInfos_returning :
    RandomFree titled.store returning ∧
      (titled.ask (.queryIds returning [] 0 0) 7).1 = .ok (.list [.int 2, .int 1, .int 2]) ∧
      (titled.ask (.queryInfos returning [] 0 0 ["title"] []) 8).1 =
        .ok (.list [.dict [("title", .string "b")], .dict [("title", .string "a")]]) ∧
      ¬ RowForEach titled.library ["title"] (titled.ask (.queryIds returning [] 0 0) 7).1
        (titled.ask (.queryInfos returning [] 0 0 ["title"] []) 8).1 := by
  have hrows : (titled.ask (.queryInfos returning [] 0 0 ["title"] []) 8).1 =
      .ok (.list [.dict [("title", .string "b")], .dict [("title", .string "a")]]) := by
    rw [ask_queryInfos (titled_offers _) returning [] 0 0 (List.cons_ne_nil _ _),
      evaluate_returning]
    rfl
  refine ⟨randomFree_returning, ask_returning, hrows, ?_⟩
  rw [ask_returning, hrows]
  rintro ⟨matched, dicts, hids, hdicts, hagree⟩
  have hmatched := congrArg List.length (Value.list.inj (Except.ok.inj hids))
  have hlisted := congrArg List.length (Value.list.inj (Except.ok.inj hdicts))
  have hlength := hagree.length_eq
  simp only [List.length_map, List.length_cons, List.length_nil] at hmatched hlisted
  omega

end Service

end MediaCatalog
