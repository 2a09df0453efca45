import MediaCatalog.Fetch.Run
import MediaCatalog.Proofs.Wire.Nesting

/-!
What fetched values are made of. A fetch puts lists and dictionaries around values of the library
and around plain numbers, and it makes no nodes. So identities and keys are in order in what is
fetched as long as they are in the library.
-/

namespace MediaCatalog

/-! ### Values made of others -/

/-- Held values, plain ones, and lists and dictionaries of such values. -/
inductive Value.MadeOf (held : Value → Prop) : Value → Prop where
  | held {value : Value} (h : held value) : MadeOf held value
  | plain {value : Value} (hparts : value.parts = [value]) (hnodes : value.nodes = [])
      (hkeyed : value.Keyed) : MadeOf held value
  | list {items : List Value} (h : ∀ item ∈ items, MadeOf held item) : MadeOf held (.list items)
  | dict {entries : Dict Value} (hdistinct : Dict.Distinct entries)
      (h : ∀ entry ∈ entries, MadeOf held entry.2) : MadeOf held (.dict entries)

namespace Value.MadeOf

variable {held : Value → Prop} {value : Value}

@[simp] theorem none : MadeOf held .none := .plain rfl rfl trivial

@[simp] theorem int (number : Int64) : MadeOf held (.int number) := .plain rfl rfl trivial

@[simp] theorem float (number : Double) : MadeOf held (.float number) := .plain rfl rfl trivial

@[simp] theorem string (text : String) : MadeOf held (.string text) := .plain rfl rfl trivial

theorem ofStrings (texts : List String) : MadeOf held (.ofStrings texts) :=
  .list (by simp)

/-- Every node comes from a held value. -/
theorem exists_of_mem_nodes (h : MadeOf held value) {node : Collection}
    (hnode : node ∈ value.nodes) : ∃ source, held source ∧ node ∈ source.nodes := by
  induction h with
  | held h => exact ⟨_, h, hnode⟩
  | plain hparts hnodes hkeyed => simp [hnodes] at hnode
  | list h ih =>
      rw [Value.nodes, nodesOfItems_eq_flatMap] at hnode
      obtain ⟨item, hitem, hnode⟩ := List.mem_flatMap.mp hnode
      exact ih item hitem hnode
  | dict hdistinct h ih =>
      rw [Value.nodes, nodesOfEntries_eq_flatMap] at hnode
      obtain ⟨entry, hentry, hnode⟩ := List.mem_flatMap.mp hnode
      exact ih entry hentry hnode

/-- A part has distinct keys, or it comes from a held value. -/
theorem keyed_or_exists (h : MadeOf held value) {part : Value} (hpart : part ∈ value.parts) :
    part.Keyed ∨ ∃ source, held source ∧ part ∈ source.parts := by
  induction h with
  | held h => exact .inr ⟨_, h, hpart⟩
  | plain hparts hnodes hkeyed =>
      rw [hparts, List.mem_singleton] at hpart
      exact .inl (hpart ▸ hkeyed)
  | list h ih =>
      rw [Value.parts, partsOfItems_eq_flatMap] at hpart
      rcases List.mem_cons.mp hpart with rfl | hpart
      · exact .inl trivial
      · obtain ⟨item, hitem, hpart⟩ := List.mem_flatMap.mp hpart
        exact ih item hitem hpart
  | dict hdistinct h ih =>
      rw [Value.parts, partsOfEntries_eq_flatMap] at hpart
      rcases List.mem_cons.mp hpart with rfl | hpart
      · exact .inl hdistinct
      · obtain ⟨entry, hentry, hpart⟩ := List.mem_flatMap.mp hpart
        exact ih entry hentry hpart

/-- Values made of held ones are in order together if the held ones are. -/
theorem wellFormed {values : List Value} (h : ∀ value ∈ values, MadeOf held value)
    (hheld : ∀ sources : List Value, (∀ source ∈ sources, held source) → WellFormed sources) :
    WellFormed values where
  shared := by
    intro first hfirst second hsecond hsame
    rw [nodesOfItems_eq_flatMap] at hfirst hsecond
    obtain ⟨value, hvalue, hfirst⟩ := List.mem_flatMap.mp hfirst
    obtain ⟨value', hvalue', hsecond⟩ := List.mem_flatMap.mp hsecond
    obtain ⟨source, hsource, hfirst⟩ := (h value hvalue).exists_of_mem_nodes hfirst
    obtain ⟨source', hsource', hsecond⟩ := (h value' hvalue').exists_of_mem_nodes hsecond
    have hboth := hheld [source, source'] (by simp [hsource, hsource'])
    exact hboth.shared first (by simp [nodesOfItems, hfirst]) second
      (by simp [nodesOfItems, hsecond]) hsame
  keyed := by
    intro part hpart
    rw [partsOfItems_eq_flatMap] at hpart
    obtain ⟨value, hvalue, hpart⟩ := List.mem_flatMap.mp hpart
    rcases (h value hvalue).keyed_or_exists hpart with hkeyed | ⟨source, hsource, hpart⟩
    · exact hkeyed
    · exact (hheld [source] (by simp [hsource])).keyed part (by simpa [partsOfItems] using hpart)

end Value.MadeOf

/-! ### Aggregates -/

/-- A value that stands in the library. -/
def Library.Holds (library : Library) (value : Value) : Prop :=
  ∃ (id : Int64) (entry : Dict Value) (key : String),
    library.entries[id]? = some entry ∧ (key, value) ∈ entry

/-- Made of the library's values. -/
abbrev Library.Yields (library : Library) (value : Value) : Prop :=
  value.MadeOf library.Holds

namespace Library.Yields

variable {library : Library}

theorem property? {id : Int64} {key : String} {value : Value}
    (h : library.property? id key = some value) : library.Yields value := by
  rw [Library.property?] at h
  split at h
  · exact nomatch h
  · next entry hentry =>
    split at h
    · exact Option.some.inj h ▸ .int id
    · exact .held ⟨id, entry, key, hentry, Dict.mem_of_find? h⟩

/-- Choosing the better one again and again chooses one of the values. -/
theorem foldl_choose {choose : Value → Value → Value}
    (hchoose : ∀ best next, choose best next = best ∨ choose best next = next)
    (values : List Value) (h : ∀ value ∈ values, library.Yields value) (best : Value)
    (hbest : library.Yields best) : library.Yields (values.foldl choose best) := by
  induction values generalizing best with
  | nil => exact hbest
  | cons value rest ih =>
      rw [List.forall_mem_cons] at h
      refine ih h.2 _ ?_
      rcases hchoose best value with hsame | hsame
      · rw [hsame]
        exact hbest
      · rw [hsame]
        exact h.1

theorem fold (aggregate : Aggregate) (seed : UInt64) (values : List Value)
    (h : ∀ value ∈ values, library.Yields value) :
    library.Yields (aggregate.fold seed values) := by
  cases values with
  | nil => exact .none
  | cons head rest =>
      have hall := h
      rw [List.forall_mem_cons] at h
      cases aggregate with
      | first => exact h.1
      | list => exact .list hall
      | random =>
          simp only [Aggregate.fold]
          cases hpick : Chance.pick? seed (head :: rest) with
          | none => exact .none
          | some value => exact hall value (List.mem_of_getElem? hpick)
      | max =>
          refine foldl_choose (fun best next => ?_) rest h.2 head h.1
          split
          · exact .inl rfl
          · exact .inr rfl
      | min =>
          refine foldl_choose (fun best next => ?_) rest h.2 head h.1
          split
          · exact .inr rfl
          · exact .inl rfl
      | sum =>
          simp only [Aggregate.fold]
          split
          · exact .int _
          · exact .float _
      | avg =>
          simp only [Aggregate.fold]
          split
          · exact .none
          · exact .float _

end Library.Yields

/-! ### Fetches -/

namespace Catalog

variable (catalog : Catalog)

theorem aggregate_yields (ids : List Int64) (property : String) (aggregate : Aggregate) :
    catalog.library.Yields (catalog.aggregate ids property aggregate) := by
  refine Library.Yields.fold aggregate catalog.seed _ fun value hvalue => ?_
  obtain ⟨id, -, hproperty⟩ := List.mem_filterMap.mp hvalue
  exact .property? hproperty

theorem record_yields (ids : List Int64) (properties : List String) (aggregate : Aggregate) :
    catalog.library.Yields (.dict (catalog.record ids properties aggregate)) := by
  have hstep (properties : List String) (row : Dict Value) (hdistinct : Dict.Distinct row)
      (hrow : ∀ entry ∈ row, catalog.library.Yields entry.2) :
      catalog.library.Yields (.dict (properties.foldl (fun row property =>
        let value := catalog.aggregate ids property aggregate
        if value.isNone then row else Dict.insert row property value) row)) := by
    induction properties generalizing row with
    | nil => exact .dict hdistinct hrow
    | cons property rest ih =>
        rw [List.foldl_cons]
        dsimp only
        split
        · exact ih row hdistinct hrow
        · exact ih _ (hdistinct.insert _ _)
            (Dict.forall_mem_insert hrow (catalog.aggregate_yields ids property aggregate))
  exact hstep properties [] List.nodup_nil (by simp)

theorem infos_yields (ids : List Int64) (properties group : List String) (window : Window) :
    catalog.library.Yields (.list (catalog.infos ids properties group window)) := by
  refine .list fun row hrow => ?_
  have hmem : row ∈ catalog.rows ids properties group := by
    unfold Catalog.infos Window.cut at hrow
    dsimp only at hrow
    split at hrow
    · exact List.mem_of_mem_drop hrow
    · exact List.mem_of_mem_drop (List.mem_of_mem_take hrow)
  obtain ⟨members, -, rfl⟩ := List.mem_map.mp hmem
  exact catalog.record_yields _ properties .first

/-- What every step gives holds of all results. -/
theorem forall_mem_of_mapM {α β : Type} {step : α → Except Error β} {motive : β → Prop}
    {items : List α} {results : List β} (h : items.mapM step = .ok results)
    (hstep : ∀ item ∈ items, ∀ result, step item = .ok result → motive result) :
    ∀ result ∈ results, motive result := by
  induction items generalizing results with
  | nil =>
      obtain rfl : [] = results := Except.ok.inj h
      simp
  | cons item rest ih =>
      rw [List.mapM_cons] at h
      obtain ⟨result, hresult, h⟩ := exists_of_bind_ok h
      obtain ⟨others, hothers, h⟩ := exists_of_bind_ok h
      obtain rfl : result :: others = results := Except.ok.inj h
      rw [List.forall_mem_cons] at hstep ⊢
      exact ⟨hstep.1 result hresult, ih hothers hstep.2⟩

mutual

/-- Whatever is fetched is made of the library's values. -/
theorem fetch_yields : ∀ (plan : Plan) (ids : List Int64) (value : Value),
    catalog.fetch plan ids = .ok value → catalog.library.Yields value
  | .fails _, _, _, h => nomatch h
  | .count, ids, value, h => Except.ok.inj h ▸ .int _
  | .metadata [] aggregate, ids, value, h => by
      rw [fetch] at h
      · exact Except.ok.inj h ▸ catalog.record_yields ids _ aggregate
      · simp
  | .metadata [property] aggregate, ids, value, h => by
      rw [fetch] at h
      exact Except.ok.inj h ▸ catalog.aggregate_yields ids property aggregate
  | .metadata (property :: other :: rest) aggregate, ids, value, h => by
      rw [fetch] at h
      · exact Except.ok.inj h ▸ catalog.record_yields ids _ aggregate
      · simp
  | .clusterList property data, ids, value, h => by
      rw [fetch] at h
      obtain ⟨results, hresults, h⟩ := exists_of_bind_ok h
      obtain rfl : .list results = value := Except.ok.inj h
      exact .list (forall_mem_of_mapM hresults fun cluster _ result hresult =>
        fetch_yields data cluster.2 result hresult)
  | .clusterDict property data, ids, value, h => by
      rw [fetch] at h
      obtain ⟨results, hresults, h⟩ := exists_of_bind_ok h
      obtain rfl : .dict (Dict.ofEntries results) = value := Except.ok.inj h
      refine .dict (Dict.distinct_ofEntries results) (Dict.forall_mem_ofEntries ?_)
      refine forall_mem_of_mapM hresults fun cluster _ result hresult => ?_
      obtain ⟨inner, hinner, hresult⟩ := exists_of_bind_ok hresult
      obtain rfl : (cluster.1, inner) = result := Except.ok.inj hresult
      exact fetch_yields data cluster.2 inner hinner
  | .organize entries, ids, value, h => by
      rw [fetch] at h
      obtain ⟨results, hresults, h⟩ := exists_of_bind_ok h
      obtain rfl : .dict (Dict.ofEntries results) = value := Except.ok.inj h
      exact .dict (Dict.distinct_ofEntries results)
        (Dict.forall_mem_ofEntries (fetchEntries_yields entries ids results hresults))

theorem fetchEntries_yields : ∀ (entries : List (String × Plan)) (ids : List Int64)
    (results : List (String × Value)), catalog.fetchEntries entries ids = .ok results →
      ∀ result ∈ results, catalog.library.Yields result.2
  | [], ids, results, h => by
      obtain rfl : [] = results := Except.ok.inj h
      simp
  | (name, plan) :: rest, ids, results, h => by
      rw [fetchEntries] at h
      obtain ⟨value, hvalue, h⟩ := exists_of_bind_ok h
      obtain ⟨others, hothers, h⟩ := exists_of_bind_ok h
      obtain rfl : (name, value) :: others = results := Except.ok.inj h
      rw [List.forall_mem_cons]
      exact ⟨fetch_yields plan ids value hvalue, fetchEntries_yields rest ids others hothers⟩

end

end Catalog

end MediaCatalog
