import Std.Data.String.ToInt
import Std.Data.String.ToNat
import MediaCatalog.Fetch.Run
import MediaCatalog.Proofs.Catalog.Paging
import MediaCatalog.Proofs.Fetch.Grouping

/-!
Ids and rows of matches. Clustering by position keeps every match apart, so the spec of ids
gives each match its id. Rows without properties to group by are kept apart by the id alone, so
a match that comes again gets no row of its own, and a stretch of the rows holds the same ids as
the stretch of the matches only as far as no match came before.
-/

namespace MediaCatalog

/-! ### Stretches -/

namespace Window

variable {α : Type} (window : Window)

/-- The items up to the end of the window. -/
def front (items : List α) : List α :=
  if window.length = 0 then items else items.take (window.start + window.length)

theorem cut_eq_drop_front (items : List α) :
    window.cut items = (window.front items).drop window.start := by
  unfold cut front
  split
  · rfl
  · rw [List.drop_take, Nat.add_sub_cancel_left]

theorem map_cut {β : Type} (f : α → β) (items : List α) :
    (window.cut items).map f = window.cut (items.map f) := by
  unfold cut
  split <;> simp

theorem front_prefix (items : List α) : window.front items <+: items := by
  unfold front
  split
  · exact List.prefix_rfl
  · exact List.take_prefix _ _

theorem start_lt_length_front {items : List α} (h : window.start < items.length) :
    window.start < (window.front items).length := by
  unfold front
  split
  · exact h
  · rw [List.length_take]
    omega

variable [DecidableEq α] {items : List α}

/-- If nothing came before up to the end of the window, what is there stays where it is. -/
theorem front_eraseDups (h : (window.front items).Nodup) :
    window.front items.eraseDups = window.front items := by
  by_cases hitems : items.Nodup
  · rw [eraseDups_of_nodup hitems]
  have hall : window.length ≠ 0 := fun hall => hitems <| by
    rwa [front, if_pos hall] at h
  rw [front, if_neg hall] at h
  have hlong : window.start + window.length ≤ items.length := by
    by_contra hshort
    rw [List.take_of_length_le (by omega)] at h
    exact hitems h
  rw [front, front, if_neg hall, if_neg hall]
  conv_lhs => rw [← List.take_append_drop (window.start + window.length) items,
    List.eraseDups_append, eraseDups_of_nodup h]
  rw [List.take_left']
  rw [List.length_take]
  omega

/-- The last item up to the end of the window is lost if some item up to there came before. -/
theorem getElem?_eraseDups_ne (h : ¬ (window.front items).Nodup) (last : α)
    (hlast : last ∈ window.front items) :
    items.eraseDups[(window.front items).length - 1]? ≠ some last := by
  obtain ⟨rest, hrest⟩ := window.front_prefix items
  have hshorter := length_eraseDups_lt h
  intro hsome
  generalize window.front items = front at *
  rw [← hrest, List.eraseDups_append, List.getElem?_append_right (by omega)] at hsome
  have hmem := List.mem_eraseDups.mp (List.mem_of_getElem? hsome)
  simp [List.removeAll, hlast] at hmem

/-- Removing items that came before leaves a stretch as it is exactly if the stretch is empty or
no item came before up to its end. -/
theorem cut_eraseDups_iff (items : List α) :
    window.cut items.eraseDups = window.cut items ↔
      items.length ≤ window.start ∨ (window.front items).Nodup := by
  constructor
  · intro hsame
    by_contra hnot
    rw [not_or, Nat.not_le] at hnot
    obtain ⟨hstart, hdup⟩ := hnot
    have hlt := window.start_lt_length_front hstart
    obtain ⟨last, hlast⟩ : ∃ last,
        (window.front items)[(window.front items).length - 1]? = some last :=
      ⟨_, List.getElem?_eq_getElem (by omega)⟩
    apply window.getElem?_eraseDups_ne hdup last (List.mem_of_getElem? hlast)
    rw [cut_eq_drop_front, cut_eq_drop_front] at hsame
    have hat := congrArg (·[(window.front items).length - 1 - window.start]?) hsame
    simp only [List.getElem?_drop] at hat
    rw [show window.start + ((window.front items).length - 1 - window.start) =
      (window.front items).length - 1 by omega, hlast] at hat
    obtain ⟨rest, hrest⟩ := window.front_prefix items.eraseDups
    rw [← hrest, List.getElem?_append_left]
    · exact hat
    · exact (List.getElem?_eq_some_iff.mp hat).1
  · rintro (hshort | hnodup)
    · have hdups := length_eraseDups_le items
      rw [cut, cut, List.drop_eq_nil_of_le hshort,
        List.drop_eq_nil_of_le (Nat.le_trans hdups hshort)]
    · rw [cut_eq_drop_front, cut_eq_drop_front, window.front_eraseDups hnodup]

end Window

/-! ### The id of each match -/

theorem Library.property?_idProperty {library : Library} {id : Int64} (h : library.contains id) :
    library.property? id idProperty = some (.int id) := by
  have hsome : (library.entries[id]?).isSome := by
    rwa [← Std.TreeMap.contains_eq_isSome_getElem?]
  obtain ⟨entry, hentry⟩ := Option.isSome_iff_exists.mp hsome
  simp [property?, hentry]

/-- The row holds exactly the listed properties that the entry has, none values apart. -/
structure Library.RowOf (library : Library) (properties : List String) (id : Int64)
    (row : Dict Value) : Prop where
  distinct : Dict.Distinct row
  exact : ∀ key value, Dict.find? row key = some value ↔
    key ∈ properties ∧ library.property? id key = some value ∧ value.isNone = false

/-- The row holds, of the listed properties, those that some of the entries have, each with the
value of the first entry that has it, none values apart. -/
structure Library.FirstRow (library : Library) (properties : List String) (members : List Int64)
    (row : Dict Value) : Prop where
  distinct : Dict.Distinct row
  exact : ∀ key value, Dict.find? row key = some value ↔
    key ∈ properties ∧ members.findSome? (library.property? · key) = some value ∧
      value.isNone = false

theorem Library.FirstRow.rowOf {library : Library} {properties : List String} {id : Int64}
    {row : Dict Value} (h : library.FirstRow properties [id] row) :
    library.RowOf properties id row where
  distinct := h.distinct
  exact key value := by rw [h.exact, List.findSome?_singleton]

/-- A row with the id in it is the row of no other entry. -/
theorem Library.RowOf.id_unique {library : Library} {id other : Int64} {row : Dict Value}
    (h : library.RowOf [idProperty] id row) (h' : library.RowOf [idProperty] other row)
    (hid : library.contains id) (hother : library.contains other) : id = other := by
  have hfound := (h.exact idProperty (.int id)).mpr
    ⟨List.mem_singleton_self _, property?_idProperty hid, rfl⟩
  have hfound' := (h'.exact idProperty (.int other)).mpr
    ⟨List.mem_singleton_self _, property?_idProperty hother, rfl⟩
  simpa [hfound] using hfound'

/-- The spec of ids is read as it is meant, strictly or not. -/
theorem Plan.ofValue_ids (strict : Bool) :
    ofValue strict FetchSpec.ids.toValue =
      .clusterList FetchSpec.byPosition (.metadata [Library.idProperty] .first) := by
  cases strict <;> rfl

namespace Catalog

variable (catalog : Catalog)

theorem clusters_byPosition (ids : List Int64) :
    catalog.clusters FetchSpec.byPosition ids =
      ids.zipIdx.map fun item => (toString item.2, [item.1]) := by
  have hkeyed : (ids.zipIdx.filterMap fun item =>
      (catalog.clusterKey? FetchSpec.byPosition item.2 item.1).map (·, item.1)) =
        ids.zipIdx.map fun item => (toString item.2, item.1) := by
    rw [← List.filterMap_eq_map]
    rfl
  have hnodup : ((ids.zipIdx.map fun item => (toString item.2, item.1)).map Prod.fst).Nodup := by
    rw [List.map_map]
    have hpositions : (ids.zipIdx.map Prod.snd).Nodup := by
      rw [List.zipIdx_map_snd]
      exact List.nodup_range'
    have hmap := hpositions.map (f := Nat.repr) fun first second h => Nat.repr_inj.mp h
    rwa [List.map_map] at hmap
  have hclusters := congrArg Groups.ofList hkeyed
  rw [Groups.ofList_of_nodup hnodup, List.map_map] at hclusters
  exact hclusters

/-- Clustering by position gives each match its id. -/
theorem fetch_ids {ids : List Int64} (h : ids ⊆ catalog.library.ids) :
    catalog.fetch (.clusterList FetchSpec.byPosition (.metadata [Library.idProperty] .first)) ids =
      .ok (.list (ids.map .int)) := by
  have hmember (id : Int64) (hid : id ∈ ids) :
      catalog.fetch (.metadata [Library.idProperty] .first) [id] = .ok (.int id) := by
    have hproperty := Library.property?_idProperty (Library.mem_ids.mp (h hid))
    simp [fetch, aggregate, hproperty, Aggregate.fold]
  have hall (items : List (Int64 × Nat)) (hitems : ∀ item ∈ items, item.1 ∈ ids) :
      (items.map fun item => (toString item.2, [item.1])).mapM
        (fun cluster => catalog.fetch (.metadata [Library.idProperty] .first) cluster.2) =
          .ok (items.map fun item => .int item.1) := by
    induction items with
    | nil => rfl
    | cons item rest ih =>
        simp only [List.mem_cons, forall_eq_or_imp] at hitems
        simp only [List.map_cons, List.mapM_cons, hmember item.1 hitems.1, ih hitems.2]
        rfl
  have hzip : ids.zipIdx.map (fun item => Value.int item.1) = ids.map .int := by
    conv_rhs => rw [← List.zipIdx_map_fst 0 ids, List.map_map]
    rfl
  rw [fetch, clusters_byPosition]
  simp only []
  rw [hall ids.zipIdx fun item hitem => List.fst_mem_of_mem_zipIdx hitem, hzip]
  rfl

/-! ### The row of each match -/

theorem record_append_singleton (ids : List Int64) (properties : List String) (property : String)
    (aggregate : Aggregate) :
    catalog.record ids (properties ++ [property]) aggregate =
      if (catalog.aggregate ids property aggregate).isNone then
        catalog.record ids properties aggregate
      else
        Dict.insert (catalog.record ids properties aggregate) property
          (catalog.aggregate ids property aggregate) := by
  simp [record]

theorem aggregate_first (ids : List Int64) (property : String) :
    catalog.aggregate ids property .first =
      (ids.findSome? (catalog.library.property? · property)).getD .none := by
  rw [aggregate, ← List.head?_filterMap]
  cases ids.filterMap (catalog.library.property? · property) <;> rfl

/-- Entries that share a row show the first value of each property. -/
theorem firstRow_record (properties : List String) (members : List Int64) :
    catalog.library.FirstRow properties members (catalog.record members properties .first) := by
  induction properties using List.reverseRecOn with
  | nil => exact ⟨List.nodup_nil, by simp [record]⟩
  | append_singleton properties property ih =>
      rw [record_append_singleton, aggregate_first]
      split
      · next hnone =>
        refine ⟨ih.distinct, fun key value => ?_⟩
        rw [ih.exact, List.mem_append, List.mem_singleton]
        constructor
        · rintro ⟨hkey, hvalue⟩
          exact ⟨.inl hkey, hvalue⟩
        · rintro ⟨hkey | rfl, hvalue⟩
          · exact ⟨hkey, hvalue⟩
          · rw [hvalue.1, Option.getD_some, hvalue.2] at hnone
            cases hnone
      · next hsome =>
        refine ⟨ih.distinct.insert _ _, fun key value => ?_⟩
        rw [Dict.find?_insert, List.mem_append, List.mem_singleton]
        by_cases hkey : property = key
        · subst hkey
          rw [if_pos rfl]
          cases hfirst : members.findSome? (catalog.library.property? · property) with
          | none => simp [hfirst, Value.isNone] at hsome
          | some found =>
              simp only [hfirst, Option.getD_some, Bool.not_eq_true] at hsome
              simp only [Option.getD_some, Option.some.injEq, or_true, true_and]
              constructor
              · rintro rfl
                exact ⟨rfl, hsome⟩
              · exact fun h => h.1
        · rw [if_neg hkey, ih.exact]
          simp [Ne.symm hkey]

theorem rowOf_record (properties : List String) (id : Int64) :
    catalog.library.RowOf properties id (catalog.record [id] properties .first) :=
  (catalog.firstRow_record properties [id]).rowOf

/-- The first values follow from the library alone. -/
theorem record_of_library {catalog catalog' : Catalog} (h : catalog.library = catalog'.library)
    (ids : List Int64) (properties : List String) :
    catalog.record ids properties .first = catalog'.record ids properties .first := by
  have hfirst (property : String) :
      catalog.aggregate ids property .first = catalog'.aggregate ids property .first := by
    rw [aggregate_first, aggregate_first, h]
  simp only [record, hfirst]

/-- Entries that are one are as good as a single one when the first value counts. -/
theorem aggregate_replicate (count : Nat) (id : Int64) (property : String) :
    catalog.aggregate (List.replicate (count + 1) id) property .first =
      catalog.aggregate [id] property .first := by
  rw [aggregate_first, aggregate_first, List.findSome?_replicate_of_pos (Nat.succ_pos count),
    List.findSome?_singleton]

theorem record_replicate (count : Nat) (id : Int64) (properties : List String) :
    catalog.record (List.replicate (count + 1) id) properties .first =
      catalog.record [id] properties .first := by
  simp only [record, aggregate_replicate]

theorem rowKey_nil (id : Int64) : catalog.rowKey [] id = [id.toInt.repr] := rfl

theorem rowKey_nil_injective : Function.Injective (catalog.rowKey []) := by
  intro first second h
  rw [rowKey_nil, rowKey_nil, List.singleton_inj, Int.repr_inj, Int64.toInt_inj] at h
  exact h

/-- The matches of a row are all the same id. -/
theorem membersOf_rowKey (ids : List Int64) (id : Int64) :
    Groups.membersOf (ids.map fun id => (catalog.rowKey [] id, id)) (catalog.rowKey [] id) =
      List.replicate (ids.count id) id := by
  rw [Groups.membersOf, List.filter_map, List.map_map]
  have hsame : ids.filter ((fun item => decide (item.1 = catalog.rowKey [] id)) ∘
      fun other => (catalog.rowKey [] other, other)) = ids.filter (· = id) := by
    refine List.filter_congr fun other _ => ?_
    simp only [Function.comp_apply, catalog.rowKey_nil_injective.eq_iff]
  rw [hsame, List.filter_eq]
  exact List.map_id' _

/-- Without properties to group by there is one row for each id, at its first match. -/
theorem rows_ungrouped (ids : List Int64) (properties : List String) :
    catalog.rows ids properties [] =
      ids.eraseDups.map fun id => .dict (catalog.record [id] properties .first) := by
  have hkeys : (ids.map fun id => (catalog.rowKey [] id, id)).map Prod.fst =
      ids.map (catalog.rowKey []) := by
    rw [List.map_map]
    rfl
  rw [rows, Groups.ofList_eq, hkeys, eraseDups_map catalog.rowKey_nil_injective, List.map_map,
    List.map_map]
  refine List.map_congr_left fun id hid => ?_
  -- The group of an id has nothing but the id in it, as often as it was matched.
  have hcount : 0 < ids.count id := List.count_pos_iff.mpr (List.mem_eraseDups.mp hid)
  obtain ⟨count, hcount⟩ := Nat.exists_eq_add_of_lt hcount
  simp only [Function.comp_apply, membersOf_rowKey]
  rw [hcount, Nat.zero_add, record_replicate]

end Catalog

end MediaCatalog
