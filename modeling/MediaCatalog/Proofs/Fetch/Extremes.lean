import MediaCatalog.Proofs.Catalog.Reachable
import MediaCatalog.Proofs.Fetch.Integers
import MediaCatalog.Proofs.Fetch.Leniency
import MediaCatalog.Proofs.Fetch.Typed

/-!
The extremes of a property and the order by it. Values of different kinds may compare as equal
without being the same, so it matters which of the equals an extreme is: the smallest value is the
first of the least, the largest one is the last of the greatest. Sorting keeps equals in their
order, so these are the values at both ends of the sorted matches.
-/

namespace MediaCatalog

/-! ### Which extreme it is -/

namespace Aggregate

variable {values : List Value}

theorem smallest_concat (h : values ≠ []) (value : Value) :
    smallest (values ++ [value]) =
      if (smallest values).compare value = .gt then value else smallest values := by
  cases values with
  | nil => exact absurd rfl h
  | cons head rest =>
      rw [List.cons_append, smallest, smallest, List.foldl_append]
      rfl

theorem largest_concat (h : values ≠ []) (value : Value) :
    largest (values ++ [value]) =
      if (largest values).compare value = .gt then largest values else value := by
  cases values with
  | nil => exact absurd rfl h
  | cons head rest =>
      rw [List.cons_append, largest, largest, List.foldl_append]
      rfl

theorem filter_equals_self (value : Value) :
    [value].filter (value.compare · = .eq) = [value] := by
  rw [List.filter_singleton, decide_eq_true Std.ReflCmp.compare_self]
  rfl

theorem firstLeast_smallest (h : values ≠ []) :
    FirstLeast Value.compare values (smallest values) where
  least _ := compare_smallest
  first := by
    induction values using List.reverseRecOn with
    | nil => exact absurd rfl h
    | append_singleton values value ih =>
        rcases eq_or_ne values [] with rfl | hvalues
        · exact congrArg List.head? (filter_equals_self value)
        · rw [smallest_concat hvalues]
          split
          · next hgt =>
            -- All values before the new one are above it.
            have hnone : values.filter (value.compare · = .eq) = [] := by
              refine List.filter_eq_nil_iff.mpr fun other hother hequal => ?_
              have hle := compare_smallest hother
              rw [← Std.TransCmp.congr_right (of_decide_eq_true hequal), hgt] at hle
              cases hle
            rw [List.filter_append, hnone, filter_equals_self]
            rfl
          · rw [List.filter_append, List.head?_append, ih hvalues]
            rfl

theorem lastGreatest_largest (h : values ≠ []) :
    LastGreatest Value.compare values (largest values) where
  greatest _ := compare_largest
  last := by
    induction values using List.reverseRecOn with
    | nil => exact absurd rfl h
    | append_singleton values value ih =>
        rcases eq_or_ne values [] with rfl | hvalues
        · exact congrArg List.getLast? (filter_equals_self value)
        · rw [largest_concat hvalues]
          split
          · next hgt =>
            have hnone : [value].filter ((largest values).compare · = .eq) = [] := by
              simp [hgt]
            rw [List.filter_append, hnone, List.append_nil, ih hvalues]
          · rw [List.filter_append, filter_equals_self, List.getLast?_concat]

theorem fold_first {value : Value} (h : values.head? = some value) (seed : UInt64) :
    fold .first seed values = value := by
  obtain ⟨rest, rfl⟩ := List.head?_eq_some_iff.mp h
  rfl

theorem fold_list (h : values ≠ []) (seed : UInt64) : fold .list seed values = .list values := by
  cases values with
  | nil => exact absurd rfl h
  | cons head rest => rfl

end Aggregate

/-! ### Queries for an aggregate -/

namespace Catalog

/-- What a query for one aggregate of one property over a collection is answered. -/
def answer (catalog : Catalog) (strict : Bool) (collection : Collection) (property : String)
    (aggregate : Aggregate) : Except Error Value := do
  let ids ← catalog.evaluate collection
  catalog.fetch (.ofValue strict (FetchSpec.metadata [property] aggregate).toValue) ids

variable {catalog : Catalog} {collection : Collection} {ids : List Int64} {property : String}

theorem answer_eq (h : catalog.evaluate collection = .ok ids) (strict : Bool) (property : String)
    (aggregate : Aggregate) :
    catalog.answer strict collection property aggregate =
      .ok (catalog.aggregate ids property aggregate) := by
  have hstrict : catalog.fetch (.ofValue true (FetchSpec.metadata [property] aggregate).toValue)
      ids = .ok (catalog.aggregate ids property aggregate) := by
    change catalog.fetch (FetchSpec.plan (.metadata [property] aggregate)) ids = _
    rw [FetchSpec.plan_metadata (List.cons_ne_nil _ _), fetch]
  have hfetch : catalog.fetch
      (.ofValue strict (FetchSpec.metadata [property] aggregate).toValue) ids =
        .ok (catalog.aggregate ids property aggregate) := by
    cases strict with
    | true => exact hstrict
    | false => exact (fetch_narrows catalog ids _).eq_ok hstrict
  rw [answer, h]
  exact hfetch

/-- Ordering by a property sorts the matches by it. -/
theorem exists_stableSort (h : catalog.evaluate collection = .ok ids) (hid : property ≠ "id")
    (hrandom : property ≠ "random") (hdash : property.toList.head? ≠ some '-') (next : NodeId) :
    ∃ sorted, catalog.evaluate (collection.ordered [property] next).1 = .ok sorted ∧
      StableSort ((SortKey.property property false).compare catalog.library) ids sorted := by
  have hparse : SortKey.parse property = .property property false := by
    rw [SortKey.parse_eq, SortKey.named_of_head hdash, SortKey.descends_of_head hdash,
      if_neg hrandom, if_neg hid]
  have hnotRandom : SortKey.property property false ≠ .random := SortKey.noConfusion
  have hsort := SortKey.stableSort hnotRandom catalog ids
  rw [← hparse] at hsort
  refine ⟨catalog.sorted [property] ids, ?_, hparse ▸ hsort⟩
  rw [evaluate] at h ⊢
  rw [select_ordered, h]
  rfl

/-- The values that the sorted matches have are the sorted values of the matches. -/
theorem stableSort_values {sorted : List Int64}
    (h : StableSort ((SortKey.property property false).compare catalog.library) ids sorted) :
    StableSort Value.compare (ids.filterMap (catalog.library.property? · property))
      (sorted.filterMap (catalog.library.property? · property)) := by
  refine h.filterMap _ fun {left right first second} hleft hright => ?_
  simp only [SortKey.compare, hleft, hright]
  rfl

/-- The smallest value of a property is the first value of the matches in the order of the property,
and the largest one is the last in the list of their values. If no match has the property, there is
neither an extreme nor a list. The queries may come at different times, and be read strictly or
not. -/
theorem extremes_agree_with_order (hfree : RandomFree catalog.store collection)
    (hids : catalog.evaluate collection = .ok ids) (hid : property ≠ "id")
    (hrandom : property ≠ "random") (hdash : property.toList.head? ≠ some '-') :
    ∃ least greatest listed : Value,
      (∀ (seed : UInt64) (strict : Bool) (next : NodeId),
        let catalog : Catalog := { catalog with seed }
        let ordered := (collection.ordered [property] next).1
        catalog.answer strict collection property .min = .ok least ∧
          catalog.answer strict ordered property .first = .ok least ∧
          catalog.answer strict collection property .max = .ok greatest ∧
          catalog.answer strict ordered property .list = .ok listed) ∧
      ((∃ id ∈ ids, (catalog.library.property? id property).isSome) →
        ∃ before, listed = .list (before ++ [greatest])) ∧
      ((∀ id ∈ ids, catalog.library.property? id property = none) →
        least = .none ∧ greatest = .none ∧ listed = .none) := by
  obtain ⟨sorted, -, hsorted⟩ := exists_stableSort hids hid hrandom hdash 0
  have hanswers (seed : UInt64) (strict : Bool) (next : NodeId) :
      let again : Catalog := { catalog with seed }
      let ordered := (collection.ordered [property] next).1
      (∀ aggregate, again.answer strict collection property aggregate =
        .ok (again.aggregate ids property aggregate)) ∧
      ∀ aggregate, again.answer strict ordered property aggregate =
        .ok (again.aggregate sorted property aggregate) := by
    intro again ordered
    have hlibrary : catalog.library = again.library := rfl
    have hstore : catalog.store = again.store := rfl
    have hagain : again.evaluate collection = .ok ids :=
      (select_of_randomFree hlibrary hstore [] collection hfree).symm.trans hids
    obtain ⟨sorted', hevaluated, hsorted'⟩ := exists_stableSort hagain hid hrandom hdash next
    obtain rfl : sorted' = sorted := hsorted'.unique hsorted
    exact ⟨fun aggregate => answer_eq hagain strict property aggregate,
      fun aggregate => answer_eq hevaluated strict property aggregate⟩
  have hvalues := stableSort_values hsorted
  generalize hmatched : ids.filterMap (catalog.library.property? · property) = values at hvalues
  generalize hlisted : sorted.filterMap (catalog.library.property? · property) = listed at hvalues
  by_cases hnone : values = []
  · obtain rfl : listed = [] := List.perm_nil.mp (hnone ▸ hvalues.perm)
    refine ⟨.none, .none, .none, fun seed strict next => ?_, ?_, fun _ => ⟨rfl, rfl, rfl⟩⟩
    · obtain ⟨hbase, hordered⟩ := hanswers seed strict next
      dsimp only
      rw [hbase, hordered, hbase, hordered]
      simp only [aggregate, hmatched, hlisted, hnone]
      exact ⟨rfl, rfl, rfl, rfl⟩
    · rintro ⟨id, hmem, hsome⟩
      rw [List.filterMap_eq_nil_iff.mp (hmatched.trans hnone) id hmem] at hsome
      cases hsome
  · have hleast := hvalues.head?_eq (Aggregate.firstLeast_smallest hnone)
    have hgreatest := hvalues.getLast?_eq (Aggregate.lastGreatest_largest hnone)
    obtain ⟨before, hbefore⟩ := List.getLast?_eq_some_iff.mp hgreatest
    have hsome : listed ≠ [] := by
      rintro rfl
      cases hleast
    refine ⟨Aggregate.smallest values, Aggregate.largest values, .list listed,
      fun seed strict next => ?_, fun _ => ⟨before, congrArg Value.list hbefore⟩,
      fun hall => absurd (hmatched.symm.trans (List.filterMap_eq_nil_iff.mpr hall)) hnone⟩
    obtain ⟨hbase, hordered⟩ := hanswers seed strict next
    dsimp only
    rw [hbase, hordered, hbase, hordered]
    simp only [aggregate, hmatched, hlisted, Aggregate.fold_min hnone, Aggregate.fold_max hnone,
      Aggregate.fold_first hleast, Aggregate.fold_list hsome, and_self]

/-- Two covers of kinds that are not told apart, and an entry without one. -/
def covers : Catalog where
  library := (((Library.empty.add [("cover", .binary [7])]).2.add [("title", .string "a")]).2.add
    [("cover", .list [])]).2
  store := .empty

/-- The list first, and the bytes last. -/
def pile : Collection := .node 0 .idlist [] [] [3, 2, 1]

theorem evaluate_pile : covers.evaluate pile = .ok [3, 2, 1] := by
  have hthere : ([3, 2, 1] : List Int64).filter covers.library.contains = [3, 2, 1] := by
    decide
  rw [evaluate, pile, select]
  exact congrArg Except.ok hthere

theorem randomFree_pile : RandomFree covers.store pile :=
  .of_leaf (by decide) (by decide) rfl

/-- The smallest of two equals is the first one and the largest is the last. -/
theorem extremes_agree_with_order_covers :
    let ordered := (pile.ordered ["cover"] 1).1
    RandomFree covers.store pile ∧ covers.evaluate pile = .ok [3, 2, 1] ∧
      "cover" ≠ "id" ∧ "cover" ≠ "random" ∧ "cover".toList.head? ≠ some '-' ∧
      covers.answer true pile "cover" .min = .ok (.list []) ∧
      covers.answer true ordered "cover" .first = .ok (.list []) ∧
      covers.answer true pile "cover" .max = .ok (.binary [7]) ∧
      ∃ before, covers.answer true ordered "cover" .list =
        .ok (.list (before ++ [.binary [7]])) := by
  have hid : "cover" ≠ "id" := by decide
  have hrandom : "cover" ≠ "random" := by decide
  have hdash : "cover".toList.head? ≠ some '-' := by decide
  obtain ⟨least, greatest, listed, hanswers, hlast, -⟩ :=
    extremes_agree_with_order randomFree_pile evaluate_pile hid hrandom hdash
  obtain ⟨hmin, hfirst, hmax, hlist⟩ := hanswers covers.seed true 1
  have hleast : covers.answer true pile "cover" .min = .ok (.list []) := by
    rw [answer_eq evaluate_pile]
    rfl
  have hgreatest : covers.answer true pile "cover" .max = .ok (.binary [7]) := by
    rw [answer_eq evaluate_pile]
    rfl
  obtain rfl := Except.ok.inj (hmin.symm.trans hleast)
  obtain rfl := Except.ok.inj (hmax.symm.trans hgreatest)
  obtain ⟨before, rfl⟩ := hlast ⟨3, by decide, by decide⟩
  exact ⟨randomFree_pile, evaluate_pile, hid, hrandom, hdash, hleast, hfirst, hgreatest, before,
    hlist⟩

end Catalog

end MediaCatalog
