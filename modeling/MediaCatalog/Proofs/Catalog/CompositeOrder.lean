import MediaCatalog.Proofs.Catalog.Paging
import MediaCatalog.Proofs.Catalog.StableSort
import MediaCatalog.Proofs.Value.Order

/-!
Stacked order nodes. Each of them sorts stably by one key, so together they sort by all keys at
once: the first one decides, and each later one only breaks the ties of those before it. The order
that a list of properties asks for is said here in terms of the ordering syntax.
-/

namespace MediaCatalog

/-! ### What properties ask for -/

namespace SortKey

/-- Whether a property of the ordering syntax sorts downwards. -/
def descends (property : String) : Bool := property.toList.head? = some '-'

/-- What a property of the ordering syntax sorts by. -/
def named (property : String) : String :=
  if descends property then String.ofList property.toList.tail else property

end SortKey

/-- How two entries compare by one property. Sorting downwards turns the comparison round, but it
does not bring the entries without the property to the front. -/
def Library.compareBy (library : Library) (property : String) (left right : Int64) : Ordering :=
  let turned (comparison : Ordering) : Ordering :=
    if SortKey.descends property then comparison.swap else comparison
  if SortKey.named property = idProperty then turned (compare left right)
  else
    match library.property? left (SortKey.named property),
      library.property? right (SortKey.named property) with
    | some first, some second => turned (first.compare second)
    | first, second => compare first.isNone second.isNone

/-- How two entries compare by several properties: as the first one has it that tells them
apart. -/
def Library.compareByAll (library : Library) : List String → Int64 → Int64 → Ordering
  | [] => fun _ _ => .eq
  | property :: rest => compareLex (library.compareBy property) (library.compareByAll rest)

/-! ### Keys -/

namespace SortKey

theorem parse_eq (property : String) :
    parse property =
      if named property = "random" then .random
      else if named property = "id" then .id (descends property)
      else .property (named property) (descends property) := by
  cases hletters : property.toList with
  | nil => simp [parse, named, descends, hletters]
  | cons letter rest =>
      by_cases hdash : letter = '-'
      · subst hdash
        simp [parse, named, descends, hletters]
      · simp [parse, named, descends, hletters, hdash]

/-- Only the name of the random order, with or without a direction, asks for it. -/
theorem parse_ne_random {property : String} (h : property ≠ "random")
    (h' : property ≠ "-random") : parse property ≠ .random := by
  have hnamed : named property ≠ "random" := by
    intro hrandom
    rw [named] at hrandom
    split at hrandom
    · next hdash =>
      obtain ⟨rest, hletters⟩ : ∃ rest, property.toList = '-' :: rest := by
        simpa [descends, List.head?_eq_some_iff] using hdash
      rw [hletters, List.tail_cons] at hrandom
      refine h' (String.toList_injective ?_)
      rw [hletters, ← String.toList_ofList (l := rest), hrandom]
      rfl
    · exact h hrandom
  rw [parse_eq, if_neg hnamed]
  split <;> exact SortKey.noConfusion

/-- The key of a property compares entries as the property asks for. -/
theorem compare_parse {property : String} (h : parse property ≠ .random) (library : Library) :
    (parse property).compare library = library.compareBy property := by
  funext left right
  rw [parse_eq] at h ⊢
  rw [Library.compareBy]
  split
  · next hrandom => exact absurd (if_pos hrandom) h
  · split
    · next hid => exact (if_pos hid).symm
    · next hid =>
      rw [if_neg (show named property ≠ Library.idProperty from hid), SortKey.compare]
      cases library.property? left (named property) <;>
        cases library.property? right (named property) <;> rfl

/-! ### Keys put entries in order -/

/-- What is turned round still chains. -/
instance {α : Type} (descending : Bool) (order : α → α → Ordering) [Std.TransCmp order] :
    Std.TransCmp fun left right => directed descending (order left right) := by
  cases descending with
  | false => exact (inferInstance : Std.TransCmp order)
  | true =>
      have hturned : (fun left right => directed true (order left right)) =
          fun left right => order right left := by
        funext left right
        exact Std.OrientedCmp.eq_swap.symm
      rw [hturned]
      exact Std.TransCmp.opposite

/-- Values that are there, upwards or downwards. -/
abbrev compareValues (descending : Bool) (left right : Value) : Ordering :=
  directed descending (left.compare right)

instance (descending : Bool) : Std.TransCmp (compareProperties descending) where
  eq_swap {left right} := by
    cases left with
    | none => cases right <;> rfl
    | some left =>
        cases right with
        | none => rfl
        | some right => exact (inferInstance : Std.TransCmp (compareValues descending)).eq_swap
  isLE_trans {first second third} hfirst hsecond := by
    cases third with
    | none => cases first <;> rfl
    | some third =>
        cases second with
        | none => exact nomatch hsecond
        | some second =>
            cases first with
            | none => exact nomatch hfirst
            | some first =>
                exact (inferInstance : Std.TransCmp (compareValues descending)).isLE_trans
                  hfirst hsecond

instance (key : SortKey) (library : Library) : Std.TransCmp (key.compare library) := by
  cases key with
  | random => exact { eq_swap := rfl, isLE_trans := fun _ _ => rfl }
  | id descending =>
      exact (inferInstance :
        Std.TransCmp fun left right : Int64 => directed descending (Ord.compare left right))
  | property field descending =>
      have hproperties : Std.TransCmp (compareProperties descending) := inferInstance
      exact { eq_swap := hproperties.eq_swap, isLE_trans := hproperties.isLE_trans }

/-- A key that is not random sorts stably. -/
theorem stableSort {key : SortKey} (h : key ≠ .random) (catalog : Catalog) (ids : List Int64) :
    StableSort (key.compare catalog.library) ids (key.sort catalog ids) := by
  cases key with
  | random => exact absurd rfl h
  | id descending | property field descending => exact .of_mergeSort ids

end SortKey

/-! ### Several keys -/

namespace Catalog

variable (catalog : Catalog)

/-- Sorting by one key after another, the last one first, sorts by all of them. -/
theorem stableSort_sorted {properties : List String}
    (h : ∀ property ∈ properties, SortKey.parse property ≠ .random) (ids : List Int64) :
    StableSort (catalog.library.compareByAll properties) ids (catalog.sorted properties ids) := by
  induction properties with
  | nil => exact .of_eq ids
  | cons property rest ih =>
      rw [List.forall_mem_cons] at h
      have hkey := SortKey.stableSort h.1 catalog (catalog.sorted rest ids)
      have hboth := (ih h.2).then_by hkey
      rw [SortKey.compare_parse h.1] at hboth
      rw [sorted_cons]
      exact hboth

/-- All properties together tell a total preorder. -/
theorem transCmp_compareByAll {properties : List String}
    (h : ∀ property ∈ properties, SortKey.parse property ≠ .random) (library : Library) :
    Std.TransCmp (library.compareByAll properties) := by
  induction properties with
  | nil => exact { eq_swap := rfl, isLE_trans := fun _ _ => rfl }
  | cons property rest ih =>
      rw [List.forall_mem_cons] at h
      have hfirst : Std.TransCmp (library.compareBy property) :=
        SortKey.compare_parse h.1 library ▸ inferInstance
      have hrest := ih h.2
      exact (inferInstance :
        Std.TransCmp (compareLex (library.compareBy property) (library.compareByAll rest)))

/-- A collection ordered by several properties selects what the collection selects, and sorted
stably by all of them. That is one list only. -/
theorem evaluate_ordered {base : Collection} {ids : List Int64}
    (hbase : catalog.evaluate base = .ok ids) {properties : List String}
    (hrandom : "random" ∉ properties) (hrandom' : "-random" ∉ properties) (next : NodeId) :
    ∃ sorted, catalog.evaluate (base.ordered properties next).1 = .ok sorted ∧
      StableSort (catalog.library.compareByAll properties) ids sorted ∧
      ∀ other, StableSort (catalog.library.compareByAll properties) ids other → other = sorted := by
  have hkeys : ∀ property ∈ properties, SortKey.parse property ≠ .random :=
    fun property hproperty =>
      SortKey.parse_ne_random (ne_of_mem_of_not_mem hproperty hrandom)
        (ne_of_mem_of_not_mem hproperty hrandom')
  have hsorted := catalog.stableSort_sorted hkeys ids
  have hpreorder := transCmp_compareByAll hkeys catalog.library
  refine ⟨catalog.sorted properties ids, ?_, hsorted, fun other hother => hother.unique hsorted⟩
  rw [evaluate] at hbase ⊢
  rw [select_ordered, hbase]
  rfl

/-- Two records of one artist, and one of nobody. -/
def records : Catalog where
  library := (((Library.empty.add [("artist", .string "Can"), ("year", .int 1969)]).2.add
    [("artist", .string "Can"), ("year", .int 1971)]).2.add [("year", .int 1970)]).2
  store := .empty

/-- The record of nobody first, and one of the others twice. -/
def shelf : Collection := .node 0 .idlist [] [] [3, 1, 2, 1]

theorem evaluate_shelf : records.evaluate shelf = .ok [3, 1, 2, 1] := by
  have hthere : ([3, 1, 2, 1] : List Int64).filter records.library.contains = [3, 1, 2, 1] := by
    decide
  rw [evaluate, shelf, select]
  exact congrArg Except.ok hthere

/-- By artist, and the latest first. -/
theorem evaluate_ordered_shelf :
    records.evaluate shelf = .ok [3, 1, 2, 1] ∧
      "random" ∉ ["artist", "-year"] ∧ "-random" ∉ ["artist", "-year"] ∧
      ∃ sorted, records.evaluate (shelf.ordered ["artist", "-year"] 1).1 = .ok sorted ∧
        StableSort (records.library.compareByAll ["artist", "-year"]) [3, 1, 2, 1] sorted ∧
        ∀ other, StableSort (records.library.compareByAll ["artist", "-year"]) [3, 1, 2, 1] other →
          other = sorted :=
  ⟨evaluate_shelf, by decide, by decide,
    evaluate_ordered records evaluate_shelf (by decide) (by decide) 1⟩

end Catalog

end MediaCatalog
