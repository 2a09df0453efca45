import Mathlib.Data.List.Sort
import MediaCatalog.Proofs.Catalog.Arrangement

/-!
Set operators. A union, an intersection or a complement is answered from the ids that its operands
select, and none of the three looks at anything else in its node. As everything that is selected is
in the library, the laws of sets hold, and they hold of the lists themselves where both sides
ascend. The first operand that fails decides what fails.
-/

namespace MediaCatalog

/-- Builders apply set operators. -/
theorem Collection.applies_union (operands : List Collection) (next : NodeId) :
    (Collection.union operands next).1.Applies .union operands where
  kind := rfl
  inputs := List.take_length

theorem Collection.applies_intersection (operands : List Collection) (next : NodeId) :
    (Collection.intersection operands next).1.Applies .intersection operands where
  kind := rfl
  inputs := List.take_length

theorem Collection.applies_complement (base : Collection) (next : NodeId) :
    (Collection.complement base next).1.Applies .complement [base] where
  kind := rfl
  inputs := rfl

/-! ### Sets of ids as lists -/

/-- The ids of some parts together, ascending. -/
def ascending (parts : List (List Int64)) : List Int64 := (Std.TreeSet.ofList parts.flatten).toList

theorem pairwise_ascending (parts : List (List Int64)) : (ascending parts).Pairwise (· < ·) :=
  pairwise_lt_toList _

theorem mem_ascending {parts : List (List Int64)} {id : Int64} :
    id ∈ ascending parts ↔ ∃ part ∈ parts, id ∈ part := by
  rw [ascending, Std.TreeSet.mem_toList, Std.TreeSet.mem_ofList, List.contains_iff_mem,
    List.mem_flatten]

/-- The ids of the first part that all others have. -/
def common : List (List Int64) → List Int64
  | [] => []
  | first :: others => first.filter fun id => others.all (·.contains id)

theorem mem_common {parts : List (List Int64)} (h : parts ≠ []) {id : Int64} :
    id ∈ common parts ↔ ∀ part ∈ parts, id ∈ part := by
  obtain ⟨first, others, rfl⟩ := List.exists_cons_of_ne_nil h
  rw [common, List.mem_filter, List.forall_mem_cons]
  simp

/-- All ids but those given, ascending. -/
def Library.without (library : Library) (ids : List Int64) : List Int64 :=
  library.ids.filter fun id => !ids.contains id

theorem Library.pairwise_without (library : Library) (ids : List Int64) :
    (library.without ids).Pairwise (· < ·) :=
  library.ids_pairwise_lt.filter _

theorem Library.mem_without {library : Library} {ids : List Int64} {id : Int64} :
    id ∈ library.without ids ↔ id ∈ library.ids ∧ id ∉ ids := by
  simp [without]

/-- Results that are changed one by one fail where they did. -/
theorem Selection.all_map (change : List Int64 → List Int64) (results : List Selection) :
    all (results.map fun result => result.map change) = (all results).map (List.map change) := by
  induction results with
  | nil => rfl
  | cons result rest ih =>
      rw [List.map_cons, all, all, ih]
      cases result with
      | error cause => rfl
      | ok ids => cases all rest <;> rfl

namespace Catalog

variable {catalog : Catalog} {node base : Collection} {operands : List Collection}

/-! ### What the operators select -/

theorem evaluate_union (h : node.Applies .union operands) :
    catalog.evaluate node = (Selection.all (operands.map catalog.evaluate)).map ascending := by
  rw [evaluate_eq_layer h, layer]
  simp only [h.kind]
  cases Selection.all (operands.map catalog.evaluate) <;> rfl

theorem evaluate_intersection (h : node.Applies .intersection operands) :
    catalog.evaluate node = (Selection.all (operands.map catalog.evaluate)).map common := by
  rw [evaluate_eq_layer h, layer]
  simp only [h.kind]
  cases Selection.all (operands.map catalog.evaluate) with
  | error cause => rfl
  | ok parts => cases parts <;> rfl

theorem evaluate_complement (h : node.Applies .complement [base]) :
    catalog.evaluate node = (catalog.evaluate base).map catalog.library.without := by
  rw [evaluate_eq_layer h, layer]
  simp only [h.kind, List.map_singleton, Selection.first]
  cases catalog.evaluate base <;> rfl

/-- Complements of some operands, evaluated together. -/
theorem all_complements {opposites : List Collection} (h : List.Forall₂ (fun opposite base =>
      Collection.Applies opposite .complement [base]) opposites operands) :
    Selection.all (opposites.map catalog.evaluate) =
      (Selection.all (operands.map catalog.evaluate)).map (List.map catalog.library.without) := by
  rw [← Selection.all_map, List.map_map]
  congr 1
  induction h with
  | nil => rfl
  | cons hopposite _ ih =>
      rw [List.map_cons, List.map_cons, evaluate_complement hopposite, ih]
      rfl

end Catalog

/-! ### Laws of sets -/

namespace Library

variable {library : Library}

/-- Outside of a union is outside of each of its parts. -/
theorem without_ascending {parts : List (List Int64)} (h : parts ≠ []) :
    library.without (ascending parts) = common (parts.map library.without) := by
  obtain ⟨first, others, rfl⟩ := List.exists_cons_of_ne_nil h
  have hcommon : (common ((first :: others).map library.without)).Pairwise (· < ·) :=
    (library.pairwise_without first).filter _
  refine (library.pairwise_without _).eq_of_mem_iff hcommon fun id => ?_
  rw [mem_without, mem_ascending, mem_common (by simp), List.forall_mem_map]
  simp only [mem_without]
  constructor
  · rintro ⟨hid, hnone⟩ part hpart
    exact ⟨hid, fun hmem => hnone ⟨part, hpart, hmem⟩⟩
  · intro hall
    refine ⟨(hall first List.mem_cons_self).1, ?_⟩
    rintro ⟨part, hpart, hmem⟩
    exact (hall part hpart).2 hmem

/-- Outside of an intersection is outside of some of its parts. -/
theorem without_common {parts : List (List Int64)} (h : parts ≠ []) :
    library.without (common parts) = ascending (parts.map library.without) := by
  refine (library.pairwise_without _).eq_of_mem_iff (pairwise_ascending _) fun id => ?_
  rw [mem_without, mem_common h, mem_ascending]
  simp only [List.mem_map, exists_exists_and_eq_and, mem_without, not_forall, exists_prop]
  constructor
  · rintro ⟨hid, part, hpart, hout⟩
    exact ⟨part, hpart, hid, hout⟩
  · rintro ⟨part, hpart, hid, hout⟩
    exact ⟨hid, part, hpart, hout⟩

/-- What is not outside is inside. -/
theorem without_without {ids : List Int64} (h : ids ⊆ library.ids) :
    library.without (library.without ids) = ascending [ids] := by
  refine (library.pairwise_without _).eq_of_mem_iff (pairwise_ascending _) fun id => ?_
  rw [mem_without, mem_without, mem_ascending]
  simp only [List.mem_singleton, exists_eq_left, not_and, not_not]
  -- what the given ids have outside of the library would be lost
  exact ⟨fun hid => hid.2 hid.1, fun hid => ⟨h hid, fun _ => hid⟩⟩

end Library

namespace Catalog

/-- Two collections select the same ids, ascending, or fail alike. -/
def SelectAlike (catalog : Catalog) (left right : Collection) : Prop :=
  catalog.evaluate left = catalog.evaluate right ∧
    ∀ ids, catalog.evaluate left = .ok ids → ids.Pairwise (· < ·)

variable {catalog : Catalog}

/-- A complement always ascends. -/
theorem selectAlike_of_complement {outside base other : Collection}
    (houtside : outside.Applies .complement [base])
    (h : catalog.evaluate outside = catalog.evaluate other) :
    catalog.SelectAlike outside other := by
  refine ⟨h, fun ids hids => ?_⟩
  rw [evaluate_complement houtside] at hids
  cases hbase : catalog.evaluate base with
  | error cause =>
      rw [hbase] at hids
      exact nomatch hids
  | ok selected =>
      rw [hbase] at hids
      exact Except.ok.inj hids ▸ catalog.library.pairwise_without selected

/-- There is a result for each of some operands. -/
theorem ne_nil_of_all_ok {operands : List Collection} (h : operands ≠ [])
    {parts : List (List Int64)} (hall : Selection.all (operands.map catalog.evaluate) = .ok parts) :
    parts ≠ [] := by
  rintro rfl
  exact h (List.map_eq_nil_iff.mp (Selection.eq_of_all_ok hall))

/-- Outside of all of some collections is outside of each; outside of what they have in common is
outside of one or another; and what is not outside of a collection is what it selects, each id
once. Both sides select the same ids in ascending order, or the same collection fails first. -/
theorem evaluate_boolean (catalog : Catalog) :
    (∀ bases opposites : List Collection, bases ≠ [] →
      List.Forall₂ (fun opposite base => opposite.Applies .complement [base]) opposites bases →
      (∀ any outside each : Collection, any.Applies .union bases →
        outside.Applies .complement [any] → each.Applies .intersection opposites →
        catalog.SelectAlike outside each) ∧
      ∀ both outside some : Collection, both.Applies .intersection bases →
        outside.Applies .complement [both] → some.Applies .union opposites →
        catalog.SelectAlike outside some) ∧
    ∀ base opposite inside alone : Collection, opposite.Applies .complement [base] →
      inside.Applies .complement [opposite] → alone.Applies .union [base] →
      catalog.SelectAlike inside alone := by
  refine ⟨fun bases opposites hbases hopposites => ⟨?_, ?_⟩, ?_⟩
  · intro any outside each hany houtside heach
    refine selectAlike_of_complement houtside ?_
    rw [evaluate_complement houtside, evaluate_union hany, evaluate_intersection heach,
      all_complements hopposites]
    cases hall : Selection.all (bases.map catalog.evaluate) with
    | error cause => rfl
    | ok parts =>
        exact congrArg Except.ok (Library.without_ascending (ne_nil_of_all_ok hbases hall))
  · intro both outside some hboth houtside hsome
    refine selectAlike_of_complement houtside ?_
    rw [evaluate_complement houtside, evaluate_intersection hboth, evaluate_union hsome,
      all_complements hopposites]
    cases hall : Selection.all (bases.map catalog.evaluate) with
    | error cause => rfl
    | ok parts => exact congrArg Except.ok (Library.without_common (ne_nil_of_all_ok hbases hall))
  · intro base opposite inside alone hopposite hinside halone
    refine selectAlike_of_complement hinside ?_
    rw [evaluate_complement hinside, evaluate_complement hopposite, evaluate_union halone,
      List.map_singleton]
    cases hbase : catalog.evaluate base with
    | error cause => rfl
    | ok ids =>
        exact congrArg Except.ok
          (Library.without_without (catalog.select_subset_library [] base ids hbase))

/-- Four entries. -/
def fourEntries : Catalog where
  library := ((((Library.empty.add []).2.add []).2.add []).2.add []).2
  store := .empty

/-- Two lists of entries, with a repetition and with an entry that is not there. -/
def twoLists : List Collection := [.node 0 .idlist [] [] [3, 1, 3], .node 1 .idlist [] [] [1, 9, 4]]

def otherwise : List Collection := twoLists.map fun base => (Collection.complement base 2).1

def inEither : Collection := (Collection.union twoLists 3).1

def inBoth : Collection := (Collection.intersection twoLists 3).1

theorem evaluate_boolean_twoLists :
    twoLists ≠ [] ∧
      List.Forall₂ (fun opposite base => Collection.Applies opposite .complement [base]) otherwise
        twoLists ∧
      fourEntries.SelectAlike (Collection.complement inEither 4).1
        (Collection.intersection otherwise 4).1 ∧
      fourEntries.evaluate (Collection.complement inEither 4).1 = .ok [2] ∧
      fourEntries.SelectAlike (Collection.complement inBoth 4).1 (Collection.union otherwise 4).1 ∧
      fourEntries.evaluate (Collection.complement inBoth 4).1 = .ok [2, 3, 4] ∧
      fourEntries.SelectAlike (Collection.complement (Collection.complement inBoth 4).1 5).1
        (Collection.union [inBoth] 4).1 := by
  have hopposites : List.Forall₂ (fun opposite base =>
      Collection.Applies opposite .complement [base]) otherwise twoLists := by
    rw [otherwise, List.forall₂_map_left_iff, List.forall₂_same]
    exact fun base _ => Collection.applies_complement base 2
  have hcomplement : fourEntries.evaluate
      (.node 4 .complement [] [.node 3 .union [] twoLists []] []) = .ok [2] := by cbv
  have hcomplement' : fourEntries.evaluate
      (.node 4 .complement [] [.node 3 .intersection [] twoLists []] []) = .ok [2, 3, 4] := by cbv
  obtain ⟨hlists, hdouble⟩ := evaluate_boolean fourEntries
  obtain ⟨heither, hboth⟩ := hlists twoLists otherwise (List.cons_ne_nil _ _) hopposites
  exact ⟨List.cons_ne_nil _ _, hopposites,
    heither _ _ _ (Collection.applies_union _ 3) (Collection.applies_complement _ 4)
      (Collection.applies_intersection _ 4),
    hcomplement,
    hboth _ _ _ (Collection.applies_intersection _ 3) (Collection.applies_complement _ 4)
      (Collection.applies_union _ 4),
    hcomplement',
    hdouble _ _ _ _ (Collection.applies_complement _ 4) (Collection.applies_complement _ 5)
      (Collection.applies_union _ 4)⟩

end Catalog

end MediaCatalog
