import MediaCatalog.Fetch.Run
import MediaCatalog.Proofs.Catalog.CompositeOrder
import MediaCatalog.Proofs.Catalog.Filtering
import MediaCatalog.Proofs.Decimal.DoubleOrder

/-!
Comparing integers. Sorting, the extremes and the filters all see an integer as the double nearest
to it, so they compare integers as they are only as long as no two different ones share a nearest
double. Integers from `-2 ^ 53` to `2 ^ 53` never do.
-/

namespace MediaCatalog

/-! ### Two integers -/

section Values

variable (first second : Int64)

theorem Value.compare_int :
    Value.compare (.int first) (.int second) =
      Ord.compare (Decimal.widened first.toInt) (Decimal.widened second.toInt) :=
  Decimal.compare_totalRank_ofInt first second

theorem Value.alike_int :
    Value.alike (.int first) (.int second) ↔
      Decimal.widened first.toInt = Decimal.widened second.toInt :=
  Decimal.ofInt_beq_ofInt_iff first second

theorem Filter.below_int :
    Filter.below (.int first) (.int second) ↔
      Decimal.widened first.toInt < Decimal.widened second.toInt :=
  decide_eq_true_iff.trans (Decimal.ofInt_lt_ofInt_iff first second)

end Values

/-! ### Extremes -/

namespace Aggregate

section Folds

variable {keep : Value → Value → Value}

/-- A fold that keeps one of two values at each step ends with one of the values. -/
theorem foldl_mem (hkeep : ∀ best next, keep best next = best ∨ keep best next = next)
    (head : Value) (rest : List Value) : rest.foldl keep head ∈ head :: rest := by
  induction rest generalizing head with
  | nil => exact List.mem_cons_self
  | cons next rest ih =>
      rw [List.foldl_cons]
      rcases List.mem_cons.mp (ih (keep head next)) with hfirst | hrest
      · rw [hfirst]
        rcases hkeep head next with hhead | hnext
        · rw [hhead]
          exact List.mem_cons_self
        · rw [hnext]
          exact List.mem_cons_of_mem _ List.mem_cons_self
      · exact List.mem_cons_of_mem _ (List.mem_cons_of_mem _ hrest)

/-- If what is kept comes behind both, the last one kept comes behind all. -/
theorem before_foldl (before : Value → Value → Prop) (hrefl : ∀ value, before value value)
    (htrans : ∀ {first second third}, before first second → before second third →
      before first third)
    (hbest : ∀ best next, before best (keep best next))
    (hnext : ∀ best next, before next (keep best next)) (head : Value) (rest : List Value) :
    ∀ value ∈ head :: rest, before value (rest.foldl keep head) := by
  induction rest generalizing head with
  | nil =>
      intro value hvalue
      rw [List.mem_singleton.mp hvalue]
      exact hrefl head
  | cons next rest ih =>
      have hkept := ih (keep head next) (keep head next) List.mem_cons_self
      rw [List.foldl_cons, List.forall_mem_cons, List.forall_mem_cons]
      exact ⟨htrans (hbest head next) hkept, htrans (hnext head next) hkept,
        fun value hvalue => ih (keep head next) value (List.mem_cons_of_mem _ hvalue)⟩

end Folds

theorem isLE_compare_self (value : Value) : (value.compare value).isLE :=
  Std.ReflCmp.isLE_rfl

theorem isLE_of_compare_eq_gt {first second : Value} (h : first.compare second = .gt) :
    (second.compare first).isLE := by
  have hswap : second.compare first = (first.compare second).swap := Std.OrientedCmp.eq_swap
  rw [hswap, h]
  rfl

theorem isLE_of_compare_ne_gt {first second : Value} (h : first.compare second ≠ .gt) :
    (first.compare second).isLE :=
  Ordering.isLE_iff_ne_gt.mpr h

variable {values : List Value}

theorem largest_mem (h : values ≠ []) : largest values ∈ values := by
  cases values with
  | nil => exact absurd rfl h
  | cons head rest =>
      refine foldl_mem (fun best next => ?_) head rest
      split
      · exact .inl rfl
      · exact .inr rfl

theorem smallest_mem (h : values ≠ []) : smallest values ∈ values := by
  cases values with
  | nil => exact absurd rfl h
  | cons head rest =>
      refine foldl_mem (fun best next => ?_) head rest
      split
      · exact .inr rfl
      · exact .inl rfl

theorem compare_largest {value : Value} (h : value ∈ values) :
    (value.compare (largest values)).isLE := by
  cases values with
  | nil => exact absurd h List.not_mem_nil
  | cons head rest =>
      refine before_foldl (fun first second => (first.compare second).isLE)
        isLE_compare_self Std.TransCmp.isLE_trans (fun best next => ?_) (fun best next => ?_)
        head rest value h
      · split
        · exact isLE_compare_self best
        · next hle => exact isLE_of_compare_ne_gt hle
      · split
        · next hgt => exact isLE_of_compare_eq_gt hgt
        · exact isLE_compare_self next

theorem compare_smallest {value : Value} (h : value ∈ values) :
    ((smallest values).compare value).isLE := by
  cases values with
  | nil => exact absurd h List.not_mem_nil
  | cons head rest =>
      refine before_foldl (fun first second => (second.compare first).isLE)
        isLE_compare_self (fun hfirst hsecond => Std.TransCmp.isLE_trans hsecond hfirst)
        (fun best next => ?_) (fun best next => ?_) head rest value h
      · split
        · next hgt => exact isLE_of_compare_eq_gt hgt
        · exact isLE_compare_self best
      · split
        · exact isLE_compare_self next
        · next hle => exact isLE_of_compare_ne_gt hle

theorem fold_max (h : values ≠ []) (seed : UInt64) : fold .max seed values = largest values := by
  cases values with
  | nil => exact absurd rfl h
  | cons head rest => rfl

theorem fold_min (h : values ≠ []) (seed : UInt64) : fold .min seed values = smallest values := by
  cases values with
  | nil => exact absurd rfl h
  | cons head rest => rfl

end Aggregate

/-! ### The order of one property -/

namespace SortKey

variable {property : String}

theorem descends_of_head (h : property.toList.head? ≠ some '-') : descends property = false :=
  decide_eq_false h

theorem named_of_head (h : property.toList.head? ≠ some '-') : named property = property := by
  rw [named, descends_of_head h]
  rfl

theorem descends_dash (property : String) : descends ("-" ++ property) = true := by
  rw [descends, String.toList_append]
  rfl

theorem named_dash (property : String) : named ("-" ++ property) = property := by
  rw [named, if_pos (descends_dash property), String.toList_append]
  exact String.ofList_toList

end SortKey

namespace Catalog

/-- Under the property, all these entries have integers. -/
def HasIntegers (catalog : Catalog) (ids : List Int64) (property : String)
    (number : Int64 → Int64) : Prop :=
  ∀ id ∈ ids, catalog.library.property? id property = some (.int (number id))

section Integers

variable {catalog : Catalog} {collection : Collection} {ids : List Int64} {property : String}
  {number : Int64 → Int64}

/-- Ordering by the property, upwards or downwards, puts the nearest doubles in order. -/
theorem evaluate_ordered_integers (hbase : catalog.evaluate collection = .ok ids)
    (hintegers : catalog.HasIntegers ids property number) (hid : property ≠ "id")
    (hrandom : property ≠ "random") {key : String} (hkey : SortKey.named key = property)
    (next : NodeId) :
    ∃ sorted, catalog.evaluate (collection.ordered [key] next).1 = .ok sorted ∧
      sorted.Perm ids ∧ sorted.Pairwise fun left right =>
        if SortKey.descends key then
          Decimal.widened (number right).toInt ≤ Decimal.widened (number left).toInt
        else Decimal.widened (number left).toInt ≤ Decimal.widened (number right).toInt := by
  have hparse : SortKey.parse key = .property property (SortKey.descends key) := by
    rw [SortKey.parse_eq, hkey, if_neg hrandom, if_neg hid]
  have hkeys : ∀ other ∈ [key], SortKey.parse other ≠ .random := by
    intro other hother
    rw [List.mem_singleton.mp hother, hparse]
    exact SortKey.noConfusion
  have hstable := catalog.stableSort_sorted hkeys ids
  refine ⟨catalog.sorted [key] ids, ?_, hstable.perm, ?_⟩
  · rw [evaluate] at hbase ⊢
    rw [select_ordered, hbase]
    rfl
  · refine hstable.ascending.imp_of_mem fun {left right} hleft hright h => ?_
    have hcompare : catalog.library.compareByAll [key] left right =
        if SortKey.descends key then
          (compare (Decimal.widened (number left).toInt)
            (Decimal.widened (number right).toInt)).swap
        else
          compare (Decimal.widened (number left).toInt) (Decimal.widened (number right).toInt) := by
      rw [Library.compareByAll, compareLex, Library.compareByAll, Ordering.then_eq,
        Library.compareBy, hkey, if_neg (show property ≠ Library.idProperty from hid),
        hintegers left (hstable.perm.mem_iff.mp hleft),
        hintegers right (hstable.perm.mem_iff.mp hright)]
      dsimp only
      rw [Value.compare_int]
    rw [hcompare] at h
    split at h
    · next hdescends =>
      rw [if_pos hdescends]
      rwa [← Std.OrientedOrd.eq_swap, Std.isLE_compare] at h
    · next hascends =>
      rw [if_neg hascends]
      exact Std.isLE_compare.mp h

theorem HasIntegers.values_eq (h : catalog.HasIntegers ids property number) :
    ids.filterMap (catalog.library.property? · property) =
      ids.map fun id => Value.int (number id) := by
  rw [← List.filterMap_eq_map]
  exact List.filterMap_congr h

/-- The largest value is one of the integers, and no nearest double lies above its own. -/
theorem HasIntegers.aggregate_max (h : catalog.HasIntegers ids property number)
    (hsome : ids ≠ []) :
    ∃ id ∈ ids, catalog.aggregate ids property .max = .int (number id) ∧
      ∀ other ∈ ids,
        Decimal.widened (number other).toInt ≤ Decimal.widened (number id).toInt := by
  have hvalues : (ids.map fun id => Value.int (number id)) ≠ [] := mt List.map_eq_nil_iff.mp hsome
  obtain ⟨id, hid, hlargest⟩ := List.mem_map.mp (Aggregate.largest_mem hvalues)
  refine ⟨id, hid, ?_, fun other hother => ?_⟩
  · rw [aggregate, h.values_eq, Aggregate.fold_max hvalues, hlargest]
  · have hle := Aggregate.compare_largest
      (List.mem_map_of_mem (f := fun id => Value.int (number id)) hother)
    rwa [← hlargest, Value.compare_int, Std.isLE_compare] at hle

/-- The smallest value is one of the integers, and no nearest double lies below its own. -/
theorem HasIntegers.aggregate_min (h : catalog.HasIntegers ids property number)
    (hsome : ids ≠ []) :
    ∃ id ∈ ids, catalog.aggregate ids property .min = .int (number id) ∧
      ∀ other ∈ ids,
        Decimal.widened (number id).toInt ≤ Decimal.widened (number other).toInt := by
  have hvalues : (ids.map fun id => Value.int (number id)) ≠ [] := mt List.map_eq_nil_iff.mp hsome
  obtain ⟨id, hid, hsmallest⟩ := List.mem_map.mp (Aggregate.smallest_mem hvalues)
  refine ⟨id, hid, ?_, fun other hother => ?_⟩
  · rw [aggregate, h.values_eq, Aggregate.fold_min hvalues, hsmallest]
  · have hle := Aggregate.compare_smallest
      (List.mem_map_of_mem (f := fun id => Value.int (number id)) hother)
    rwa [← hsmallest, Value.compare_int, Std.isLE_compare] at hle

/-! ### Everything that compares -/

/-- A filter of these ids by the property keeps those that pass a test of their integer. -/
def FiltersBy (catalog : Catalog) (collection : Collection) (ids : List Int64) (property : String)
    (predicate : Predicate) (expected : Int64) (test : Int64 → Bool) : Prop :=
  ∀ node : Collection, node.Filters predicate property (.int expected) (some collection) →
    catalog.evaluate node = .ok (ids.filter test)

/-- Ordering, extremes and filters go by a view of the integers that the matches of a collection
have under a property. The filters ask for certain integers. -/
structure ComparesBy (view : Int → Int) (asked : Int64 → Prop) (catalog : Catalog)
    (collection : Collection) (ids : List Int64) (property : String) (number : Int64 → Int64) :
    Prop where
  upwards (next : NodeId) :
    ∃ sorted, catalog.evaluate (collection.ordered [property] next).1 = .ok sorted ∧
      sorted.Perm ids ∧
      sorted.Pairwise fun left right => view (number left).toInt ≤ view (number right).toInt
  downwards (next : NodeId) :
    ∃ sorted, catalog.evaluate (collection.ordered ["-" ++ property] next).1 = .ok sorted ∧
      sorted.Perm ids ∧
      sorted.Pairwise fun left right => view (number right).toInt ≤ view (number left).toInt
  largest (h : ids ≠ []) :
    ∃ id ∈ ids, catalog.aggregate ids property .max = .int (number id) ∧
      ∀ other ∈ ids, view (number other).toInt ≤ view (number id).toInt
  smallest (h : ids ≠ []) :
    ∃ id ∈ ids, catalog.aggregate ids property .min = .int (number id) ∧
      ∀ other ∈ ids, view (number id).toInt ≤ view (number other).toInt
  equal (expected : Int64) (h : asked expected) :
    catalog.FiltersBy collection ids property .equals expected fun id =>
      view (number id).toInt = view expected.toInt
  unequal (expected : Int64) (h : asked expected) :
    catalog.FiltersBy collection ids property .notEqual expected fun id =>
      view (number id).toInt ≠ view expected.toInt
  smaller (expected : Int64) (h : asked expected) :
    catalog.FiltersBy collection ids property .smaller expected fun id =>
      view (number id).toInt < view expected.toInt
  greater (expected : Int64) (h : asked expected) :
    catalog.FiltersBy collection ids property .greater expected fun id =>
      view expected.toInt < view (number id).toInt

theorem FiltersBy.congr {predicate : Predicate} {expected : Int64} {test test' : Int64 → Bool}
    (h : catalog.FiltersBy collection ids property predicate expected test)
    (htest : ∀ id ∈ ids, test id = test' id) :
    catalog.FiltersBy collection ids property predicate expected test' := by
  intro node hnode
  rw [h node hnode, List.filter_congr htest]

theorem HasIntegers.filtersBy (h : catalog.HasIntegers ids property number)
    (hbase : catalog.evaluate collection = .ok ids) {predicate : Predicate} {expected : Int64}
    {test : Int64 → Bool}
    (htest : ∀ id, Filter.accepts ⟨predicate, property, some (.int expected)⟩
      (some (.int (number id))) = test id) :
    catalog.FiltersBy collection ids property predicate expected test := by
  intro node hnode
  have hsearched : catalog.searched (some collection) = .ok ids := hbase
  rw [evaluate_of_filters hnode, hsearched]
  refine congrArg Except.ok (List.filter_congr fun id hid => ?_)
  rw [h id hid, htest]

theorem HasIntegers.comparesBy_widened (h : catalog.HasIntegers ids property number)
    (hbase : catalog.evaluate collection = .ok ids) (hid : property ≠ "id")
    (hrandom : property ≠ "random") (hdash : property.toList.head? ≠ some '-') :
    ComparesBy Decimal.widened (fun _ => True) catalog collection ids property number where
  upwards next := by
    obtain ⟨sorted, hsorted, hperm, hpairwise⟩ := evaluate_ordered_integers hbase h hid hrandom
      (SortKey.named_of_head hdash) next
    rw [SortKey.descends_of_head hdash] at hpairwise
    exact ⟨sorted, hsorted, hperm, hpairwise⟩
  downwards next := by
    obtain ⟨sorted, hsorted, hperm, hpairwise⟩ := evaluate_ordered_integers hbase h hid hrandom
      (SortKey.named_dash property) next
    rw [SortKey.descends_dash] at hpairwise
    exact ⟨sorted, hsorted, hperm, hpairwise⟩
  largest := h.aggregate_max
  smallest := h.aggregate_min
  equal expected _ := h.filtersBy hbase fun id => by
    rw [Bool.eq_iff_iff, decide_eq_true_iff]
    exact Value.alike_int _ _
  unequal expected _ := h.filtersBy hbase fun id => by
    have haccepts : Filter.accepts ⟨.notEqual, property, some (.int expected)⟩
        (some (.int (number id))) = !Value.alike (.int (number id)) (.int expected) := rfl
    rw [haccepts, Bool.eq_iff_iff, Bool.not_eq_true', decide_eq_true_iff, ← Bool.not_eq_true,
      Value.alike_int]
  smaller expected _ := h.filtersBy hbase fun id => by
    rw [Bool.eq_iff_iff, decide_eq_true_iff]
    exact Filter.below_int _ _
  greater expected _ := h.filtersBy hbase fun id => by
    rw [Bool.eq_iff_iff, decide_eq_true_iff]
    exact Filter.below_int _ _

/-- The integers that take part in comparisons. -/
def TakesPart (ids : List Int64) (number : Int64 → Int64) (asked : Int64 → Prop)
    (integer : Int64) : Prop :=
  (∃ id ∈ ids, number id = integer) ∨ asked integer

/-- A view can be exchanged for one that orders the integers that take part in the same way. -/
theorem ComparesBy.congr {view view' : Int → Int} {asked : Int64 → Prop}
    (h : ComparesBy view (fun _ => True) catalog collection ids property number)
    (hview : ∀ first second, TakesPart ids number asked first → TakesPart ids number asked second →
      (view first.toInt ≤ view second.toInt ↔ view' first.toInt ≤ view' second.toInt)) :
    ComparesBy view' asked catalog collection ids property number := by
  have hmem {id : Int64} (hid : id ∈ ids) : TakesPart ids number asked (number id) :=
    .inl ⟨id, hid, rfl⟩
  -- Views that agree on `≤` in both directions agree on equality and on `<`.
  have heq {first second : Int64} (hfirst : TakesPart ids number asked first)
      (hsecond : TakesPart ids number asked second) :
      view first.toInt = view second.toInt ↔ view' first.toInt = view' second.toInt := by
    rw [le_antisymm_iff, le_antisymm_iff, hview first second hfirst hsecond,
      hview second first hsecond hfirst]
  have hlt {first second : Int64} (hfirst : TakesPart ids number asked first)
      (hsecond : TakesPart ids number asked second) :
      view first.toInt < view second.toInt ↔ view' first.toInt < view' second.toInt := by
    rw [← not_le, ← not_le, hview second first hsecond hfirst]
  refine ⟨fun next => ?_, fun next => ?_, fun hsome => ?_, fun hsome => ?_,
    fun expected hasked => ?_, fun expected hasked => ?_, fun expected hasked => ?_,
    fun expected hasked => ?_⟩
  · obtain ⟨sorted, hsorted, hperm, hpairwise⟩ := h.upwards next
    exact ⟨sorted, hsorted, hperm, hpairwise.imp_of_mem fun hleft hright =>
      (hview _ _ (hmem (hperm.mem_iff.mp hleft)) (hmem (hperm.mem_iff.mp hright))).mp⟩
  · obtain ⟨sorted, hsorted, hperm, hpairwise⟩ := h.downwards next
    exact ⟨sorted, hsorted, hperm, hpairwise.imp_of_mem fun hleft hright =>
      (hview _ _ (hmem (hperm.mem_iff.mp hright)) (hmem (hperm.mem_iff.mp hleft))).mp⟩
  · obtain ⟨id, hid, hlargest, hle⟩ := h.largest hsome
    exact ⟨id, hid, hlargest, fun other hother =>
      (hview _ _ (hmem hother) (hmem hid)).mp (hle other hother)⟩
  · obtain ⟨id, hid, hsmallest, hle⟩ := h.smallest hsome
    exact ⟨id, hid, hsmallest, fun other hother =>
      (hview _ _ (hmem hid) (hmem hother)).mp (hle other hother)⟩
  · exact (h.equal expected trivial).congr fun id hid =>
      decide_eq_decide.mpr (heq (hmem hid) (.inr hasked))
  · exact (h.unequal expected trivial).congr fun id hid =>
      decide_eq_decide.mpr (heq (hmem hid) (.inr hasked)).not
  · exact (h.smaller expected trivial).congr fun id hid =>
      decide_eq_decide.mpr (hlt (hmem hid) (.inr hasked))
  · exact (h.greater expected trivial).congr fun id hid =>
      decide_eq_decide.mpr (hlt (.inr hasked) (hmem hid))

/-- Integers that are different are taken to be different. -/
def Apart (ids : List Int64) (number : Int64 → Int64) (asked : Int64 → Prop) : Prop :=
  ∀ first second, TakesPart ids number asked first → TakesPart ids number asked second →
    Decimal.widened first.toInt = Decimal.widened second.toInt → first = second

theorem apart_of_abs_le {asked : Int64 → Prop}
    (h : ∀ integer, TakesPart ids number asked integer → |integer.toInt| ≤ 2 ^ 53) :
    Apart ids number asked := by
  intro first second hfirst hsecond hwidened
  rw [Decimal.widened_of_abs_le (h first hfirst),
    Decimal.widened_of_abs_le (h second hsecond)] at hwidened
  exact Int64.toInt_inj.mp hwidened

theorem Apart.widened_le_iff {asked : Int64 → Prop} (h : Apart ids number asked)
    {first second : Int64} (hfirst : TakesPart ids number asked first)
    (hsecond : TakesPart ids number asked second) :
    Decimal.widened first.toInt ≤ Decimal.widened second.toInt ↔ first.toInt ≤ second.toInt := by
  refine ⟨fun hle => ?_, Decimal.widened_mono⟩
  by_contra hgt
  have hge := Decimal.widened_mono (not_le.mp hgt).le
  have hsame := h first second hfirst hsecond (le_antisymm hle hge)
  exact hgt (hsame ▸ le_rfl)

/-- Integers are compared as their nearest doubles. So wherever no two different integers that take
part have one nearest double they are compared as integers, and in particular wherever none of them
is beyond `2 ^ 53` on either side. -/
theorem comparesBy_nearest_doubles (hbase : catalog.evaluate collection = .ok ids)
    (h : catalog.HasIntegers ids property number) (hid : property ≠ "id")
    (hrandom : property ≠ "random") (hdash : property.toList.head? ≠ some '-') :
    ComparesBy Decimal.widened (fun _ => True) catalog collection ids property number ∧
      (∀ asked, Apart ids number asked →
        ComparesBy (fun integer => integer) asked catalog collection ids property number) ∧
      ∀ asked, (∀ integer, TakesPart ids number asked integer → |integer.toInt| ≤ 2 ^ 53) →
        ComparesBy (fun integer => integer) asked catalog collection ids property number := by
  have hwidened := h.comparesBy_widened hbase hid hrandom hdash
  have hexact (asked : Int64 → Prop) (hapart : Apart ids number asked) :
      ComparesBy (fun integer => integer) asked catalog collection ids property number :=
    hwidened.congr fun _ _ hfirst hsecond => hapart.widened_le_iff hfirst hsecond
  exact ⟨hwidened, hexact, fun asked hsmall => hexact asked (apart_of_abs_le hsmall)⟩

end Integers

/-- Two entries with neighbouring integers, the larger one first. -/
def neighbours : Catalog where
  library := ((Library.empty.add [("n", .int 9007199254740993)]).2.add
    [("n", .int 9007199254740992)]).2
  store := .empty

def bothNeighbours : Collection := .node 0 .everything [] [] []

theorem evaluate_bothNeighbours : neighbours.evaluate bothNeighbours = .ok [1, 2] := by
  rw [evaluate, bothNeighbours, select]
  exact congrArg Except.ok (by decide)

def neighbour (id : Int64) : Int64 := if id = 1 then 9007199254740993 else 9007199254740992

theorem hasIntegers_neighbours : neighbours.HasIntegers [1, 2] "n" neighbour := by
  intro id hid
  simp only [List.mem_cons, List.not_mem_nil, or_false] at hid
  rcases hid with rfl | rfl <;> rfl

/-- They have one nearest double, so they are not told apart. -/
theorem comparesBy_nearest_doubles_neighbours :
    neighbours.evaluate bothNeighbours = .ok [1, 2] ∧
      neighbours.HasIntegers [1, 2] "n" neighbour ∧
      ComparesBy Decimal.widened (fun _ => True) neighbours bothNeighbours [1, 2] "n" neighbour ∧
      Decimal.widened 9007199254740993 = Decimal.widened 9007199254740992 :=
  ⟨evaluate_bothNeighbours, hasIntegers_neighbours,
    (comparesBy_nearest_doubles evaluate_bothNeighbours hasIntegers_neighbours (by decide)
      (by decide) (by decide)).1, by decide⟩

/-- The larger one comes first, it is equal to the smaller one, and the smaller one is the
largest. -/
theorem neighbours_not_told_apart :
    neighbours.evaluate bothNeighbours = .ok [1, 2] ∧
      neighbours.HasIntegers [1, 2] "n" neighbour ∧
      neighbours.evaluate (bothNeighbours.ordered ["n"] 1).1 = .ok [1, 2] ∧
      neighbours.aggregate [1, 2] "n" .max = .int 9007199254740992 ∧
      neighbours.evaluate (Collection.filter .equals "n" (.int 9007199254740992)
        (some bothNeighbours) 1).1 = .ok [1, 2] := by
  refine ⟨evaluate_bothNeighbours, hasIntegers_neighbours, ?_, ?_, ?_⟩
  · have hbase := evaluate_bothNeighbours
    have hsorted : neighbours.sorted ["n"] [1, 2] = [1, 2] :=
      List.mergeSort_of_pairwise (by decide)
    rw [evaluate] at hbase ⊢
    rw [select_ordered, hbase]
    exact congrArg Except.ok hsorted
  · rfl
  · have hsearched : neighbours.searched (some bothNeighbours) = .ok [1, 2] :=
      evaluate_bothNeighbours
    rw [evaluate_of_filters
        (Collection.filters_filter .equals "n" (by simp) (some bothNeighbours) 1), hsearched]
    decide

end Catalog

end MediaCatalog
