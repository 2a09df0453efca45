import MediaCatalog.Proofs.Catalog.Layer
import MediaCatalog.Proofs.Decimal.NotANumber

/-!
Filters. A filter node keeps the ids of its base that pass a test of one property, in their order,
and the base is the whole library if the node has no operand. A test for equality finds an entry by
the value that it has, unless that value is read as NaN: texts that name NaN count as numbers like
any other numeral, and NaN equals nothing, not even itself.
-/

namespace MediaCatalog

/-! ### What equals itself -/

namespace Value

/-- A value that is read as NaN: any NaN, or a text that names it between blanks. -/
def ReadsNaN : Value → Prop
  | float number => number.isNaN
  | string text => Decimal.NamesNaN (Text.trim text)
  | _ => False

instance (value : Value) : Decidable value.ReadsNaN :=
  match value with
  | float number => inferInstanceAs (Decidable number.isNaN)
  | string text => inferInstanceAs (Decidable (Decimal.NamesNaN (Text.trim text)))
  | none | int _ | binary _ | list _ | dict _ | collection _ | error _ =>
    inferInstanceAs (Decidable False)

@[simp] theorem number?_int (number : Int64) :
    (int number).number? = some (.ofInt number.toInt) := rfl

@[simp] theorem number?_float (number : Double) : (float number).number? = some number := rfl

@[simp] theorem number?_string (text : String) :
    (string text).number? = Decimal.parse? (Text.trim text) := by
  simp only [number?, float?, string?, Option.bind_some]

theorem any_isNaN_number?_iff {value : Value} :
    value.number?.any Double.isNaN ↔ value.ReadsNaN := by
  cases value with
  | int number => exact iff_of_false (Decimal.not_isNaN_ofInt _) id
  | float number => rfl
  | string text =>
      rw [number?_string, Decimal.any_isNaN_parse?_iff]
      rfl
  | none | binary | list | dict | collection | error => exact iff_of_false Bool.false_ne_true id

/-- A value equals itself unless it is read as NaN. -/
theorem alike_self_iff {value : Value} : value.alike value ↔ ¬ value.ReadsNaN := by
  rw [← any_isNaN_number?_iff, alike]
  cases value.number? with
  | none => simp
  | some number => exact Double.beq_self_iff

end Value

/-! ### Filter nodes -/

/-- A node that tests the entries of a base, or of the whole library. -/
structure Collection.Tests (node : Collection) (filter : Filter) (base : Option Collection) :
    Prop where
  kind : node.kind = .filter
  test : Filter.ofNode node = .ok filter
  operand : node.operand? = base

/-- A node that tests a property of the entries of a base against a value. -/
structure Collection.Filters (node : Collection) (predicate : Predicate) (field : String)
    (value : Value) (base : Option Collection) : Prop where
  kind : node.kind = .filter
  test : Filter.ofNode node = .ok { predicate, field, expected := some value }
  operand : node.operand? = base

theorem Collection.Filters.tests {node : Collection} {predicate : Predicate} {field : String}
    {value : Value} {base : Option Collection} (h : node.Filters predicate field value base) :
    node.Tests { predicate, field, expected := some value } base :=
  ⟨h.kind, h.test, h.operand⟩

/-- Presence can be tested without a value. -/
theorem Collection.tests_has (field : String) (base : Option Collection) (next : NodeId) :
    (Collection.filter .has field .none base next).1.Tests
      { predicate := .has, field, expected := none } base := by
  cases base <;> exact ⟨rfl, rfl, rfl⟩

/-- The builder makes such nodes. -/
theorem Collection.filters_filter (predicate : Predicate) (field : String) {value : Value}
    (h : value ≠ .none) (base : Option Collection) (next : NodeId) :
    (Collection.filter predicate field value base next).1.Filters predicate field value base := by
  have hvalue : value.isNone = false := by
    cases value with
    | none => exact absurd rfl h
    | int | float | string | binary | list | dict | collection | error => rfl
  have hnode : (Collection.filter predicate field value base next).1 =
      .node next .filter [(Attribute.type, .string predicate.name),
        (Attribute.field, .string field), (Attribute.value, value)] base.toList [] := by
    rw [Collection.filter, hvalue]
    rfl
  rw [hnode]
  refine ⟨rfl, ?_, ?_⟩
  · cases predicate <;> rfl
  · cases base <;> rfl

namespace Catalog

variable {catalog : Catalog}

/-- The ids among which a filter looks: those of its base, or all there are. -/
def searched (catalog : Catalog) (base : Option Collection) : Selection :=
  match base with
  | none => .ok catalog.library.ids
  | some base => catalog.evaluate base

/-- Whether an entry passes a test. -/
def passes (catalog : Catalog) (filter : Filter) (id : Int64) : Bool :=
  filter.accepts (catalog.library.property? id filter.field)

/-- A node that makes a test keeps what passes it, in the order in which it was. -/
theorem evaluate_of_tests {node : Collection} {filter : Filter} {base : Option Collection}
    (h : node.Tests filter base) : catalog.evaluate node =
      (catalog.searched base).map fun ids => ids.filter (catalog.passes filter) := by
  have happlies : node.Applies .filter base.toList := by
    refine ⟨h.kind, ?_⟩
    rw [Collection.inputs, h.kind, ← h.operand, Collection.operand?]
    cases node.operands <;> rfl
  rw [evaluate_eq_layer happlies, layer]
  simp only [h.kind, h.test]
  cases base with
  | none => rfl
  | some base =>
      simp only [Option.toList_some, List.map_singleton, searched]
      cases catalog.evaluate base <;> rfl

/-- A filter keeps what passes its test, in the order in which it was. -/
theorem evaluate_of_filters {node : Collection} {predicate : Predicate} {field : String}
    {value : Value} {base : Option Collection} (h : node.Filters predicate field value base) :
    catalog.evaluate node = (catalog.searched base).map fun ids => ids.filter fun id =>
      Filter.accepts { predicate, field, expected := some value }
        (catalog.library.property? id field) :=
  evaluate_of_tests h.tests

/-! ### Looking for a value that is there -/

variable {base : Option Collection} {ids : List Int64} {id : Int64} {field : String} {value : Value}
  {equal unequal : Collection}

/-- Looking for the value that an entry has finds the entry, and looking for others passes it over,
exactly if the value is not read as NaN. Otherwise it is the other way round. -/
theorem mem_equal_iff_not_readsNaN (hbase : catalog.searched base = .ok ids) (hid : id ∈ ids)
    (hvalue : catalog.library.property? id field = some value)
    (hequal : equal.Filters .equals field value base)
    (hunequal : unequal.Filters .notEqual field value base) :
    ∃ found others, catalog.evaluate equal = .ok found ∧ catalog.evaluate unequal = .ok others ∧
      (id ∈ found ↔ ¬ value.ReadsNaN) ∧ (id ∈ others ↔ value.ReadsNaN) := by
  rw [evaluate_of_filters hequal, evaluate_of_filters hunequal, hbase]
  refine ⟨_, _, rfl, rfl, ?_, ?_⟩
  · rw [List.mem_filter, and_iff_right hid, hvalue]
    exact Value.alike_self_iff
  · have haccepts : Filter.accepts ⟨.notEqual, field, some value⟩ (some value) =
        !value.alike value := rfl
    rw [List.mem_filter, and_iff_right hid, hvalue, haccepts, Bool.not_eq_true',
      ← Bool.not_eq_true, Value.alike_self_iff, not_not]

/-- Two songs. -/
def grandmothers : Catalog where
  library := ((Library.empty.add [("title", .string "Nan")]).2.add
    [("title", .string "Nana")]).2
  store := .empty

def everySong : Collection := .node 0 .everything [] [] []

theorem searched_everySong : grandmothers.searched (some everySong) = .ok [1, 2] := by
  rw [searched, evaluate, everySong, select]
  exact congrArg Except.ok (by decide)

/-- The longer title is no numeral. -/
theorem mem_equal_iff_not_readsNaN_nana :
    grandmothers.searched (some everySong) = .ok [1, 2] ∧
      grandmothers.library.property? 2 "title" = some (.string "Nana") ∧
      ∃ found others,
        grandmothers.evaluate
            (Collection.filter .equals "title" (.string "Nana") (some everySong) 1).1 =
          .ok found ∧
        grandmothers.evaluate
            (Collection.filter .notEqual "title" (.string "Nana") (some everySong) 1).1 =
          .ok others ∧
        (2 ∈ found ↔ ¬ (Value.string "Nana").ReadsNaN) ∧
        (2 ∈ others ↔ (Value.string "Nana").ReadsNaN) :=
  ⟨searched_everySong, by rfl,
    mem_equal_iff_not_readsNaN searched_everySong (by decide) (by rfl)
      (Collection.filters_filter .equals "title" (by simp) (some everySong) 1)
      (Collection.filters_filter .notEqual "title" (by simp) (some everySong) 1)⟩

/-- The shorter one is not found by itself, and it passes for another. -/
theorem evaluate_equal_nan :
    grandmothers.evaluate everySong = .ok [1, 2] ∧
      grandmothers.library.property? 1 "title" = some (.string "Nan") ∧
      grandmothers.evaluate
          (Collection.filter .equals "title" (.string "Nan") (some everySong) 1).1 =
        .ok [] ∧
      grandmothers.evaluate
          (Collection.filter .notEqual "title" (.string "Nan") (some everySong) 1).1 =
        .ok [1, 2] := by
  refine ⟨searched_everySong, by rfl, ?_, ?_⟩
  · rw [evaluate_of_filters
        (Collection.filters_filter .equals "title" (by simp) (some everySong) 1),
      searched_everySong]
    decide
  · rw [evaluate_of_filters
        (Collection.filters_filter .notEqual "title" (by simp) (some everySong) 1),
      searched_everySong]
    decide

end Catalog

end MediaCatalog
