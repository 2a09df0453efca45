import Mathlib.Data.List.Sort
import MediaCatalog.Proofs.Catalog.Filtering
import MediaCatalog.Proofs.Catalog.SetOperators

/-!
Laws of filters. Whether an entry passes is decided by the entry alone, so filters may change
places, a second time changes nothing, and a filter may be applied to the operands of an
intersection or a union instead of the whole. A test for a value and the test against it share out
what they look at.
-/

namespace MediaCatalog

theorem Filter.accepts_notEqual (field : String) (value : Value) (actual : Option Value) :
    accepts { predicate := .notEqual, field, expected := some value } actual =
      !accepts { predicate := .equals, field, expected := some value } actual := by
  cases actual <;> rfl

theorem filter_common (keep : Int64 → Bool) (first second : List Int64) :
    (common [first, second]).filter keep = common [first.filter keep, second] := by
  rw [common, common, List.filter_comm]

theorem filter_ascending (keep : Int64 → Bool) (parts : List (List Int64)) :
    (ascending parts).filter keep = ascending (parts.map (List.filter keep)) := by
  -- both ascend, so they are the same list if they have the same members
  refine ((pairwise_ascending parts).filter keep).eq_of_mem_iff (pairwise_ascending _) fun id => ?_
  rw [List.mem_filter, mem_ascending, mem_ascending]
  constructor
  · rintro ⟨⟨part, hpart, hid⟩, hkeep⟩
    exact ⟨part.filter keep, List.mem_map_of_mem hpart, List.mem_filter.mpr ⟨hid, hkeep⟩⟩
  · rintro ⟨_, hkept, hid⟩
    obtain ⟨part, hpart, rfl⟩ := List.mem_map.mp hkept
    obtain ⟨hid, hkeep⟩ := List.mem_filter.mp hid
    exact ⟨⟨part, hpart, hid⟩, hkeep⟩

namespace Catalog

variable {catalog : Catalog}

/-- Both collections select ids, and the same ones in the same order. -/
def SelectSame (catalog : Catalog) (left right : Collection) : Prop :=
  ∃ ids, catalog.evaluate left = .ok ids ∧ catalog.evaluate right = .ok ids

theorem evaluate_tests_ok {node base : Collection} {filter : Filter} {ids : List Int64}
    (h : node.Tests filter (some base)) (hbase : catalog.evaluate base = .ok ids) :
    catalog.evaluate node = .ok (ids.filter (catalog.passes filter)) := by
  rw [evaluate_of_tests h, searched, hbase]
  rfl

theorem evaluate_intersection_ok {node first second : Collection} {ids others : List Int64}
    (h : node.Applies .intersection [first, second]) (hfirst : catalog.evaluate first = .ok ids)
    (hsecond : catalog.evaluate second = .ok others) :
    catalog.evaluate node = .ok (common [ids, others]) := by
  rw [evaluate_intersection h, List.map_cons, List.map_singleton, hfirst, hsecond]
  rfl

theorem evaluate_union_ok {node first second : Collection} {ids others : List Int64}
    (h : node.Applies .union [first, second]) (hfirst : catalog.evaluate first = .ok ids)
    (hsecond : catalog.evaluate second = .ok others) :
    catalog.evaluate node = .ok (ascending [ids, others]) := by
  rw [evaluate_union h, List.map_cons, List.map_singleton, hfirst, hsecond]
  rfl

/-- Filters over one collection commute, and each is idempotent. A filter over an intersection is
the intersection with the first operand filtered, and a filter over a union is the union of both
operands filtered. The entries that equal a value in a property and those that do not are
complementary parts of the collection, each in its order, and an entry that lacks the property
belongs to the latter. -/
theorem evaluate_filter_laws {f g : Filter} {a b fa ga fb : Collection} {ids others : List Int64}
    (ha : catalog.evaluate a = .ok ids) (hb : catalog.evaluate b = .ok others)
    (hfa : fa.Tests f (some a)) (hga : ga.Tests g (some a)) (hfb : fb.Tests f (some b)) :
    (∀ fga gfa : Collection, fga.Tests f (some ga) → gfa.Tests g (some fa) →
      catalog.SelectSame fga gfa) ∧
    (∀ ffa : Collection, ffa.Tests f (some fa) → catalog.SelectSame ffa fa) ∧
    (∀ both fboth within : Collection, both.Applies .intersection [a, b] →
      fboth.Tests f (some both) → within.Applies .intersection [fa, b] →
      catalog.SelectSame fboth within) ∧
    (∀ any fany each : Collection, any.Applies .union [a, b] → fany.Tests f (some any) →
      each.Applies .union [fa, fb] → catalog.SelectSame fany each) ∧
    ∀ (field : String) (value : Value) (equal unequal : Collection),
      equal.Filters .equals field value (some a) → unequal.Filters .notEqual field value (some a) →
      ∃ test : Int64 → Bool, catalog.evaluate equal = .ok (ids.filter test) ∧
        catalog.evaluate unequal = .ok (ids.filter fun id => !test id) ∧
        ∀ id, catalog.library.property? id field = none → test id = false := by
  have hfa' := evaluate_tests_ok hfa ha
  have hga' := evaluate_tests_ok hga ha
  have hfb' := evaluate_tests_ok hfb hb
  refine ⟨?_, ?_, ?_, ?_, ?_⟩
  · intro fga gfa hfga hgfa
    refine ⟨_, evaluate_tests_ok hfga hga', ?_⟩
    rw [evaluate_tests_ok hgfa hfa', List.filter_comm]
  · intro ffa hffa
    refine ⟨_, evaluate_tests_ok hffa hfa', ?_⟩
    rw [hfa', List.filter_filter]
    simp only [Bool.and_self]
  · intro both fboth within hboth hfboth hwithin
    refine ⟨_, evaluate_tests_ok hfboth (evaluate_intersection_ok hboth ha hb), ?_⟩
    rw [evaluate_intersection_ok hwithin hfa' hb, filter_common]
  · intro any fany each hany hfany heach
    refine ⟨_, evaluate_tests_ok hfany (evaluate_union_ok hany ha hb), ?_⟩
    rw [evaluate_union_ok heach hfa' hfb', filter_ascending]
    rfl
  · intro field value equal unequal hequal hunequal
    refine ⟨catalog.passes { predicate := .equals, field, expected := some value },
      evaluate_tests_ok hequal.tests ha, ?_, fun id hnone => ?_⟩
    · rw [evaluate_tests_ok hunequal.tests ha]
      exact congrArg Except.ok (List.filter_congr fun id _ => Filter.accepts_notEqual field value _)
    · rw [passes, hnone]
      rfl

/-- Three songs, of which one has no year. -/
def threeSongs : Catalog where
  library := (((Library.empty.add [("year", .int 1969), ("rating", .int 5)]).2.add
    [("rating", .int 2)]).2.add [("year", .int 1994), ("rating", .int 4)]).2
  store := .empty

/-- A playlist with a repetition. -/
def played : Collection := .node 0 .idlist [] [] [3, 2, 1, 3]

def favourites : Collection := .node 1 .idlist [] [] [2, 3]

/-- Those of some songs that someone likes. -/
def liked (base : Collection) : Collection :=
  (Collection.filter .greater "rating" (.int 3) (some base) 2).1

def dated (base : Collection) : Collection :=
  (Collection.filter .has "year" .none (some base) 2).1

def ofYear (predicate : Predicate) (base : Collection) : Collection :=
  (Collection.filter predicate "year" (.int 1994) (some base) 2).1

theorem tests_liked (base : Collection) :
    (liked base).Tests { predicate := .greater, field := "rating", expected := some (.int 3) }
      (some base) :=
  (Collection.filters_filter .greater "rating" (by simp) (some base) 2).tests

theorem tests_dated (base : Collection) :
    (dated base).Tests { predicate := .has, field := "year", expected := none } (some base) :=
  Collection.tests_has "year" (some base) 2

theorem evaluate_filter_laws_threeSongs :
    threeSongs.evaluate played = .ok [3, 2, 1, 3] ∧
      threeSongs.evaluate favourites = .ok [2, 3] ∧
      threeSongs.SelectSame (liked (dated played)) (dated (liked played)) ∧
      threeSongs.SelectSame (liked (liked played)) (liked played) ∧
      threeSongs.evaluate (liked played) = .ok [3, 1, 3] ∧
      threeSongs.SelectSame (liked (Collection.intersection [played, favourites] 3).1)
        (Collection.intersection [liked played, favourites] 3).1 ∧
      threeSongs.SelectSame (liked (Collection.union [played, favourites] 3).1)
        (Collection.union [liked played, liked favourites] 3).1 ∧
      threeSongs.library.property? 2 "year" = none ∧
      ∃ test : Int64 → Bool,
        threeSongs.evaluate (ofYear .equals played) = .ok ([3, 2, 1, 3].filter test) ∧
        threeSongs.evaluate (ofYear .notEqual played) =
          .ok ([3, 2, 1, 3].filter fun id => !test id) ∧
        ∀ id, threeSongs.library.property? id "year" = none → test id = false := by
  have hplayed : threeSongs.evaluate played = .ok [3, 2, 1, 3] := by cbv
  have hfavourites : threeSongs.evaluate favourites = .ok [2, 3] := by cbv
  obtain ⟨hcommute, hagain, hboth, hany, hsplit⟩ := evaluate_filter_laws hplayed hfavourites
    (tests_liked played) (tests_dated played) (tests_liked favourites)
  exact ⟨hplayed, hfavourites, hcommute _ _ (tests_liked _) (tests_dated _),
    hagain _ (tests_liked _),
    (evaluate_tests_ok (tests_liked played) hplayed).trans (congrArg Except.ok (by decide)),
    hboth _ _ _ (Collection.applies_intersection _ 3) (tests_liked _)
      (Collection.applies_intersection _ 3),
    hany _ _ _ (Collection.applies_union _ 3) (tests_liked _) (Collection.applies_union _ 3),
    by rfl,
    hsplit "year" (.int 1994) _ _ (Collection.filters_filter .equals "year" (by simp) _ 2)
      (Collection.filters_filter .notEqual "year" (by simp) _ 2)⟩

end Catalog

end MediaCatalog
