import MediaCatalog.Proofs.Catalog.Referring
import MediaCatalog.Proofs.Catalog.Saved
import MediaCatalog.Proofs.Server.Atomic

/-!
Finding against querying. To find an entry, each saved collection is evaluated as it stands, and one
that cannot be evaluated is passed over. Whoever queries for the same collection by a reference gets
there through the store. The two agree for every name but the one that a reference reads as the
whole library.
-/

namespace MediaCatalog

theorem Collection.refersTo_reference {name : String} (hname : name ≠ Target.allMedia)
    (space : Namespace) (next : NodeId) :
    (Collection.reference name space next).1.RefersTo space name where
  reference := rfl
  named := rfl
  saved := hname
  looks := .named space rfl

/-- Where no entry has operands or is an order there is no random order. -/
theorem RandomFree.of_flat {store : Store}
    (h : ∀ entry ∈ store.entries .all, entry.2.2.inputs = [] ∧ entry.2.2.kind ≠ .order)
    {space : Namespace} {name : String} {node : Collection}
    (hentry : (space, name, node) ∈ store.entries .all) : RandomFree store node := by
  refine .of_closed (P := fun node => ∃ place name, (place, name, node) ∈ store.entries .all)
    ?_ ?_ ?_ ⟨space, name, hentry⟩
  · rintro node ⟨place, name, hentry⟩ horder
    exact absurd horder (h _ hentry).2
  · rintro node ⟨place, name, hentry⟩ operand hoperand
    rw [(h _ hentry).1] at hoperand
    exact absurd hoperand List.not_mem_nil
  · intro _ _ space name target hget
    obtain ⟨place, hentry⟩ := store.exists_mem_entries name target hget
    exact ⟨place, name, hentry⟩

namespace Service

variable {service service' : Service}

/-- Whether the query for a reference, with the spec of ids, answers with an entry among the ids. -/
def Answers (service : Service) (reference : Collection) (id : Int64) : Prop :=
  ∃ items, (∀ next, (service.call .collection CollectionCommand.query.number
      [.collection reference, FetchSpec.ids.toValue] next).1.outcome = .ok (.list items)) ∧
    .int id ∈ items

theorem selects_iff {node : Collection} {id : Int64} :
    service.selects node id ↔ ∃ ids, service.catalog.evaluate node = .ok ids ∧ id ∈ ids := by
  rw [selects]
  cases service.catalog.evaluate node <;> simp

theorem answers_iff (h : service.Offers .query) {node : Collection} {id : Int64} :
    service.Answers node id ↔ ∃ ids, service.catalog.evaluate node = .ok ids ∧ id ∈ ids := by
  simp only [Answers, call_query h, query_ids_eq]
  cases service.catalog.evaluate node with
  | error cause => simp [Except.map]
  | ok ids => simp [Except.map]

theorem call_find (h : service.Offers .find) (id : Int64) (space : Namespace) (next : NodeId) :
    (service.call .collection CollectionCommand.find.number [.int id, .string space.name]
        next).1.outcome =
      .ok (.ofStrings (((service.store.entries space).filter fun entry =>
        service.selects entry.2.2 id).map fun entry => entry.2.1)) := by
  have hspace : spaceArg { args := [.int id, .string space.name] } 1 = .ok space :=
    Namespace.parse_name space
  have hfind : (service.handle .find { args := [.int id, .string space.name] } next).1 =
      service.find { args := [.int id, .string space.name] } := rfl
  rw [call_outcome h, hfind, find, hspace]
  rfl

/-- Whatever a service has been through, an entry is found in a saved collection exactly if the
query for that collection by a reference answers with it, saved collections under the name of the
whole library apart. The query may go to any service with the same library and the same store. -/
theorem find_agrees_query (h : service.Reachable) (h' : service'.Reachable)
    (hlibrary : service.library = service'.library) (hstore : service.store = service'.store)
    (space : Namespace) (id : Int64)
    (hrandom : ∀ place name node, (place, name, node) ∈ service.store.entries space →
      RandomFree service.store node) (next : NodeId) :
    ∃ found : List (Namespace × String × Collection), found.Sublist (service.store.entries space) ∧
      (service.call .collection CollectionCommand.find.number [.int id, .string space.name]
        next).1.outcome = .ok (.ofStrings (found.map fun entry => entry.2.1)) ∧
      ∀ place name node, (place, name, node) ∈ service.store.entries space →
        name ≠ Target.allMedia → ∀ next',
          ((place, name, node) ∈ found ↔
            service'.Answers (Collection.reference name place next').1 id) := by
  refine ⟨_, List.filter_sublist, call_find (h.intact.offers .find) id space next, ?_⟩
  intro place name node hentry hname next'
  have hget := ((service.store.mem_entries_iff name node).mp hentry).2
  have hfree := hrandom place name node hentry
  have hsame : service.catalog.evaluate node = service'.catalog.evaluate node :=
    Catalog.select_of_randomFree hlibrary hstore [] node hfree
  have hget' : service'.catalog.store.get name place = .ok node := by
    rw [← hget, hstore]
    rfl
  have hfree' : RandomFree service'.store node := hstore ▸ hfree
  have hrefers := Collection.refersTo_reference hname place next'
  rw [List.mem_filter, answers_iff (h'.intact.offers .query)]
  simp only [hentry, true_and, selects_iff, hsame,
    Catalog.evaluate_reference_iff hrefers hget' hfree']

/-- Save a collection. -/
def keep (service : Service) (name : String) (node : Collection) : Service :=
  (service.call .collection CollectionCommand.save.number
    [.string name, .string "Collections", .collection node] 1).1.service

theorem Reachable.keep {service : Service} (h : service.Reachable) (name : String)
    (node : Collection) : (service.keep name node).Reachable :=
  h.call _ _ _ _ fun _ h => absurd h (by decide)

theorem reachable_titled : titled.Reachable :=
  .library (.create _ _) (.add (.add .empty (by decide) _) (by decide) _)

/-- A list, a collection that refers to it, and one that refers to itself. -/
def linked : Service :=
  ((titled.keep "first" (.node 1 .idlist [] [] [1])).keep "alias"
    (Collection.reference "first" .all 2).1).keep "loop"
    (Collection.reference "loop" .collections 3).1

theorem reachable_linked : linked.Reachable :=
  ((reachable_titled.keep _ _).keep _ _).keep _ _

theorem entries_linked : linked.store.entries .all =
    [(.collections, "alias", (Collection.reference "first" .all 2).1),
      (.collections, "first", .node 1 .idlist [] [] [1]),
      (.collections, "loop", (Collection.reference "loop" .collections 3).1)] :=
  rfl

theorem randomFree_linked {space : Namespace} {name : String} {node : Collection}
    (hentry : (space, name, node) ∈ linked.store.entries .all) :
    RandomFree linked.store node := by
  refine .of_flat ?_ hentry
  rw [entries_linked]
  decide

/-- The entry is found in the list and in the alias of the list, and not in the loop. -/
theorem find_agrees_query_linked :
    linked.Reachable ∧ (∀ place name node, (place, name, node) ∈ linked.store.entries .all →
        RandomFree linked.store node) ∧
      ∃ found : List (Namespace × String × Collection),
        found.Sublist (linked.store.entries .all) ∧
        (linked.call .collection CollectionCommand.find.number [.int 1, .string "*"]
          7).1.outcome = .ok (.ofStrings (found.map fun entry => entry.2.1)) ∧
        ∀ place name node, (place, name, node) ∈ linked.store.entries .all →
          name ≠ Target.allMedia → ∀ next',
            ((place, name, node) ∈ found ↔
              linked.Answers (Collection.reference name place next').1 1) :=
  ⟨reachable_linked, fun _ _ _ => randomFree_linked,
    find_agrees_query reachable_linked reachable_linked rfl rfl .all 1
      (fun _ _ _ => randomFree_linked) 7⟩

/-- A list under the name of the whole library. -/
def shadowed : Service := titled.keep Target.allMedia (.node 1 .idlist [] [] [1])

theorem entries_shadowed : shadowed.store.entries .all =
    [(.collections, Target.allMedia, .node 1 .idlist [] [] [1])] :=
  rfl

/-- The second entry is not found in a list without it, although the query for the list by a
reference answers with the whole library. -/
theorem find_shadowed :
    shadowed.Reachable ∧ (∀ place name node, (place, name, node) ∈ shadowed.store.entries .all →
        RandomFree shadowed.store node) ∧
      (.collections, Target.allMedia, .node 1 .idlist [] [] [1]) ∈
        shadowed.store.entries .all ∧
      (∀ next, (shadowed.call .collection CollectionCommand.find.number
        [.int 2, .string "*"] next).1.outcome = .ok (.ofStrings [])) ∧
      shadowed.Answers (Collection.reference Target.allMedia .collections 5).1 2 := by
  have hentries : ∀ entry ∈ shadowed.store.entries .all,
      entry.2.2.inputs = [] ∧ entry.2.2.kind ≠ .order := by
    rw [entries_shadowed]
    decide
  have hreachable : shadowed.Reachable := reachable_titled.keep _ _
  refine ⟨hreachable, fun _ _ _ => .of_flat hentries,
    by rw [entries_shadowed]; exact List.mem_singleton_self _, fun next => ?_, ?_⟩
  · have hselects : ¬ shadowed.selects (.node 1 .idlist [] [] [1]) 2 := by
      rw [selects_iff]
      rintro ⟨ids, hids, hmem⟩
      rw [Catalog.evaluate, Catalog.select] at hids
      cases hids
      exact absurd (List.mem_filter.mp hmem).1 (by decide)
    have hfind := call_find (hreachable.intact.offers .find) 2 .all next
    rw [entries_shadowed] at hfind
    exact hfind.trans (by simp [hselects])
  · rw [answers_iff (hreachable.intact.offers .query)]
    refine ⟨[1, 2], ?_, by decide⟩
    rw [Catalog.evaluate, Catalog.select_eq_layer, Catalog.layer_reference rfl]
    rfl

end Service

end MediaCatalog
