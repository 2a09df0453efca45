import Mathlib.Data.List.Forall2
import MediaCatalog.Proofs.Catalog.Renaming

/-!
Stores of copies. One store mirrors another when both hold the same names and copies under them.
Whatever is done to both of them ends in the same way, and they still mirror each other; what is
evaluated against one selects the same against the other.
-/

namespace MediaCatalog

/-- Two results agree: both fail for one reason, or both succeed with related values. -/
inductive Agree {α β : Type} (related : α → β → Prop) : Except Error α → Except Error β → Prop where
  | failed (cause : Error) : Agree related (.error cause) (.error cause)
  | done {value : α} {copy : β} (h : related value copy) : Agree related (.ok value) (.ok copy)

namespace Agree

variable {α β γ δ : Type} {related : α → β → Prop} {related' : γ → δ → Prop}

/-- Results agree when they agree in each of two steps. -/
theorem bind {first : Except Error α} {first' : Except Error β} {next : α → Except Error γ}
    {next' : β → Except Error δ} (h : Agree related first first')
    (hnext : ∀ value copy, related value copy → Agree related' (next value) (next' copy)) :
    Agree related' (first >>= next) (first' >>= next') := by
  cases h with
  | failed cause => exact .failed cause
  | done h => exact hnext _ _ h

/-- After one and the same result the next step decides. -/
theorem bind_same (first : Except Error α) {next : α → Except Error γ} {next' : α → Except Error δ}
    (hnext : ∀ value, Agree related' (next value) (next' value)) :
    Agree related' (first >>= next) (first >>= next') := by
  cases first with
  | error cause => exact .failed cause
  | ok value => exact hnext value

/-- Results that agree fail alike or succeed with related values. -/
theorem failed_or_done {first : Except Error α} {first' : Except Error β}
    (h : Agree related first first') :
    (∃ cause, first = .error cause ∧ first' = .error cause) ∨
      ∃ value copy, first = .ok value ∧ first' = .ok copy ∧ related value copy := by
  cases h with
  | failed cause => exact .inl ⟨cause, rfl, rfl⟩
  | done h => exact .inr ⟨_, _, rfl, rfl, h⟩

end Agree

/-- One node is a copy of the other. -/
def Collection.Copied (node copy : Collection) : Prop :=
  CopyOf [.collection node] [.collection copy]

theorem Collection.Copied.exists_renamed {node copy : Collection} (h : node.Copied copy) :
    ∃ rename : NodeId → NodeId, copy = node.renamed rename := by
  obtain ⟨rename, -, hcopy⟩ := h
  exact ⟨rename, Value.collection.inj (List.singleton_inj.mp hcopy)⟩

/-! ### Tables -/

/-- Both tables hold the same names, and the second one copies. -/
def TableMirrors (table copy : Std.TreeMap String Collection) : Prop :=
  ∀ name : String, Option.Rel Collection.Copied table[name]? copy[name]?

namespace TableMirrors

variable {table copy : Std.TreeMap String Collection}

/-- A name is in neither table, or both hold copies under it. -/
theorem lookup (h : TableMirrors table copy) (name : String) :
    (table[name]? = none ∧ copy[name]? = none) ∨
      ∃ node node', table[name]? = some node ∧ copy[name]? = some node' ∧ node.Copied node' := by
  have hname := h name
  generalize table[name]? = here at hname ⊢
  generalize copy[name]? = there at hname ⊢
  cases hname with
  | none => exact .inl ⟨rfl, rfl⟩
  | some hcopied => exact .inr ⟨_, _, rfl, rfl, hcopied⟩

theorem refl (table : Std.TreeMap String Collection) : TableMirrors table table := by
  intro name
  cases table[name]? with
  | none => exact .none
  | some node => exact .some (CopyOf.refl [.collection node])

theorem trans {copy' : Std.TreeMap String Collection} (h : TableMirrors table copy)
    (h' : TableMirrors copy copy') : TableMirrors table copy' := by
  intro name
  obtain ⟨hhere, hthere⟩ | ⟨node, node', hhere, hthere, hcopied⟩ := h.lookup name
  · obtain ⟨-, hlast⟩ | ⟨node, _, hnode, -, -⟩ := h'.lookup name
    · rw [hhere, hlast]
      exact .none
    · exact nomatch hthere.symm.trans hnode
  · obtain ⟨hnone, -⟩ | ⟨inner, last, hinner, hlast, hcopied'⟩ := h'.lookup name
    · exact nomatch hthere.symm.trans hnone
    · obtain rfl : node' = inner := Option.some.inj (hthere.symm.trans hinner)
      rw [hhere, hlast]
      exact .some (CopyOf.trans hcopied hcopied')

theorem insert (h : TableMirrors table copy) (name : String) {node node' : Collection}
    (hnode : node.Copied node') :
    TableMirrors (table.insert name node) (copy.insert name node') := by
  intro other
  rw [Std.TreeMap.getElem?_insert, Std.TreeMap.getElem?_insert]
  split
  · exact .some hnode
  · exact h other

theorem erase (h : TableMirrors table copy) (name : String) :
    TableMirrors (table.erase name) (copy.erase name) := by
  intro other
  rw [Std.TreeMap.getElem?_erase, Std.TreeMap.getElem?_erase]
  split
  · exact .none
  · exact h other

theorem contains_eq (h : TableMirrors table copy) (name : String) :
    copy.contains name = table.contains name := by
  rw [Std.TreeMap.contains_eq_isSome_getElem?, Std.TreeMap.contains_eq_isSome_getElem?]
  obtain ⟨hhere, hthere⟩ | ⟨node, node', hhere, hthere, -⟩ := h.lookup name
  · rw [hhere, hthere]
  · rw [hhere, hthere]
    rfl

theorem keys_eq (h : TableMirrors table copy) : copy.keys = table.keys := by
  have hperm : copy.keys.Perm table.keys := by
    rw [List.perm_ext_iff_of_nodup Std.TreeMap.nodup_keys Std.TreeMap.nodup_keys]
    intro name
    rw [Std.TreeMap.mem_keys, Std.TreeMap.mem_keys, Std.TreeMap.mem_iff_contains,
      Std.TreeMap.mem_iff_contains, h.contains_eq]
  refine hperm.eq_of_pairwise (fun first second _ _ hlt hgt => ?_) Std.TreeMap.ordered_keys
    Std.TreeMap.ordered_keys
  rw [Std.OrientedCmp.gt_of_lt hgt] at hlt
  exact nomatch hlt

/-- The entries stand in one order. -/
theorem toList (h : TableMirrors table copy) :
    List.Forall₂ (fun entry entry' => entry.1 = entry'.1 ∧ entry.2.Copied entry'.2)
      table.toList copy.toList := by
  have hkeys : table.toList.map Prod.fst = copy.toList.map Prod.fst := by
    rw [Std.TreeMap.map_fst_toList_eq_keys, Std.TreeMap.map_fst_toList_eq_keys, h.keys_eq]
  have hlength : table.toList.length = copy.toList.length := by
    simpa using congrArg List.length hkeys
  refine List.forall₂_of_length_eq_of_get hlength fun i hi hi' => ?_
  rw [List.get_eq_getElem, List.get_eq_getElem]
  have hname : table.toList[i].1 = copy.toList[i].1 := by
    have hfirst := List.getElem_of_eq hkeys (i := i) (by rw [List.length_map]; exact hi)
    rwa [List.getElem_map, List.getElem_map] at hfirst
  have hhere : table[table.toList[i].1]? = some table.toList[i].2 :=
    Std.TreeMap.mem_toList_iff_getElem?_eq_some.mp (List.getElem_mem hi)
  have hthere : copy[copy.toList[i].1]? = some copy.toList[i].2 :=
    Std.TreeMap.mem_toList_iff_getElem?_eq_some.mp (List.getElem_mem hi')
  rw [← hname] at hthere
  obtain ⟨hnone, -⟩ | ⟨node, node', hnode, hnode', hcopied⟩ := h.lookup table.toList[i].1
  · exact nomatch hnone.symm.trans hhere
  · rw [hhere] at hnode
    rw [hthere] at hnode'
    exact ⟨hname, Option.some.inj hnode ▸ Option.some.inj hnode' ▸ hcopied⟩

end TableMirrors

/-! ### Stores -/

/-- Each table of the second store mirrors that of the first one. -/
def Store.Mirrors (store copy : Store) : Prop :=
  ∀ space, TableMirrors (store.table space) (copy.table space)

namespace Store.Mirrors

variable {store copy : Store}

theorem refl (store : Store) : store.Mirrors store := fun _ => .refl _

theorem trans {copy' : Store} (h : store.Mirrors copy) (h' : copy.Mirrors copy') :
    store.Mirrors copy' := fun space => (h space).trans (h' space)

theorem withTable (h : store.Mirrors copy) (space : Namespace)
    {table table' : Std.TreeMap String Collection} (htable : TableMirrors table table') :
    (store.withTable space table).Mirrors (copy.withTable space table') := by
  intro other
  rw [table_withTable, table_withTable]
  split
  · exact htable
  · exact h other

/-- Reading a name ends in the same way. -/
theorem get (h : store.Mirrors copy) (name : String) (space : Namespace) :
    Agree Collection.Copied (store.get name space) (copy.get name space) := by
  unfold Store.get
  cases space with
  | collections | playlists =>
      simp only [Namespace.expand, List.findSome?_cons, List.findSome?_nil]
      obtain ⟨hhere, hthere⟩ | ⟨node, node', hhere, hthere, hcopied⟩ := (h _).lookup name
      · rw [hhere, hthere]
        exact .failed _
      · rw [hhere, hthere]
        exact .done hcopied
  | all =>
      simp only [Namespace.expand, List.findSome?_cons, List.findSome?_nil]
      obtain ⟨hhere, hthere⟩ | ⟨node, node', hhere, hthere, hcopied⟩ := (h .collections).lookup name
      · rw [hhere, hthere]
        obtain ⟨hhere, hthere⟩ | ⟨node, node', hhere, hthere, hcopied⟩ := (h .playlists).lookup name
        · rw [hhere, hthere]
          exact .failed _
        · rw [hhere, hthere]
          exact .done hcopied
      · rw [hhere, hthere]
        exact .done hcopied

theorem names_eq (h : store.Mirrors copy) (space : Namespace) :
    copy.names space = store.names space := by
  have hkeys (space : Namespace) : (copy.table space).keys = (store.table space).keys :=
    (h space).keys_eq
  simp only [names, hkeys]

/-- What a namespace shows stands in one order. -/
theorem entries (h : store.Mirrors copy) (space : Namespace) :
    List.Forall₂ (fun entry entry' => entry.2.1 = entry'.2.1 ∧ entry.2.2.Copied entry'.2.2)
      (store.entries space) (copy.entries space) := by
  unfold Store.entries
  induction space.expand with
  | nil => exact .nil
  | cons space rest ih =>
      simp only [List.flatMap_cons]
      refine List.rel_append ?_ ih
      rw [List.forall₂_map_left_iff, List.forall₂_map_right_iff]
      exact (h space).toList

/-- The outcome of a change: what is announced is the same, and the stores mirror each other. -/
def Changed (result result' : Change × Store) : Prop :=
  result.1 = result'.1 ∧ result.2.Mirrors result'.2

theorem save (h : store.Mirrors copy) (name : String) (space : Namespace)
    {node node' : Collection} (hnode : node.Copied node') :
    Agree Changed (store.save name space node) (copy.save name space node') := by
  unfold Store.save
  by_cases hname : name = ""
  · rw [if_pos hname, if_pos hname]
    exact .failed _
  · rw [if_neg hname, if_neg hname]
    refine .bind_same _ fun _ => ?_
    simp only [(h space).contains_eq]
    exact .done ⟨rfl, h.withTable space ((h space).insert name hnode)⟩

theorem remove (h : store.Mirrors copy) (name : String) (space : Namespace) :
    Agree Changed (store.remove name space) (copy.remove name space) := by
  rw [Store.remove]
  refine .bind_same _ fun _ => ?_
  simp only [(h space).contains_eq]
  split
  · exact .done ⟨rfl, h.withTable space ((h space).erase name)⟩
  · exact .failed _

theorem rename (h : store.Mirrors copy) (name newName : String) (space : Namespace) :
    Agree Changed (store.rename name newName space) (copy.rename name newName space) := by
  unfold Store.rename
  by_cases hname : newName = ""
  · rw [if_pos hname, if_pos hname]
    exact .failed _
  · rw [if_neg hname, if_neg hname]
    refine .bind_same _ fun _ => ?_
    simp only [(h space).contains_eq]
    split
    · exact .failed _
    · obtain ⟨hhere, hthere⟩ | ⟨node, node', hhere, hthere, hcopied⟩ := (h space).lookup name
      · simp only [hhere, hthere]
        exact .failed _
      · simp only [hhere, hthere]
        exact .done ⟨rfl, h.withTable space (((h space).erase name).insert newName hcopied)⟩

end Store.Mirrors

/-! ### Catalogs -/

/-- Both catalogs have one library and one seed, and their stores mirror each other. -/
structure Catalog.Mirrors (catalog copy : Catalog) : Prop where
  library : copy.library = catalog.library
  seed : copy.seed = catalog.seed
  store : catalog.store.Mirrors copy.store

namespace Catalog.Mirrors

variable {catalog copy : Catalog}

section Evaluation

variable (h : catalog.Mirrors copy)
include h

theorem sort (key : SortKey) (ids : List Int64) : key.sort copy ids = key.sort catalog ids := by
  cases key with
  | random => simp only [SortKey.sort, h.seed]
  | id descending => simp only [SortKey.sort, h.library]
  | property field descending => simp only [SortKey.sort, h.library]

theorem layer (node : Collection) (results : List Selection)
    (follow : Namespace → String → Selection) :
    copy.layer node results follow = catalog.layer node results follow := by
  simp only [Catalog.layer, h.library, h.sort]

/-- A copy of a node selects against copies what the node selects. -/
theorem select (resolving : List ReferenceKey) (node : Collection) (rename : NodeId → NodeId) :
    copy.select resolving (node.renamed rename) = catalog.select resolving node := by
  refine catalog.select_induction (motive := fun resolving node => ∀ rename : NodeId → NodeId,
    copy.select resolving (node.renamed rename) = catalog.select resolving node)
    (fun resolving node hinputs hstored rename => ?_) resolving node rename
  have hresults : (node.renamed rename).inputs.map (copy.select resolving) =
      node.inputs.map (catalog.select resolving) := by
    rw [Collection.inputs_renamed, List.map_map]
    exact List.map_congr_left fun operand hoperand => hinputs operand hoperand rename
  have hfollow : copy.follow resolving = catalog.follow resolving := by
    funext space name
    by_cases hnew : (space, name) ∈ resolving
    · rw [follow_of_mem hnew, follow_of_mem hnew]
    · rw [follow_of_notMem hnew, follow_of_notMem hnew]
      obtain ⟨cause, hget, hget'⟩ | ⟨target, target', hget, hget', hcopied⟩ :=
        (h.store.get name space).failed_or_done
      · rw [hget, hget']
      · obtain ⟨rename, rfl⟩ := hcopied.exists_renamed
        rw [hget, hget']
        exact hstored space name target hnew hget rename
  rw [select_eq_layer copy, select_eq_layer catalog, hresults, hfollow, layer_renamed, h.layer]

theorem evaluate {node node' : Collection} (hnode : node.Copied node') :
    copy.evaluate node' = catalog.evaluate node := by
  obtain ⟨rename, rfl⟩ := hnode.exists_renamed
  exact h.select [] node rename

theorem aggregate (ids : List Int64) (property : String) (aggregate : Aggregate) :
    copy.aggregate ids property aggregate = catalog.aggregate ids property aggregate := by
  simp only [Catalog.aggregate, h.library, h.seed]

theorem record (ids : List Int64) (properties : List String) (aggregate : Aggregate) :
    copy.record ids properties aggregate = catalog.record ids properties aggregate := by
  simp only [Catalog.record, h.aggregate]

theorem clusters (property : String) (ids : List Int64) :
    copy.clusters property ids = catalog.clusters property ids := by
  simp only [Catalog.clusters, clusterKey?, h.library]

theorem infos (ids : List Int64) (properties group : List String) (window : Window) :
    copy.infos ids properties group window = catalog.infos ids properties group window := by
  simp only [Catalog.infos, Catalog.rows, rowKey, h.record, h.library]

end Evaluation

mutual

/-- What is fetched comes from the library. -/
theorem fetch (h : catalog.Mirrors copy) :
    ∀ (plan : Plan) (ids : List Int64), copy.fetch plan ids = catalog.fetch plan ids
  | .fails _, _ => rfl
  | .count, _ => rfl
  | .metadata [] aggregate, ids => by simp only [Catalog.fetch, h.record]
  | .metadata [property] aggregate, ids => by simp only [Catalog.fetch, h.aggregate]
  | .metadata (property :: other :: rest) aggregate, ids => by simp only [Catalog.fetch, h.record]
  | .clusterList property data, ids => by
      simp only [Catalog.fetch, h.clusters, fetch h data]
  | .clusterDict property data, ids => by
      simp only [Catalog.fetch, h.clusters, fetch h data]
  | .organize entries, ids => by
      simp only [Catalog.fetch, fetchEntries h entries ids]

theorem fetchEntries (h : catalog.Mirrors copy) :
    ∀ (entries : List (String × Plan)) (ids : List Int64),
      copy.fetchEntries entries ids = catalog.fetchEntries entries ids
  | [], _ => rfl
  | (name, plan) :: rest, ids => by
      simp only [Catalog.fetchEntries, fetch h plan ids, fetchEntries h rest ids]

end

end Catalog.Mirrors

end MediaCatalog
