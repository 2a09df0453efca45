import MediaCatalog.Proofs.Catalog.Reachable

/-!
Pages of ordered collections. The nodes that builders wrap around a collection are read back as
the keys and the window they were built from, so a page selects what the collection selects,
sorted by each key from the last to the first and then cut. Whatever a collection selects is in
the library.
-/

namespace MediaCatalog

/-! ### What is selected is there -/

namespace Library

theorem mem_ids {library : Library} {id : Int64} : id ∈ library.ids ↔ library.contains id := by
  rw [ids, contains, Std.TreeMap.mem_keys, Std.TreeMap.mem_iff_contains]

end Library

theorem Selection.exists_of_mem_all {results : List Selection} {selected : List (List Int64)}
    (h : all results = .ok selected) {ids : List Int64} (hids : ids ∈ selected) :
    .ok ids ∈ results := by
  induction results generalizing selected with
  | nil =>
      cases h
      cases hids
  | cons result rest ih =>
      obtain ⟨first, hfirst, h⟩ := exists_of_bind_ok h
      obtain ⟨others, hothers, h⟩ := exists_of_bind_ok h
      cases h
      rcases List.mem_cons.mp hids with rfl | hids
      · exact hfirst ▸ List.mem_cons_self
      · exact List.mem_cons_of_mem _ (ih hothers hids)

theorem Selection.mem_of_first {kind : CollectionKind} {results : List Selection}
    {ids : List Int64} (h : first kind results = .ok ids) : .ok ids ∈ results := by
  cases results with
  | nil => cases h
  | cons result rest => exact h ▸ List.mem_cons_self

theorem SortKey.sort_perm (key : SortKey) (catalog : Catalog) (ids : List Int64) :
    (key.sort catalog ids).Perm ids := by
  cases key with
  | random => exact Chance.shuffle_perm _ _
  | id descending | property field descending => exact List.mergeSort_perm _ _

theorem Window.cut_subset {α : Type} (window : Window) (items : List α) :
    window.cut items ⊆ items := by
  unfold Window.cut
  simp only
  split
  · exact List.drop_subset _ _
  · exact List.Subset.trans (List.take_subset _ _) (List.drop_subset _ _)

namespace Catalog

variable {catalog : Catalog} {resolving : List ReferenceKey}

/-- A level selects nothing that is not there if the results it is given do not. -/
theorem layer_subset_library {node : Collection} {results : List Selection}
    {follow : Namespace → String → Selection} {ids : List Int64}
    (hresults : ∀ selected, .ok selected ∈ results → selected ⊆ catalog.library.ids)
    (hfollow : ∀ space name selected, follow space name = .ok selected →
      selected ⊆ catalog.library.ids)
    (h : catalog.layer node results follow = .ok ids) : ids ⊆ catalog.library.ids := by
  rw [layer] at h
  split at h
  · cases h
    exact fun _ hid => hid
  · cases h
    exact fun id hid => Library.mem_ids.mpr (List.mem_filter.mp hid).2
  · split at h
    · cases h
    · cases h
      exact fun _ hid => hid
    · exact hfollow _ _ _ h
  · -- What a union selects comes from one of its operands.
    obtain ⟨selected, hall, h⟩ := exists_of_bind_ok h
    cases h
    intro id hid
    rw [Std.TreeSet.mem_toList, Std.TreeSet.mem_ofList, List.contains_iff_mem] at hid
    obtain ⟨part, hpart, hid⟩ := List.mem_flatten.mp hid
    exact hresults part (Selection.exists_of_mem_all hall hpart) hid
  · -- The other kinds select some of what they are given, or of all entries.
    obtain ⟨selected, hall, h⟩ := exists_of_bind_ok h
    split at h <;> cases h
    · exact List.nil_subset _
    · have hfirst := hresults _ (Selection.exists_of_mem_all hall List.mem_cons_self)
      exact List.Subset.trans List.filter_sublist.subset hfirst
  · obtain ⟨excluded, -, h⟩ := exists_of_bind_ok h
    cases h
    exact List.filter_sublist.subset
  · obtain ⟨filter, -, h⟩ := exists_of_bind_ok h
    split at h
    · cases h
      exact List.filter_sublist.subset
    · obtain ⟨selected, rfl, h⟩ := exists_of_bind_ok h
      cases h
      exact List.Subset.trans List.filter_sublist.subset (hresults _ List.mem_cons_self)
  · obtain ⟨selected, hfirst, h⟩ := exists_of_bind_ok h
    obtain ⟨key, -, h⟩ := exists_of_bind_ok h
    cases h
    exact List.Subset.trans (key.sort_perm catalog selected).subset
      (hresults _ (Selection.mem_of_first hfirst))
  · obtain ⟨selected, hfirst, h⟩ := exists_of_bind_ok h
    obtain ⟨window, -, h⟩ := exists_of_bind_ok h
    cases h
    exact List.Subset.trans (window.cut_subset selected)
      (hresults _ (Selection.mem_of_first hfirst))

/-- Whatever a collection selects is in the library. -/
theorem select_subset_library (catalog : Catalog) (resolving : List ReferenceKey)
    (node : Collection) (ids : List Int64) (h : catalog.select resolving node = .ok ids) :
    ids ⊆ catalog.library.ids := by
  induction resolving, node using catalog.select_induction generalizing ids with
  | step resolving node hinputs htargets =>
      rw [select_eq_layer] at h
      refine layer_subset_library (fun selected hselected => ?_)
        (fun space name selected hselected => ?_) h
      · obtain ⟨operand, hoperand, hselect⟩ := List.mem_map.mp hselected
        exact hinputs operand hoperand selected hselect
      · obtain ⟨target, hnew, hget, hselected⟩ := follow_ok hselected
        exact htargets space name target hnew hget selected hselected

end Catalog

/-! ### Ordered collections -/

/-- The attributes of an order node tell its key. -/
theorem SortKey.ofNode_attributes (key : SortKey) (id : NodeId) (operands : List Collection)
    (ids : List Int64) :
    SortKey.ofNode (.node id .order key.attributes operands ids) = .ok key := by
  cases key with
  | random => rfl
  | id descending => cases descending <;> rfl
  | property field descending => cases descending <;> rfl

/-- The first key is the outermost node. -/
theorem Collection.ordered_cons (base : Collection) (property : String) (rest : List String)
    (next : NodeId) :
    (base.ordered (property :: rest) next).1 =
      .node (base.ordered rest next).2 .order (SortKey.parse property).attributes
        [(base.ordered rest next).1] [] :=
  rfl

namespace Catalog

variable {catalog : Catalog} {resolving : List ReferenceKey}

/-- Sort by each key, the last one first. -/
def sorted (catalog : Catalog) (properties : List String) (ids : List Int64) : List Int64 :=
  properties.foldr (fun property ids => (SortKey.parse property).sort catalog ids) ids

theorem sorted_cons (property : String) (rest : List String) (ids : List Int64) :
    catalog.sorted (property :: rest) ids =
      (SortKey.parse property).sort catalog (catalog.sorted rest ids) := by
  rw [sorted, List.foldr_cons, sorted]

/-- Sorting by keys that are not random needs no seed. -/
theorem sorted_of_library {catalog' : Catalog} (hlibrary : catalog.library = catalog'.library)
    {properties : List String} (hkeys : ∀ property ∈ properties, SortKey.parse property ≠ .random)
    (ids : List Int64) : catalog.sorted properties ids = catalog'.sorted properties ids := by
  induction properties with
  | nil => simp only [sorted, List.foldr_nil]
  | cons property rest ih =>
      simp only [List.mem_cons, forall_eq_or_imp] at hkeys
      rw [sorted_cons, sorted_cons, ih hkeys.2]
      exact sort_of_library hkeys.1 hlibrary _

theorem sorted_perm (properties : List String) (ids : List Int64) :
    (catalog.sorted properties ids).Perm ids := by
  induction properties with
  | nil => exact .refl ids
  | cons property rest ih =>
      rw [sorted_cons]
      exact ((SortKey.parse property).sort_perm catalog _).trans ih

theorem select_ordered (base : Collection) (properties : List String) (next : NodeId) :
    catalog.select resolving (base.ordered properties next).1 =
      (catalog.select resolving base).map (catalog.sorted properties) := by
  induction properties with
  | nil =>
      cases hbase : catalog.select resolving base with
      | error cause => exact hbase
      | ok ids => exact hbase
  | cons property rest ih =>
      rw [Collection.ordered_cons, select_eq_layer]
      simp only [layer, Collection.kind, Collection.inputs, Collection.operands,
        CollectionKind.reads, List.take_succ_cons, List.take_zero, List.map_cons, List.map_nil,
        Selection.first, SortKey.ofNode_attributes, ih]
      cases catalog.select resolving base <;> rfl

end Catalog

/-! ### Limited collections -/

theorem toInt_count (count : UInt32) : count.toUInt64.toInt64.toInt = count.toNat := by
  have hlt := count.toNat_lt
  rw [← Int64.toInt_toBitVec, UInt64.toBitVec_toInt64, BitVec.toInt_eq_toNat_of_lt]
  · simp
  · simp only [UInt64.toNat_toBitVec, UInt32.toNat_toUInt64]
    omega

theorem nonneg_count (count : UInt32) : 0 ≤ count.toUInt64.toInt64 := by
  rw [Int64.le_iff_toInt_le, toInt_count]
  simp

theorem Window.count_eq {node : Collection} {key : String} {count : UInt32}
    (h : node.attribute? key = some (.int count.toUInt64.toInt64)) :
    Window.count node key = .ok count.toNat := by
  simp [Window.count, h, Value.int?, nonneg_count, toInt_count]

/-- The attributes of a limit node tell its window. -/
theorem Window.ofNode_limited (start length : UInt32) (id : NodeId) (operands : List Collection)
    (ids : List Int64) :
    Window.ofNode (.node id .limit [(Attribute.start, .int start.toUInt64.toInt64),
        (Attribute.length, .int length.toUInt64.toInt64)] operands ids) =
      .ok ⟨start.toNat, length.toNat⟩ := by
  have hstart : Collection.attribute? (.node id .limit
      [(Attribute.start, .int start.toUInt64.toInt64),
        (Attribute.length, .int length.toUInt64.toInt64)] operands ids) Attribute.start =
        some (.int start.toUInt64.toInt64) := rfl
  have hlength : Collection.attribute? (.node id .limit
      [(Attribute.start, .int start.toUInt64.toInt64),
        (Attribute.length, .int length.toUInt64.toInt64)] operands ids) Attribute.length =
        some (.int length.toUInt64.toInt64) := rfl
  rw [Window.ofNode, Window.count_eq hstart, Window.count_eq hlength]
  rfl

namespace Catalog

variable {catalog : Catalog} {resolving : List ReferenceKey}

theorem select_limited (base : Collection) (start length : UInt32) (next : NodeId) :
    catalog.select resolving (base.limited start length next).1 =
      (catalog.select resolving base).map (Window.cut ⟨start.toNat, length.toNat⟩) := by
  by_cases hall : start = 0 ∧ length = 0
  · obtain ⟨rfl, rfl⟩ := hall
    cases hbase : catalog.select resolving base with
    | error cause => exact hbase
    | ok ids => exact hbase
  · have hnode : (base.limited start length next).1 =
        .node next .limit [(Attribute.start, .int start.toUInt64.toInt64),
          (Attribute.length, .int length.toUInt64.toInt64)] [base] [] := by
      simp only [Collection.limited, hall, if_false]
      rfl
    rw [hnode, select_eq_layer]
    simp only [layer, Collection.kind, Collection.inputs, Collection.operands,
      CollectionKind.reads, List.take_succ_cons, List.take_zero, List.map_cons, List.map_nil,
      Selection.first, Window.ofNode_limited]
    cases catalog.select resolving base <;> rfl

/-- A page is cut out of the sorted ids. -/
theorem select_page (base : Collection) (properties : List String) (start length : UInt32)
    (next : NodeId) :
    catalog.select resolving (base.page properties start length next).1 =
      (catalog.select resolving base).map fun ids =>
        Window.cut ⟨start.toNat, length.toNat⟩ (catalog.sorted properties ids) := by
  have hpage : (base.page properties start length next).1 =
      ((base.ordered properties next).1.limited start length
        (base.ordered properties next).2).1 := rfl
  rw [hpage, select_limited, select_ordered]
  cases catalog.select resolving base <;> rfl

end Catalog

end MediaCatalog
