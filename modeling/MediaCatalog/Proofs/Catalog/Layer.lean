import MediaCatalog.Catalog.Evaluate

/-!
Evaluation level by level. What a node selects follows from the results of the operands that it
reads and, for a reference, from the result of the collection it leads to. Stating this once
separates what each kind does from the order in which collections are visited.
-/

namespace MediaCatalog

/-- How many of `count` operands a node of the kind reads. -/
def CollectionKind.reads : CollectionKind → (count : Nat) → Nat
  | .union, count | .intersection, count => count
  | .complement, _ | .filter, _ | .order, _ | .limit, _ => 1
  | .everything, _ | .idlist, _ | .reference, _ => 0

/-- The operands that a node reads. -/
def Collection.inputs (node : Collection) : List Collection :=
  node.operands.take (node.kind.reads node.operands.length)

theorem Collection.inputs_node (id : NodeId) (kind : CollectionKind) (attributes : Dict Value)
    (operands : List Collection) (ids : List Int64) :
    (node id kind attributes operands ids).inputs = operands.take (kind.reads operands.length) :=
  rfl

theorem Collection.sizeOf_lt_of_mem_inputs {node operand : Collection}
    (h : operand ∈ node.inputs) : sizeOf operand < sizeOf node := by
  obtain ⟨id, kind, attributes, operands, ids⟩ := node
  have hsize := List.sizeOf_lt_of_mem (List.mem_of_mem_take h)
  simp only [Collection.operands] at hsize
  simp only [Collection.node.sizeOf_spec]
  omega

/-- A node of a kind that reads some operands. -/
structure Collection.Applies (node : Collection) (kind : CollectionKind)
    (operands : List Collection) : Prop where
  kind : node.kind = kind
  inputs : node.inputs = operands

/-- The ids of a collection, or why there are none. -/
abbrev Selection := Except Error (List Int64)

namespace Selection

/-- All results, unless one of them failed. -/
def all : List Selection → Except Error (List (List Int64))
  | [] => .ok []
  | result :: rest => do
    let selected ← result
    return selected :: (← all rest)

/-- The first result, for a node of a kind that needs one. -/
def first (kind : CollectionKind) : List Selection → Selection
  | [] => .error (.remote (kind.name ++ " node without operand"))
  | result :: _ => result

theorem exists_of_all_ok {ask : Collection → Selection} {operands : List Collection}
    {selected : List (List Int64)} (h : all (operands.map ask) = .ok selected) :
    ∀ operand ∈ operands, ∃ ids, ask operand = .ok ids := by
  induction operands generalizing selected with
  | nil => simp
  | cons operand rest ih =>
      obtain ⟨ids, hids, h⟩ := exists_of_bind_ok h
      obtain ⟨others, hothers, -⟩ := exists_of_bind_ok h
      simp only [List.mem_cons, forall_eq_or_imp]
      exact ⟨⟨ids, hids⟩, ih hothers⟩

end Selection

namespace Catalog

variable {catalog catalog' : Catalog} {resolving : List ReferenceKey}

/-- What a node selects, given the results of the operands that it reads and the result of
following a reference. -/
def layer (catalog : Catalog) (node : Collection) (results : List Selection)
    (follow : Namespace → String → Selection) : Selection :=
  match node.kind with
  | .everything => .ok catalog.library.ids
  | .idlist => .ok (node.ids.filter catalog.library.contains)
  | .reference =>
    match Target.ofNode node with
    | .error error => .error error
    | .ok .everything => .ok catalog.library.ids
    | .ok (.saved space name) => follow space name
  | .union => do
    let selected ← Selection.all results
    return (Std.TreeSet.ofList selected.flatten).toList
  | .intersection => do
    match ← Selection.all results with
    | [] => return []
    | first :: others => return first.filter fun id => others.all (·.contains id)
  | .complement => do
    let excluded ← Selection.first .complement results
    return catalog.library.ids.filter fun id => !excluded.contains id
  | .filter => do
    let filter ← Filter.ofNode node
    let selected ←
      match results with
      | [] => pure catalog.library.ids
      | result :: _ => result
    return selected.filter fun id => filter.accepts (catalog.library.property? id filter.field)
  | .order => do
    let selected ← Selection.first .order results
    let key ← SortKey.ofNode node
    return key.sort catalog selected
  | .limit => do
    let selected ← Selection.first .limit results
    let window ← Window.ofNode node
    return window.cut selected

/-- Follow a reference into the store while others are under way. -/
def follow (catalog : Catalog) (resolving : List ReferenceKey) (space : Namespace)
    (name : String) : Selection :=
  if resolving.contains (space, name) then .error (.remote ("reference cycle through " ++ name))
  else
    match catalog.store.get name space with
    | .error error => .error error
    | .ok target => catalog.select ((space, name) :: resolving) target

section Following

variable {catalog : Catalog} {resolving : List ReferenceKey} {space : Namespace} {name : String}

theorem follow_of_mem (h : (space, name) ∈ resolving) :
    catalog.follow resolving space name =
      .error (.remote ("reference cycle through " ++ name)) :=
  if_pos (List.contains_iff_mem.mpr h)

theorem follow_of_notMem (h : (space, name) ∉ resolving) :
    catalog.follow resolving space name =
      match catalog.store.get name space with
      | .error error => .error error
      | .ok target => catalog.select ((space, name) :: resolving) target :=
  if_neg fun hmem => h (List.contains_iff_mem.mp hmem)

/-- Only what is saved and not under way can be followed. -/
theorem follow_ok {ids : List Int64} (h : catalog.follow resolving space name = .ok ids) :
    ∃ target, (space, name) ∉ resolving ∧ catalog.store.get name space = .ok target ∧
      catalog.select ((space, name) :: resolving) target = .ok ids := by
  by_cases hmem : (space, name) ∈ resolving
  · rw [follow_of_mem hmem] at h
    cases h
  · rw [follow_of_notMem hmem] at h
    cases hget : catalog.store.get name space with
    | error cause =>
        rw [hget] at h
        cases h
    | ok target =>
        rw [hget] at h
        exact ⟨target, hmem, rfl, h⟩

end Following

theorem selectAll_eq_all (operands : List Collection) :
    catalog.selectAll resolving operands =
      Selection.all (operands.map (catalog.select resolving)) := by
  induction operands with
  | nil =>
      rw [selectAll]
      rfl
  | cons operand rest ih =>
      rw [selectAll, ih]
      rfl

theorem selectFirst_eq_first (kind : CollectionKind) (operands : List Collection) :
    catalog.selectFirst resolving kind operands =
      Selection.first kind ((operands.take 1).map (catalog.select resolving)) := by
  cases operands <;> rw [selectFirst] <;> rfl

/-- Evaluation is one level on top of the evaluation of what the node reads. -/
theorem select_eq_layer (catalog : Catalog) (resolving : List ReferenceKey) (node : Collection) :
    catalog.select resolving node =
      catalog.layer node (node.inputs.map (catalog.select resolving))
        (catalog.follow resolving) := by
  obtain ⟨id, kind, attributes, operands, ids⟩ := node
  cases kind with
  | reference =>
      rw [select]
      simp only [layer, Collection.kind]
      cases Target.ofNode (.node id .reference attributes operands ids) with
      | error cause => rfl
      | ok target =>
          cases target with
          | everything => rfl
          | saved space name =>
              by_cases hloop : (space, name) ∈ resolving
              · simp only [follow_of_mem hloop, hloop, dif_pos]
              · simp only [follow_of_notMem hloop, hloop, not_false_eq_true, dif_neg]
                split <;> next hget => simp only [hget]
  | filter =>
      rw [select]
      simp only [layer, Collection.kind, Collection.inputs, Collection.operands,
        CollectionKind.reads]
      cases operands <;> rfl
  | everything | idlist =>
      rw [select]
      rfl
  | union | intersection =>
      rw [select, selectAll_eq_all]
      simp only [Collection.inputs, Collection.operands, Collection.kind, CollectionKind.reads,
        List.take_length]
      rfl
  | complement | order | limit =>
      rw [select, selectFirst_eq_first]
      rfl

theorem evaluate_eq_layer {node : Collection} {kind : CollectionKind} {operands : List Collection}
    (h : node.Applies kind operands) :
    catalog.evaluate node =
      catalog.layer node (operands.map catalog.evaluate) (catalog.follow []) := by
  rw [← h.inputs]
  exact catalog.select_eq_layer [] node

theorem layer_reference {node : Collection} (hkind : node.kind = .reference)
    (results : List Selection) (follow : Namespace → String → Selection) :
    catalog.layer node results follow =
      match Target.ofNode node with
      | .error error => .error error
      | .ok .everything => .ok catalog.library.ids
      | .ok (.saved space name) => follow space name := by
  unfold layer
  rw [hkind]

/-- The identity and the operands of a node matter only through the results. -/
theorem layer_node (id id' : NodeId) (kind : CollectionKind) (attributes : Dict Value)
    (operands operands' : List Collection) (ids : List Int64) (results : List Selection)
    (follow : Namespace → String → Selection) :
    catalog.layer (.node id kind attributes operands ids) results follow =
      catalog.layer (.node id' kind attributes operands' ids) results follow := by
  cases kind <;> rfl

/-- A node selects something only if each operand that it reads does. -/
theorem layer_ok_inputs {node : Collection} {ask : Collection → Selection} {ids : List Int64}
    {follow : Namespace → String → Selection}
    (h : catalog.layer node (node.inputs.map ask) follow = .ok ids) :
    ∀ operand ∈ node.inputs, ∃ selected, ask operand = .ok selected := by
  obtain ⟨id, kind, attributes, operands, listed⟩ := node
  cases kind with
  | everything | idlist | reference =>
      simp [Collection.inputs, Collection.kind, CollectionKind.reads]
  | union | intersection =>
      obtain ⟨selected, hall, -⟩ := exists_of_bind_ok h
      exact Selection.exists_of_all_ok hall
  | complement | order | limit =>
      obtain ⟨selected, hfirst, -⟩ := exists_of_bind_ok h
      cases operands with
      | nil => cases hfirst
      | cons operand rest =>
          simp only [Collection.inputs, Collection.kind, Collection.operands,
            CollectionKind.reads, List.take_succ_cons, List.take_zero, List.mem_singleton]
          rintro _ rfl
          exact ⟨selected, hfirst⟩
  | filter =>
      obtain ⟨filter, -, h⟩ := exists_of_bind_ok h
      cases operands with
      | nil => simp [Collection.inputs, Collection.operands]
      | cons operand rest =>
          obtain ⟨selected, hfirst, -⟩ := exists_of_bind_ok h
          simp only [Collection.inputs, Collection.kind, Collection.operands,
            CollectionKind.reads, List.take_succ_cons, List.take_zero, List.mem_singleton]
          rintro _ rfl
          exact ⟨selected, hfirst⟩

theorem sort_of_library {key : SortKey} (hkey : key ≠ .random)
    (hlibrary : catalog.library = catalog'.library) (ids : List Int64) :
    key.sort catalog ids = key.sort catalog' ids := by
  cases key with
  | random => exact absurd rfl hkey
  | id descending | property field descending =>
      unfold SortKey.sort
      rw [hlibrary]

/-- Of the catalog itself a level reads the library, unless it puts ids into random order. -/
theorem layer_of_library {node : Collection} {results : List Selection}
    {follow follow' : Namespace → String → Selection}
    (hlibrary : catalog.library = catalog'.library)
    (hrandom : node.kind = .order → SortKey.ofNode node ≠ .ok .random)
    (hfollow : ∀ space name, node.kind = .reference →
      Target.ofNode node = .ok (.saved space name) → follow space name = follow' space name) :
    catalog.layer node results follow = catalog'.layer node results follow' := by
  unfold layer
  split
  case h_3 hkind =>
      split
      · rfl
      · rw [hlibrary]
      · next space name htarget => exact hfollow space name hkind htarget
  case h_8 hkind =>
      cases hkey : SortKey.ofNode node with
      | error cause => simp only [bind, Except.bind]
      | ok key =>
          have hkey' : key ≠ .random := fun h => hrandom hkind (h ▸ hkey)
          simp only [bind, Except.bind, sort_of_library hkey' hlibrary]
  all_goals first | rfl | rw [hlibrary]

/-- Evaluation visits operands, and what references lead to while they are not under way. -/
theorem select_induction (catalog : Catalog) {motive : List ReferenceKey → Collection → Prop}
    (step : ∀ resolving node, (∀ operand ∈ node.inputs, motive resolving operand) →
      (∀ space name target, (space, name) ∉ resolving → catalog.store.get name space = .ok target →
        motive ((space, name) :: resolving) target) → motive resolving node)
    (resolving : List ReferenceKey) (node : Collection) : motive resolving node := by
  apply step
  · intro operand hoperand
    exact select_induction catalog step resolving operand
  · intro space name target hnew hget
    exact select_induction catalog step ((space, name) :: resolving) target
termination_by (catalog.unresolved resolving, sizeOf node)
decreasing_by
  · exact Prod.Lex.right _ (Collection.sizeOf_lt_of_mem_inputs hoperand)
  · exact Prod.Lex.left _ _ (unresolved_lt (mem_referenceKeys hget) hnew)

end Catalog

end MediaCatalog
