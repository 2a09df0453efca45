import Mathlib.Data.Set.Function
import MediaCatalog.Value.Basic

/-!
Copies of values. A copy has the content of its original, position by position, and shares
nodes where the original does; only the identities of its nodes are others. This is all that a
value keeps when it is written down and read back, so it is the relation between what was sent
and what arrives.
-/

namespace MediaCatalog

/-! ### Parts -/

mutual

/-- The value itself and all values inside it, operands of collections included. -/
def Value.parts : Value → List Value
  | .list items => .list items :: partsOfItems items
  | .dict entries => .dict entries :: partsOfEntries entries
  | .collection node => node.parts
  | other => [other]

def Collection.parts : Collection → List Value
  | .node id kind attributes operands ids =>
    .collection (.node id kind attributes operands ids) ::
      (partsOfEntries attributes ++ partsOfOperands operands)

def partsOfItems : List Value → List Value
  | [] => []
  | item :: rest => item.parts ++ partsOfItems rest

def partsOfEntries : List (String × Value) → List Value
  | [] => []
  | (_, value) :: rest => value.parts ++ partsOfEntries rest

def partsOfOperands : List Collection → List Value
  | [] => []
  | operand :: rest => operand.parts ++ partsOfOperands rest

end

theorem partsOfItems_eq_flatMap (items : List Value) :
    partsOfItems items = items.flatMap Value.parts := by
  induction items with
  | nil => rfl
  | cons item rest ih => simp [partsOfItems, ih]

theorem partsOfEntries_eq_flatMap (entries : List (String × Value)) :
    partsOfEntries entries = entries.flatMap fun entry => entry.2.parts := by
  induction entries with
  | nil => rfl
  | cons entry rest ih => simp [partsOfEntries, ih]

theorem partsOfOperands_eq_flatMap (operands : List Collection) :
    partsOfOperands operands =
      operands.flatMap fun operand => (Value.collection operand).parts := by
  induction operands with
  | nil => rfl
  | cons operand rest ih => simp [partsOfOperands, Value.parts, ih]

theorem nodesOfItems_eq_flatMap (items : List Value) :
    nodesOfItems items = items.flatMap Value.nodes := by
  induction items with
  | nil => rfl
  | cons item rest ih => simp [nodesOfItems, ih]

theorem nodesOfEntries_eq_flatMap (entries : List (String × Value)) :
    nodesOfEntries entries = entries.flatMap fun entry => entry.2.nodes := by
  induction entries with
  | nil => rfl
  | cons entry rest ih => simp [nodesOfEntries, ih]

theorem nodesOfOperands_eq_flatMap (operands : List Collection) :
    nodesOfOperands operands = operands.flatMap Collection.nodes := by
  induction operands with
  | nil => rfl
  | cons operand rest ih => simp [nodesOfOperands, ih]

mutual

/-- The node occurrences of a value are its parts that are collections. -/
theorem Value.mem_nodes_iff (node : Collection) :
    ∀ value : Value, node ∈ value.nodes ↔ .collection node ∈ value.parts
  | .none | .int _ | .float _ | .string _ | .binary _ | .error _ => by
      simp [Value.nodes, Value.parts]
  | .list items => by
      simpa [Value.nodes, Value.parts] using mem_nodesOfItems_iff node items
  | .dict entries => by
      simpa [Value.nodes, Value.parts] using mem_nodesOfEntries_iff node entries
  | .collection inner => by
      simpa [Value.nodes, Value.parts] using Collection.mem_nodes_iff node inner

theorem Collection.mem_nodes_iff (node : Collection) :
    ∀ inner : Collection, node ∈ inner.nodes ↔ .collection node ∈ inner.parts
  | .node id kind attributes operands ids => by
      simp only [Collection.nodes, Collection.parts, List.mem_append, List.mem_cons,
        List.not_mem_nil, or_false, mem_nodesOfEntries_iff node attributes,
        mem_nodesOfOperands_iff node operands, Value.collection.injEq]
      tauto

theorem mem_nodesOfItems_iff (node : Collection) :
    ∀ items : List Value, node ∈ nodesOfItems items ↔ .collection node ∈ partsOfItems items
  | [] => by simp [nodesOfItems, partsOfItems]
  | item :: rest => by
      simp [nodesOfItems, partsOfItems, Value.mem_nodes_iff node item,
        mem_nodesOfItems_iff node rest]

theorem mem_nodesOfEntries_iff (node : Collection) :
    ∀ entries : List (String × Value),
      node ∈ nodesOfEntries entries ↔ .collection node ∈ partsOfEntries entries
  | [] => by simp [nodesOfEntries, partsOfEntries]
  | (_, value) :: rest => by
      simp [nodesOfEntries, partsOfEntries, Value.mem_nodes_iff node value,
        mem_nodesOfEntries_iff node rest]

theorem mem_nodesOfOperands_iff (node : Collection) :
    ∀ operands : List Collection,
      node ∈ nodesOfOperands operands ↔ .collection node ∈ partsOfOperands operands
  | [] => by simp [nodesOfOperands, partsOfOperands]
  | operand :: rest => by
      simp [nodesOfOperands, partsOfOperands, Collection.mem_nodes_iff node operand,
        mem_nodesOfOperands_iff node rest]

end

mutual

/-- A node is no smaller than the nodes inside it. -/
theorem Value.sizeOf_lt_of_mem_nodes {node : Collection} :
    ∀ value : Value, node ∈ value.nodes → sizeOf node < sizeOf value
  | .none | .int _ | .float _ | .string _ | .binary _ | .error _ => by simp [Value.nodes]
  | .list items => fun h => by
      have := sizeOf_lt_of_mem_nodesOfItems items (by simpa [Value.nodes] using h)
      simp only [Value.list.sizeOf_spec]
      omega
  | .dict entries => fun h => by
      have := sizeOf_lt_of_mem_nodesOfEntries entries (by simpa [Value.nodes] using h)
      simp only [Value.dict.sizeOf_spec]
      omega
  | .collection inner => fun h => by
      have := Collection.sizeOf_le_of_mem_nodes inner (by simpa [Value.nodes] using h)
      simp only [Value.collection.sizeOf_spec]
      omega

theorem Collection.sizeOf_le_of_mem_nodes {node : Collection} :
    ∀ inner : Collection, node ∈ inner.nodes → sizeOf node ≤ sizeOf inner
  | .node id kind attributes operands ids => fun h => by
      simp only [Collection.nodes, List.mem_append, List.mem_singleton] at h
      rcases h with (h | h) | rfl
      · have := sizeOf_lt_of_mem_nodesOfEntries attributes h
        simp only [Collection.node.sizeOf_spec]
        omega
      · have := sizeOf_lt_of_mem_nodesOfOperands operands h
        simp only [Collection.node.sizeOf_spec]
        omega
      · exact Nat.le_refl _

theorem sizeOf_lt_of_mem_nodesOfItems {node : Collection} :
    ∀ items : List Value, node ∈ nodesOfItems items → sizeOf node < sizeOf items
  | [] => by simp [nodesOfItems]
  | item :: rest => fun h => by
      simp only [nodesOfItems, List.mem_append] at h
      simp only [List.cons.sizeOf_spec]
      rcases h with h | h
      · have := Value.sizeOf_lt_of_mem_nodes item h
        omega
      · have := sizeOf_lt_of_mem_nodesOfItems rest h
        omega

theorem sizeOf_lt_of_mem_nodesOfEntries {node : Collection} :
    ∀ entries : List (String × Value),
      node ∈ nodesOfEntries entries → sizeOf node < sizeOf entries
  | [] => by simp [nodesOfEntries]
  | (_, value) :: rest => fun h => by
      simp only [nodesOfEntries, List.mem_append] at h
      simp only [List.cons.sizeOf_spec, Prod.mk.sizeOf_spec]
      rcases h with h | h
      · have := Value.sizeOf_lt_of_mem_nodes value h
        omega
      · have := sizeOf_lt_of_mem_nodesOfEntries rest h
        omega

theorem sizeOf_lt_of_mem_nodesOfOperands {node : Collection} :
    ∀ operands : List Collection,
      node ∈ nodesOfOperands operands → sizeOf node < sizeOf operands
  | [] => by simp [nodesOfOperands]
  | operand :: rest => fun h => by
      simp only [nodesOfOperands, List.mem_append] at h
      simp only [List.cons.sizeOf_spec]
      rcases h with h | h
      · have := Collection.sizeOf_le_of_mem_nodes operand h
        omega
      · have := sizeOf_lt_of_mem_nodesOfOperands rest h
        omega

end

/-! ### Induction -/

theorem sizeOf_lt_of_mem_entries {entry : String × Value} {entries : List (String × Value)}
    (h : entry ∈ entries) : sizeOf entry.2 < sizeOf entries := by
  obtain ⟨key, value⟩ := entry
  have hentry := List.sizeOf_lt_of_mem h
  rw [Prod.mk.sizeOf_spec] at hentry
  exact lt_of_le_of_lt (Nat.le_add_left _ _) hentry

/-- What holds of a value as soon as it holds of the values in it holds of all values. The values in
a node are its attributes and its operands. -/
@[elab_as_elim]
theorem Value.induction {motive : Value → Prop} (none : motive .none)
    (int : ∀ number, motive (.int number)) (float : ∀ number, motive (.float number))
    (string : ∀ text, motive (.string text)) (binary : ∀ bytes, motive (.binary bytes))
    (list : ∀ items, (∀ item ∈ items, motive item) → motive (.list items))
    (dict : ∀ entries, (∀ entry ∈ entries, motive entry.2) → motive (.dict entries))
    (collection : ∀ id kind attributes operands ids, (∀ entry ∈ attributes, motive entry.2) →
      (∀ operand ∈ operands, motive (.collection operand)) →
        motive (.collection (.node id kind attributes operands ids)))
    (error : ∀ message, motive (.error message)) (value : Value) : motive value :=
  match value with
  | .none => none
  | .int number => int number
  | .float number => float number
  | .string text => string text
  | .binary bytes => binary bytes
  | .list items => list items fun item _ =>
      induction none int float string binary list dict collection error item
  | .dict entries => dict entries fun entry _ =>
      induction none int float string binary list dict collection error entry.2
  | .collection (.node id kind attributes operands ids) =>
      collection id kind attributes operands ids
        (fun entry _ =>
          induction none int float string binary list dict collection error entry.2)
        fun operand _ =>
          induction none int float string binary list dict collection error (.collection operand)
  | .error message => error message
termination_by sizeOf value
decreasing_by
  · have := List.sizeOf_lt_of_mem ‹item ∈ items›
    simp_wf
    omega
  · have := sizeOf_lt_of_mem_entries ‹entry ∈ entries›
    simp_wf
    omega
  · have := sizeOf_lt_of_mem_entries ‹entry ∈ attributes›
    simp_wf
    omega
  · have := List.sizeOf_lt_of_mem ‹operand ∈ operands›
    simp_wf
    omega

/-! ### Renaming -/

mutual

/-- The value with every identity replaced. -/
def Value.renamed (rename : NodeId → NodeId) : Value → Value
  | .none => .none
  | .int number => .int number
  | .float number => .float number
  | .string text => .string text
  | .binary bytes => .binary bytes
  | .list items => .list (renamedItems rename items)
  | .dict entries => .dict (renamedEntries rename entries)
  | .collection node => .collection (node.renamed rename)
  | .error message => .error message

def Collection.renamed (rename : NodeId → NodeId) : Collection → Collection
  | .node id kind attributes operands ids =>
    .node (rename id) kind (renamedEntries rename attributes) (renamedOperands rename operands) ids

def renamedItems (rename : NodeId → NodeId) : List Value → List Value
  | [] => []
  | item :: rest => item.renamed rename :: renamedItems rename rest

def renamedEntries (rename : NodeId → NodeId) : List (String × Value) → List (String × Value)
  | [] => []
  | (key, value) :: rest => (key, value.renamed rename) :: renamedEntries rename rest

def renamedOperands (rename : NodeId → NodeId) : List Collection → List Collection
  | [] => []
  | operand :: rest => operand.renamed rename :: renamedOperands rename rest

end

theorem renamedItems_eq_map (rename : NodeId → NodeId) (items : List Value) :
    renamedItems rename items = items.map (Value.renamed rename) := by
  induction items with
  | nil => rfl
  | cons item rest ih => simp [renamedItems, ih]

theorem renamedEntries_eq_map (rename : NodeId → NodeId) (entries : List (String × Value)) :
    renamedEntries rename entries =
      entries.map fun entry => (entry.1, entry.2.renamed rename) := by
  induction entries with
  | nil => rfl
  | cons entry rest ih => simp [renamedEntries, ih]

theorem renamedOperands_eq_map (rename : NodeId → NodeId) (operands : List Collection) :
    renamedOperands rename operands = operands.map (Collection.renamed rename) := by
  induction operands with
  | nil => rfl
  | cons operand rest ih => simp [renamedOperands, ih]

theorem length_renamedItems (rename : NodeId → NodeId) (items : List Value) :
    (renamedItems rename items).length = items.length := by
  rw [renamedItems_eq_map, List.length_map]

theorem length_renamedEntries (rename : NodeId → NodeId) (entries : List (String × Value)) :
    (renamedEntries rename entries).length = entries.length := by
  rw [renamedEntries_eq_map, List.length_map]

theorem length_renamedOperands (rename : NodeId → NodeId) (operands : List Collection) :
    (renamedOperands rename operands).length = operands.length := by
  rw [renamedOperands_eq_map, List.length_map]

@[simp] theorem Collection.id_renamed (rename : NodeId → NodeId) (node : Collection) :
    (node.renamed rename).id = rename node.id := by
  cases node
  rfl

mutual

theorem Value.nodes_renamed (rename : NodeId → NodeId) :
    ∀ value : Value, (value.renamed rename).nodes = value.nodes.map (Collection.renamed rename)
  | .none | .int _ | .float _ | .string _ | .binary _ | .error _ => rfl
  | .list items => nodesOfItems_renamed rename items
  | .dict entries => nodesOfEntries_renamed rename entries
  | .collection node => Collection.nodes_renamed rename node

theorem Collection.nodes_renamed (rename : NodeId → NodeId) :
    ∀ node : Collection, (node.renamed rename).nodes = node.nodes.map (Collection.renamed rename)
  | .node id kind attributes operands ids => by
      simp [Collection.renamed, Collection.nodes, nodesOfEntries_renamed rename attributes,
        nodesOfOperands_renamed rename operands]

theorem nodesOfItems_renamed (rename : NodeId → NodeId) :
    ∀ items : List Value, nodesOfItems (renamedItems rename items) =
      (nodesOfItems items).map (Collection.renamed rename)
  | [] => rfl
  | item :: rest => by
      simp [renamedItems, nodesOfItems, Value.nodes_renamed rename item,
        nodesOfItems_renamed rename rest]

theorem nodesOfEntries_renamed (rename : NodeId → NodeId) :
    ∀ entries : List (String × Value), nodesOfEntries (renamedEntries rename entries) =
      (nodesOfEntries entries).map (Collection.renamed rename)
  | [] => rfl
  | (_, value) :: rest => by
      simp [renamedEntries, nodesOfEntries, Value.nodes_renamed rename value,
        nodesOfEntries_renamed rename rest]

theorem nodesOfOperands_renamed (rename : NodeId → NodeId) :
    ∀ operands : List Collection, nodesOfOperands (renamedOperands rename operands) =
      (nodesOfOperands operands).map (Collection.renamed rename)
  | [] => rfl
  | operand :: rest => by
      simp [renamedOperands, nodesOfOperands, Collection.nodes_renamed rename operand,
        nodesOfOperands_renamed rename rest]

end

/-! ### Copies -/

/-- The identities of all node occurrences of some values. -/
def identities (values : List Value) : List NodeId := (nodesOfItems values).map Collection.id

theorem identities_renamed (rename : NodeId → NodeId) (values : List Value) :
    identities (values.map (Value.renamed rename)) = (identities values).map rename := by
  rw [← renamedItems_eq_map, identities, nodesOfItems_renamed, identities]
  simp [Function.comp_def]

/-- The second values are the first ones under other identities, different ones for different
nodes: the same content in the same order, and two occurrences are one node in the copies
exactly when they are one node in the originals. -/
def CopyOf (values copies : List Value) : Prop :=
  ∃ rename : NodeId → NodeId,
    Set.InjOn rename {id | id ∈ identities values} ∧ copies = values.map (Value.renamed rename)

/-- Two occurrences of the copies are one node exactly when those of the originals are. -/
theorem CopyOf.same_node_iff {values copies : List Value} (h : CopyOf values copies)
    (i j : Nat) (hi : i < (identities values).length) (hj : j < (identities values).length) :
    (identities copies)[i]? = (identities copies)[j]? ↔
      (identities values)[i]? = (identities values)[j]? := by
  obtain ⟨rename, hinj, rfl⟩ := h
  rw [identities_renamed, List.getElem?_map, List.getElem?_map, List.getElem?_eq_getElem hi,
    List.getElem?_eq_getElem hj]
  simp only [Option.map_some, Option.some.injEq]
  exact hinj.eq_iff (List.getElem_mem hi) (List.getElem_mem hj)

end MediaCatalog
