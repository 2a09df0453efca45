import MediaCatalog.Proofs.Value.Copy
import MediaCatalog.Value.Order

/-!
What renaming leaves alone. No view of a value shows the identities of its nodes, so a copy looks
like its original: it has the same type, the same number and text, and the same entries under the
same keys. Renaming twice is renaming once, so a copy of a copy is a copy.
-/

namespace MediaCatalog

variable {rename other : NodeId → NodeId}

/-! ### Views -/

namespace Value

@[simp] theorem typeName_renamed (value : Value) :
    (value.renamed rename).typeName = value.typeName := by
  cases value <;> rfl

@[simp] theorem isNone_renamed (value : Value) :
    (value.renamed rename).isNone = value.isNone := by
  cases value <;> rfl

@[simp] theorem int?_renamed (value : Value) : (value.renamed rename).int? = value.int? := by
  cases value <;> rfl

@[simp] theorem float?_renamed (value : Value) :
    (value.renamed rename).float? = value.float? := by
  cases value <;> rfl

@[simp] theorem string?_renamed (value : Value) :
    (value.renamed rename).string? = value.string? := by
  cases value <;> rfl

@[simp] theorem list?_renamed (value : Value) :
    (value.renamed rename).list? = value.list?.map (renamedItems rename) := by
  cases value <;> rfl

@[simp] theorem dict?_renamed (value : Value) :
    (value.renamed rename).dict? = value.dict?.map (renamedEntries rename) := by
  cases value <;> rfl

@[simp] theorem collection?_renamed (value : Value) :
    (value.renamed rename).collection? = value.collection?.map (Collection.renamed rename) := by
  cases value <;> rfl

@[simp] theorem strings?_renamed (value : Value) :
    (value.renamed rename).strings? = value.strings? := by
  have hitems (items : List Value) :
      (renamedItems rename items).mapM string? = items.mapM string? := by
    induction items with
    | nil => rfl
    | cons item rest ih => simp [renamedItems, ih]
  cases value with
  | list items => exact hitems items
  | _ => rfl

@[simp] theorem number?_renamed (value : Value) :
    (value.renamed rename).number? = value.number? := by
  simp [number?]

@[simp] theorem text_renamed (value : Value) : (value.renamed rename).text = value.text := by
  cases value <;> rfl

theorem alike_renamed (left right : Value) :
    left.alike (right.renamed rename) = left.alike right := by
  simp [alike]

end Value

/-- The entries of a copy stand under the keys of the original. -/
theorem Dict.find?_renamed (entries : Dict Value) (key : String) :
    Dict.find? (renamedEntries rename entries) key =
      (Dict.find? entries key).map (Value.renamed rename) := by
  induction entries with
  | nil => rfl
  | cons entry rest ih =>
      obtain ⟨name, value⟩ := entry
      simp only [renamedEntries, Dict.find?_cons, ih]
      split <;> rfl

theorem distinct_renamed {entries : List (String × Value)} (h : Dict.Distinct entries)
    (rename : NodeId → NodeId) : Dict.Distinct (renamedEntries rename entries) := by
  rw [renamedEntries_eq_map]
  simpa [Dict.Distinct, Dict.keys, Function.comp_def] using h

namespace Collection

@[simp] theorem kind_renamed (node : Collection) : (node.renamed rename).kind = node.kind := by
  cases node
  rfl

@[simp] theorem ids_renamed (node : Collection) : (node.renamed rename).ids = node.ids := by
  cases node
  rfl

@[simp] theorem operands_renamed (node : Collection) :
    (node.renamed rename).operands = node.operands.map (Collection.renamed rename) := by
  cases node
  exact renamedOperands_eq_map _ _

@[simp] theorem attribute?_renamed (node : Collection) (key : String) :
    (node.renamed rename).attribute? key = (node.attribute? key).map (Value.renamed rename) := by
  cases node
  exact Dict.find?_renamed _ _

@[simp] theorem attributeString?_renamed (node : Collection) (key : String) :
    (node.renamed rename).attributeString? key = node.attributeString? key := by
  rw [attributeString?, attributeString?, attribute?_renamed]
  cases node.attribute? key <;> simp

end Collection

/-! ### Renaming twice -/

mutual

theorem Value.renamed_renamed :
    ∀ value : Value, (value.renamed rename).renamed other = value.renamed (other ∘ rename)
  | .none | .int _ | .float _ | .string _ | .binary _ | .error _ => rfl
  | .list items => by simp [Value.renamed, renamedItems_renamed items]
  | .dict entries => by simp [Value.renamed, renamedEntries_renamed entries]
  | .collection node => by simp [Value.renamed, Collection.renamed_renamed node]

theorem Collection.renamed_renamed :
    ∀ node : Collection, (node.renamed rename).renamed other = node.renamed (other ∘ rename)
  | .node id kind attributes operands ids => by
      simp [Collection.renamed, renamedEntries_renamed attributes,
        renamedOperands_renamed operands]

theorem renamedItems_renamed :
    ∀ items : List Value,
      renamedItems other (renamedItems rename items) = renamedItems (other ∘ rename) items
  | [] => rfl
  | item :: rest => by
      simp [renamedItems, Value.renamed_renamed item, renamedItems_renamed rest]

theorem renamedEntries_renamed :
    ∀ entries : List (String × Value),
      renamedEntries other (renamedEntries rename entries) = renamedEntries (other ∘ rename) entries
  | [] => rfl
  | (_, value) :: rest => by
      simp [renamedEntries, Value.renamed_renamed value, renamedEntries_renamed rest]

theorem renamedOperands_renamed :
    ∀ operands : List Collection,
      renamedOperands other (renamedOperands rename operands) =
        renamedOperands (other ∘ rename) operands
  | [] => rfl
  | operand :: rest => by
      simp [renamedOperands, Collection.renamed_renamed operand, renamedOperands_renamed rest]

end

mutual

/-- Keeping all identities changes nothing. -/
theorem Value.renamed_id : ∀ value : Value, value.renamed id = value
  | .none | .int _ | .float _ | .string _ | .binary _ | .error _ => rfl
  | .list items => by simp [Value.renamed, renamedItems_id items]
  | .dict entries => by simp [Value.renamed, renamedEntries_id entries]
  | .collection node => by simp [Value.renamed, Collection.renamed_id node]

theorem Collection.renamed_id : ∀ node : Collection, node.renamed id = node
  | .node _ _ attributes operands _ => by
      simp [Collection.renamed, renamedEntries_id attributes, renamedOperands_id operands]

theorem renamedItems_id : ∀ items : List Value, renamedItems id items = items
  | [] => rfl
  | item :: rest => by simp [renamedItems, Value.renamed_id item, renamedItems_id rest]

theorem renamedEntries_id : ∀ entries : List (String × Value), renamedEntries id entries = entries
  | [] => rfl
  | (_, value) :: rest => by
      simp [renamedEntries, Value.renamed_id value, renamedEntries_id rest]

theorem renamedOperands_id : ∀ operands : List Collection, renamedOperands id operands = operands
  | [] => rfl
  | operand :: rest => by
      simp [renamedOperands, Collection.renamed_id operand, renamedOperands_id rest]

end

/-! ### Copies of parts and of copies -/

/-- A copy of a list lists copies of the items. -/
theorem CopyOf.of_list {items : List Value} {copy : Value} (h : CopyOf [.list items] [copy]) :
    ∃ copies, copy = .list copies ∧ CopyOf items copies := by
  obtain ⟨rename, hinj, hcopy⟩ := h
  have hids : identities [.list items] = identities items := by
    simp [identities, nodesOfItems, Value.nodes]
  refine ⟨renamedItems rename items, (List.singleton_inj.mp hcopy), rename, hids ▸ hinj, ?_⟩
  exact renamedItems_eq_map rename items

/-- What stands at a position of the copies is a copy of what stands there. -/
theorem CopyOf.getElem? {values copies : List Value} (h : CopyOf values copies) {i : Nat}
    {value : Value} (hvalue : values[i]? = some value) :
    ∃ copy, copies[i]? = some copy ∧ CopyOf [value] [copy] := by
  obtain ⟨rename, hinj, rfl⟩ := h
  refine ⟨value.renamed rename, by simp [hvalue], rename, hinj.mono fun id hid => ?_, rfl⟩
  obtain ⟨node, hnode, rfl⟩ := List.mem_map.mp hid
  refine List.mem_map_of_mem ?_
  rw [nodesOfItems_eq_flatMap] at hnode ⊢
  exact List.mem_flatMap.mpr ⟨value, List.mem_of_getElem? hvalue, by simpa using hnode⟩

theorem CopyOf.getElem?_eq_none {values copies : List Value} (h : CopyOf values copies) {i : Nat}
    (hnone : values[i]? = none) : copies[i]? = none := by
  obtain ⟨rename, -, rfl⟩ := h
  rw [List.getElem?_map, hnone, Option.map_none]

theorem CopyOf.refl (values : List Value) : CopyOf values values := by
  refine ⟨id, Set.injOn_id _, ?_⟩
  rw [funext Value.renamed_id, List.map_id']

/-- Only the identities that occur matter. -/
theorem Value.renamed_congr {value : Value}
    (h : ∀ node ∈ value.nodes, rename node.id = other node.id) :
    value.renamed rename = value.renamed other := by
  induction value using Value.induction with
  | none | int | float | string | binary | error => rfl
  | list items ih =>
      simp only [nodes, nodesOfItems_eq_flatMap, List.mem_flatMap] at h
      simp only [renamed, renamedItems_eq_map, list.injEq]
      exact List.map_congr_left fun item hitem =>
        ih item hitem fun node hnode => h node ⟨item, hitem, hnode⟩
  | dict entries ih =>
      simp only [nodes, nodesOfEntries_eq_flatMap, List.mem_flatMap] at h
      simp only [renamed, renamedEntries_eq_map, dict.injEq]
      exact List.map_congr_left fun entry hentry => Prod.ext rfl <|
        ih entry hentry fun node hnode => h node ⟨entry, hentry, hnode⟩
  | collection id kind attributes operands ids ihattributes ihoperands =>
      simp only [nodes, Collection.nodes, nodesOfEntries_eq_flatMap, nodesOfOperands_eq_flatMap,
        List.mem_append, List.mem_flatMap, List.mem_singleton] at h
      have hattributes : renamedEntries rename attributes = renamedEntries other attributes := by
        rw [renamedEntries_eq_map, renamedEntries_eq_map]
        exact List.map_congr_left fun entry hentry => Prod.ext rfl <|
          ihattributes entry hentry fun node hnode => h node (.inl (.inl ⟨entry, hentry, hnode⟩))
      have hoperands : renamedOperands rename operands = renamedOperands other operands := by
        rw [renamedOperands_eq_map, renamedOperands_eq_map]
        exact List.map_congr_left fun operand hoperand => collection.inj <|
          ihoperands operand hoperand fun node hnode =>
            h node (.inl (.inr ⟨operand, hoperand, hnode⟩))
      have hid : rename id = other id := h (.node id kind attributes operands ids) (.inr rfl)
      rw [renamed, renamed, Collection.renamed, Collection.renamed, hid, hattributes, hoperands]

/-- A copy has its original as a copy. -/
theorem CopyOf.symm {values copies : List Value} (h : CopyOf values copies) :
    CopyOf copies values := by
  obtain ⟨rename, hinj, rfl⟩ := h
  let back := Function.invFunOn rename {id | id ∈ identities values}
  refine ⟨back, ?_, ?_⟩
  · rw [identities_renamed]
    have himage : {id | id ∈ (identities values).map rename} =
        rename '' {id | id ∈ identities values} := by
      ext id
      simp
    rw [himage]
    exact Function.invFunOn_injOn_image rename _
  · have hback (value : Value) (hvalue : value ∈ values) :
        (value.renamed rename).renamed back = value := by
      rw [Value.renamed_renamed]
      refine (Value.renamed_congr fun node hnode => ?_).trans (Value.renamed_id value)
      have hid : node.id ∈ identities values := by
        refine List.mem_map_of_mem ?_
        rw [nodesOfItems_eq_flatMap]
        exact List.mem_flatMap.mpr ⟨value, hvalue, hnode⟩
      exact hinj.leftInvOn_invFunOn hid
    have hall : values.map (Value.renamed back ∘ Value.renamed rename) = values.map id :=
      List.map_congr_left hback
    rw [List.map_map, hall, List.map_id]

theorem CopyOf.trans {values copies copies' : List Value} (h : CopyOf values copies)
    (h' : CopyOf copies copies') : CopyOf values copies' := by
  obtain ⟨rename, hinj, rfl⟩ := h
  obtain ⟨other, hinj', rfl⟩ := h'
  refine ⟨other ∘ rename, hinj'.comp hinj fun id hid => ?_, ?_⟩
  · show rename id ∈ identities (values.map (Value.renamed rename))
    rw [identities_renamed]
    exact List.mem_map_of_mem hid
  · simp [List.map_map, Function.comp_def, Value.renamed_renamed]

end MediaCatalog
