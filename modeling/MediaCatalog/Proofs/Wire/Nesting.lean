import Mathlib.Algebra.Group.Nat.Defs
import Mathlib.Data.Finset.Card
import Mathlib.Data.List.Dedup
import MediaCatalog.Proofs.Value.Renaming
import MediaCatalog.Wire.Writer

/-!
What a message may hold. Values nest in levels: what stands inside a list, a dictionary or a
node is one level below it, and a node that was written before in the same message is a leaf,
since a number stands in its place. Lengths and numbers of nodes take four bytes.
-/

namespace MediaCatalog

mutual

/-- How many levels a value takes when the nodes `written` were written before it, and the nodes
that are written after it. A value that holds nothing takes one level. -/
def Value.levels : Value → List NodeId → Nat × List NodeId
  | .list items, written =>
    let (inside, written) := levelsOfItems items written
    (inside + 1, written)
  | .dict entries, written =>
    let (inside, written) := levelsOfEntries entries written
    (inside + 1, written)
  | .collection node, written => node.levels written
  | _, written => (1, written)

def Collection.levels : Collection → List NodeId → Nat × List NodeId
  | .node id _ attributes operands _, written =>
    if id ∈ written then (1, written)
    else
      let (above, written) := levelsOfEntries attributes written
      let (below, written) := levelsOfOperands operands written
      (max above below + 1, written ++ [id])

def levelsOfItems : List Value → List NodeId → Nat × List NodeId
  | [], written => (0, written)
  | item :: rest, written =>
    let (here, written) := item.levels written
    let (after, written) := levelsOfItems rest written
    (max here after, written)

def levelsOfEntries : List (String × Value) → List NodeId → Nat × List NodeId
  | [], written => (0, written)
  | (_, value) :: rest, written =>
    let (here, written) := value.levels written
    let (after, written) := levelsOfEntries rest written
    (max here after, written)

def levelsOfOperands : List Collection → List NodeId → Nat × List NodeId
  | [], written => (0, written)
  | operand :: rest, written =>
    let (here, written) := operand.levels written
    let (after, written) := levelsOfOperands rest written
    (max here after, written)

end

/-- The deepest level at which something stands in a message of these values. -/
def depthOf (values : List Value) : Nat := (levelsOfItems values []).1

/-- The lengths that are written with a value itself fit into four bytes. -/
def Value.Sized : Value → Prop
  | .string text => text.utf8ByteSize < 2 ^ 32
  | .binary bytes => bytes.length < 2 ^ 32
  | .list items => items.length < 2 ^ 32
  | .dict entries =>
    entries.length < 2 ^ 32 ∧ ∀ entry ∈ entries, entry.1.utf8ByteSize < 2 ^ 32
  | .collection node =>
    (node.attributes.length < 2 ^ 32 ∧ ∀ entry ∈ node.attributes, entry.1.utf8ByteSize < 2 ^ 32) ∧
      node.ids.length < 2 ^ 32 ∧ node.operands.length < 2 ^ 32
  | .error message => message.utf8ByteSize < 2 ^ 32
  | _ => True

/-- No key of the value's own entries is repeated. -/
def Value.Keyed : Value → Prop
  | .dict entries => Dict.Distinct entries
  | .collection node => Dict.Distinct node.attributes
  | _ => True

/-- Identities mark nodes, and keys are not repeated. -/
structure WellFormed (values : List Value) : Prop where
  shared : WellShared values
  keyed : ∀ part ∈ partsOfItems values, part.Keyed

/-- All lengths and the number of nodes fit into four bytes. -/
structure Compact (values : List Value) : Prop where
  sized : ∀ part ∈ partsOfItems values, part.Sized
  counted : (identities values).dedup.length < 2 ^ 32

/-- Values that a message can hold, however deep they are. -/
structure Transmissible (values : List Value) : Prop extends WellFormed values, Compact values

/-- What a list holds is in order if the list is. -/
theorem WellFormed.of_list {items : List Value} (h : WellFormed [.list items]) :
    WellFormed items where
  shared := by
    have hshared := h.shared
    rwa [WellShared, nodesOfItems, nodesOfItems, List.append_nil, Value.nodes] at hshared
  keyed := fun part hpart => h.keyed part (by simp [partsOfItems, Value.parts, hpart])

mutual

/-- Levels are counted with the table of the nodes that writing has. -/
theorem Value.levels_snd :
    ∀ (value : Value) (written : List NodeId), (value.levels written).2 = (value.write written).2
  | .none, _ | .int _, _ | .float _, _ | .string _, _ | .binary _, _ | .error _, _ => rfl
  | .list items, written => by
      simp [Value.levels, Value.write, levelsOfItems_snd items written]
  | .dict entries, written => by
      simp [Value.levels, Value.write, levelsOfEntries_snd entries written]
  | .collection node, written => by
      simp [Value.levels, Value.write, Collection.levels_snd node written]

theorem Collection.levels_snd :
    ∀ (node : Collection) (written : List NodeId),
      (node.levels written).2 = (node.write written).2
  | .node id kind attributes operands ids, written => by
      simp only [Collection.levels, Collection.write]
      split
      · next h =>
        obtain ⟨number, hnumber⟩ := Option.isSome_iff_exists.mp (List.isSome_idxOf?.mpr h)
        simp [hnumber]
      · next h =>
        rw [List.idxOf?_eq_none_iff.mpr h]
        simp [levelsOfEntries_snd attributes, levelsOfOperands_snd operands]

theorem levelsOfItems_snd :
    ∀ (items : List Value) (written : List NodeId),
      (levelsOfItems items written).2 = (writeItems items written).2
  | [], _ => rfl
  | item :: rest, written => by
      simp [levelsOfItems, writeItems, Value.levels_snd item, levelsOfItems_snd rest]

theorem levelsOfEntries_snd :
    ∀ (entries : List (String × Value)) (written : List NodeId),
      (levelsOfEntries entries written).2 = (writeEntries entries written).2
  | [], _ => rfl
  | (_, value) :: rest, written => by
      simp [levelsOfEntries, writeEntries, Value.levels_snd value, levelsOfEntries_snd rest]

theorem levelsOfOperands_snd :
    ∀ (operands : List Collection) (written : List NodeId),
      (levelsOfOperands operands written).2 = (writeOperands operands written).2
  | [], _ => rfl
  | operand :: rest, written => by
      simp [levelsOfOperands, writeOperands, Collection.levels_snd operand,
        levelsOfOperands_snd rest]

end

/-! ### Copies -/

mutual

theorem Value.parts_renamed (rename : NodeId → NodeId) :
    ∀ value : Value, (value.renamed rename).parts = value.parts.map (Value.renamed rename)
  | .none | .int _ | .float _ | .string _ | .binary _ | .error _ => rfl
  | .list items => by
      simp [Value.renamed, Value.parts, partsOfItems_renamed rename items]
  | .dict entries => by
      simp [Value.renamed, Value.parts, partsOfEntries_renamed rename entries]
  | .collection node => by
      simp [Value.renamed, Value.parts, Collection.parts_renamed rename node]

theorem Collection.parts_renamed (rename : NodeId → NodeId) :
    ∀ node : Collection, (node.renamed rename).parts = node.parts.map (Value.renamed rename)
  | .node id kind attributes operands ids => by
      simp [Collection.renamed, Collection.parts, Value.renamed,
        partsOfEntries_renamed rename attributes, partsOfOperands_renamed rename operands]

theorem partsOfItems_renamed (rename : NodeId → NodeId) :
    ∀ items : List Value, partsOfItems (renamedItems rename items) =
      (partsOfItems items).map (Value.renamed rename)
  | [] => rfl
  | item :: rest => by
      simp [renamedItems, partsOfItems, Value.parts_renamed rename item,
        partsOfItems_renamed rename rest]

theorem partsOfEntries_renamed (rename : NodeId → NodeId) :
    ∀ entries : List (String × Value), partsOfEntries (renamedEntries rename entries) =
      (partsOfEntries entries).map (Value.renamed rename)
  | [] => rfl
  | (_, value) :: rest => by
      simp [renamedEntries, partsOfEntries, Value.parts_renamed rename value,
        partsOfEntries_renamed rename rest]

theorem partsOfOperands_renamed (rename : NodeId → NodeId) :
    ∀ operands : List Collection, partsOfOperands (renamedOperands rename operands) =
      (partsOfOperands operands).map (Value.renamed rename)
  | [] => rfl
  | operand :: rest => by
      simp [renamedOperands, partsOfOperands, Collection.parts_renamed rename operand,
        partsOfOperands_renamed rename rest]

end

theorem Value.Keyed.renamed {value : Value} (h : value.Keyed) (rename : NodeId → NodeId) :
    (value.renamed rename).Keyed := by
  cases value with
  | dict entries => exact distinct_renamed h rename
  | collection node =>
      cases node
      exact distinct_renamed (by exact h) rename
  | _ => trivial

theorem Value.Sized.renamed {value : Value} (h : value.Sized) (rename : NodeId → NodeId) :
    (value.renamed rename).Sized := by
  have hentries (entries : List (String × Value))
      (h : entries.length < 2 ^ 32 ∧ ∀ entry ∈ entries, entry.1.utf8ByteSize < 2 ^ 32) :
      (renamedEntries rename entries).length < 2 ^ 32 ∧
        ∀ entry ∈ renamedEntries rename entries, entry.1.utf8ByteSize < 2 ^ 32 := by
    rw [renamedEntries_eq_map, List.length_map, List.forall_mem_map]
    exact h
  cases value with
  | list items =>
      simp only [Value.renamed, Value.Sized, renamedItems_eq_map, List.length_map]
      exact h
  | dict entries => exact hentries entries h
  | collection node =>
      obtain ⟨id, kind, attributes, operands, ids⟩ := node
      refine ⟨hentries attributes h.1, h.2.1, ?_⟩
      simp only [Collection.renamed, Collection.operands, renamedOperands_eq_map, List.length_map]
      exact h.2.2
  | _ => exact h

/-- What holds of the parts of values and does not look at identities holds of their copies. -/
theorem CopyOf.forall_parts {values copies : List Value} (h : CopyOf values copies)
    {motive : Value → Prop}
    (hrenamed : ∀ value, motive value → ∀ rename, motive (value.renamed rename))
    (hparts : ∀ part ∈ partsOfItems values, motive part) :
    ∀ part ∈ partsOfItems copies, motive part := by
  obtain ⟨rename, -, rfl⟩ := h
  rw [← renamedItems_eq_map, partsOfItems_renamed, List.forall_mem_map]
  exact fun part hpart => hrenamed part (hparts part hpart) rename

theorem WellFormed.copy {values copies : List Value} (h : WellFormed values)
    (hcopy : CopyOf values copies) : WellFormed copies where
  shared := by
    obtain ⟨rename, hinj, rfl⟩ := hcopy
    intro first hfirst second hsecond hsame
    rw [← renamedItems_eq_map, nodesOfItems_renamed] at hfirst hsecond
    obtain ⟨first, hfirst', rfl⟩ := List.mem_map.mp hfirst
    obtain ⟨second, hsecond', rfl⟩ := List.mem_map.mp hsecond
    rw [Collection.id_renamed, Collection.id_renamed] at hsame
    have hid := hinj (List.mem_map_of_mem hfirst') (List.mem_map_of_mem hsecond') hsame
    rw [h.shared first hfirst' second hsecond' hid]
  keyed := hcopy.forall_parts (fun _ hpart => hpart.renamed) h.keyed

theorem Compact.copy {values copies : List Value} (h : Compact values)
    (hcopy : CopyOf values copies) : Compact copies where
  sized := hcopy.forall_parts (fun _ hpart => hpart.renamed) h.sized
  counted := by
    obtain ⟨rename, -, rfl⟩ := hcopy
    rw [identities_renamed]
    refine lt_of_le_of_lt ?_ h.counted
    have himage : ((identities values).map rename).toFinset =
        (identities values).toFinset.image rename := by
      ext id
      simp
    rw [← List.card_toFinset, ← List.card_toFinset, himage]
    exact Finset.card_image_le

theorem Transmissible.copy {values copies : List Value} (h : Transmissible values)
    (hcopy : CopyOf values copies) : Transmissible copies :=
  ⟨h.toWellFormed.copy hcopy, h.toCompact.copy hcopy⟩

section Levels

variable {rename : NodeId → NodeId} {domain : List NodeId}

/-- The table that a copy leaves is the renamed one. -/
def TableRenamed (rename : NodeId → NodeId) (domain : List NodeId)
    (levels levels' : Nat × List NodeId) : Prop :=
  levels' = (levels.1, levels.2.map rename) ∧ levels.2 ⊆ domain

mutual

/-- A copy nests as deep as its original, provided renaming keeps nodes apart. -/
theorem Value.levels_renamed (hinj : Set.InjOn rename {id | id ∈ domain}) :
    ∀ (value : Value) (written : List NodeId), value.nodes.map Collection.id ⊆ domain →
      written ⊆ domain →
      TableRenamed rename domain (value.levels written)
        ((value.renamed rename).levels (written.map rename))
  | .none, _, _, hw | .int _, _, _, hw | .float _, _, _, hw | .string _, _, _, hw
  | .binary _, _, _, hw | .error _, _, _, hw => ⟨rfl, hw⟩
  | .list items, written, hn, hw => by
      obtain ⟨hlevels, htable⟩ := levelsOfItems_renamed hinj items written hn hw
      exact ⟨by simp only [Value.renamed, Value.levels, hlevels], htable⟩
  | .dict entries, written, hn, hw => by
      obtain ⟨hlevels, htable⟩ := levelsOfEntries_renamed hinj entries written hn hw
      exact ⟨by simp only [Value.renamed, Value.levels, hlevels], htable⟩
  | .collection node, written, hn, hw => Collection.levels_renamed hinj node written hn hw

theorem Collection.levels_renamed (hinj : Set.InjOn rename {id | id ∈ domain}) :
    ∀ (node : Collection) (written : List NodeId), node.nodes.map Collection.id ⊆ domain →
      written ⊆ domain →
      TableRenamed rename domain (node.levels written)
        ((node.renamed rename).levels (written.map rename))
  | .node id kind attributes operands ids, written, hn, hw => by
      simp only [Collection.nodes, List.map_append, List.append_subset, List.map_cons,
        List.map_nil, List.cons_subset, List.nil_subset, and_true, Collection.id] at hn
      obtain ⟨⟨hattributes, hoperands⟩, hid⟩ := hn
      have hmem : rename id ∈ written.map rename ↔ id ∈ written := by
        constructor
        · intro hrenamed
          obtain ⟨other, hother, hsame⟩ := List.mem_map.mp hrenamed
          exact hinj (hw hother) hid hsame ▸ hother
        · exact fun h => List.mem_map_of_mem h
      simp only [Collection.renamed, Collection.levels]
      by_cases hold : id ∈ written
      · rw [if_pos hold, if_pos (hmem.mpr hold)]
        exact ⟨rfl, hw⟩
      · obtain ⟨habove, hw'⟩ := levelsOfEntries_renamed hinj attributes written hattributes hw
        obtain ⟨hbelow, hw''⟩ := levelsOfOperands_renamed hinj operands _ hoperands hw'
        rw [if_neg hold, if_neg (mt hmem.mp hold)]
        refine ⟨by simp [habove, hbelow], ?_⟩
        simp only [List.append_subset, List.cons_subset, List.nil_subset, and_true]
        exact ⟨hw'', hid⟩

theorem levelsOfItems_renamed (hinj : Set.InjOn rename {id | id ∈ domain}) :
    ∀ (items : List Value) (written : List NodeId),
      (nodesOfItems items).map Collection.id ⊆ domain → written ⊆ domain →
      TableRenamed rename domain (levelsOfItems items written)
        (levelsOfItems (renamedItems rename items) (written.map rename))
  | [], _, _, hw => ⟨rfl, hw⟩
  | item :: rest, written, hn, hw => by
      simp only [nodesOfItems, List.map_append, List.append_subset] at hn
      obtain ⟨hhere, hw'⟩ := Value.levels_renamed hinj item written hn.1 hw
      obtain ⟨hafter, hw''⟩ := levelsOfItems_renamed hinj rest _ hn.2 hw'
      exact ⟨by simp only [renamedItems, levelsOfItems, hhere, hafter], hw''⟩

theorem levelsOfEntries_renamed (hinj : Set.InjOn rename {id | id ∈ domain}) :
    ∀ (entries : List (String × Value)) (written : List NodeId),
      (nodesOfEntries entries).map Collection.id ⊆ domain → written ⊆ domain →
      TableRenamed rename domain (levelsOfEntries entries written)
        (levelsOfEntries (renamedEntries rename entries) (written.map rename))
  | [], _, _, hw => ⟨rfl, hw⟩
  | (_, value) :: rest, written, hn, hw => by
      simp only [nodesOfEntries, List.map_append, List.append_subset] at hn
      obtain ⟨hhere, hw'⟩ := Value.levels_renamed hinj value written hn.1 hw
      obtain ⟨hafter, hw''⟩ := levelsOfEntries_renamed hinj rest _ hn.2 hw'
      exact ⟨by simp only [renamedEntries, levelsOfEntries, hhere, hafter], hw''⟩

theorem levelsOfOperands_renamed (hinj : Set.InjOn rename {id | id ∈ domain}) :
    ∀ (operands : List Collection) (written : List NodeId),
      (nodesOfOperands operands).map Collection.id ⊆ domain → written ⊆ domain →
      TableRenamed rename domain (levelsOfOperands operands written)
        (levelsOfOperands (renamedOperands rename operands) (written.map rename))
  | [], _, _, hw => ⟨rfl, hw⟩
  | operand :: rest, written, hn, hw => by
      simp only [nodesOfOperands, List.map_append, List.append_subset] at hn
      obtain ⟨hhere, hw'⟩ := Collection.levels_renamed hinj operand written hn.1 hw
      obtain ⟨hafter, hw''⟩ := levelsOfOperands_renamed hinj rest _ hn.2 hw'
      exact ⟨by simp only [renamedOperands, levelsOfOperands, hhere, hafter], hw''⟩

end

end Levels

theorem CopyOf.depthOf_eq {values copies : List Value} (h : CopyOf values copies) :
    depthOf copies = depthOf values := by
  obtain ⟨rename, hinj, rfl⟩ := h
  have hlevels := levelsOfItems_renamed hinj values [] (List.Subset.refl _) (List.nil_subset _)
  rw [depthOf, ← renamedItems_eq_map, ← List.map_nil (f := rename), hlevels.1, depthOf]

end MediaCatalog
