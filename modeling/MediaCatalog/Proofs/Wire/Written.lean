import MediaCatalog.Proofs.Wire.Nesting

/-!
The table of written nodes. Writing a value only adds to the table, and what it adds are the
identities of the nodes inside the value, each once. The table stays closed: with a node it has
all nodes inside that node.
-/

namespace MediaCatalog

open Wire

mutual

/-- Writing keeps the numbers that were given out before. -/
theorem Value.written_grows :
    ∀ (value : Value) (written : List NodeId), written <+: (value.write written).2
  | .none, _ | .int _, _ | .float _, _ | .string _, _ | .binary _, _ | .error _, _ =>
      List.prefix_rfl
  | .list items, written => by
      simpa [Value.write] using writtenByItems_grows items written
  | .dict entries, written => by
      simpa [Value.write] using writtenByEntries_grows entries written
  | .collection node, written => by
      simpa [Value.write] using Collection.written_grows node written

theorem Collection.written_grows :
    ∀ (node : Collection) (written : List NodeId), written <+: (node.write written).2
  | .node id kind attributes operands ids, written => by
      simp only [Collection.write]
      split
      · exact List.prefix_rfl
      · exact ((writtenByEntries_grows attributes written).trans
          (writtenByOperands_grows operands _)).trans (List.prefix_append _ _)

theorem writtenByItems_grows :
    ∀ (items : List Value) (written : List NodeId), written <+: (writeItems items written).2
  | [], _ => List.prefix_rfl
  | item :: rest, written =>
      (Value.written_grows item written).trans (writtenByItems_grows rest _)

theorem writtenByEntries_grows :
    ∀ (entries : List (String × Value)) (written : List NodeId),
      written <+: (writeEntries entries written).2
  | [], _ => List.prefix_rfl
  | (_, value) :: rest, written =>
      (Value.written_grows value written).trans (writtenByEntries_grows rest _)

theorem writtenByOperands_grows :
    ∀ (operands : List Collection) (written : List NodeId),
      written <+: (writeOperands operands written).2
  | [], _ => List.prefix_rfl
  | operand :: rest, written =>
      (Collection.written_grows operand written).trans (writtenByOperands_grows rest _)

end

/-! ### What the table holds -/

/-- Every node is the one that its identity stands for. -/
def Covers (origin : NodeId → Collection) (nodes : List Collection) : Prop :=
  ∀ node ∈ nodes, origin node.id = node

/-- No identity has two numbers, and with a node all nodes inside it have numbers. -/
structure SoundTable (origin : NodeId → Collection) (written : List NodeId) : Prop where
  nodup : written.Nodup
  closed : ∀ id ∈ written, ∀ node ∈ (origin id).nodes, node.id ∈ written

/-- The table has grown by the identities of `nodes`, and by no others. -/
structure GrownBy (nodes : List Collection) (before after : List NodeId) : Prop where
  keeps : ∀ id ∈ before, id ∈ after
  covered : ∀ node ∈ nodes, node.id ∈ after
  only : ∀ id ∈ after, id ∈ before ∨ ∃ node ∈ nodes, node.id = id

theorem GrownBy.refl (written : List NodeId) : GrownBy [] written written :=
  ⟨fun _ h => h, by simp, fun _ h => .inl h⟩

theorem GrownBy.trans {first second : List Collection} {before middle after : List NodeId}
    (h : GrownBy first before middle) (h' : GrownBy second middle after) :
    GrownBy (first ++ second) before after where
  keeps id hid := h'.keeps id (h.keeps id hid)
  covered node hnode := by
    rcases List.mem_append.mp hnode with hnode | hnode
    · exact h'.keeps _ (h.covered node hnode)
    · exact h'.covered node hnode
  only id hid := by
    rcases h'.only id hid with hid | ⟨node, hnode, rfl⟩
    · rcases h.only id hid with hid | ⟨node, hnode, rfl⟩
      · exact .inl hid
      · exact .inr ⟨node, List.mem_append_left _ hnode, rfl⟩
    · exact .inr ⟨node, List.mem_append_right _ hnode, rfl⟩

theorem Covers.left {origin : NodeId → Collection} {first second : List Collection}
    (h : Covers origin (first ++ second)) : Covers origin first :=
  fun node hnode => h node (List.mem_append_left _ hnode)

theorem Covers.right {origin : NodeId → Collection} {first second : List Collection}
    (h : Covers origin (first ++ second)) : Covers origin second :=
  fun node hnode => h node (List.mem_append_right _ hnode)

theorem GrownBy.push (node : Collection) (written : List NodeId) :
    GrownBy [node] written (written ++ [node.id]) where
  keeps _ h := List.mem_append_left _ h
  covered other hother := by simp [List.mem_singleton.mp hother]
  only id hid := by
    rcases List.mem_append.mp hid with hid | hid
    · exact .inl hid
    · exact .inr ⟨node, List.mem_singleton_self node, (List.mem_singleton.mp hid).symm⟩

theorem SoundTable.push {origin : NodeId → Collection} {written : List NodeId} {id : NodeId}
    (hs : SoundTable origin written) (hnew : id ∉ written)
    (hinside : ∀ node ∈ (origin id).nodes, node.id ∈ written ++ [id]) :
    SoundTable origin (written ++ [id]) where
  nodup := by
    rw [List.nodup_append]
    refine ⟨hs.nodup, List.nodup_singleton id, fun other hother next hnext hsame => hnew ?_⟩
    rwa [← List.mem_singleton.mp hnext, ← hsame]
  closed other hother node hnode := by
    rcases List.mem_append.mp hother with hother | hother
    · exact List.mem_append_left _ (hs.closed other hother node hnode)
    · exact hinside node (List.mem_singleton.mp hother ▸ hnode)

/-- A node is not among the nodes inside it, so its identity is new when they are written. -/
theorem notMem_of_grownBy {origin : NodeId → Collection} {id : NodeId} {kind : CollectionKind}
    {attributes : List (String × Value)} {operands : List Collection} {ids : List Int64}
    {before after : List NodeId}
    (hcovers : Covers origin (Collection.node id kind attributes operands ids).nodes)
    (hgrown : GrownBy (nodesOfEntries attributes ++ nodesOfOperands operands) before after)
    (hnew : id ∉ before) : id ∉ after := by
  intro hid
  rcases hgrown.only id hid with hid | ⟨node, hnode, hsame⟩
  · exact hnew hid
  have hself : origin id = .node id kind attributes operands ids :=
    hcovers (.node id kind attributes operands ids) (by simp [Collection.nodes])
  have hnode' : origin node.id = node := by
    apply hcovers
    rw [Collection.nodes]
    exact List.mem_append_left _ hnode
  have hsize : sizeOf node = sizeOf (Collection.node id kind attributes operands ids) := by
    rw [← hnode', hsame, hself]
  simp only [Collection.node.sizeOf_spec] at hsize
  rcases List.mem_append.mp hnode with hnode | hnode
  · have := sizeOf_lt_of_mem_nodesOfEntries attributes hnode
    omega
  · have := sizeOf_lt_of_mem_nodesOfOperands operands hnode
    omega

mutual

/-- Writing a value adds the identities of its nodes to the table and keeps it sound. -/
theorem Value.written_grownBy {origin : NodeId → Collection} :
    ∀ (value : Value) (written : List NodeId), Covers origin value.nodes →
      SoundTable origin written →
      GrownBy value.nodes written (value.write written).2 ∧
        SoundTable origin (value.write written).2
  | .none, written, _, hs | .int _, written, _, hs | .float _, written, _, hs
  | .string _, written, _, hs | .binary _, written, _, hs | .error _, written, _, hs =>
      ⟨GrownBy.refl written, hs⟩
  | .list items, written, hc, hs => by
      simpa [Value.write, Value.nodes] using
        writtenByItems_grownBy items written (by simpa [Value.nodes] using hc) hs
  | .dict entries, written, hc, hs => by
      simpa [Value.write, Value.nodes] using
        writtenByEntries_grownBy entries written (by simpa [Value.nodes] using hc) hs
  | .collection node, written, hc, hs => by
      simpa [Value.write, Value.nodes] using
        Collection.written_grownBy node written (by simpa [Value.nodes] using hc) hs

theorem Collection.written_grownBy {origin : NodeId → Collection} :
    ∀ (node : Collection) (written : List NodeId), Covers origin node.nodes →
      SoundTable origin written →
      GrownBy node.nodes written (node.write written).2 ∧
        SoundTable origin (node.write written).2
  | .node id kind attributes operands ids, written, hc, hs => by
      have hself : origin id = .node id kind attributes operands ids :=
        hc (.node id kind attributes operands ids) (by simp [Collection.nodes])
      simp only [Collection.write]
      split
      · next number hnumber =>
        have hid : id ∈ written := by
          rw [← List.isSome_idxOf?, hnumber]
          rfl
        refine ⟨⟨fun _ h => h, fun node hnode => ?_, fun _ h => .inl h⟩, hs⟩
        exact hs.closed id hid node (by rwa [hself])
      · next hnumber =>
        have hnew : id ∉ written := List.idxOf?_eq_none_iff.mp hnumber
        have hc' : Covers origin (nodesOfEntries attributes ++ nodesOfOperands operands) := by
          rw [Collection.nodes] at hc
          exact hc.left
        obtain ⟨hattributes, hs₁⟩ := writtenByEntries_grownBy attributes written hc'.left hs
        obtain ⟨hoperands, hs₂⟩ := writtenByOperands_grownBy operands _ hc'.right hs₁
        have hinside := hattributes.trans hoperands
        have hid := notMem_of_grownBy hc hinside hnew
        have hwhole := hinside.trans
          (GrownBy.push (.node id kind attributes operands ids) _)
        refine ⟨by simpa [Collection.nodes, Collection.id] using hwhole,
          hs₂.push hid fun node hnode => ?_⟩
        rw [hself] at hnode
        exact hwhole.covered node (by simpa [Collection.nodes] using hnode)

theorem writtenByItems_grownBy {origin : NodeId → Collection} :
    ∀ (items : List Value) (written : List NodeId), Covers origin (nodesOfItems items) →
      SoundTable origin written →
      GrownBy (nodesOfItems items) written (writeItems items written).2 ∧
        SoundTable origin (writeItems items written).2
  | [], written, _, hs => ⟨GrownBy.refl written, hs⟩
  | item :: rest, written, hc, hs => by
      obtain ⟨hitem, hs₁⟩ := Value.written_grownBy item written hc.left hs
      obtain ⟨hrest, hs₂⟩ := writtenByItems_grownBy rest _ hc.right hs₁
      exact ⟨hitem.trans hrest, hs₂⟩

theorem writtenByEntries_grownBy {origin : NodeId → Collection} :
    ∀ (entries : List (String × Value)) (written : List NodeId),
      Covers origin (nodesOfEntries entries) → SoundTable origin written →
      GrownBy (nodesOfEntries entries) written (writeEntries entries written).2 ∧
        SoundTable origin (writeEntries entries written).2
  | [], written, _, hs => ⟨GrownBy.refl written, hs⟩
  | (_, value) :: rest, written, hc, hs => by
      obtain ⟨hvalue, hs₁⟩ := Value.written_grownBy value written hc.left hs
      obtain ⟨hrest, hs₂⟩ := writtenByEntries_grownBy rest _ hc.right hs₁
      exact ⟨hvalue.trans hrest, hs₂⟩

theorem writtenByOperands_grownBy {origin : NodeId → Collection} :
    ∀ (operands : List Collection) (written : List NodeId),
      Covers origin (nodesOfOperands operands) → SoundTable origin written →
      GrownBy (nodesOfOperands operands) written (writeOperands operands written).2 ∧
        SoundTable origin (writeOperands operands written).2
  | [], written, _, hs => ⟨GrownBy.refl written, hs⟩
  | operand :: rest, written, hc, hs => by
      obtain ⟨hoperand, hs₁⟩ := Collection.written_grownBy operand written hc.left hs
      obtain ⟨hrest, hs₂⟩ := writtenByOperands_grownBy rest _ hc.right hs₁
      exact ⟨hoperand.trans hrest, hs₂⟩

end

end MediaCatalog
