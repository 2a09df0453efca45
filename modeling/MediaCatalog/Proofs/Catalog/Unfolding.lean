import Mathlib.Data.Finset.Lattice.Fold
import Mathlib.Logic.Function.Iterate
import MediaCatalog.Proofs.Catalog.Reachable

/-!
Unfolding references. A saved collection can be put in the place of a reference to it, and what
is put there may hold references again. Evaluation reads references lazily; when it succeeds,
every reference that it reads can be replaced round by round until none is left, and the
collection that results needs no store. Operands that a node does not read are never looked at,
so references among them may lead anywhere, or nowhere.
-/

namespace MediaCatalog

/-- The collection that stands in the place of a reference, if there is one. -/
def Store.standIn (store : Store) (reference : Collection) : Collection :=
  match Target.ofNode reference with
  | .error _ => reference
  | .ok .everything => .node reference.id .everything [] [] []
  | .ok (.saved space name) =>
    match store.get name space with
    | .error _ => reference
    | .ok target => target

mutual

/-- One round of replacing references. Of the operands of a node so many take part as `part`
tells from its kind and their number. -/
def Collection.unfold (part : CollectionKind → Nat → Nat) (store : Store) :
    Collection → Collection
  | .node id kind attributes operands ids =>
    if kind = .reference then store.standIn (.node id kind attributes operands ids)
    else
      .node id kind attributes (unfoldOperands part store (part kind operands.length) operands) ids

def unfoldOperands (part : CollectionKind → Nat → Nat) (store : Store) :
    (count : Nat) → List Collection → List Collection
  | _, [] => []
  | 0, operand :: rest => operand :: rest
  | count + 1, operand :: rest =>
    operand.unfold part store :: unfoldOperands part store count rest

end

/-- No reference is left where operands take part. -/
inductive ReferenceFree (part : CollectionKind → Nat → Nat) : Collection → Prop where
  | node (id : NodeId) (kind : CollectionKind) (attributes : Dict Value)
      (operands : List Collection) (ids : List Int64) (hkind : kind ≠ .reference)
      (hoperands : ∀ operand ∈ operands.take (part kind operands.length),
        ReferenceFree part operand) :
      ReferenceFree part (.node id kind attributes operands ids)

variable {part : CollectionKind → Nat → Nat} {store : Store}

/-- One round on the operands that take part leaves the others where they are. -/
theorem unfoldOperands_take_map_append (f : Collection → Collection) (count : Nat)
    (operands : List Collection) :
    unfoldOperands part store count ((operands.take count).map f ++ operands.drop count) =
      (operands.take count).map (Collection.unfold part store ∘ f) ++ operands.drop count := by
  induction operands generalizing count with
  | nil => simp [unfoldOperands]
  | cons operand rest ih =>
      cases count with
      | zero => rfl
      | succ count => simpa [unfoldOperands] using ih count

theorem unfoldOperands_eq (count : Nat) (operands : List Collection) :
    unfoldOperands part store count operands =
      (operands.take count).map (Collection.unfold part store) ++ operands.drop count := by
  have hmap : unfoldOperands part store count
      ((operands.take count).map id ++ operands.drop count) = _ :=
    unfoldOperands_take_map_append id count operands
  simpa using hmap

theorem length_take_map_append (f : Collection → Collection) (count : Nat)
    (operands : List Collection) :
    ((operands.take count).map f ++ operands.drop count).length = operands.length := by
  rw [List.length_append, List.length_map, ← List.length_append, List.take_append_drop]

theorem take_take_map_append (f : Collection → Collection) (count : Nat)
    (operands : List Collection) :
    ((operands.take count).map f ++ operands.drop count).take count =
      (operands.take count).map f := by
  induction operands generalizing count with
  | nil => simp
  | cons operand rest ih =>
      cases count with
      | zero => rfl
      | succ count => simpa using ih count

/-- Other nodes keep what they are while their operands are unfolded. -/
theorem iterate_unfold_node {kind : CollectionKind} (hkind : kind ≠ .reference) (rounds : Nat)
    (id : NodeId) (attributes : Dict Value) (operands : List Collection) (ids : List Int64) :
    (Collection.unfold part store)^[rounds] (.node id kind attributes operands ids) =
      .node id kind attributes
        ((operands.take (part kind operands.length)).map (Collection.unfold part store)^[rounds] ++
          operands.drop (part kind operands.length)) ids := by
  induction rounds with
  | zero => simp
  | succ rounds ih =>
      rw [Function.iterate_succ_apply', ih, Collection.unfold, if_neg hkind,
        length_take_map_append, unfoldOperands_take_map_append, Function.iterate_succ']

theorem unfold_reference {node : Collection} (hkind : node.kind = .reference) :
    node.unfold part store = store.standIn node := by
  obtain ⟨id, kind, attributes, operands, ids⟩ := node
  rw [Collection.unfold]
  exact if_pos hkind

/-- Where no reference is left nothing is replaced any more. -/
theorem ReferenceFree.unfold_eq {node : Collection} (h : ReferenceFree part node) :
    node.unfold part store = node := by
  induction h with
  | node id kind attributes operands ids hkind _ ih =>
      rw [Collection.unfold, if_neg hkind, unfoldOperands_eq, List.map_congr_left ih, List.map_id',
        List.take_append_drop]

/-- A collection without references keeps being without them. -/
theorem ReferenceFree.iterate_unfold {node : Collection} {rounds : Nat}
    (h : ReferenceFree part ((Collection.unfold part store)^[rounds] node)) {more : Nat}
    (hmore : rounds ≤ more) :
    (Collection.unfold part store)^[more] node = (Collection.unfold part store)^[rounds] node := by
  obtain ⟨others, rfl⟩ := Nat.exists_eq_add_of_le' hmore
  rw [Function.iterate_add_apply, Function.iterate_fixed h.unfold_eq]

/-- The collection needs no store any more after so many rounds, and then selects `ids` whatever
the seed. -/
def UnfoldsTo (catalog : Catalog) (node : Collection) (ids : List Int64) (rounds : Nat) : Prop :=
  ReferenceFree CollectionKind.reads
      ((Collection.unfold CollectionKind.reads catalog.store)^[rounds] node) ∧
    ∀ seed resolving, Catalog.select { library := catalog.library, store := .empty, seed } resolving
      ((Collection.unfold CollectionKind.reads catalog.store)^[rounds] node) = .ok ids

namespace UnfoldsTo

variable {catalog : Catalog} {node : Collection} {ids : List Int64} {rounds : Nat}

theorem mono (h : UnfoldsTo catalog node ids rounds) {more : Nat} (hmore : rounds ≤ more) :
    UnfoldsTo catalog node ids more := by
  rw [UnfoldsTo]
  rw [h.1.iterate_unfold hmore]
  exact h

/-- So many rounds serve several collections at once. -/
theorem exists_rounds {nodes : List Collection} (ask : Collection → Selection)
    (h : ∀ node ∈ nodes, ∃ ids, ask node = .ok ids ∧ ∃ rounds, UnfoldsTo catalog node ids rounds) :
    ∃ rounds, ∀ node ∈ nodes, ∃ ids, ask node = .ok ids ∧ UnfoldsTo catalog node ids rounds := by
  induction nodes with
  | nil => exact ⟨0, by simp⟩
  | cons node rest ih =>
      simp only [List.mem_cons, forall_eq_or_imp] at h
      obtain ⟨⟨ids, hids, rounds, hrounds⟩, hrest⟩ := h
      obtain ⟨others, hothers⟩ := ih hrest
      refine ⟨max rounds others, ?_⟩
      simp only [List.mem_cons, forall_eq_or_imp]
      refine ⟨⟨ids, hids, hrounds.mono (le_max_left _ _)⟩, fun other hother => ?_⟩
      obtain ⟨ids, hids, hother⟩ := hothers other hother
      exact ⟨ids, hids, hother.mono (le_max_right _ _)⟩

/-- The rounds that serve the operands that a node reads serve the node. -/
theorem of_inputs {resolving : List ReferenceKey} (hkind : node.kind ≠ .reference)
    (hrandom : node.kind = .order → SortKey.ofNode node ≠ .ok .random)
    (hselect : catalog.select resolving node = .ok ids)
    (hinputs : ∀ operand ∈ node.inputs, ∃ selected,
      catalog.select resolving operand = .ok selected ∧ UnfoldsTo catalog operand selected rounds) :
    UnfoldsTo catalog node ids rounds := by
  obtain ⟨id, kind, attributes, operands, listed⟩ := node
  have hkind' : kind ≠ .reference := hkind
  refine ⟨?_, fun seed resolving' => ?_⟩ <;> rw [iterate_unfold_node hkind']
  · apply ReferenceFree.node _ _ _ _ _ hkind'
    rw [length_take_map_append, take_take_map_append, List.forall_mem_map]
    intro operand hoperand
    obtain ⟨selected, -, hunfolded⟩ := hinputs operand hoperand
    exact hunfolded.1
  · -- The node is given the same results as before, now without the store.
    rw [Catalog.select_eq_layer, Collection.inputs, Collection.operands, Collection.kind,
      length_take_map_append, take_take_map_append, List.map_map]
    rw [Catalog.select_eq_layer] at hselect
    have hresults : ((operands.take (kind.reads operands.length)).map
        (Catalog.select { library := catalog.library, store := .empty, seed } resolving' ∘
          (Collection.unfold CollectionKind.reads catalog.store)^[rounds])) =
        (operands.take (kind.reads operands.length)).map (catalog.select resolving) := by
      refine List.map_congr_left fun operand hoperand => ?_
      obtain ⟨selected, hselected, hunfolded⟩ := hinputs operand hoperand
      exact (hunfolded.2 seed resolving').trans hselected.symm
    rw [hresults, Catalog.layer_node _ id _ _ _ operands, ← hselect]
    exact Catalog.layer_of_library rfl hrandom fun _ _ h => absurd h hkind

/-- The collection that a reference leads to takes one round more. -/
theorem of_reference {resolving : List ReferenceKey} (hkind : node.kind = .reference)
    (hselect : catalog.select resolving node = .ok ids)
    (htarget : ∀ space name target, (space, name) ∉ resolving →
      Target.ofNode node = .ok (.saved space name) → catalog.store.get name space = .ok target →
      catalog.select ((space, name) :: resolving) target = .ok ids →
      ∃ rounds, UnfoldsTo catalog target ids rounds) :
    ∃ rounds, UnfoldsTo catalog node ids rounds := by
  have hunfold : node.unfold CollectionKind.reads catalog.store = catalog.store.standIn node :=
    unfold_reference hkind
  rw [Catalog.select_eq_layer, Catalog.layer_reference hkind] at hselect
  split at hselect
  · cases hselect
  · next hall =>
    refine ⟨1, ?_⟩
    rw [UnfoldsTo, Function.iterate_one, hunfold, Store.standIn, hall]
    refine ⟨.node _ _ _ _ _ (by simp) (by simp), fun seed resolving' => ?_⟩
    rw [Catalog.select_eq_layer]
    exact hselect
  · next space name hsaved =>
    -- The first round puts the saved collection in place of the reference.
    obtain ⟨target, hnew, hget, hselect⟩ := Catalog.follow_ok hselect
    obtain ⟨rounds, hrounds⟩ := htarget space name target hnew hsaved hget hselect
    refine ⟨rounds + 1, ?_⟩
    rw [UnfoldsTo, Function.iterate_succ_apply, hunfold, Store.standIn, hsaved]
    simp only [hget]
    exact hrounds

end UnfoldsTo

/-- What can be evaluated can be unfolded. -/
theorem exists_unfoldsTo (catalog : Catalog) (resolving : List ReferenceKey) (node : Collection) :
    RandomFree catalog.store node → ∀ ids, catalog.select resolving node = .ok ids →
      ∃ rounds, UnfoldsTo catalog node ids rounds := by
  induction resolving, node using catalog.select_induction with
  | step resolving node hinputs htargets =>
      intro hrandom ids hselect
      by_cases hkind : node.kind = .reference
      · exact UnfoldsTo.of_reference hkind hselect fun space name target hnew htarget hget =>
          htargets space name target hnew hget (hrandom.target hkind htarget hget) ids
      · have hlayer := hselect
        rw [Catalog.select_eq_layer] at hlayer
        obtain ⟨rounds, hrounds⟩ := UnfoldsTo.exists_rounds (catalog.select resolving)
          fun operand hoperand => by
            obtain ⟨selected, hselected⟩ := Catalog.layer_ok_inputs hlayer operand hoperand
            exact ⟨selected, hselected,
              hinputs operand hoperand (hrandom.input hoperand) selected hselected⟩
        exact ⟨rounds, UnfoldsTo.of_inputs hkind hrandom.here hselect hrounds⟩

/-- Saved references are transparent: where evaluation succeeds, replacing the references among
the operands that are read comes to an end, and the collection without references selects the
same ids in the same library with an empty store. -/
theorem evaluate_unfolded {catalog : Catalog} {node : Collection} {ids : List Int64}
    (hrandom : RandomFree catalog.store node) (h : catalog.evaluate node = .ok ids)
    (seed : UInt64) :
    ∃ rounds,
      ReferenceFree CollectionKind.reads
        ((Collection.unfold CollectionKind.reads catalog.store)^[rounds] node) ∧
      Catalog.evaluate { library := catalog.library, store := .empty, seed }
        ((Collection.unfold CollectionKind.reads catalog.store)^[rounds] node) = .ok ids := by
  obtain ⟨rounds, hfree, hselect⟩ := exists_unfoldsTo catalog [] node hrandom ids h
  exact ⟨rounds, hfree, hselect seed []⟩

/-- A playlist that cuts a list of ids down to what is there. -/
def cutPlaylist : Collection :=
  .node 3 .intersection []
    [.node 1 .idlist [] [] [2, 1, 5],
      .node 2 .reference [(Attribute.reference, .string Target.allMedia)] [] []] []

/-- Two entries, and the playlist under the name `cut`. -/
def cutCatalog : Catalog where
  library := ((Library.empty.add []).2.add []).2
  store := { playlists := ({} : Std.TreeMap String Collection).insert "cut" cutPlaylist }

/-- A reference to the playlist from wherever there is one of its name. -/
def cutReference : Collection :=
  .node 7 .reference
    [(Attribute.reference, .string "cut"), (Attribute.space, .string Namespace.all.name)] [] []

theorem get_cutCatalog : cutCatalog.store.get "cut" .all = .ok cutPlaylist := by
  simp [Store.get, Namespace.expand, Store.table, cutCatalog]

theorem target_cutReference : Target.ofNode cutReference = .ok (.saved .all "cut") := by
  decide

theorem randomFree_cutReference : RandomFree cutCatalog.store cutReference := by
  refine .of_parts (fun h => absurd h (by decide))
    (by simp [Collection.inputs, cutReference, Collection.operands]) ?_
  intro space name target _ htarget hget
  rw [target_cutReference] at htarget
  cases htarget
  rw [get_cutCatalog] at hget
  cases hget
  refine .of_parts (fun h => absurd h (by decide)) (fun operand hoperand => ?_)
    fun _ _ _ h => absurd h (by decide)
  simp only [Collection.inputs, cutPlaylist, Collection.operands, Collection.kind,
    CollectionKind.reads, List.take_length, List.mem_cons, List.not_mem_nil, or_false] at hoperand
  rcases hoperand with rfl | rfl
  · exact .of_leaf (by decide) (by decide) rfl
  · refine .of_parts (fun h => absurd h (by decide))
      (by simp [Collection.inputs, Collection.operands]) ?_
    intro space name target _ htarget
    have hall : Target.ofNode (.node 2 .reference
        [(Attribute.reference, .string Target.allMedia)] [] []) = .ok .everything := by decide
    rw [hall] at htarget
    cases htarget

theorem evaluate_cutReference : cutCatalog.evaluate cutReference = .ok [2, 1] := by
  have hids : cutCatalog.library.ids = [1, 2] := by decide
  have hlisted : ([2, 1, 5] : List Int64).filter cutCatalog.library.contains = [2, 1] := by decide
  have hall : Target.ofNode (.node 2 .reference
      [(Attribute.reference, .string Target.allMedia)] [] []) = .ok .everything := by decide
  rw [Catalog.evaluate, Catalog.select_eq_layer, Catalog.layer_reference rfl, target_cutReference]
  simp only [Catalog.follow_of_notMem (List.not_mem_nil), get_cutCatalog]
  simp only [cutPlaylist, Catalog.select, Catalog.selectAll, hlisted, hall, hids]
  rfl

/-- The reference to the playlist, and the reference to everything in it, can be replaced. -/
theorem evaluate_unfolded_cut :
    RandomFree cutCatalog.store cutReference ∧ cutCatalog.evaluate cutReference = .ok [2, 1] ∧
      ∃ rounds, Catalog.evaluate { library := cutCatalog.library, store := .empty, seed := 9 }
        ((Collection.unfold CollectionKind.reads cutCatalog.store)^[rounds] cutReference) =
          .ok [2, 1] := by
  obtain ⟨rounds, -, hselect⟩ :=
    evaluate_unfolded randomFree_cutReference evaluate_cutReference 9
  exact ⟨randomFree_cutReference, evaluate_cutReference, rounds, hselect⟩

/-- All operands take part, also those that evaluation passes over. -/
def everyOperand : CollectionKind → Nat → Nat := fun _ count => count

/-- What is not in everything, with a reference behind it that leads nowhere. -/
def danglingComplement : Collection :=
  .node 2 .complement []
    [.node 0 .everything [] [] [],
      .node 1 .reference [(Attribute.reference, .string "missing")] [] []] []

/-- A reference behind the operand of a complement is not looked at, so evaluation succeeds
although the reference can never be replaced. -/
theorem evaluate_danglingComplement :
    Catalog.evaluate { library := .empty, store := .empty } danglingComplement = .ok [] ∧
      RandomFree .empty danglingComplement ∧
      ∀ rounds, ¬ ReferenceFree everyOperand
        ((Collection.unfold everyOperand .empty)^[rounds] danglingComplement) := by
  refine ⟨?_, ?_, fun rounds hfree => ?_⟩
  · simp only [Catalog.evaluate, danglingComplement, Catalog.select, Catalog.selectFirst]
    rfl
  · refine .of_parts (fun h => absurd h (by decide)) (fun operand hoperand => ?_)
      fun _ _ _ h => absurd h (by decide)
    obtain rfl : operand = .node 0 .everything [] [] [] := List.mem_singleton.mp hoperand
    exact .of_leaf (by decide) (by decide) rfl
  · have hstay : danglingComplement.unfold everyOperand .empty = danglingComplement := by
      have htarget : Target.ofNode (.node 1 .reference
          [(Attribute.reference, .string "missing")] [] []) =
            .ok (.saved .collections "missing") := by decide
      simp [danglingComplement, Collection.unfold, unfoldOperands, everyOperand, Store.standIn,
        htarget, Store.get, Namespace.expand, Store.table, Store.empty]
    rw [Function.iterate_fixed hstay] at hfree
    cases hfree with
    | node _ _ _ _ _ _ hoperands =>
        cases hoperands (.node 1 .reference [(Attribute.reference, .string "missing")] [] [])
          (by simp [everyOperand]) with
        | node _ _ _ _ _ hkind _ => exact hkind rfl

end MediaCatalog
