import MediaCatalog.Proofs.Catalog.Success
import MediaCatalog.Proofs.Catalog.Unfolding

/-!
References against what they refer to. Following a reference puts its key on the stack before the
saved collection is evaluated, while the saved collection alone is evaluated with an empty stack.
That makes no difference: a collection that comes back to its own key cannot be evaluated either
way, and one that does not select the same ids.
-/

namespace MediaCatalog

theorem Collection.RefersTo.ofNode_eq {node : Collection} {space : Namespace} {name : String}
    (h : node.RefersTo space name) : Target.ofNode node = .ok (.saved space name) := by
  have hread := Target.ofNode_read h.reference
  generalize Target.ofNode node = read at hread ⊢
  cases hread with
  | untold huntold => exact absurd ⟨name, h.named, .inr ⟨space, h.looks⟩⟩ huntold
  | everything _ hnone => exact absurd h (hnone space name)
  | saved _ honly =>
      obtain ⟨rfl, rfl⟩ := (honly space name).mp h
      rfl

theorem Visits.trans {store : Store} {node middle reached : Collection}
    {keys keys' : List ReferenceKey} (h : Visits store node keys middle)
    (h' : Visits store middle keys' reached) : Visits store node (keys' ++ keys) reached := by
  induction h with
  | here => rwa [List.append_nil]
  | input hinput _ ih => exact .input hinput (ih h')
  | target hrefers hget _ ih =>
      rw [← List.append_assoc]
      exact .target hrefers hget (ih h')

/-- What can be resolved from a saved collection on never comes back to its own key. -/
theorem resolvable_singleton_iff {store : Store} {space : Namespace} {name : String}
    {node : Collection} (hget : store.get name space = .ok node) :
    Resolvable store [(space, name)] node ↔ Resolvable store [] node := by
  constructor
  · intro h keys reached hreached
    obtain ⟨hcomplete, hreferences⟩ := h keys reached hreached
    refine ⟨hcomplete, fun space' name' hrefers => ?_⟩
    obtain ⟨htarget, hnew⟩ := hreferences space' name' hrefers
    exact ⟨htarget, fun hmem => hnew (List.mem_append_left _ (by simpa using hmem))⟩
  · intro h keys reached hreached
    obtain ⟨hcomplete, hreferences⟩ := h keys reached hreached
    refine ⟨hcomplete, fun space' name' hrefers => ?_⟩
    obtain ⟨htarget, hnew⟩ := hreferences space' name' hrefers
    refine ⟨htarget, fun hmem => ?_⟩
    rcases List.mem_append.mp hmem with hmem | hmem
    · exact hnew (List.mem_append_left _ hmem)
    · -- The reference leads to where we started, and from there once more to itself.
      obtain ⟨rfl, rfl⟩ : space' = space ∧ name' = name := by simpa using hmem
      have hagain := hreached.trans (.target hrefers hget hreached)
      obtain ⟨-, hreferences'⟩ := h _ reached hagain
      exact (hreferences' space' name' hrefers).2 (by simp)

/-- Nothing among collections that lead only to each other leads to a random order, if none of them
is one. -/
theorem RandomFree.of_closed {store : Store} {P : Collection → Prop}
    (hhere : ∀ node, P node → node.kind = .order → SortKey.ofNode node ≠ .ok .random)
    (hinputs : ∀ node, P node → ∀ operand ∈ node.inputs, P operand)
    (htargets : ∀ node, P node → ∀ space name target,
      store.get name space = .ok target → P target)
    {node : Collection} (h : P node) : RandomFree store node := by
  intro reached hreached
  induction hreached with
  | here node => exact hhere node h
  | input hinput _ ih => exact ih (hinputs _ h _ hinput)
  | target _ _ hget _ ih => exact ih (htargets _ h _ _ _ hget)

namespace Catalog

variable {catalog : Catalog} {node : Collection}

/-- The ids of a collection do not depend on what is under way. -/
theorem select_unique (hrandom : RandomFree catalog.store node)
    {resolving resolving' : List ReferenceKey} {ids ids' : List Int64}
    (h : catalog.select resolving node = .ok ids) (h' : catalog.select resolving' node = .ok ids') :
    ids = ids' := by
  obtain ⟨rounds, hrounds⟩ := exists_unfoldsTo catalog resolving node hrandom ids h
  obtain ⟨rounds', hrounds'⟩ := exists_unfoldsTo catalog resolving' node hrandom ids' h'
  have hfirst := (hrounds.mono (le_max_left rounds rounds')).2 0 []
  have hsecond := (hrounds'.mono (le_max_right rounds rounds')).2 0 []
  exact Except.ok.inj (hfirst.symm.trans hsecond)

/-- A reference selects what the collection that it refers to selects. -/
theorem evaluate_reference_iff {reference : Collection} {space : Namespace} {name : String}
    (hrefers : reference.RefersTo space name) (hget : catalog.store.get name space = .ok node)
    (hrandom : RandomFree catalog.store node) (ids : List Int64) :
    catalog.evaluate reference = .ok ids ↔ catalog.evaluate node = .ok ids := by
  have hfollow : catalog.evaluate reference = catalog.select [(space, name)] node := by
    rw [evaluate, select_eq_layer, layer_reference hrefers.reference,
      hrefers.ofNode_eq]
    simp only [follow_of_notMem List.not_mem_nil, hget]
  have hsucceeds : (∃ ids, catalog.select [(space, name)] node = .ok ids) ↔
      ∃ ids, catalog.select [] node = .ok ids := by
    rw [(catalog.select_settles _ node).succeeds, (catalog.select_settles _ node).succeeds]
    exact resolvable_singleton_iff hget
  rw [hfollow, evaluate]
  constructor
  · intro hselect
    obtain ⟨ids', hselect'⟩ := hsucceeds.mp ⟨ids, hselect⟩
    rw [hselect', select_unique hrandom hselect hselect']
  · intro hselect
    obtain ⟨ids', hselect'⟩ := hsucceeds.mpr ⟨ids, hselect⟩
    rw [hselect', select_unique hrandom hselect hselect']

end Catalog

end MediaCatalog
