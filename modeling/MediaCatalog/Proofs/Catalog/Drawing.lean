import MediaCatalog.Proofs.Catalog.Layer

/-!
Evaluation with a source of chance. Where random order is asked for, the ids are put in the order
that a source gives, and the source goes on to the next random order from what it has become. Of
the source only this is known: it loses no ids and makes up none. Evaluation as it is defined is
the case of a source that is fixed by the seed.
-/

namespace MediaCatalog

/-- A source of random order: what it makes of some ids, and what becomes of itself. -/
structure Shuffler (σ : Type) where
  shuffle : List Int64 → StateM σ (List Int64)
  perm (ids : List Int64) (source : σ) : (shuffle ids source).1.Perm ids

/-- The source that a seed stands for. It never changes. -/
def Shuffler.seeded : Shuffler UInt64 where
  shuffle ids seed := (Chance.shuffle seed ids, seed)
  perm ids seed := Chance.shuffle_perm seed ids

namespace Catalog

variable {σ : Type}

/-- What a node other than a reference selects, given the results of the operands that it reads. -/
def drawLayer (shuffler : Shuffler σ) (catalog : Catalog) (node : Collection)
    (results : List Selection) : StateM σ Selection :=
  if node.kind = .order ∧ (SortKey.ofNode node).toOption = some .random then
    match Selection.first .order results with
    | .error cause => return .error cause
    | .ok selected => do return .ok (← shuffler.shuffle selected)
  else
    -- The node is no reference, so the level follows none.
    return catalog.layer node results (catalog.follow [])

/-- The ids that a collection selects, while the references `resolving` are under way. Operands
draw one after the other. -/
def draw (shuffler : Shuffler σ) (catalog : Catalog) (resolving : List ReferenceKey)
    (node : Collection) : StateM σ Selection :=
  if node.kind = .reference then
    match Target.ofNode node with
    | .error cause => return .error cause
    | .ok .everything => return .ok catalog.library.ids
    | .ok (.saved space name) =>
      if _ : (space, name) ∈ resolving then
        return .error (.remote ("reference cycle through " ++ name))
      else
        match _ : catalog.store.get name space with
        | .error cause => return .error cause
        | .ok target => draw shuffler catalog ((space, name) :: resolving) target
  else do
    let results ← node.inputs.attach.mapM fun operand =>
      draw shuffler catalog resolving operand.val
    catalog.drawLayer shuffler node results
termination_by (catalog.unresolved resolving, sizeOf node)
decreasing_by
  · exact Prod.Lex.left _ _ (unresolved_lt (mem_referenceKeys ‹_›) ‹_›)
  · exact Prod.Lex.right _ (Collection.sizeOf_lt_of_mem_inputs operand.property)

/-- The results of some operands, drawn one after the other. -/
def drawAll (shuffler : Shuffler σ) (catalog : Catalog) (resolving : List ReferenceKey)
    (operands : List Collection) : StateM σ (List Selection) :=
  operands.mapM (catalog.draw shuffler resolving)

variable {shuffler : Shuffler σ} {catalog : Catalog} {resolving : List ReferenceKey}
  {node : Collection}

theorem draw_of_ne_reference (h : node.kind ≠ .reference) :
    catalog.draw shuffler resolving node =
      catalog.drawAll shuffler resolving node.inputs >>= catalog.drawLayer shuffler node := by
  rw [draw, if_neg h, drawAll, List.mapM_subtype fun _ _ => rfl, List.unattach_attach]

/-- Following a reference draws nothing before its target does. -/
theorem draw_reference (h : node.kind = .reference) :
    catalog.draw shuffler resolving node =
      match Target.ofNode node with
      | .error cause => return .error cause
      | .ok .everything => return .ok catalog.library.ids
      | .ok (.saved space name) =>
        if (space, name) ∈ resolving then
          return .error (.remote ("reference cycle through " ++ name))
        else
          match catalog.store.get name space with
          | .error cause => return .error cause
          | .ok target => catalog.draw shuffler ((space, name) :: resolving) target := by
  rw [draw, if_pos h]
  split
  · rfl
  · rfl
  · split
    · rfl
    · split <;> next hget => simp only [hget]

theorem drawLayer_seeded (h : node.kind ≠ .reference) (results : List Selection)
    (follow : Namespace → String → Selection) :
    catalog.drawLayer .seeded node results catalog.seed =
      (catalog.layer node results follow, catalog.seed) := by
  obtain ⟨id, kind, attributes, operands, ids⟩ := node
  cases kind with
  | reference => exact absurd rfl h
  | order =>
      simp only [drawLayer, layer, Collection.kind, true_and]
      cases SortKey.ofNode (.node id .order attributes operands ids) with
      | error cause => cases Selection.first .order results <;> rfl
      | ok key => cases key <;> cases Selection.first .order results <;> rfl
  | everything | idlist | union | intersection | complement | filter | limit => rfl

theorem drawAll_seeded {operands : List Collection}
    (h : ∀ operand ∈ operands, catalog.draw .seeded resolving operand catalog.seed =
      (catalog.select resolving operand, catalog.seed)) :
    catalog.drawAll .seeded resolving operands catalog.seed =
      (operands.map (catalog.select resolving), catalog.seed) := by
  induction operands with
  | nil => rfl
  | cons operand rest ih =>
      rw [List.forall_mem_cons] at h
      have hrest := ih h.2
      rw [drawAll] at hrest ⊢
      rw [List.mapM_cons]
      simp only [bind, StateT.bind, h.1, hrest]
      rfl

/-- Drawing from the seeded source is evaluation. -/
theorem draw_seeded (catalog : Catalog) (resolving : List ReferenceKey) (node : Collection) :
    catalog.draw .seeded resolving node catalog.seed =
      (catalog.select resolving node, catalog.seed) := by
  induction resolving, node using catalog.select_induction with
  | step resolving node hinputs htargets =>
      rw [select_eq_layer]
      by_cases hkind : node.kind = .reference
      · rw [draw_reference hkind, layer_reference hkind]
        cases Target.ofNode node with
        | error cause => rfl
        | ok target =>
            cases target with
            | everything => rfl
            | saved space name =>
                by_cases hmem : (space, name) ∈ resolving
                · simp only [hmem, if_true, follow_of_mem hmem]
                  rfl
                · simp only [hmem, if_false, follow_of_notMem hmem]
                  cases hget : catalog.store.get name space with
                  | error cause => rfl
                  | ok target => exact htargets space name target hmem hget
      · rw [draw_of_ne_reference hkind]
        simp only [bind, StateT.bind, drawAll_seeded hinputs]
        exact drawLayer_seeded hkind _ _

end Catalog

end MediaCatalog
