import MediaCatalog.Proofs.Catalog.Layer

/-!
What evaluation can come to: the operands that nodes read, and the collections that references
lead to. Where no random order can be reached, the ids of a collection follow from the library
and the store alone.
-/

namespace MediaCatalog

/-- The collections that the evaluation of a collection can come to. -/
inductive Reaches (store : Store) : Collection → Collection → Prop where
  | here (node : Collection) : Reaches store node node
  | input {node operand reached : Collection} (hinput : operand ∈ node.inputs)
      (h : Reaches store operand reached) : Reaches store node reached
  | target {node target reached : Collection} {space : Namespace} {name : String}
      (hkind : node.kind = .reference) (htarget : Target.ofNode node = .ok (.saved space name))
      (hget : store.get name space = .ok target) (h : Reaches store target reached) :
      Reaches store node reached

/-- What holds of a node, of all that its operands come to and of all that its reference comes to
holds of all that it comes to. -/
theorem Reaches.forall_of_parts {store : Store} {node : Collection} {P : Collection → Prop}
    (hhere : P node)
    (hinputs : ∀ operand ∈ node.inputs, ∀ reached, Reaches store operand reached → P reached)
    (htargets : ∀ space name target, node.kind = .reference →
      Target.ofNode node = .ok (.saved space name) → store.get name space = .ok target →
      ∀ reached, Reaches store target reached → P reached) :
    ∀ reached, Reaches store node reached → P reached := by
  intro reached hreached
  cases hreached with
  | here => exact hhere
  | input hinput h => exact hinputs _ hinput reached h
  | target hkind htarget hget h => exact htargets _ _ _ hkind htarget hget reached h

/-- No random order can be reached. -/
def RandomFree (store : Store) (collection : Collection) : Prop :=
  ∀ node, Reaches store collection node → node.kind = .order → SortKey.ofNode node ≠ .ok .random

namespace RandomFree

variable {store : Store} {node : Collection}

theorem here (h : RandomFree store node) :
    node.kind = .order → SortKey.ofNode node ≠ .ok .random :=
  h node (.here node)

theorem input (h : RandomFree store node) {operand : Collection} (hinput : operand ∈ node.inputs) :
    RandomFree store operand :=
  fun reached hreached => h reached (.input hinput hreached)

theorem target (h : RandomFree store node) {target : Collection} {space : Namespace}
    {name : String} (hkind : node.kind = .reference)
    (htarget : Target.ofNode node = .ok (.saved space name))
    (hget : store.get name space = .ok target) : RandomFree store target :=
  fun reached hreached => h reached (.target hkind htarget hget hreached)

/-- A node leads to no random order if neither it nor what it leads to at once does. -/
theorem of_parts (hhere : node.kind = .order → SortKey.ofNode node ≠ .ok .random)
    (hinputs : ∀ operand ∈ node.inputs, RandomFree store operand)
    (htargets : ∀ space name target, node.kind = .reference →
      Target.ofNode node = .ok (.saved space name) → store.get name space = .ok target →
      RandomFree store target) : RandomFree store node :=
  Reaches.forall_of_parts hhere hinputs htargets

/-- A node without operands can only be reached as it is. -/
theorem of_leaf (horder : node.kind ≠ .order) (hreference : node.kind ≠ .reference)
    (hleaf : node.inputs = []) : RandomFree store node := by
  refine of_parts (fun h => absurd h horder) ?_ fun _ _ _ h => absurd h hreference
  rw [hleaf]
  exact List.forall_mem_nil _

end RandomFree

/-- Without random order the seed decides nothing. -/
theorem Catalog.select_of_randomFree {catalog catalog' : Catalog}
    (hlibrary : catalog.library = catalog'.library) (hstore : catalog.store = catalog'.store)
    (resolving : List ReferenceKey) (node : Collection) (hrandom : RandomFree catalog.store node) :
    catalog.select resolving node = catalog'.select resolving node := by
  induction resolving, node using catalog.select_induction with
  | step resolving node hinputs htargets =>
      rw [select_eq_layer, select_eq_layer]
      have hresults : node.inputs.map (catalog.select resolving) =
          node.inputs.map (catalog'.select resolving) :=
        List.map_congr_left fun operand hoperand =>
          hinputs operand hoperand (hrandom.input hoperand)
      rw [hresults]
      refine layer_of_library hlibrary hrandom.here fun space name hkind htarget => ?_
      by_cases hnew : (space, name) ∈ resolving
      · rw [follow_of_mem hnew, follow_of_mem hnew]
      · rw [follow_of_notMem hnew, follow_of_notMem hnew, ← hstore]
        cases hget : catalog.store.get name space with
        | error cause => rfl
        | ok target =>
            exact htargets space name target hnew hget (hrandom.target hkind htarget hget)

end MediaCatalog
