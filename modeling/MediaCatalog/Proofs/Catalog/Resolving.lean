import Mathlib.Data.Option.Basic
import Mathlib.Order.MinMax
import MediaCatalog.Proofs.Catalog.Layer

/-!
Evaluation with one stack. All of an evaluation shares the stack of the references under way: a
reference is put on it before its target is evaluated, and taken off afterwards whatever came of
it. Nothing in this procedure bounds how deep it goes, so it is given an allowance of nodes within
one another, and has no result when that runs out. On every stack there is an allowance from which
on it ends, with the answer of `Catalog.select` and with the stack that it was given.
-/

namespace MediaCatalog

/-- A computation on the stack of the references under way, the latest first. It has no result if
its allowance runs out. -/
abbrev Resolution := StateT (List ReferenceKey) Option

namespace Catalog

section Operands

variable (ask : Collection → Resolution Selection)

/-- The ids of every operand, up to the first that fails. -/
def resolveAll : List Collection → Resolution (Except Error (List (List Int64)))
  | [] => return .ok []
  | operand :: rest => do
    match ← ask operand with
    | .error cause => return .error cause
    | .ok selected =>
      let others ← resolveAll rest
      return do return selected :: (← others)

/-- The ids of the operand that a node of this kind cannot be without. -/
def resolveFirst (kind : CollectionKind) : List Collection → Resolution Selection
  | [] => return .error (.remote (kind.name ++ " node without operand"))
  | operand :: _ => ask operand

/-- The ids of the first operand, of the whole library without one. -/
def resolveBase (catalog : Catalog) : List Collection → Resolution Selection
  | [] => return .ok catalog.library.ids
  | operand :: _ => ask operand

end Operands

/-- The ids that a collection selects, if that takes no more than `allowance` nodes within one
another, operands and the targets of references alike. -/
def resolve (catalog : Catalog) : (allowance : Nat) → Collection → Resolution Selection
  | 0, _ => fun _ => none
  | allowance + 1, node => do
    match node.kind with
    | .everything => return .ok catalog.library.ids
    | .idlist => return .ok (node.ids.filter catalog.library.contains)
    | .reference =>
      match Target.ofNode node with
      | .error cause => return .error cause
      | .ok .everything => return .ok catalog.library.ids
      | .ok (.saved space name) =>
        if (← get).contains (space, name) then
          return .error (.remote ("reference cycle through " ++ name))
        match catalog.store.get name space with
        | .error cause => return .error cause
        | .ok target =>
          modify ((space, name) :: ·)
          let result ← resolve catalog allowance target
          modify List.tail
          return result
    | .union =>
      let parts ← resolveAll (resolve catalog allowance) node.operands
      return do return (Std.TreeSet.ofList (← parts).flatten).toList
    | .intersection =>
      let parts ← resolveAll (resolve catalog allowance) node.operands
      return do
        match ← parts with
        | [] => return []
        | first :: others => return first.filter fun id => others.all (·.contains id)
    | .complement =>
      let excluded ← resolveFirst (resolve catalog allowance) .complement node.operands
      return do
        let excluded ← excluded
        return catalog.library.ids.filter fun id => !excluded.contains id
    | .filter =>
      match Filter.ofNode node with
      | .error cause => return .error cause
      | .ok filter =>
        let selected ← resolveBase (resolve catalog allowance) catalog node.operands
        return do
          return (← selected).filter fun id =>
            filter.accepts (catalog.library.property? id filter.field)
    | .order =>
      let selected ← resolveFirst (resolve catalog allowance) .order node.operands
      return do
        let selected ← selected
        let key ← SortKey.ofNode node
        return key.sort catalog selected
    | .limit =>
      let selected ← resolveFirst (resolve catalog allowance) .limit node.operands
      return do
        let selected ← selected
        let window ← Window.ofNode node
        return window.cut selected

variable {catalog : Catalog} {resolving : List ReferenceKey}

/-- From some allowance on, the computation ends on this stack with `result` and the same stack. -/
def Restores {α : Type} (body : Nat → Resolution α) (resolving : List ReferenceKey) (result : α) :
    Prop :=
  ∃ enough, ∀ allowance ≥ enough, body allowance resolving = some (result, resolving)

namespace Restores

variable {α β : Type} {body : Nat → Resolution α} {next : Nat → α → Resolution β} {result : α}
  {answer : β}

theorem pure (result : α) : Restores (fun _ => Pure.pure result) resolving result :=
  ⟨0, fun _ _ => rfl⟩

theorem bind (h : Restores body resolving result)
    (hnext : Restores (next · result) resolving answer) :
    Restores (fun allowance => body allowance >>= next allowance) resolving answer := by
  obtain ⟨enough, h⟩ := h
  obtain ⟨enough', hnext⟩ := hnext
  refine ⟨max enough enough', fun allowance hle => ?_⟩
  simp only [Bind.bind, StateT.bind, h allowance (le_of_max_le_left hle), Option.bind_some]
  exact hnext allowance (le_of_max_le_right hle)

/-- What is put on the stack for a while is gone in the end. -/
theorem under (key : ReferenceKey) (h : Restores body (key :: resolving) result) :
    Restores (fun allowance => do
      modify (key :: ·)
      let result ← body allowance
      modify List.tail
      return result) resolving result := by
  obtain ⟨enough, h⟩ := h
  refine ⟨enough, fun allowance hle => ?_⟩
  simp only [Bind.bind, StateT.bind, modify, modifyGet, MonadStateOf.modifyGet,
    StateT.modifyGet, Option.pure_def, Option.bind_some, h allowance hle]
  rfl

/-- A node takes one more than what it needs for others. -/
theorem deeper {node : Collection} {selection : Selection}
    (h : Restores (fun allowance => catalog.resolve (allowance + 1) node) resolving selection) :
    Restores (catalog.resolve · node) resolving selection := by
  obtain ⟨enough, h⟩ := h
  refine ⟨enough + 1, fun allowance hle => ?_⟩
  obtain ⟨rest, rfl⟩ := Nat.exists_eq_add_of_le' hle
  exact h (rest + enough) (Nat.le_add_left enough rest)

end Restores

theorem resolveAll_restores {operands : List Collection}
    (h : ∀ operand ∈ operands,
      Restores (catalog.resolve · operand) resolving (catalog.select resolving operand)) :
    Restores (fun allowance => resolveAll (catalog.resolve allowance) operands) resolving
      (Selection.all (operands.map (catalog.select resolving))) := by
  induction operands with
  | nil => exact .pure _
  | cons operand rest ih =>
      rw [List.forall_mem_cons] at h
      rw [List.map_cons, Selection.all]
      refine h.1.bind ?_
      cases catalog.select resolving operand with
      | error cause => exact .pure _
      | ok selected => exact (ih h.2).bind (.pure _)

theorem resolveFirst_restores (kind : CollectionKind) {operands : List Collection}
    (h : ∀ operand ∈ operands.take 1,
      Restores (catalog.resolve · operand) resolving (catalog.select resolving operand)) :
    Restores (fun allowance => resolveFirst (catalog.resolve allowance) kind operands) resolving
      (Selection.first kind ((operands.take 1).map (catalog.select resolving))) := by
  cases operands with
  | nil => exact .pure _
  | cons operand rest => exact h operand List.mem_cons_self

/-- Evaluation with one stack ends on every stack, with the answer that evaluation gives, and
leaves the stack as it found it. -/
theorem resolve_restores (catalog : Catalog) (resolving : List ReferenceKey) (node : Collection) :
    Restores (catalog.resolve · node) resolving (catalog.select resolving node) := by
  induction resolving, node using catalog.select_induction with
  | step resolving node hinputs htargets =>
      obtain ⟨id, kind, attributes, operands, ids⟩ := node
      rw [select_eq_layer]
      refine .deeper ?_
      simp only [resolve]
      cases kind with
      | everything | idlist => exact .pure _
      | reference =>
          rw [layer_reference rfl]
          simp only [Collection.kind]
          cases Target.ofNode (.node id .reference attributes operands ids) with
          | error cause => exact .pure _
          | ok target =>
              cases target with
              | everything => exact .pure _
              | saved space name =>
                  show Restores
                    (fun _ => if resolving.contains (space, name) then _ else _) resolving _
                  by_cases hmem : (space, name) ∈ resolving
                  · simp only [List.contains_iff_mem.mpr hmem, follow_of_mem hmem, if_true]
                    exact .pure _
                  · simp only [mt List.contains_iff_mem.mp hmem, follow_of_notMem hmem]
                    cases hget : catalog.store.get name space with
                    | error cause => exact .pure _
                    | ok target => exact .under _ (htargets space name target hmem hget)
      | union | intersection =>
          have hall : ∀ operand ∈ operands, Restores (catalog.resolve · operand) resolving
              (catalog.select resolving operand) := by
            intro operand hoperand
            refine hinputs operand ?_
            show operand ∈ operands.take operands.length
            rwa [List.take_length]
          simp only [Collection.inputs, Collection.operands, Collection.kind, CollectionKind.reads,
            List.take_length]
          exact (resolveAll_restores hall).bind (.pure _)
      | complement | order | limit =>
          exact (resolveFirst_restores _ hinputs).bind (.pure _)
      | filter =>
          simp only [Collection.kind, layer]
          cases Filter.ofNode (.node id .filter attributes operands ids) with
          | error cause => exact .pure _
          | ok filter =>
              cases operands with
              | nil => exact .pure _
              | cons operand rest => exact (hinputs operand List.mem_cons_self).bind (.pure _)

end Catalog

end MediaCatalog
