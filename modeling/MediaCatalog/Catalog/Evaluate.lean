import Std.Data.TreeSet
import MediaCatalog.Catalog.Chance
import MediaCatalog.Catalog.Library
import MediaCatalog.Catalog.Store
import MediaCatalog.Collection.Reading

/-!
Evaluating collections: the media ids that a collection selects, in its order.

| kind         | order of its ids                               |
|--------------|------------------------------------------------|
| universe     | ascending                                      |
| idlist       | as listed, without ids that are not there      |
| reference    | that of the saved collection                   |
| union        | ascending, each once                           |
| intersection | that of the first operand                      |
| complement   | ascending                                      |
| filter       | that of the operand                            |
| order        | the operand's, sorted stably                   |
| limit        | a stretch of the operand's                     |

Evaluation follows references into the store, and saved collections may refer to
each other. The references being resolved are kept on the way; one that comes
back is refused. As every name in the store can be under way only once in each
namespace, evaluation ends.
-/

namespace MediaCatalog

/-- What collections are evaluated against. -/
structure Catalog where
  library : Library
  store : Store
  /-- Decides random order and choice. -/
  seed : UInt64 := 0

instance : Inhabited Catalog := ⟨{ library := default, store := default }⟩

/-- The key under which a reference looks into the store. -/
abbrev ReferenceKey := Namespace × String

namespace SortKey

/-- `ascending` or its reverse. -/
def directed (descending : Bool) (ascending : Ordering) : Ordering :=
  if descending then ascending.swap else ascending

/-- The order of property values; whoever lacks the property comes last either way. -/
def compareProperties (descending : Bool) : Option Value → Option Value → Ordering
  | some left, some right => directed descending (left.compare right)
  | some _, none => .lt
  | none, some _ => .gt
  | none, none => .eq

/-- The order of entries under a key that is not random. -/
def compare (key : SortKey) (library : Library) (left right : Int64) : Ordering :=
  match key with
  | random => .eq
  | id descending => directed descending (Ord.compare left right)
  | property field descending =>
    compareProperties descending (library.property? left field) (library.property? right field)

/-- Sort ids by a key. Ids that are equal under it keep their order. -/
def sort (key : SortKey) (catalog : Catalog) (ids : List Int64) : List Int64 :=
  match key with
  | random => Chance.shuffle catalog.seed ids
  | _ => ids.mergeSort fun left right => (key.compare catalog.library left right).isLE

end SortKey

namespace Catalog

/-- Every key that can lead to a saved collection. -/
def referenceKeys (catalog : Catalog) : List ReferenceKey :=
  [Namespace.collections, .playlists, .all].flatMap fun space =>
    (catalog.store.names .all).map fun name => (space, name)

/-- How many keys are not under way. -/
def unresolved (catalog : Catalog) (resolving : List ReferenceKey) : Nat :=
  catalog.referenceKeys.countP (· ∉ resolving)

theorem mem_referenceKeys {catalog : Catalog} {name : String} {space : Namespace}
    {target : Collection} (found : catalog.store.get name space = .ok target) :
    (space, name) ∈ catalog.referenceKeys := by
  have known : name ∈ catalog.store.names .all := by
    unfold Store.get at found
    split at found
    · next target' hit =>
      obtain ⟨place, _, here⟩ := List.exists_of_findSome?_eq_some hit
      have key : name ∈ (catalog.store.table place).keys := by
        rw [Std.TreeMap.mem_keys, Std.TreeMap.mem_iff_isSome_getElem?, here]
        rfl
      cases place
      · exact List.mem_flatMap.mpr ⟨.collections, by simp [Namespace.expand], key⟩
      · exact List.mem_flatMap.mpr ⟨.playlists, by simp [Namespace.expand], key⟩
      · simp [Store.table] at key
    · exact absurd found (by simp)
  refine List.mem_flatMap.mpr ⟨space, by cases space <;> simp, ?_⟩
  exact List.mem_map.mpr ⟨name, known, rfl⟩

/-- Excluding one more key that occurs in a list lowers the count of the others. -/
theorem countP_notMem_cons_lt {key : ReferenceKey} {resolving keys : List ReferenceKey}
    (known : key ∈ keys) (new : key ∉ resolving) :
    keys.countP (· ∉ key :: resolving) < keys.countP (· ∉ resolving) := by
  have mono : ∀ keys : List ReferenceKey,
      keys.countP (· ∉ key :: resolving) ≤ keys.countP (· ∉ resolving) := fun keys =>
    List.countP_mono_left fun other _ free => by simp_all
  induction known with
  | head rest =>
    have := mono rest
    simp only [List.countP_cons, new, not_false_eq_true, decide_true, if_true,
      List.mem_cons, true_or, not_true, decide_false]
    simp only [List.mem_cons] at this
    simpa using Nat.lt_succ_of_le this
  | tail other _ ih =>
    have step := mono [other]
    simp only [List.countP_cons, List.countP_nil, Nat.zero_add] at step ⊢
    exact Nat.add_lt_add_of_lt_of_le ih step

/-- Resolving one more saved collection leaves fewer to resolve. -/
theorem unresolved_lt {catalog : Catalog} {resolving : List ReferenceKey} {key : ReferenceKey}
    (known : key ∈ catalog.referenceKeys) (new : key ∉ resolving) :
    catalog.unresolved (key :: resolving) < catalog.unresolved resolving :=
  countP_notMem_cons_lt known new

mutual

/-- The ids that a collection selects, while the references `resolving` are under way. -/
def select (catalog : Catalog) (resolving : List ReferenceKey) (collection : Collection) :
    Except Error (List Int64) :=
  match collection with
  | .node _ .everything _ _ _ => .ok catalog.library.ids
  | .node _ .idlist _ _ ids => .ok (ids.filter catalog.library.contains)
  | .node id .reference attributes operands ids =>
    match Target.ofNode (.node id .reference attributes operands ids) with
    | .error error => .error error
    | .ok .everything => .ok catalog.library.ids
    | .ok (.saved space name) =>
      if underWay : (space, name) ∈ resolving then
        .error (.remote ("reference cycle through " ++ name))
      else
        match found : catalog.store.get name space with
        | .error error => .error error
        | .ok target => select catalog ((space, name) :: resolving) target
  | .node _ .union _ operands _ => do
    let selected ← selectAll catalog resolving operands
    return (Std.TreeSet.ofList selected.flatten).toList
  | .node _ .intersection _ operands _ => do
    match ← selectAll catalog resolving operands with
    | [] => return []
    | first :: others => return first.filter fun id => others.all (·.contains id)
  | .node _ .complement _ operands _ => do
    let excluded ← selectFirst catalog resolving .complement operands
    return catalog.library.ids.filter fun id => !excluded.contains id
  | .node id .filter attributes operands ids => do
    let filter ← Filter.ofNode (.node id .filter attributes operands ids)
    let selected ←
      match operands with
      | [] => pure catalog.library.ids
      | operand :: _ => select catalog resolving operand
    return selected.filter fun id => filter.accepts (catalog.library.property? id filter.field)
  | .node id .order attributes operands ids => do
    let selected ← selectFirst catalog resolving .order operands
    let key ← SortKey.ofNode (.node id .order attributes operands ids)
    return key.sort catalog selected
  | .node id .limit attributes operands ids => do
    let selected ← selectFirst catalog resolving .limit operands
    let window ← Window.ofNode (.node id .limit attributes operands ids)
    return window.cut selected
termination_by (catalog.unresolved resolving, sizeOf collection)
decreasing_by
  · exact Prod.Lex.left _ _ (unresolved_lt (mem_referenceKeys found) underWay)
  all_goals
    apply Prod.Lex.right
    simp
    omega

/-- The ids of every operand; the first failure ends it. -/
def selectAll (catalog : Catalog) (resolving : List ReferenceKey) :
    List Collection → Except Error (List (List Int64))
  | [] => .ok []
  | operand :: rest => do
    let selected ← select catalog resolving operand
    return selected :: (← selectAll catalog resolving rest)
termination_by operands => (catalog.unresolved resolving, sizeOf operands)

/-- The ids of the operand that a node of this kind cannot be without. -/
def selectFirst (catalog : Catalog) (resolving : List ReferenceKey) (kind : CollectionKind) :
    List Collection → Except Error (List Int64)
  | [] => .error (.remote (kind.name ++ " node without operand"))
  | operand :: _ => select catalog resolving operand
termination_by operands => (catalog.unresolved resolving, sizeOf operands)

end

/-- The ids that a collection selects, in its order. -/
def evaluate (catalog : Catalog) (collection : Collection) : Except Error (List Int64) :=
  catalog.select [] collection

end Catalog

end MediaCatalog
