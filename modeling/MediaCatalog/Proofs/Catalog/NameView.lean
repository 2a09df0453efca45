import Mathlib.Data.Finset.Sort
import Mathlib.Data.String.Basic
import MediaCatalog.Catalog.Store

/-!
Accounts of saved names. Whoever reads the announced changes in order can keep a set of names for
each namespace. A change fits the names of the store that made it, and leads to the names of the
store afterwards.
-/

namespace MediaCatalog

/-- The names in each namespace, as somebody knows them. -/
abbrev NameView := Namespace → Finset String

namespace NameView

def empty : NameView := fun _ => ∅

/-- Account for a change: a name is added where it was absent, updated or removed where it was
present, and renamed from a present one to an absent one. Nothing else fits. -/
def follow? (view : NameView) (change : Change) : Option NameView :=
  let names := view change.space
  match change.kind, change.newName with
  | .add, _ =>
    if change.name ∈ names then none
    else some (Function.update view change.space (insert change.name names))
  | .update, _ => if change.name ∈ names then some view else none
  | .remove, _ =>
    if change.name ∈ names then
      some (Function.update view change.space (names.erase change.name))
    else none
  | .rename, none => none
  | .rename, some newName =>
    if change.name ∈ names ∧ newName ∉ names then
      some (Function.update view change.space (insert newName (names.erase change.name)))
    else none

/-- Read an announcement and account for the change it tells of. -/
def hear? (view : NameView) (payload : Value) : Option NameView :=
  (Change.ofValue? payload).bind view.follow?

/-- A namespace as it is listed: each set of names that it shows, in the order of the names. -/
def listed (view : NameView) (space : Namespace) : List String :=
  space.expand.flatMap fun space => (view space).sort

end NameView

/-- Every change is read back from its announcement. -/
@[simp] theorem Change.ofValue?_toValue (change : Change) :
    ofValue? change.toValue = some change := by
  obtain ⟨kind, name, space, newName⟩ := change
  cases newName <;> cases kind <;> cases space <;> rfl

/-! ### The names of a table -/

section Tables

variable {table : Std.TreeMap String Collection} {name : String} {node : Collection}

theorem mem_toFinset_keys : name ∈ table.keys.toFinset ↔ table.contains name := by
  rw [List.mem_toFinset, Std.TreeMap.mem_keys, Std.TreeMap.mem_iff_contains]

theorem toFinset_keys_insert :
    (table.insert name node).keys.toFinset = insert name table.keys.toFinset := by
  ext other
  rw [Finset.mem_insert, List.mem_toFinset, List.mem_toFinset, Std.TreeMap.mem_keys,
    Std.TreeMap.mem_keys, Std.TreeMap.mem_insert, Std.compare_eq_iff_eq, eq_comm]

theorem toFinset_keys_erase :
    (table.erase name).keys.toFinset = table.keys.toFinset.erase name := by
  ext other
  rw [Finset.mem_erase, List.mem_toFinset, List.mem_toFinset, Std.TreeMap.mem_keys,
    Std.TreeMap.mem_keys, Std.TreeMap.mem_erase, Ne, Std.compare_eq_iff_eq, ne_comm]

/-- The keys of a table are its names in their order. -/
theorem sort_toFinset_keys (table : Std.TreeMap String Collection) :
    table.keys.toFinset.sort = table.keys := by
  have hordered : table.keys.Pairwise fun left right => compare left right = .lt :=
    Std.TreeMap.ordered_keys
  have hlt : table.keys.Pairwise (· < ·) := hordered.imp fun h => compare_lt_iff_lt.mp h
  exact (List.toFinset_sort (· ≤ ·) (hlt.imp ne_of_lt)).mpr (hlt.imp le_of_lt)

end Tables

/-! ### The names of a store -/

namespace Store

/-- The names that the store has. -/
def view (store : Store) : NameView := fun space => (store.table space).keys.toFinset

theorem view_empty : empty.view = NameView.empty := by
  funext space
  cases space <;> rfl

theorem listed_view (store : Store) (space : Namespace) :
    store.view.listed space = store.names space := by
  simp only [NameView.listed, view, sort_toFinset_keys, names]

theorem view_withTable (store : Store) {space : Namespace} (hspace : space ≠ .all)
    (table : Std.TreeMap String Collection) :
    (store.withTable space table).view = Function.update store.view space table.keys.toFinset := by
  funext other
  rw [view, table_withTable]
  by_cases hother : other = space
  · subst hother
    simp [hspace]
  · simp [hother, view]

theorem ne_all_of_writable {space : Namespace} {done : Unit} (h : space.ensureWritable = .ok done) :
    space ≠ .all := by
  rintro rfl
  exact nomatch h

variable {store : Store} {name newName : String} {space : Namespace} {node : Collection}
  {result : Change × Store}

/-- Saving adds a name that was absent, and updates one that was present. -/
theorem apply_save (h : store.save name space node = .ok result) :
    store.view.follow? result.1 = some result.2.view := by
  rw [save] at h
  split at h
  · exact nomatch h
  · obtain ⟨_, hwritable, h⟩ := exists_of_bind_ok h
    obtain rfl := Except.ok.inj h
    have hview := store.view_withTable (ne_all_of_writable hwritable)
      ((store.table space).insert name node)
    rw [toFinset_keys_insert] at hview
    by_cases hknown : (store.table space).contains name
    · have hmem : name ∈ store.view space := mem_toFinset_keys.mpr hknown
      have hsame : insert name (store.view space) = store.view space :=
        Finset.insert_eq_self.mpr hmem
      simp only [NameView.follow?, hknown, if_true, if_pos hmem, hview]
      exact congrArg some (by rw [← view, hsame, Function.update_eq_self])
    · have hmem : name ∉ store.view space := fun hmem => hknown (mem_toFinset_keys.mp hmem)
      simp only [NameView.follow?, hknown, if_neg hmem, hview]
      rfl

theorem apply_remove (h : store.remove name space = .ok result) :
    store.view.follow? result.1 = some result.2.view := by
  rw [remove] at h
  obtain ⟨_, hwritable, h⟩ := exists_of_bind_ok h
  dsimp only at h
  split at h
  · next hknown =>
    obtain rfl := Except.ok.inj h
    have hview := store.view_withTable (ne_all_of_writable hwritable)
      ((store.table space).erase name)
    have hmem : name ∈ store.view space := mem_toFinset_keys.mpr hknown
    rw [toFinset_keys_erase] at hview
    simp only [NameView.follow?, if_pos hmem, hview]
    rfl
  · exact nomatch h

theorem apply_rename (h : store.rename name newName space = .ok result) :
    store.view.follow? result.1 = some result.2.view := by
  rw [rename] at h
  split at h
  · exact nomatch h
  · obtain ⟨_, hwritable, h⟩ := exists_of_bind_ok h
    dsimp only at h
    split at h
    · exact nomatch h
    · next hfree =>
      split at h
      · exact nomatch h
      · next node hnode =>
        obtain rfl := Except.ok.inj h
        have hview := store.view_withTable (ne_all_of_writable hwritable)
          (((store.table space).erase name).insert newName node)
        rw [toFinset_keys_insert, toFinset_keys_erase] at hview
        have hmem : name ∈ store.view space := by
          refine mem_toFinset_keys.mpr ?_
          rw [Std.TreeMap.contains_eq_isSome_getElem?, hnode]
          rfl
        have hnew : newName ∉ store.view space := fun hmem => hfree (mem_toFinset_keys.mp hmem)
        simp only [NameView.follow?, if_pos (And.intro hmem hnew), hview]
        rfl

end Store

end MediaCatalog
