import Mathlib.Data.Finmap
import MediaCatalog.Proofs.Catalog.NameView

/-!
The store as a finite map. Its two tables, with namespaces of their own rules, come to one map from
slots to collections, where a slot is a name that is not empty in a namespace that can be written
to. Whatever is written, the store and the map accept the same writes, and what is read from the
store is what the map says. A collection stands where its save put it and where later renamings
took it, and it is gone with the first write that replaces or removes it.
-/

namespace MediaCatalog

/-! ### Slots -/

/-- Where a collection can be saved. -/
@[ext]
structure Slot where
  space : Namespace
  name : String
  writable : space ≠ .all
  named : name ≠ ""
  deriving DecidableEq

namespace Slot

/-- The slot of a name in a namespace, if it can be one. -/
def of? (space : Namespace) (name : String) : Option Slot :=
  if h : space ≠ .all ∧ name ≠ "" then some ⟨space, name, h.1, h.2⟩ else none

@[simp] theorem of?_self (slot : Slot) : of? slot.space slot.name = some slot :=
  dif_pos ⟨slot.writable, slot.named⟩

theorem of?_eq_some_iff {space : Namespace} {name : String} {slot : Slot} :
    of? space name = some slot ↔ slot.space = space ∧ slot.name = name := by
  constructor
  · intro h
    unfold of? at h
    split at h
    · obtain rfl := Option.some.inj h
      exact ⟨rfl, rfl⟩
    · cases h
  · rintro ⟨rfl, rfl⟩
    exact of?_self slot

theorem of?_eq_none_iff {space : Namespace} {name : String} :
    of? space name = none ↔ space = .all ∨ name = "" := by
  unfold of?
  split
  · next h => simp [h]
  · next h => simpa [or_iff_not_imp_left] using h

theorem exists_eq {space : Namespace} {name : String} (hspace : space ≠ .all) (hname : name ≠ "") :
    ∃ slot : Slot, slot.space = space ∧ slot.name = name :=
  ⟨⟨space, name, hspace, hname⟩, rfl, rfl⟩

end Slot

/-! ### Writes -/

/-- An attempt to change what is saved. -/
inductive Store.Write where
  | save (name : String) (space : Namespace) (node : Collection)
  | remove (name : String) (space : Namespace)
  | rename (name newName : String) (space : Namespace)

namespace Store

def Write.space : Write → Namespace
  | .save _ space _ | .remove _ space | .rename _ _ space => space

/-- What comes of an attempt. -/
def write (store : Store) : Write → Except Error (Change × Store)
  | .save name space node => store.save name space node
  | .remove name space => store.remove name space
  | .rename name newName space => store.rename name newName space

/-- The store after an attempt that succeeds. -/
def write? (store : Store) (write : Write) : Option Store :=
  (store.write write).toOption.map Prod.snd

/-- The store after an attempt; one that fails leaves it as it is. -/
def after (store : Store) (write : Write) : Store := (store.write? write).getD store

def afterAll (store : Store) (writes : List Write) : Store := writes.foldl after store

end Store

/-- A finite map from slots to collections. -/
abbrev Saved := Finmap fun _ : Slot => Collection

namespace Saved

/-- What an attempt makes of the map, if it is accepted. -/
def write? (saved : Saved) : Store.Write → Option Saved
  | .save name space node => do
    let slot ← Slot.of? space name
    return saved.insert slot node
  | .remove name space => do
    let slot ← Slot.of? space name
    if slot ∈ saved then some (saved.erase slot) else none
  | .rename name newName space => do
    let slot ← Slot.of? space name
    let target ← Slot.of? space newName
    let node ← saved.lookup slot
    if target ∈ saved then none else some ((saved.erase slot).insert target node)

def after (saved : Saved) (write : Store.Write) : Saved := (saved.write? write).getD saved

def afterAll (saved : Saved) (writes : List Store.Write) : Saved := writes.foldl after saved

variable {saved : Saved} {slot other : Slot} {node : Collection}

theorem write?_of_all (saved : Saved) {write : Store.Write} (hall : write.space = .all) :
    saved.write? write = none := by
  have hslot (name : String) : Slot.of? .all name = none := Slot.of?_eq_none_iff.mpr (.inl rfl)
  cases write with
  | save name space node | remove name space | rename name newName space =>
      obtain rfl : space = .all := hall
      rw [write?, hslot]
      rfl

theorem lookup_insert_eq :
    (saved.insert slot node).lookup other =
      if other = slot then some node else saved.lookup other := by
  split
  · next h => rw [h, Finmap.lookup_insert]
  · next h => exact Finmap.lookup_insert_of_ne saved h

theorem lookup_erase_eq :
    (saved.erase slot).lookup other = if other = slot then none else saved.lookup other := by
  split
  · next h => rw [h, Finmap.lookup_erase]
  · next h => exact Finmap.lookup_erase_ne h

end Saved

/-! ### The map of a store -/

/-- The tables hold what the map says, and nothing under the empty name. -/
structure Store.Represents (store : Store) (saved : Saved) : Prop where
  lookup : ∀ slot : Slot, (store.table slot.space)[slot.name]? = saved.lookup slot
  unnamed : ∀ space, (store.table space)[""]? = none

namespace Store.Represents

variable {store : Store} {saved : Saved}

theorem empty : Store.empty.Represents ∅ where
  lookup slot := by cases slot with | mk space => cases space <;> simp [Store.empty, table]
  unnamed space := by cases space <;> simp [Store.empty, table]

theorem contains_iff (h : store.Represents saved) (slot : Slot) :
    (store.table slot.space).contains slot.name ↔ slot ∈ saved := by
  rw [Std.TreeMap.contains_eq_isSome_getElem?, h.lookup, Finmap.lookup_isSome]

/-- What is written into one table is written at one slot of the map. -/
theorem withTable (h : store.Represents saved) (slot : Slot)
    {table : Std.TreeMap String Collection} {entry : Option Collection} {saved' : Saved}
    (htable : ∀ name : String,
      table[name]? = if name = slot.name then entry else (store.table slot.space)[name]?)
    (hsaved : ∀ other, saved'.lookup other = if other = slot then entry else saved.lookup other) :
    (store.withTable slot.space table).Represents saved' where
  lookup other := by
    rw [table_withTable, hsaved]
    by_cases hspace : other.space = slot.space
    · rw [if_pos ⟨hspace, slot.writable⟩, htable, ← hspace, h.lookup]
      exact if_congr ⟨Slot.ext hspace, congrArg Slot.name⟩ rfl rfl
    · rw [if_neg fun hboth => hspace hboth.1, h.lookup,
        if_neg fun hsame => hspace (congrArg Slot.space hsame)]
  unnamed space := by
    rw [table_withTable]
    split
    · rw [htable, if_neg slot.named.symm]
      exact h.unnamed slot.space
    · exact h.unnamed space

theorem insert (h : store.Represents saved) (slot : Slot) (node : Collection) :
    (store.withTable slot.space ((store.table slot.space).insert slot.name node)).Represents
      (saved.insert slot node) :=
  h.withTable slot
    (fun name => by
      rw [Std.TreeMap.getElem?_insert]
      exact if_congr (Std.compare_eq_iff_eq.trans eq_comm) rfl rfl)
    fun _ => Saved.lookup_insert_eq

theorem erase (h : store.Represents saved) (slot : Slot) :
    (store.withTable slot.space ((store.table slot.space).erase slot.name)).Represents
      (saved.erase slot) :=
  h.withTable slot
    (fun name => by
      rw [Std.TreeMap.getElem?_erase]
      exact if_congr (Std.compare_eq_iff_eq.trans eq_comm) rfl rfl)
    fun _ => Saved.lookup_erase_eq

end Store.Represents

/-! ### Writing -/

namespace Store

section Writes

variable (store : Store) {space : Namespace} (name : String) {newName : String} (node : Collection)

theorem ensureWritable_of_ne (hspace : space ≠ .all) : space.ensureWritable = .ok () := by
  cases space with
  | all => exact absurd rfl hspace
  | collections | playlists => rfl

variable (hspace : space ≠ .all)
include hspace

theorem write?_save : store.write? (.save name space node) =
    if name = "" then none
    else some (store.withTable space ((store.table space).insert name node)) := by
  simp only [write?, write, save, ensureWritable_of_ne hspace, bind, Except.bind]
  split <;> rfl

theorem write?_remove : store.write? (.remove name space) =
    if (store.table space).contains name then
      some (store.withTable space ((store.table space).erase name))
    else none := by
  simp only [write?, write, remove, ensureWritable_of_ne hspace, bind, Except.bind]
  split <;> rfl

theorem write?_rename : store.write? (.rename name newName space) =
    if newName = "" then none
    else if (store.table space).contains newName then none
    else (store.table space)[name]?.map fun node =>
      store.withTable space (((store.table space).erase name).insert newName node) := by
  simp only [write?, write, rename, ensureWritable_of_ne hspace, bind, Except.bind]
  split
  · rfl
  · split
    · rfl
    · cases (store.table space)[name]? <;> rfl

end Writes

/-- Nothing can be written into all namespaces at once. -/
theorem write?_of_all (store : Store) {write : Write} (hall : write.space = .all) :
    store.write? write = none := by
  cases write with
  | save name space node | rename name newName space =>
      obtain rfl : space = .all := hall
      simp only [write?, Store.write, save, rename]
      split <;> rfl
  | remove name space =>
      obtain rfl : space = .all := hall
      rfl

variable {store : Store} {saved : Saved}

/-- Writing over what was just written into a table. -/
theorem withTable_withTable (store : Store) (space : Namespace)
    (table table' : Std.TreeMap String Collection) :
    (store.withTable space table).withTable space table' = store.withTable space table' := by
  cases space <;> rfl

namespace Represents

section Writes

variable (h : store.Represents saved) {space : Namespace} (hspace : space ≠ .all) (name : String)
include h hspace

theorem save (node : Collection) : Option.Rel Represents (store.write? (.save name space node))
    (saved.write? (.save name space node)) := by
  rw [write?_save store name node hspace, Saved.write?]
  by_cases hname : name = ""
  · rw [if_pos hname, Slot.of?_eq_none_iff.mpr (.inr hname)]
    exact .none
  · obtain ⟨slot, rfl, rfl⟩ := Slot.exists_eq hspace hname
    rw [if_neg hname, Slot.of?_self]
    exact .some (h.insert slot node)

theorem remove : Option.Rel Represents (store.write? (.remove name space))
    (saved.write? (.remove name space)) := by
  rw [write?_remove store name hspace, Saved.write?]
  by_cases hname : name = ""
  · rw [Slot.of?_eq_none_iff.mpr (.inr hname), hname, Std.TreeMap.contains_eq_isSome_getElem?,
      h.unnamed]
    exact .none
  · obtain ⟨slot, rfl, rfl⟩ := Slot.exists_eq hspace hname
    simp only [Slot.of?_self, h.contains_iff, bind, Option.bind]
    split
    · exact .some (h.erase slot)
    · exact .none

theorem rename (newName : String) :
    Option.Rel Represents (store.write? (.rename name newName space))
      (saved.write? (.rename name newName space)) := by
  rw [write?_rename store name hspace, Saved.write?]
  by_cases hnewName : newName = ""
  · rw [if_pos hnewName, Slot.of?_eq_none_iff.mpr (.inr hnewName)]
    cases Slot.of? space name <;> exact .none
  obtain ⟨target, htarget, rfl⟩ := Slot.exists_eq hspace hnewName
  rw [if_neg hnewName]
  by_cases hname : name = ""
  · rw [Slot.of?_eq_none_iff.mpr (.inr hname), hname, h.unnamed]
    split <;> exact .none
  obtain ⟨slot, rfl, rfl⟩ := Slot.exists_eq hspace hname
  have htaken := h.contains_iff target
  rw [htarget] at htaken
  have hmoved (node : Collection) := (h.erase slot).insert target node
  simp only [htarget, withTable_withTable, table_withTable, slot.writable, ne_eq, not_false_eq_true,
    and_self, if_true] at hmoved
  rw [← htarget, Slot.of?_self, htarget, Slot.of?_self, h.lookup]
  simp only [htaken, bind, Option.bind]
  cases saved.lookup slot with
  | none => split <;> exact .none
  | some node =>
      split
      · exact .none
      · exact .some (hmoved node)

end Writes

/-- The store and the map accept the same writes, and agree again afterwards. -/
theorem write? (h : store.Represents saved) (write : Write) :
    Option.Rel Represents (store.write? write) (saved.write? write) := by
  by_cases hall : write.space = .all
  · rw [store.write?_of_all hall, saved.write?_of_all hall]
    exact .none
  · cases write with
    | save name space node => exact h.save hall name node
    | remove name space => exact h.remove hall name
    | rename name newName space => exact h.rename hall name newName

theorem isSome_write? (h : store.Represents saved) (write : Write) :
    (saved.write? write).isSome = (store.write? write).isSome := by
  have hwrite := h.write? write
  generalize store.write? write = result, saved.write? write = result' at hwrite ⊢
  cases hwrite <;> rfl

theorem after (h : store.Represents saved) (write : Write) :
    (store.after write).Represents (saved.after write) := by
  have hwrite := h.write? write
  rw [Store.after, Saved.after]
  generalize store.write? write = result, saved.write? write = result' at hwrite ⊢
  cases hwrite with
  | none => exact h
  | some hafter => exact hafter

theorem afterAll (h : store.Represents saved) (writes : List Write) :
    (store.afterAll writes).Represents (saved.afterAll writes) := by
  induction writes generalizing store saved with
  | nil => exact h
  | cons write rest ih => exact ih (h.after write)

end Represents

/-! ### Reading -/

/-- What is read from a store is what the map says: a read of one namespace looks up a slot, a read
of all of them prefers the collections, and names, entries and size go with it. -/
structure ReadsAs (store : Store) (saved : Saved) : Prop where
  get : ∀ (slot : Slot) (node : Collection),
    store.get slot.name slot.space = .ok node ↔ saved.lookup slot = some node
  getAll : ∀ (name : String) (node : Collection), store.get name .all = .ok node ↔
    store.get name .collections = .ok node ∨
      (∀ other, store.get name .collections ≠ .ok other) ∧ store.get name .playlists = .ok node
  named : ∀ (space : Namespace) (node : Collection), store.get "" space ≠ .ok node
  listed : ∀ (name : String) (space : Namespace),
    name ∈ store.names space ↔ ∃ node, store.get name space = .ok node
  entries : ∀ (space place : Namespace) (name : String) (node : Collection),
    (place, name, node) ∈ store.entries space ↔
      place ∈ space.expand ∧ store.get name place = .ok node
  names : ∀ space, store.names space = (store.entries space).map fun entry => entry.2.1
  ascending : ∀ space, space ≠ .all → (store.names space).Pairwise (· < ·)
  collectionsFirst : store.entries .all = store.entries .collections ++ store.entries .playlists
  size : store.size = saved.keys.card

section Reads

variable (store : Store) {space place : Namespace} (name : String) (node : Collection)

theorem get_eq_ok_iff (hspace : space ≠ .all) :
    store.get name space = .ok node ↔ (store.table space)[name]? = some node := by
  have hexpand : space.expand = [space] := by
    cases space with
    | all => exact absurd rfl hspace
    | collections | playlists => rfl
  rw [Store.get, hexpand, List.findSome?_singleton]
  cases (store.table space)[name]? <;> simp

theorem get_all_eq_ok_iff : store.get name .all = .ok node ↔
    store.get name .collections = .ok node ∨
      (∀ other, store.get name .collections ≠ .ok other) ∧
        store.get name .playlists = .ok node := by
  have hcollections : Namespace.collections ≠ .all := by decide
  have hplaylists : Namespace.playlists ≠ .all := by decide
  simp only [ne_eq, get_eq_ok_iff store name _ hcollections,
    get_eq_ok_iff store name _ hplaylists]
  simp only [Store.get, Namespace.expand, List.findSome?_cons, List.findSome?_nil]
  cases (store.table .collections)[name]? with
  | some other => simp
  | none => cases (store.table .playlists)[name]? <;> simp

theorem ne_all_of_mem_expand (h : place ∈ space.expand) : place ≠ .all := by
  rintro rfl
  cases space <;> simp [Namespace.expand] at h

theorem mem_entries_iff : (place, name, node) ∈ store.entries space ↔
    place ∈ space.expand ∧ store.get name place = .ok node := by
  rw [entries, List.mem_flatMap]
  constructor
  · rintro ⟨other, hother, hmem⟩
    obtain ⟨⟨found, node'⟩, hentry, hsame⟩ := List.mem_map.mp hmem
    obtain ⟨rfl, rfl, rfl⟩ : other = place ∧ found = name ∧ node' = node := by simpa using hsame
    rw [get_eq_ok_iff store _ _ (ne_all_of_mem_expand hother)]
    exact ⟨hother, Std.TreeMap.mem_toList_iff_getElem?_eq_some.mp hentry⟩
  · rintro ⟨hplace, hget⟩
    rw [get_eq_ok_iff store _ _ (ne_all_of_mem_expand hplace)] at hget
    exact ⟨place, hplace, List.mem_map.mpr
      ⟨(name, node), Std.TreeMap.mem_toList_iff_getElem?_eq_some.mpr hget, rfl⟩⟩

/-- Whatever can be read is among all the entries. -/
theorem exists_mem_entries (h : store.get name space = .ok node) :
    ∃ place, (place, name, node) ∈ store.entries .all := by
  have hplace (place : Namespace) (hplace : place ∈ Namespace.all.expand)
      (hget : store.get name place = .ok node) :
      ∃ place, (place, name, node) ∈ store.entries .all :=
    ⟨place, (store.mem_entries_iff name node).mpr ⟨hplace, hget⟩⟩
  cases space with
  | collections => exact hplace .collections (by decide) h
  | playlists => exact hplace .playlists (by decide) h
  | all =>
      rcases (store.get_all_eq_ok_iff name node).mp h with h | ⟨-, h⟩
      · exact hplace .collections (by decide) h
      · exact hplace .playlists (by decide) h

variable (space) in
theorem names_eq_entries :
    store.names space = (store.entries space).map fun entry => entry.2.1 := by
  rw [names, entries, List.map_flatMap]
  refine List.flatMap_congr fun place _ => ?_
  rw [List.map_map, ← Std.TreeMap.map_fst_toList_eq_keys]
  rfl

theorem pairwise_names (hspace : space ≠ .all) : (store.names space).Pairwise (· < ·) := by
  have hkeys : (store.table space).keys.Pairwise (· < ·) :=
    Std.TreeMap.ordered_keys.imp compare_lt_iff_lt.mp
  cases space with
  | all => exact absurd rfl hspace
  | collections | playlists => simpa [names, Namespace.expand] using hkeys

/-- A name is listed exactly if a collection can be read under it. -/
theorem mem_names_iff : name ∈ store.names space ↔ ∃ node, store.get name space = .ok node := by
  have hget : (∃ node, store.get name space = .ok node) ↔
      (space.expand.findSome? fun place => (store.table place)[name]?).isSome := by
    rw [Store.get]
    cases space.expand.findSome? fun place => (store.table place)[name]? <;> simp
  rw [hget, List.findSome?_isSome_iff, names, List.mem_flatMap]
  simp only [Std.TreeMap.mem_keys, Std.TreeMap.mem_iff_isSome_getElem?]

end Reads

namespace Represents

variable (h : store.Represents saved)
include h

/-- The slots of a namespace are the names in its table. -/
theorem card_slots {space : Namespace} (hspace : space ≠ .all) :
    (saved.keys.filter fun slot => slot.space = space).card = (store.table space).size := by
  rw [← Std.TreeMap.length_keys, ← List.toFinset_card_of_nodup Std.TreeMap.nodup_keys]
  refine Finset.card_nbij Slot.name ?_ ?_ ?_
  · intro slot hslot
    obtain ⟨hmem, rfl⟩ := Finset.mem_filter.mp hslot
    exact mem_toFinset_keys.mpr ((h.contains_iff slot).mpr (Finmap.mem_keys.mp hmem))
  · intro slot hslot other hother hname
    have hslot := (Finset.mem_filter.mp hslot).2
    exact Slot.ext (hslot.trans (Finset.mem_filter.mp hother).2.symm) hname
  · intro name hname
    have hcontains := mem_toFinset_keys.mp hname
    have hnamed : name ≠ "" := by
      rintro rfl
      rw [Std.TreeMap.contains_eq_isSome_getElem?, h.unnamed] at hcontains
      cases hcontains
    obtain ⟨slot, rfl, rfl⟩ := Slot.exists_eq hspace hnamed
    have hmem := Finmap.mem_keys.mpr ((h.contains_iff slot).mp hcontains)
    exact ⟨slot, Finset.mem_filter.mpr ⟨hmem, rfl⟩, rfl⟩

theorem size_eq : store.size = saved.keys.card := by
  have hplaylists : saved.keys.filter (fun slot => slot.space = .playlists) =
      saved.keys.filter fun slot => ¬ slot.space = .collections := by
    refine Finset.filter_congr fun slot _ => ?_
    have hspace := slot.writable
    cases hslot : slot.space <;> simp_all
  rw [← Finset.card_filter_add_card_filter_not (s := saved.keys) fun slot =>
    slot.space = .collections, ← hplaylists, h.card_slots (by decide), h.card_slots (by decide)]
  rfl

theorem readsAs : store.ReadsAs saved where
  get slot node := by rw [get_eq_ok_iff store _ _ slot.writable, h.lookup]
  getAll := store.get_all_eq_ok_iff
  named space node := by
    have hnone (node : Collection) (place : Namespace) (hplace : place ≠ .all) :
        store.get "" place ≠ .ok node := by
      rw [ne_eq, get_eq_ok_iff store _ _ hplace, h.unnamed]
      simp
    by_cases hspace : space = .all
    · subst hspace
      rw [ne_eq, get_all_eq_ok_iff, not_or]
      exact ⟨hnone node _ (by decide), fun hboth => hnone node _ (by decide) hboth.2⟩
    · exact hnone node space hspace
  listed name space := store.mem_names_iff name
  entries space place name node := store.mem_entries_iff name node
  names space := store.names_eq_entries space
  ascending space hspace := store.pairwise_names hspace
  collectionsFirst := by simp [Store.entries, Namespace.expand]
  size := h.size_eq

end Represents

end Store

end MediaCatalog
