import MediaCatalog.Proofs.Fetch.Grouping
import MediaCatalog.Value.Basic

/-!
Lists of texts, which are read back as they were listed, and dictionaries that come from entries
set one after another: the keys appear in the order in which they were first set, and every entry
is one of those set.
-/

namespace MediaCatalog

/-- Listed texts are read back as a list of texts. -/
theorem Value.strings?_ofStrings (texts : List String) :
    (Value.ofStrings texts).strings? = some texts := by
  have hall : (texts.map Value.string).mapM Value.string? = some texts := by
    induction texts with
    | nil => rfl
    | cons text rest ih => simp [Value.string?, ih]
  exact hall

namespace Dict

variable {α β : Type}

theorem isSome_find?_iff {dict : Dict α} {key : String} :
    (find? dict key).isSome ↔ key ∈ keys dict := by
  induction dict with
  | nil => simp [keys]
  | cons entry rest ih =>
      rw [find?_cons, keys, List.map_cons, List.mem_cons]
      split
      · next h => simp [h]
      · next h => exact ih.trans (by simp [keys, Ne.symm h])

theorem ofEntries_append_singleton (entries : List (String × α)) (entry : String × α) :
    ofEntries (entries ++ [entry]) = insert (ofEntries entries) entry.1 entry.2 := by
  simp [ofEntries]

/-- The keys that were set, in order of first appearance. -/
theorem keys_ofEntries (entries : List (String × α)) :
    keys (ofEntries entries) = (entries.map Prod.fst).eraseDups := by
  induction entries using List.reverseRecOn with
  | nil => rfl
  | append_singleton entries entry ih =>
      rw [ofEntries_append_singleton, keys_insert, ih, List.map_append, List.map_singleton]
      by_cases h : entry.1 ∈ entries.map Prod.fst
      · rw [if_pos (List.mem_eraseDups.mpr h), eraseDups_append_of_mem h]
      · rw [if_neg (mt List.mem_eraseDups.mp h), eraseDups_append_of_notMem h]

theorem mem_of_mem_insert {dict : Dict α} {key : String} {value : α} {entry : String × α}
    (h : entry ∈ insert dict key value) : entry = (key, value) ∨ entry ∈ dict := by
  induction dict with
  | nil => exact .inl (List.mem_singleton.mp h)
  | cons first rest ih =>
      rw [insert_cons] at h
      split at h
      · next hsame =>
        rw [← hsame]
        exact (List.mem_cons.mp h).imp_right (List.mem_cons_of_mem _)
      · rcases List.mem_cons.mp h with rfl | h
        · exact .inr List.mem_cons_self
        · exact (ih h).imp_right (List.mem_cons_of_mem _)

theorem mem_of_mem_ofEntries {entries : List (String × α)} {entry : String × α}
    (h : entry ∈ ofEntries entries) : entry ∈ entries := by
  induction entries using List.reverseRecOn with
  | nil => exact h
  | append_singleton entries last ih =>
      rw [ofEntries_append_singleton] at h
      rcases mem_of_mem_insert h with rfl | h
      · exact List.mem_append_right _ (List.mem_singleton_self _)
      · exact List.mem_append_left _ (ih h)

theorem insert_map (f : α → β) (dict : Dict α) (key : String) (value : α) :
    insert (dict.map fun entry => (entry.1, f entry.2)) key (f value) =
      (insert dict key value).map fun entry => (entry.1, f entry.2) := by
  induction dict with
  | nil => rfl
  | cons entry rest ih =>
      rw [List.map_cons, insert_cons, insert_cons, ih]
      split <;> rfl

/-- Values may be changed before or after they are set. -/
theorem ofEntries_map (f : α → β) (entries : List (String × α)) :
    ofEntries (entries.map fun entry => (entry.1, f entry.2)) =
      (ofEntries entries).map fun entry => (entry.1, f entry.2) := by
  induction entries using List.reverseRecOn with
  | nil => rfl
  | append_singleton entries entry ih =>
      rw [List.map_append, List.map_singleton, ofEntries_append_singleton, ih, insert_map,
        ofEntries_append_singleton]

/-- Entries that follow those of another dictionary name by name have its keys. -/
theorem keys_of_forall₂ {R : String × α → String × β → Prop} {dict : Dict α} {other : Dict β}
    (h : List.Forall₂ (fun entry entry' => entry'.1 = entry.1 ∧ R entry entry') dict other) :
    keys other = keys dict := by
  induction h with
  | nil => rfl
  | cons hentry _ ih => exact congrArg₂ List.cons hentry.1 ih

end Dict

end MediaCatalog
