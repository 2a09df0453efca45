/-!
Dictionaries: entries under distinct string keys, in the order in which the
keys were first set. Setting a key that is present replaces its value where it
stands, so the order of keys never changes afterwards.
-/

namespace MediaCatalog

/-- Entries of a dictionary, in the order of their keys' first appearance. -/
abbrev Dict (α : Type) := List (String × α)

namespace Dict

variable {α : Type}

def keys (dict : Dict α) : List String := dict.map Prod.fst

def values (dict : Dict α) : List α := dict.map Prod.snd

/-- The value under `key`. -/
def find? (dict : Dict α) (key : String) : Option α :=
  match dict with
  | [] => none
  | (name, value) :: rest => if name = key then some value else find? rest key

def contains (dict : Dict α) (key : String) : Bool := (find? dict key).isSome

/-- Put `value` under `key`: in place of the old value, or at the end. -/
def insert (dict : Dict α) (key : String) (value : α) : Dict α :=
  match dict with
  | [] => [(key, value)]
  | (name, old) :: rest =>
    if name = key then (name, value) :: rest else (name, old) :: insert rest key value

/-- Set the given entries one after another. -/
def ofEntries (entries : List (String × α)) : Dict α :=
  entries.foldl (fun dict entry => insert dict entry.1 entry.2) []

/-- Every key occurs once. -/
def Distinct (dict : Dict α) : Prop := (keys dict).Nodup

@[simp] theorem find?_nil (key : String) : find? ([] : Dict α) key = none := rfl

theorem find?_cons (name : String) (value : α) (rest : Dict α) (key : String) :
    find? ((name, value) :: rest) key = if name = key then some value else find? rest key := rfl

theorem insert_cons (name : String) (old : α) (rest : Dict α) (key : String) (value : α) :
    insert ((name, old) :: rest) key value =
      if name = key then (name, value) :: rest else (name, old) :: insert rest key value := rfl

/-- A key answers with what was last put under it, every other key as before. -/
theorem find?_insert (dict : Dict α) (key other : String) (value : α) :
    find? (insert dict key value) other =
      if key = other then some value else find? dict other := by
  induction dict with
  | nil => rfl
  | cons entry rest ih =>
    obtain ⟨name, old⟩ := entry
    rw [insert_cons]
    split
    · next same => subst same; simp only [find?_cons]; split <;> rfl
    · next differs =>
      simp only [find?_cons, ih]
      by_cases here : name = other
      · subst here; simp [Ne.symm differs]
      · simp [here]

/-- A new key goes to the end; a known one leaves the keys as they were. -/
theorem keys_insert (dict : Dict α) (key : String) (value : α) :
    keys (insert dict key value) =
      if key ∈ keys dict then keys dict else keys dict ++ [key] := by
  induction dict with
  | nil => rfl
  | cons entry rest ih =>
    obtain ⟨name, old⟩ := entry
    rw [insert_cons]
    split
    · next same => simp [keys, same]
    · next differs =>
      simp only [keys, List.map_cons, List.mem_cons] at ih ⊢
      by_cases present : key ∈ List.map Prod.fst rest <;>
        simp [ih, present, Ne.symm differs]

theorem Distinct.insert {dict : Dict α} (distinct : Distinct dict) (key : String) (value : α) :
    Distinct (insert dict key value) := by
  unfold Distinct
  rw [keys_insert]
  split
  · exact distinct
  · next absent =>
    exact List.nodup_append.mpr ⟨distinct, by simp, by
      intro a member b single same
      rw [List.mem_singleton] at single
      exact absent (single ▸ same ▸ member)⟩

/-- Setting entries one after another keeps the keys distinct. -/
theorem distinct_ofEntries (entries : List (String × α)) : Distinct (ofEntries entries) := by
  have step : ∀ (entries : List (String × α)) (dict : Dict α), Distinct dict →
      Distinct (entries.foldl (fun dict entry => insert dict entry.1 entry.2) dict) := by
    intro entries
    induction entries with
    | nil => intro dict distinct; exact distinct
    | cons entry rest ih => intro dict distinct; exact ih _ (distinct.insert _ _)
  exact step entries [] List.nodup_nil

/-- A new key with its value goes to the end. -/
theorem insert_of_notMem {dict : Dict α} {key : String} (absent : key ∉ keys dict) (value : α) :
    insert dict key value = dict ++ [(key, value)] := by
  induction dict with
  | nil => rfl
  | cons entry rest ih =>
    obtain ⟨name, old⟩ := entry
    simp only [keys, List.map_cons, List.mem_cons, not_or] at absent
    rw [insert_cons, if_neg (Ne.symm absent.1), ih absent.2]
    rfl

/-- Entries with distinct keys are the dictionary that setting them one after another gives. -/
theorem ofEntries_of_distinct {entries : Dict α} (distinct : Distinct entries) :
    ofEntries entries = entries := by
  have step : ∀ (rest dict : Dict α), Distinct (dict ++ rest) →
      rest.foldl (fun dict entry => insert dict entry.1 entry.2) dict = dict ++ rest := by
    intro rest
    induction rest with
    | nil => intro dict _; simp
    | cons entry rest ih =>
      intro dict distinct
      have absent : entry.1 ∉ keys dict := by
        intro member
        simp only [Distinct, keys, List.map_append, List.map_cons] at distinct
        exact (List.nodup_append.mp distinct).2.2 _ member _ (by simp) rfl
      rw [List.foldl_cons, insert_of_notMem absent, ih _ (by simpa using distinct)]
      simp
  exact step entries [] distinct

/-- What is found is an entry. -/
theorem mem_of_find? {dict : Dict α} {key : String} {value : α}
    (found : find? dict key = some value) : (key, value) ∈ dict := by
  induction dict with
  | nil => exact nomatch found
  | cons entry rest ih =>
    obtain ⟨name, here⟩ := entry
    rw [find?_cons] at found
    split at found
    · next same => exact same ▸ Option.some.inj found ▸ List.mem_cons_self
    · exact List.mem_cons_of_mem _ (ih found)

/-- What holds of all values still does after one more that it holds of. -/
theorem forall_mem_insert {motive : α → Prop} {dict : Dict α} {key : String} {value : α}
    (all : ∀ entry ∈ dict, motive entry.2) (new : motive value) :
    ∀ entry ∈ insert dict key value, motive entry.2 := by
  induction dict with
  | nil => simpa [insert] using new
  | cons first rest ih =>
    obtain ⟨name, old⟩ := first
    rw [List.forall_mem_cons] at all
    rw [insert_cons]
    split
    · exact List.forall_mem_cons.mpr ⟨new, all.2⟩
    · exact List.forall_mem_cons.mpr ⟨all.1, ih all.2⟩

theorem forall_mem_ofEntries {motive : α → Prop} {entries : List (String × α)}
    (all : ∀ entry ∈ entries, motive entry.2) :
    ∀ entry ∈ ofEntries entries, motive entry.2 := by
  have step : ∀ (entries : List (String × α)) (dict : Dict α),
      (∀ entry ∈ entries, motive entry.2) → (∀ entry ∈ dict, motive entry.2) →
      ∀ entry ∈ entries.foldl (fun dict entry => insert dict entry.1 entry.2) dict,
        motive entry.2 := by
    intro entries
    induction entries with
    | nil => intro dict _ known; exact known
    | cons entry rest ih =>
      intro dict all known
      rw [List.forall_mem_cons] at all
      exact ih _ all.2 (forall_mem_insert known all.1)
  exact step entries [] all (by simp)

end Dict

end MediaCatalog
