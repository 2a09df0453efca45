import MediaCatalog.Proofs.Catalog.Growth

/-!
Looking an entry up by what it stores. Entries stand in the order of their ids, so the one that is
found has the least id of all that would do. What was found stays found when an entry is added,
since the new one comes behind all that are there.
-/

namespace MediaCatalog

/-- A value that equals a string is this string. -/
theorem Value.beq_string_iff {value : Value} {text : String} :
    (value == .string text) = true ↔ value = .string text := by
  show value.equal (.string text) = true ↔ value = .string text
  cases value <;> simp [Value.equal]

theorem Value.beq_int_iff {value : Value} {number : Int64} :
    (value == .int number) = true ↔ value = .int number := by
  show value.equal (.int number) = true ↔ value = .int number
  cases value <;> simp [Value.equal]

theorem Value.int_beq_iff {value : Value} {number : Int64} :
    (Value.int number == value) = true ↔ value = .int number := by
  show (Value.int number).equal value = true ↔ value = .int number
  cases value with
  | int other => simpa [Value.equal] using eq_comm
  | _ => simp [Value.equal]

namespace Library

/-! ### What is found -/

/-- In ascending order, the first one that passes a test is the least one that does. -/
theorem find?_eq_some_iff_of_ascending {α : Type} {entries : List (Int64 × α)}
    (h : entries.Pairwise fun first second => first.1 < second.1) {test : Int64 × α → Bool}
    {entry : Int64 × α} :
    entries.find? test = some entry ↔
      entry ∈ entries ∧ test entry ∧ ∀ other ∈ entries, test other → entry.1 ≤ other.1 := by
  induction entries with
  | nil => simp
  | cons first rest ih =>
      obtain ⟨hfirst, hrest⟩ := List.pairwise_cons.mp h
      rw [List.find?_cons]
      split
      · next hpasses =>
        constructor
        · intro heq
          obtain rfl := Option.some.inj heq
          refine ⟨List.mem_cons_self, hpasses, fun other hother _ => ?_⟩
          rcases List.mem_cons.mp hother with rfl | hother
          · exact Int64.le_refl _
          · exact Int64.le_of_lt (hfirst other hother)
        · rintro ⟨hentry, -, hleast⟩
          rcases List.mem_cons.mp hentry with rfl | hentry
          · rfl
          · have hle := hleast first List.mem_cons_self hpasses
            exact absurd hle (Int64.not_le.mpr (hfirst entry hentry))
      · next hfails =>
        rw [ih hrest]
        constructor
        · rintro ⟨hentry, hpasses, hleast⟩
          refine ⟨List.mem_cons_of_mem _ hentry, hpasses, fun other hother hother' => ?_⟩
          rcases List.mem_cons.mp hother with rfl | hother
          · simp [hfails] at hother'
          · exact hleast other hother hother'
        · rintro ⟨hentry, hpasses, hleast⟩
          rcases List.mem_cons.mp hentry with rfl | hentry
          · simp [hfails] at hpasses
          · exact ⟨hentry, hpasses, fun other hother =>
              hleast other (List.mem_cons_of_mem _ hother)⟩

/-- The entry of an id is there, and what it stores under a key equals a value. -/
def Stores (library : Library) (key : String) (value : Value) (id : Int64) : Prop :=
  ∃ entry stored, library.entries[id]? = some entry ∧ Dict.find? entry key = some stored ∧
    (stored == value) = true

variable {library : Library} {key : String} {value : Value} {id : Int64}

/-- The test that the search puts an entry to. -/
theorem stores_iff : library.Stores key value id ↔
    ∃ entry, library.entries[id]? = some entry ∧
      (match Dict.find? entry key with
        | some stored => stored == value
        | none => false) = true := by
  constructor
  · rintro ⟨entry, stored, hentry, hstored, hequal⟩
    exact ⟨entry, hentry, by rw [hstored]; exact hequal⟩
  · rintro ⟨entry, hentry, htest⟩
    split at htest
    · next stored hstored => exact ⟨entry, stored, hentry, hstored, htest⟩
    · cases htest

theorem ascending_toList (library : Library) :
    library.entries.toList.Pairwise fun first second => first.1 < second.1 :=
  library.entries.ordered_keys_toList.imp compareOfLessAndEq_eq_lt.mp

/-- The search by a property finds the least id whose entry stores an equal value. -/
theorem findBy?_eq_some_iff :
    library.findBy? key value = some id ↔
      library.Stores key value id ∧ ∀ other, library.Stores key value other → id ≤ other := by
  simp only [findBy?, Option.map_eq_some_iff, Prod.exists, Prod.forall, stores_iff,
    find?_eq_some_iff_of_ascending library.ascending_toList,
    Std.TreeMap.mem_toList_iff_getElem?_eq_some]
  constructor
  · rintro ⟨_, entry, ⟨hentry, htest, hleast⟩, rfl⟩
    refine ⟨⟨entry, hentry, htest⟩, ?_⟩
    rintro other ⟨entry, hentry, htest⟩
    exact hleast other entry hentry htest
  · rintro ⟨⟨entry, hentry, htest⟩, hleast⟩
    exact ⟨id, entry, ⟨hentry, htest, fun other entry hentry htest =>
      hleast other ⟨entry, hentry, htest⟩⟩, rfl⟩

/-- It finds nothing when no entry stores an equal value. -/
theorem findBy?_eq_none_iff :
    library.findBy? key value = none ↔ ∀ id, ¬ library.Stores key value id := by
  simp only [findBy?, Option.map_eq_none_iff, List.find?_eq_none, Prod.forall, stores_iff,
    Std.TreeMap.mem_toList_iff_getElem?_eq_some]
  constructor
  · rintro h id ⟨entry, hentry, htest⟩
    exact h id entry hentry htest
  · intro h id entry hentry htest
    exact h id ⟨entry, hentry, htest⟩

/-- To store a string is to have it as the property. -/
theorem stores_string_iff {text : String} (hkey : key ≠ idProperty) :
    library.Stores key (.string text) id ↔ library.property? id key = some (.string text) := by
  rw [property?]
  constructor
  · rintro ⟨entry, stored, hentry, hstored, hequal⟩
    rw [hentry, ← Value.beq_string_iff.mp hequal]
    simp only [hkey, ↓reduceIte, hstored]
  · intro hproperty
    split at hproperty
    · cases hproperty
    · next entry hentry =>
      rw [if_neg hkey] at hproperty
      exact ⟨entry, .string text, hentry, hproperty, Value.beq_string_iff.mpr rfl⟩

theorem urlProperty_ne_idProperty : urlProperty ≠ idProperty := by
  decide

/-- By a string that is no id, the search finds the least id that has it as the property. -/
theorem findBy?_string_eq_some_iff {text : String} (hkey : key ≠ idProperty) :
    library.findBy? key (.string text) = some id ↔
      library.property? id key = some (.string text) ∧
        ∀ other, library.property? other key = some (.string text) → id ≤ other := by
  simp only [findBy?_eq_some_iff, stores_string_iff hkey]

theorem findBy?_string_eq_none_iff {text : String} (hkey : key ≠ idProperty) :
    library.findBy? key (.string text) = none ↔
      ∀ id, library.property? id key ≠ some (.string text) := by
  simp only [findBy?_eq_none_iff, stores_string_iff hkey]

/-! ### What is added -/

section Add

variable {properties : List (String × Value)}

theorem stores_add_iff :
    (library.add properties).2.Stores key value id ↔
      if (library.add properties).1 = id then
        ∃ stored, Dict.find? (Dict.ofEntries properties) key = some stored ∧
          (stored == value) = true
      else library.Stores key value id := by
  rw [Stores, getElem?_add]
  split
  · simp
  · rfl

/-- What was found is found, since the new entry comes behind it. -/
theorem Fresh.findBy?_add_of_some (h : library.Fresh)
    (hfound : library.findBy? key value = some id) :
    (library.add properties).2.findBy? key value = some id := by
  obtain ⟨hstores, hleast⟩ := findBy?_eq_some_iff.mp hfound
  have ⟨entry, _, hentry, _⟩ := hstores
  have hlt := h.lt_add properties hentry
  rw [findBy?_eq_some_iff]
  refine ⟨stores_add_iff.mpr ?_, fun other hother => ?_⟩
  · rwa [if_neg (Int64.ne_of_lt hlt).symm]
  · rw [stores_add_iff] at hother
    split at hother
    · next hnew => exact hnew ▸ Int64.le_of_lt hlt
    · exact hleast other hother

/-- What was not found is the new entry, if that stores it. -/
theorem findBy?_add_of_none {stored : Value} (hfound : library.findBy? key value = none)
    (hstored : Dict.find? (Dict.ofEntries properties) key = some stored)
    (hequal : (stored == value) = true) :
    (library.add properties).2.findBy? key value = some (library.add properties).1 := by
  have habsent := findBy?_eq_none_iff.mp hfound
  rw [findBy?_eq_some_iff]
  refine ⟨stores_add_iff.mpr ?_, fun other hother => ?_⟩
  · rw [if_pos rfl]
    exact ⟨stored, hstored, hequal⟩
  · rw [stores_add_iff] at hother
    split at hother
    · next hnew => exact hnew ▸ Int64.le_refl _
    · exact absurd hother (habsent other)

end Add

/-! ### What an entry shows -/

/-- The property of an entry is there and equals a value. Under the key of the id this is the id,
whatever the entry stores there. -/
def Shows (library : Library) (key : String) (value : Value) (id : Int64) : Prop :=
  ∃ shown, library.property? id key = some shown ∧ (shown == value) = true

/-- The search finds the least id that shows the value, and nothing where none shows it. -/
structure FindsShown (library : Library) (key : String) (value : Value) : Prop where
  found : ∀ id, library.findBy? key value = some id ↔
    library.Shows key value id ∧ ∀ other, library.Shows key value other → id ≤ other
  missed : library.findBy? key value = none ↔ ∀ id, ¬ library.Shows key value id

/-- Under any other key than that of the id, entries show what they store. -/
theorem shows_iff_stores (hkey : key ≠ idProperty) :
    library.Shows key value id ↔ library.Stores key value id := by
  rw [Shows, property?]
  cases hentry : library.entries[id]? with
  | none => simp [Stores, hentry]
  | some entry => simp [Stores, hentry, hkey]

/-- Under the key of the id, an entry shows its own id. -/
theorem shows_id_iff :
    library.Shows idProperty value id ↔
      ∃ entry, library.entries[id]? = some entry ∧ value = .int id := by
  rw [Shows, property?]
  cases library.entries[id]? <;> simp [Value.int_beq_iff]

theorem FindsShown.of_iff (h : ∀ id, library.Shows key value id ↔ library.Stores key value id) :
    library.FindsShown key value where
  found id := by simp only [findBy?_eq_some_iff, h]
  missed := by simp only [findBy?_eq_none_iff, h]

/-- The search goes by what entries store. It agrees with what they show for every value exactly
under the keys other than that of the id, and under this one exactly if every entry also stores its
own id there. -/
theorem findsShown_iff (library : Library) (key : String) :
    (∀ value, library.FindsShown key value) ↔
      key ≠ idProperty ∨ ∀ (id : Int64) (entry : Dict Value), library.entries[id]? = some entry →
        Dict.find? entry idProperty = some (.int id) := by
  constructor
  · intro hfinds
    by_cases hkey : key ≠ idProperty
    · exact .inl hkey
    obtain rfl := Decidable.not_not.mp hkey
    refine .inr fun id entry hentry => ?_
    have hshows : library.Shows idProperty (.int id) id :=
      shows_id_iff.mpr ⟨entry, hentry, rfl⟩
    -- No other entry shows this id, so this one is found, and it stores what is searched.
    have hleast (other : Int64) (hother : library.Shows idProperty (.int id) other) :
        id ≤ other := by
      obtain ⟨_, _, hsame⟩ := shows_id_iff.mp hother
      exact Value.int.inj hsame ▸ Int64.le_refl _
    have hfound := ((hfinds (.int id)).found id).mpr ⟨hshows, hleast⟩
    obtain ⟨entry', stored, hentry', hstored, hequal⟩ := (findBy?_eq_some_iff.mp hfound).1
    obtain rfl := Option.some.inj (hentry.symm.trans hentry')
    rw [hstored, Value.beq_int_iff.mp hequal]
  · rintro (hkey | hown) value
    · exact .of_iff fun id => shows_iff_stores hkey
    by_cases hkey : key = idProperty
    · subst hkey
      refine .of_iff fun id => shows_id_iff.trans ⟨?_, ?_⟩
      · rintro ⟨entry, hentry, rfl⟩
        exact ⟨entry, .int id, hentry, hown id entry hentry, Value.int_beq_iff.mpr rfl⟩
      · rintro ⟨entry, stored, hentry, hstored, hequal⟩
        obtain rfl := Option.some.inj (hstored.symm.trans (hown id entry hentry))
        exact ⟨entry, hentry, Value.int_beq_iff.mp hequal⟩
    · exact .of_iff fun id => shows_iff_stores hkey

/-- An entry that stores no id shows one, and is not found by it. -/
theorem not_findsShown_id_unstored :
    ¬ (empty.add [("title", .string "a")]).2.FindsShown idProperty (.int 1) := by
  intro hfinds
  have hmissed : (empty.add [("title", .string "a")]).2.findBy? idProperty (.int 1) = none := rfl
  exact hfinds.missed.mp hmissed 1 ⟨.int 1, rfl, Value.beq_int_iff.mpr rfl⟩

end Library

end MediaCatalog
