import MediaCatalog.Catalog.Library

/-!
Libraries grow. Ids are given out upwards, so an id that is given out is above all that are there,
and a new entry takes the place of none. This ends with the last id there is: whoever adds has to
have room for one more.
-/

namespace MediaCatalog

namespace Library

/-- The next id to give out is not the last of all ids. -/
def HasRoom (library : Library) : Prop := library.nextId < Int64.maxValue

instance (library : Library) : Decidable library.HasRoom :=
  inferInstanceAs (Decidable (library.nextId < Int64.maxValue))

/-- The libraries that can come about. -/
inductive Reachable : Library → Prop where
  | empty : Reachable empty
  | unset : Reachable default
  | add {library : Library} (h : Reachable library) (hroom : library.HasRoom)
      (properties : List (String × Value)) : Reachable (library.add properties).2
  | set {library : Library} (h : Reachable library) (id : Int64) (key : String) (value : Value) :
      Reachable (library.set id key value)
  | remove {library : Library} (h : Reachable library) (id : Int64) :
      Reachable (library.remove id)

/-- The ids that are there have been given out before. -/
def Fresh (library : Library) : Prop := ∀ id, library.contains id → id < library.nextId

variable {library : Library}

/-! ### New ids -/

theorem nextId_le_add (library : Library) (properties : List (String × Value)) :
    library.nextId ≤ (library.add properties).1 := by
  show library.nextId ≤ if library.nextId ≤ 1 then 1 else library.nextId
  split
  · assumption
  · exact Int64.le_refl _

theorem one_le_add (library : Library) (properties : List (String × Value)) :
    1 ≤ (library.add properties).1 := by
  show 1 ≤ if library.nextId ≤ 1 then 1 else library.nextId
  split
  · exact Int64.le_refl _
  · next hlast => exact Int64.le_of_lt (Int64.not_le.mp hlast)

/-- Up to the last id, the next one is one above. -/
theorem toInt_succ {id : Int64} (h : id < Int64.maxValue) : (id + 1).toInt = id.toInt + 1 := by
  have hlast : Int64.maxValue.toInt = 9223372036854775807 := rfl
  have hlt := Int64.lt_iff_toInt_lt.mp h
  have hle := id.le_toInt
  rw [Int64.toInt_add]
  exact Int.bmod_eq_of_le (by grind) (by grind)

theorem add_lt_nextId (h : library.HasRoom) (properties : List (String × Value)) :
    (library.add properties).1 < (library.add properties).2.nextId := by
  have hlt : (if library.nextId ≤ 1 then 1 else library.nextId) < Int64.maxValue := by
    split
    · decide
    · exact h
  show (if library.nextId ≤ 1 then 1 else library.nextId) <
    (if library.nextId ≤ 1 then 1 else library.nextId) + 1
  grind

/-- What is read from a library after an addition. -/
theorem getElem?_add (library : Library) (properties : List (String × Value)) (id : Int64) :
    (library.add properties).2.entries[id]? =
      if (library.add properties).1 = id then some (Dict.ofEntries properties)
      else library.entries[id]? := by
  show (library.entries.insert _ _)[id]? = _
  rw [Std.TreeMap.getElem?_insert]
  simp only [Std.LawfulEqCmp.compare_eq_iff_eq]
  rfl

theorem contains_of_getElem? {id : Int64} {entry : Dict Value}
    (h : library.entries[id]? = some entry) : library.contains id := by
  rw [contains, Std.TreeMap.contains_eq_isSome_getElem?, h]
  rfl

namespace Fresh

/-- A new id is above all that are there. -/
theorem lt_add (h : library.Fresh) (properties : List (String × Value)) {id : Int64}
    {entry : Dict Value} (hentry : library.entries[id]? = some entry) :
    id < (library.add properties).1 :=
  Int64.lt_of_lt_of_le (h id (contains_of_getElem? hentry)) (library.nextId_le_add properties)

/-- A new entry takes the place of none. -/
theorem getElem?_add (h : library.Fresh) (properties : List (String × Value)) {id : Int64}
    {entry : Dict Value} (hentry : library.entries[id]? = some entry) :
    (library.add properties).2.entries[id]? = some entry := by
  rw [Library.getElem?_add, if_neg (Int64.ne_of_lt (h.lt_add properties hentry)).symm, hentry]

theorem add (h : library.Fresh) (hroom : library.HasRoom) (properties : List (String × Value)) :
    (library.add properties).2.Fresh := by
  intro id hid
  have hnext := add_lt_nextId hroom properties
  change (library.entries.insert (library.add properties).1 _).contains id at hid
  rw [Std.TreeMap.contains_insert, Bool.or_eq_true, beq_iff_eq,
    Std.LawfulEqCmp.compare_eq_iff_eq] at hid
  rcases hid with rfl | hid
  · exact hnext
  · have hle := library.nextId_le_add properties
    exact Int64.lt_trans (Int64.lt_of_lt_of_le (h id hid) hle) hnext

end Fresh

theorem fresh_of_no_entries (nextId : Int64) : Fresh { entries := {}, nextId } := by
  intro id hid
  rw [contains, Std.TreeMap.contains_emptyc] at hid
  cases hid

theorem Reachable.fresh (h : library.Reachable) : library.Fresh := by
  induction h with
  | empty | unset => exact fresh_of_no_entries _
  | add _ hroom properties ih => exact ih.add hroom properties
  | set _ id key value ih =>
      intro other hother
      change (Std.TreeMap.modify _ id _).contains other at hother
      rw [Std.TreeMap.contains_modify] at hother
      exact ih other hother
  | remove _ id ih =>
      intro other hother
      change (Std.TreeMap.erase _ id).contains other at hother
      rw [Std.TreeMap.contains_erase, Bool.and_eq_true] at hother
      exact ih other hother.2

end Library

end MediaCatalog
