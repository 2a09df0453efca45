import Mathlib.Algebra.Group.Nat.Defs
import Mathlib.Data.List.Basic
import MediaCatalog.Catalog.Evaluate
import MediaCatalog.Proofs.Catalog.Growth
import MediaCatalog.Proofs.Value.Entries

/-!
What an id stands for. Ids are given out as 1, 2, 3 and so on, whatever is removed in between, so an
id stands for the entry that it was given out for and for nothing else ever after. The entry holds
what it was added with, overwritten by what was set on it since, until it is removed. A list of ids
that were given out can therefore only get shorter as time goes by.
-/

namespace MediaCatalog

/-- A list of ids selects those of them that are there. -/
theorem Catalog.evaluate_of_idlist (catalog : Catalog) {node : Collection}
    (h : node.kind = .idlist) :
    catalog.evaluate node = .ok (node.ids.filter catalog.library.contains) := by
  obtain ⟨id, kind, attributes, operands, ids⟩ := node
  obtain rfl : kind = .idlist := h
  rw [evaluate, select]
  rfl

namespace Library

/-! ### Edits -/

/-- What is done to a library. -/
inductive Edit where
  | add (properties : List (String × Value))
  | set (id : Int64) (key : String) (value : Value)
  | remove (id : Int64)

namespace Edit

def adds : Edit → Bool
  | add _ => true
  | _ => false

def removes (id : Int64) : Edit → Bool
  | remove other => other = id
  | _ => false

/-- What an edit sets on the entry of an id. -/
def sets? (id : Int64) : Edit → Option (String × Value)
  | set other key value => if other = id then some (key, value) else none
  | _ => none

end Edit

def edit (library : Library) : Edit → Library
  | .add properties => (library.add properties).2
  | .set id key value => library.set id key value
  | .remove id => library.remove id

/-- A library after one edit after the other. -/
def editAll (library : Library) (edits : List Edit) : Library := edits.foldl edit library

/-- The ids that the additions among some edits are answered with. -/
def issued (library : Library) : List Edit → List Int64
  | [] => []
  | .add properties :: rest =>
    (library.add properties).1 :: issued (library.add properties).2 rest
  | other :: rest => issued (library.edit other) rest

theorem countP_adds_cons (edit : Edit) (rest : List Edit) :
    (edit :: rest).countP Edit.adds = [edit].countP Edit.adds + rest.countP Edit.adds := by
  rw [← List.countP_append]
  rfl

/-! ### Numbers of ids -/

/-- So many ids have been given out, from 1 upwards, and no entry has any other. -/
structure Issues (library : Library) (count : Nat) : Prop where
  toInt_next : (max library.nextId 1).toInt = count + 1
  bounds : ∀ id, library.contains id → 1 ≤ id.toInt ∧ id.toInt ≤ count

variable {library : Library} {count : Nat}

namespace Issues

theorem of_no_entries {nextId : Int64} (h : max nextId 1 = 1) :
    Issues { entries := {}, nextId } 0 where
  toInt_next := by
    rw [h]
    rfl
  bounds id hid := by
    rw [contains, Std.TreeMap.contains_emptyc] at hid
    cases hid

/-- A new id is one above all that were given out. -/
theorem toInt_add (h : library.Issues count) (properties : List (String × Value)) :
    (library.add properties).1.toInt = count + 1 :=
  h.toInt_next

theorem ne_add (h : library.Issues count) (properties : List (String × Value)) {id : Int64}
    (hid : id.toInt ≤ count) : (library.add properties).1 ≠ id := by
  rintro rfl
  have hnew := h.toInt_add properties
  omega

theorem add (h : library.Issues count) (hroom : count + 1 < 2 ^ 63 - 1)
    (properties : List (String × Value)) : (library.add properties).2.Issues (count + 1) where
  toInt_next := by
    have hnew := h.toInt_add properties
    have hlast : Int64.maxValue.toInt = 9223372036854775807 := rfl
    have hlt : (library.add properties).1 < Int64.maxValue := by
      rw [Int64.lt_iff_toInt_lt]
      omega
    have hnext : ((library.add properties).1 + 1).toInt = count + 1 + 1 := by
      rw [toInt_succ hlt, hnew]
    have hone : (1 : Int64).toInt = 1 := rfl
    have hle : ¬ (library.add properties).1 + 1 ≤ 1 := by
      rw [Int64.le_iff_toInt_le]
      omega
    show (if (library.add properties).1 + 1 ≤ 1 then 1 else (library.add properties).1 + 1).toInt =
      ((count + 1 : Nat) : Int) + 1
    rw [if_neg hle, hnext]
    omega
  bounds id hid := by
    have hnew := h.toInt_add properties
    change (library.entries.insert (library.add properties).1 _).contains id at hid
    rw [Std.TreeMap.contains_insert, Bool.or_eq_true, beq_iff_eq,
      Std.LawfulEqCmp.compare_eq_iff_eq] at hid
    rcases hid with rfl | hid
    · omega
    · have hbounds := h.bounds id hid
      omega

theorem set (h : library.Issues count) (id : Int64) (key : String) (value : Value) :
    (library.set id key value).Issues count where
  toInt_next := h.toInt_next
  bounds other hother := by
    change (Std.TreeMap.modify _ id _).contains other at hother
    rw [Std.TreeMap.contains_modify] at hother
    exact h.bounds other hother

theorem remove (h : library.Issues count) (id : Int64) : (library.remove id).Issues count where
  toInt_next := h.toInt_next
  bounds other hother := by
    change (Std.TreeMap.erase _ id).contains other at hother
    rw [Std.TreeMap.contains_erase, Bool.and_eq_true] at hother
    exact h.bounds other hother.2

/-- An edit gives out one id more if it adds an entry, and none otherwise. -/
theorem edit (h : library.Issues count) (edit : Edit)
    (hroom : count + [edit].countP Edit.adds < 2 ^ 63 - 1) :
    (library.edit edit).Issues (count + [edit].countP Edit.adds) := by
  cases edit with
  | add properties => exact h.add hroom properties
  | set id key value => exact h.set id key value
  | remove id => exact h.remove id

theorem editAll (h : library.Issues count) (edits : List Edit)
    (hroom : count + edits.countP Edit.adds < 2 ^ 63 - 1) :
    (library.editAll edits).Issues (count + edits.countP Edit.adds) := by
  induction edits generalizing library count with
  | nil => exact h
  | cons edit rest ih =>
      rw [countP_adds_cons, ← Nat.add_assoc] at hroom ⊢
      exact ih (h.edit edit (by omega)) hroom

/-- The additions are answered with one number after the other. -/
theorem toInt_issued (h : library.Issues count) (edits : List Edit)
    (hroom : count + edits.countP Edit.adds < 2 ^ 63 - 1) :
    (library.issued edits).map Int64.toInt =
      (List.range' (count + 1) (edits.countP Edit.adds)).map Nat.cast := by
  induction edits generalizing library count with
  | nil => rfl
  | cons edit rest ih =>
      rw [countP_adds_cons, ← Nat.add_assoc] at hroom
      have hrest := ih (h.edit edit (by omega)) hroom
      cases edit with
      | add properties =>
          rw [List.countP_cons_of_pos rfl, List.range'_succ, List.map_cons, issued, List.map_cons,
            h.toInt_add]
          exact congrArg _ hrest
      | set id key value => exact hrest
      | remove id => exact hrest

end Issues

/-! ### What an id stands for -/

section Entries

variable {id : Int64}

theorem getElem?_set (library : Library) (other : Int64) (key : String) (value : Value) :
    (library.set other key value).entries[id]? =
      if other = id then library.entries[id]?.map (Dict.insert · key value)
      else library.entries[id]? := by
  show (library.entries.modify other _)[id]? = _
  rw [Std.TreeMap.getElem?_modify]
  simp only [Std.LawfulEqCmp.compare_eq_iff_eq]
  split
  · next hsame => rw [hsame]
  · rfl

theorem getElem?_remove (library : Library) (other : Int64) :
    (library.remove other).entries[id]? = if other = id then none else library.entries[id]? := by
  show (library.entries.erase other)[id]? = _
  rw [Std.TreeMap.getElem?_erase]
  simp only [Std.LawfulEqCmp.compare_eq_iff_eq]

/-- An id that was given out and stands for nothing now never will again. -/
theorem Issues.getElem?_editAll_of_none (h : library.Issues count) (hid : id.toInt ≤ count)
    (hnone : library.entries[id]? = none) (edits : List Edit)
    (hroom : count + edits.countP Edit.adds < 2 ^ 63 - 1) :
    (library.editAll edits).entries[id]? = none := by
  induction edits generalizing library count with
  | nil => exact hnone
  | cons edit rest ih =>
      rw [countP_adds_cons, ← Nat.add_assoc] at hroom
      have hedit := h.edit edit (by omega)
      refine ih hedit (by omega) ?_ hroom
      cases edit with
      | add properties =>
          show (library.add properties).2.entries[id]? = none
          rw [getElem?_add, if_neg (h.ne_add properties hid), hnone]
      | set other key value =>
          show (library.set other key value).entries[id]? = none
          rw [getElem?_set, hnone, Option.map_none, ite_self]
      | remove other =>
          show (library.remove other).entries[id]? = none
          rw [getElem?_remove, hnone, ite_self]

/-- An entry holds what was written to it, and then what is set on it, until it is removed. -/
theorem Issues.getElem?_editAll_of_some (h : library.Issues count)
    {written : List (String × Value)}
    (hentry : library.entries[id]? = some (Dict.ofEntries written)) (edits : List Edit)
    (hroom : count + edits.countP Edit.adds < 2 ^ 63 - 1) :
    (library.editAll edits).entries[id]? =
      if edits.any (Edit.removes id) then none
      else some (Dict.ofEntries (written ++ edits.filterMap (Edit.sets? id))) := by
  induction edits generalizing library count written with
  | nil =>
      rw [List.filterMap_nil, List.append_nil]
      exact hentry
  | cons edit rest ih =>
      rw [countP_adds_cons, ← Nat.add_assoc] at hroom
      have hedit := h.edit edit (by omega)
      have hid := (h.bounds id (contains_of_getElem? hentry)).2
      cases edit with
      | add properties =>
          refine ih hedit ?_ hroom
          show (library.add properties).2.entries[id]? = _
          rw [getElem?_add, if_neg (h.ne_add properties hid), hentry]
      | set other key value =>
          have hset : (library.edit (.set other key value)).entries[id]? =
              if other = id then library.entries[id]?.map (Dict.insert · key value)
              else library.entries[id]? := getElem?_set library other key value
          by_cases hsame : other = id
          · have hsets : Edit.sets? id (.set other key value) = some (key, value) := if_pos hsame
            rw [if_pos hsame, hentry, Option.map_some,
              ← Dict.ofEntries_append_singleton written (key, value)] at hset
            rw [List.filterMap_cons_some hsets, List.append_cons]
            exact ih hedit hset hroom
          · have hsets : Edit.sets? id (.set other key value) = none := if_neg hsame
            rw [if_neg hsame, hentry] at hset
            rw [List.filterMap_cons_none hsets]
            exact ih hedit hset hroom
      | remove other =>
          have hremove : (library.edit (.remove other)).entries[id]? =
              if other = id then none else library.entries[id]? := getElem?_remove library other
          by_cases hsame : other = id
          · rw [if_pos hsame] at hremove
            have hremoves : Edit.removes id (.remove other) = true := decide_eq_true hsame
            rw [List.any_cons, hremoves, Bool.true_or, if_pos rfl]
            exact hedit.getElem?_editAll_of_none (by omega) hremove rest hroom
          · rw [if_neg hsame, hentry] at hremove
            have hkeeps : Edit.removes id (.remove other) = false := decide_eq_false hsame
            rw [List.any_cons, hkeeps, Bool.false_or]
            exact ih hedit hremove hroom

end Entries

/-- An id was given out if one of the additions was answered with it. -/
theorem mem_issued_iff {id : Int64} {edits : List Edit} :
    id ∈ library.issued edits ↔ ∃ before properties after,
      edits = before ++ .add properties :: after ∧
        id = ((library.editAll before).add properties).1 := by
  induction edits generalizing library with
  | nil => simp [issued]
  | cons edit rest ih =>
      have hfirst : id ∈ library.issued (edit :: rest) ↔
          (∃ properties, edit = .add properties ∧ id = (library.add properties).1) ∨
            id ∈ (library.edit edit).issued rest := by
        cases edit <;> simp [issued, Library.edit]
      rw [hfirst, ih]
      constructor
      · rintro (⟨properties, rfl, hid⟩ | ⟨before, properties, after, rfl, hid⟩)
        · exact ⟨[], properties, rest, rfl, hid⟩
        · exact ⟨edit :: before, properties, after, rfl, hid⟩
      · rintro ⟨before, properties, after, hedits, hid⟩
        cases before with
        | nil =>
            obtain ⟨rfl, rfl⟩ := List.cons.inj hedits
            exact .inl ⟨properties, rfl, hid⟩
        | cons first before =>
            obtain ⟨rfl, rfl⟩ := List.cons.inj hedits
            exact .inr ⟨before, properties, after, rfl, hid⟩

/-- Every entry stands under an id that was given out. -/
theorem Issues.mem_issued (h : library.Issues 0) {edits : List Edit}
    (hroom : edits.countP Edit.adds < 2 ^ 63 - 1) {id : Int64}
    (hid : (library.editAll edits).contains id) : id ∈ library.issued edits := by
  rw [← Nat.zero_add (edits.countP Edit.adds)] at hroom
  obtain ⟨hlow, hhigh⟩ := (h.editAll edits hroom).bounds id hid
  have hmem : id.toInt ∈ (library.issued edits).map Int64.toInt := by
    rw [h.toInt_issued edits hroom, List.mem_map]
    exact ⟨id.toInt.toNat, List.mem_range'_1.mpr (by omega), by omega⟩
  obtain ⟨other, hother, hsame⟩ := List.mem_map.mp hmem
  rwa [← Int64.toInt_inj.mp hsame]

/-- Before anything is added no id has been given out. -/
theorem issues_zero {start : Library} (h : start = empty ∨ start = default) : start.Issues 0 := by
  rcases h with rfl | rfl
  · exact .of_no_entries (by decide)
  · exact .of_no_entries (by decide)

/-- What an id stands for after the addition that gave it out and some more edits. -/
theorem Issues.entry_of_add (h : library.Issues 0) {before after : List Edit}
    {properties : List (String × Value)}
    (hroom : (before ++ .add properties :: after).countP Edit.adds < 2 ^ 63 - 1) :
    let id := ((library.editAll before).add properties).1
    id.toInt = before.countP Edit.adds + 1 ∧
      (library.editAll (before ++ .add properties :: after)).entries[id]? =
        if after.any (Edit.removes id) then none
        else some (Dict.ofEntries (properties ++ after.filterMap (Edit.sets? id))) := by
  intro id
  rw [List.countP_append, countP_adds_cons] at hroom
  have hadds : [Edit.add properties].countP Edit.adds = 1 := rfl
  have hbefore := h.editAll before (by omega)
  rw [Nat.zero_add] at hbefore
  have hadded := hbefore.add (by omega) properties
  have hentry : ((library.editAll before).add properties).2.entries[id]? =
      some (Dict.ofEntries properties) := by
    rw [getElem?_add, if_pos rfl]
  have hafter := hadded.getElem?_editAll_of_some hentry after (by omega)
  refine ⟨hbefore.toInt_add properties, ?_⟩
  rw [Library.editAll, List.foldl_append]
  exact hafter

/-! ### Lists of ids -/

theorem Issues.toInt_le_of_mem_issued (h : library.Issues 0)
    {edits : List Edit} (hroom : edits.countP Edit.adds < 2 ^ 63 - 1) {id : Int64}
    (hid : id ∈ library.issued edits) : id.toInt ≤ edits.countP Edit.adds := by
  have hmem := List.mem_map_of_mem (f := Int64.toInt) hid
  rw [h.toInt_issued edits (by rwa [Nat.zero_add])] at hmem
  obtain ⟨number, hnumber, hsame⟩ := List.mem_map.mp hmem
  have hle := (List.mem_range'_1.mp hnumber).2
  omega

/-- A list of ids that were given out selects fewer of them as time goes by, and never others. -/
theorem Issues.sublist_of_later (h : library.Issues count) {ids : List Int64}
    (hids : ∀ id ∈ ids, id.toInt ≤ count) {edits : List Edit}
    (hroom : count + edits.countP Edit.adds < 2 ^ 63 - 1) :
    (ids.filter (library.editAll edits).contains).Sublist (ids.filter library.contains) := by
  have hstays (id : Int64) (hid : id ∈ ids) (hlater : (library.editAll edits).contains id) :
      library.contains id := by
    rw [contains, Std.TreeMap.contains_eq_isSome_getElem?] at hlater ⊢
    by_contra hgone
    rw [Bool.not_eq_true, Option.isSome_eq_false_iff, Option.isNone_iff_eq_none] at hgone
    rw [h.getElem?_editAll_of_none (hids id hid) hgone edits hroom] at hlater
    cases hlater
  have hboth : ids.filter (library.editAll edits).contains =
      (ids.filter library.contains).filter (library.editAll edits).contains := by
    rw [List.filter_filter]
    refine List.filter_congr fun id hid => ?_
    rw [Bool.eq_iff_iff, Bool.and_eq_true]
    exact ⟨fun hlater => ⟨hlater, hstays id hid hlater⟩, And.left⟩
  rw [hboth]
  exact List.filter_sublist

/-- The additions of a library are answered with 1, 2, 3 and so on, whatever is removed in between.
What an id stands for is the entry that it was given out for, as what was set on it since leaves it,
and nothing once that is removed; no other entry is there. A list of ids that were given out selects
some of what it selected before, whatever happens to the library and to all else. -/
theorem ids_stand_for_one_entry {start : Library} (hstart : start = empty ∨ start = default)
    {edits : List Edit} (hroom : edits.countP Edit.adds < 2 ^ 63 - 1) :
    (start.issued edits).map Int64.toInt =
      (List.range' 1 (edits.countP Edit.adds)).map Nat.cast ∧
    (start.issued edits).Pairwise (· < ·) ∧
    (∀ before properties after, edits = before ++ .add properties :: after →
      let id := ((start.editAll before).add properties).1
      id.toInt = before.countP Edit.adds + 1 ∧
        (start.editAll edits).entries[id]? =
          if after.any (Edit.removes id) then none
          else some (Dict.ofEntries (properties ++ after.filterMap (Edit.sets? id)))) ∧
    (∀ id, (start.editAll edits).contains id → ∃ before properties after,
      edits = before ++ .add properties :: after ∧
        id = ((start.editAll before).add properties).1) ∧
    (∀ before after, edits = before ++ after → ∀ (earlier later : Catalog) (node : Collection),
      earlier.library = start.editAll before → later.library = start.editAll edits →
      node.kind = .idlist → (∀ id ∈ node.ids, id ∈ start.issued before) →
      ∃ first second, earlier.evaluate node = .ok first ∧ later.evaluate node = .ok second ∧
        second.Sublist first) := by
  have h := issues_zero hstart
  have hnumbers := h.toInt_issued edits (by rwa [Nat.zero_add])
  refine ⟨hnumbers, ?_, ?_, ?_, ?_⟩
  · have hascending : ((start.issued edits).map Int64.toInt).Pairwise (· < ·) := by
      rw [hnumbers, List.pairwise_map]
      exact (List.pairwise_lt_range' _).imp Int.ofNat_lt.mpr
    exact (List.pairwise_map.mp hascending).imp Int64.lt_iff_toInt_lt.mpr
  · rintro before properties after rfl
    exact h.entry_of_add hroom
  · exact fun id hid => mem_issued_iff.mp (h.mem_issued hroom hid)
  · rintro before after rfl earlier later node hearlier hlater hkind hids
    rw [List.countP_append] at hroom
    have hbefore := h.editAll before (by omega)
    rw [Nat.zero_add] at hbefore
    refine ⟨_, _, earlier.evaluate_of_idlist hkind, later.evaluate_of_idlist hkind, ?_⟩
    have hedits : start.editAll (before ++ after) = (start.editAll before).editAll after := by
      rw [editAll, List.foldl_append]
      rfl
    rw [hearlier, hlater, hedits]
    exact hbefore.sublist_of_later
      (fun id hid => h.toInt_le_of_mem_issued (by omega) (hids id hid)) hroom

/-- Three entries, of which the second gets another title and the last is removed, and a fourth
one. -/
def turnover : List Edit :=
  [.add [("title", .string "a")], .add [("title", .string "b")], .add [("title", .string "c")],
    .set 2 "title" (.string "d"), .remove 3, .add [("title", .string "e")]]

/-- The fourth entry does not take the place of the third one in a list. -/
theorem ids_stand_for_one_entry_turnover :
    let earlier : Catalog := { library := empty.editAll (turnover.take 3), store := .empty }
    let later : Catalog := { library := empty.editAll turnover, store := .empty }
    let list : Collection := .node 0 .idlist [] [] [3, 1, 2, 1]
    (empty = empty ∨ empty = default) ∧ turnover.countP Edit.adds < 2 ^ 63 - 1 ∧
      (empty.issued turnover).map Int64.toInt = [1, 2, 3, 4] ∧
      (empty.editAll turnover).entries[(2 : Int64)]? = some [("title", .string "d")] ∧
      earlier.evaluate list = .ok [3, 1, 2, 1] ∧ later.evaluate list = .ok [1, 2, 1] ∧
      ([1, 2, 1] : List Int64).Sublist [3, 1, 2, 1] := by
  intro earlier later list
  have hadds : turnover.countP Edit.adds = 4 := rfl
  have hroom : turnover.countP Edit.adds < 2 ^ 63 - 1 := by simp [hadds]
  obtain ⟨hnumbers, -, hentries, -, hlists⟩ := ids_stand_for_one_entry (.inl rfl) hroom
  have hentry := (hentries [.add [("title", .string "a")]] _ _ rfl).2
  have hissued : empty.issued (turnover.take 3) = [1, 2, 3] := rfl
  have hids : ∀ id ∈ list.ids, id ∈ empty.issued (turnover.take 3) := by
    rw [hissued]
    show ∀ id ∈ [3, 1, 2, 1], id ∈ [1, 2, 3]
    simp
  obtain ⟨first, second, hfirst, hsecond, hsublist⟩ := hlists (turnover.take 3) (turnover.drop 3)
    rfl earlier later list rfl rfl rfl hids
  have hfirst' : earlier.evaluate list = .ok [3, 1, 2, 1] := by
    rw [Catalog.evaluate_of_idlist earlier rfl]
    exact congrArg Except.ok (by decide)
  have hsecond' : later.evaluate list = .ok [1, 2, 1] := by
    rw [Catalog.evaluate_of_idlist later rfl]
    exact congrArg Except.ok (by decide)
  obtain rfl := Except.ok.inj (hfirst.symm.trans hfirst')
  obtain rfl := Except.ok.inj (hsecond.symm.trans hsecond')
  exact ⟨.inl rfl, hroom, hnumbers, hentry, hfirst', hsecond', hsublist⟩

end Library

end MediaCatalog
