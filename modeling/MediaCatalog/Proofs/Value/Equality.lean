import MediaCatalog.Proofs.Double
import MediaCatalog.Proofs.Value.Entries
import MediaCatalog.Proofs.Wire.Nesting
import MediaCatalog.Value.Equality

/-!
Laws of equality. Equality of values changes places and chains, so it is an equivalence but for the
values that hold a NaN: these, and no others, differ from themselves. A dictionary is compared by
what it answers under each key, whatever the order of its keys, and a node by its content, whatever
its identity.
-/

namespace MediaCatalog

/-! ### Lists and dictionaries -/

section Lists

variable {α β γ : Type} {R : α → β → Prop} {first : List α} {second : List β}

theorem forall₂_symm_of_mem {S : β → α → Prop} (h : List.Forall₂ R first second)
    (hback : ∀ x ∈ first, ∀ y, R x y → S y x) : List.Forall₂ S second first := by
  have hboth := (List.forall₂_and_left first second).mpr ⟨hback, h⟩
  exact (hboth.imp fun _ _ hpair => hpair.1 _ hpair.2).flip

theorem forall₂_trans_of_mem {S : β → γ → Prop} {T : α → γ → Prop} {third : List γ}
    (h : List.Forall₂ R first second) (h' : List.Forall₂ S second third)
    (hchain : ∀ x ∈ first, ∀ y z, R x y → S y z → T x z) : List.Forall₂ T first third := by
  induction h generalizing third with
  | nil =>
      cases h'
      exact .nil
  | cons hhead _ ih =>
      cases h' with
      | cons hhead' htail' =>
          rw [List.forall_mem_cons] at hchain
          exact .cons (hchain.1 _ _ hhead hhead') (ih htail' hchain.2)

end Lists

namespace Dict

variable {α β γ : Type} {R : α → β → Prop} {left : Dict α} {right : Dict β}

theorem find?_eq_some_iff {dict : Dict α} (h : Distinct dict) {key : String} {value : α} :
    find? dict key = some value ↔ (key, value) ∈ dict := by
  refine ⟨mem_of_find?, fun hmem => ?_⟩
  induction dict with
  | nil => cases hmem
  | cons entry rest ih =>
      rw [Distinct, keys, List.map_cons, List.nodup_cons] at h
      rw [find?_cons]
      rcases List.mem_cons.mp hmem with rfl | hmem
      · rw [if_pos rfl]
      · have hother : entry.1 ≠ key := by
          rintro rfl
          exact h.1 (List.mem_map.mpr ⟨_, hmem, rfl⟩)
        rw [if_neg hother, ih h.2 hmem]

/-- There are as many entries on both sides, and for each one on the left there is a related value
under its key on the right. -/
structure Matches (R : α → β → Prop) (left : Dict α) (right : Dict β) : Prop where
  length : left.length = right.length
  found : ∀ entry ∈ left, ∃ value, find? right entry.1 = some value ∧ R entry.2 value

namespace Matches

/-- The keys on the left are all on the right, and the right has no room for others. -/
theorem keys_perm (h : Matches R left right) (hleft : Distinct left) :
    (keys left).Perm (keys right) := by
  have hsubset : keys left ⊆ keys right := by
    intro key hkey
    obtain ⟨entry, hentry, rfl⟩ := List.mem_map.mp hkey
    obtain ⟨value, hvalue, -⟩ := h.found entry hentry
    exact isSome_find?_iff.mp (Option.isSome_of_eq_some hvalue)
  refine (List.subperm_of_subset hleft hsubset).perm_of_length_le ?_
  rw [keys, keys, List.length_map, List.length_map, h.length]

/-- The order of the entries does not matter: both sides have the same keys, and what they have
under one key is related. -/
theorem iff_perm (hleft : Distinct left) :
    Matches R left right ↔ (keys left).Perm (keys right) ∧
      ∀ key value other, (key, value) ∈ left → (key, other) ∈ right → R value other := by
  constructor
  · intro h
    have hkeys := h.keys_perm hleft
    refine ⟨hkeys, fun key value other hvalue hother => ?_⟩
    obtain ⟨found, hfound, hrelated⟩ := h.found _ hvalue
    rw [(find?_eq_some_iff (hkeys.nodup_iff.mp hleft)).mpr hother] at hfound
    exact Option.some.inj hfound ▸ hrelated
  · rintro ⟨hkeys, hrelated⟩
    refine ⟨?_, fun ⟨key, value⟩ hvalue => ?_⟩
    · have hlength := hkeys.length_eq
      rwa [keys, keys, List.length_map, List.length_map] at hlength
    · obtain ⟨⟨_, other⟩, hother, rfl⟩ : ∃ entry ∈ right, entry.1 = key :=
        List.mem_map.mp (hkeys.mem_iff.mp (List.mem_map_of_mem hvalue))
      exact ⟨other, (find?_eq_some_iff (hkeys.nodup_iff.mp hleft)).mpr hother,
        hrelated _ _ _ hvalue hother⟩

theorem symm {S : β → α → Prop} (h : Matches R left right) (hleft : Distinct left)
    (hback : ∀ entry ∈ left, ∀ value, R entry.2 value → S value entry.2) :
    Matches S right left := by
  obtain ⟨hkeys, hrelated⟩ := (iff_perm hleft).mp h
  exact (iff_perm (hkeys.nodup_iff.mp hleft)).mpr ⟨hkeys.symm, fun key value other hvalue hother =>
    hback _ hother _ (hrelated key other value hother hvalue)⟩

theorem trans {S : β → γ → Prop} {T : α → γ → Prop} {third : Dict γ} (h : Matches R left right)
    (h' : Matches S right third)
    (hchain : ∀ entry ∈ left, ∀ y z, R entry.2 y → S y z → T entry.2 z) :
    Matches T left third where
  length := h.length.trans h'.length
  found entry hentry := by
    obtain ⟨middle, hmiddle, hrelated⟩ := h.found entry hentry
    obtain ⟨last, hlast, hrelated'⟩ := h'.found _ (mem_of_find? hmiddle)
    exact ⟨last, hlast, hchain entry hentry _ _ hrelated hrelated'⟩

theorem self_iff {R : α → α → Prop} (hleft : Distinct left) :
    Matches R left left ↔ ∀ entry ∈ left, R entry.2 entry.2 := by
  have hfind (entry : String × α) (hentry : entry ∈ left) : find? left entry.1 = some entry.2 :=
    (find?_eq_some_iff hleft).mpr hentry
  refine ⟨fun h entry hentry => ?_, fun h => ⟨rfl, fun entry hentry => ?_⟩⟩
  · obtain ⟨value, hvalue, hrelated⟩ := h.found entry hentry
    rw [hfind entry hentry] at hvalue
    exact Option.some.inj hvalue ▸ hrelated
  · exact ⟨entry.2, hfind entry hentry, h entry hentry⟩

end Matches

end Dict

/-! ### Values inside values -/

namespace Value

theorem mem_parts_list {part : Value} {items : List Value} :
    part ∈ (list items).parts ↔ part = list items ∨ ∃ item ∈ items, part ∈ item.parts := by
  rw [parts, partsOfItems_eq_flatMap, List.mem_cons, List.mem_flatMap]

theorem mem_parts_dict {part : Value} {entries : List (String × Value)} :
    part ∈ (dict entries).parts ↔
      part = dict entries ∨ ∃ entry ∈ entries, part ∈ entry.2.parts := by
  rw [parts, partsOfEntries_eq_flatMap, List.mem_cons, List.mem_flatMap]

theorem mem_parts_collection {part : Value} {id : NodeId} {kind : CollectionKind}
    {attributes : List (String × Value)} {operands : List Collection} {ids : List Int64} :
    part ∈ (collection (.node id kind attributes operands ids)).parts ↔
      part = collection (.node id kind attributes operands ids) ∨
        (∃ entry ∈ attributes, part ∈ entry.2.parts) ∨
          ∃ operand ∈ operands, part ∈ (collection operand).parts := by
  rw [parts, Collection.parts, partsOfEntries_eq_flatMap, partsOfOperands_eq_flatMap,
    List.mem_cons, List.mem_append, List.mem_flatMap, List.mem_flatMap]

/-- No dictionary inside the value and no node in it repeats a key. -/
def KeysDistinct (value : Value) : Prop := ∀ part ∈ value.parts, part.Keyed

/-- NaN stands somewhere in the value, under whichever of its bit patterns. -/
def HoldsNaN (value : Value) : Prop := ∃ number, .float number ∈ value.parts ∧ number.isNaN

section Parts

variable {id : NodeId} {kind : CollectionKind} {items : List Value}
  {entries attributes : List (String × Value)} {operands : List Collection} {ids : List Int64}

theorem KeysDistinct.of_list (h : (list items).KeysDistinct) : ∀ item ∈ items, item.KeysDistinct :=
  fun item hitem part hpart => h part (mem_parts_list.mpr (.inr ⟨item, hitem, hpart⟩))

theorem KeysDistinct.of_dict (h : (dict entries).KeysDistinct) :
    Dict.Distinct entries ∧ ∀ entry ∈ entries, entry.2.KeysDistinct :=
  ⟨h _ (mem_parts_dict.mpr (.inl rfl)),
    fun entry hentry part hpart => h part (mem_parts_dict.mpr (.inr ⟨entry, hentry, hpart⟩))⟩

theorem KeysDistinct.of_collection
    (h : (collection (.node id kind attributes operands ids)).KeysDistinct) :
    Dict.Distinct attributes ∧ (∀ entry ∈ attributes, entry.2.KeysDistinct) ∧
      ∀ operand ∈ operands, (collection operand).KeysDistinct :=
  ⟨h _ (mem_parts_collection.mpr (.inl rfl)),
    fun entry hentry part hpart =>
      h part (mem_parts_collection.mpr (.inr (.inl ⟨entry, hentry, hpart⟩))),
    fun operand hoperand part hpart =>
      h part (mem_parts_collection.mpr (.inr (.inr ⟨operand, hoperand, hpart⟩)))⟩

theorem holdsNaN_list : (list items).HoldsNaN ↔ ∃ item ∈ items, item.HoldsNaN := by
  simp only [HoldsNaN, mem_parts_list, reduceCtorEq, false_or]
  grind

theorem holdsNaN_dict : (dict entries).HoldsNaN ↔ ∃ entry ∈ entries, entry.2.HoldsNaN := by
  simp only [HoldsNaN, mem_parts_dict, reduceCtorEq, false_or]
  grind

theorem holdsNaN_collection :
    (collection (.node id kind attributes operands ids)).HoldsNaN ↔
      (∃ entry ∈ attributes, entry.2.HoldsNaN) ∨
        ∃ operand ∈ operands, (collection operand).HoldsNaN := by
  simp only [HoldsNaN, mem_parts_collection, reduceCtorEq, false_or]
  grind

end Parts

/-! ### What equality compares -/

theorem float_equal_iff {number : Double} {other : Value} :
    (float number).equal other ↔ ∃ number', other = float number' ∧ number == number' := by
  cases other <;> simp [equal]

theorem list_equal_iff {items : List Value} {other : Value} :
    (list items).equal other ↔ ∃ others, other = list others ∧
      List.Forall₂ (fun left right => left.equal right) items others := by
  have hitems (others : List Value) : equalItems items others ↔
      List.Forall₂ (fun left right => left.equal right) items others := by
    induction items generalizing others with
    | nil => cases others <;> simp [equalItems]
    | cons item items ih => cases others <;> simp [equalItems, ih]
  cases other <;> simp [equal, hitems]

theorem equalEntries_iff {entries others : List (String × Value)} :
    (entries.length = others.length ∧ equalEntries entries others) ↔
      Dict.Matches (fun left right => left.equal right) entries others := by
  have hentries : equalEntries entries others ↔ ∀ entry ∈ entries,
      ∃ value, Dict.find? others entry.1 = some value ∧ entry.2.equal value := by
    induction entries with
    | nil => simp [equalEntries]
    | cons entry entries ih =>
        obtain ⟨key, left⟩ := entry
        rw [equalEntries, Bool.and_eq_true, ih, List.forall_mem_cons]
        refine and_congr_left fun _ => ?_
        cases Dict.find? others key <;> simp
  rw [hentries]
  exact ⟨fun h => ⟨h.1, h.2⟩, fun h => ⟨h.length, h.found⟩⟩

theorem dict_equal_iff {entries : List (String × Value)} {other : Value} :
    (dict entries).equal other ↔ ∃ others, other = dict others ∧
      Dict.Matches (fun left right => left.equal right) entries others := by
  cases other <;> simp [equal, equalEntries_iff]

theorem equalOperands_iff {operands others : List Collection} :
    equalOperands operands others ↔ List.Forall₂
      (fun left right => (collection left).equal (collection right)) operands others := by
  induction operands generalizing others with
  | nil => cases others <;> simp [equalOperands]
  | cons operand operands ih => cases others <;> simp [equalOperands, equal, ih]

/-- Nodes are equal by what they hold, whatever their identities. -/
theorem collection_equal_iff {id : NodeId} {kind : CollectionKind}
    {attributes : List (String × Value)} {operands : List Collection} {ids : List Int64}
    {other : Value} :
    (collection (.node id kind attributes operands ids)).equal other ↔
      ∃ id' attributes' operands', other = collection (.node id' kind attributes' operands' ids) ∧
        Dict.Matches (fun left right => left.equal right) attributes attributes' ∧
          List.Forall₂ (fun left right => (collection left).equal (collection right)) operands
            operands' := by
  cases other with
  | collection node =>
      obtain ⟨id', kind', attributes', operands', ids'⟩ := node
      simp only [equal, Collection.equal, Bool.and_eq_true, beq_iff_eq, equalEntries_iff,
        equalOperands_iff, collection.injEq, Collection.node.injEq]
      constructor
      · rintro ⟨⟨⟨rfl, hattributes⟩, hoperands⟩, rfl⟩
        exact ⟨id', attributes', operands', ⟨rfl, rfl, rfl, rfl, rfl⟩, hattributes, hoperands⟩
      · rintro ⟨_, _, _, ⟨-, rfl, rfl, rfl, rfl⟩, hattributes, hoperands⟩
        exact ⟨⟨⟨rfl, hattributes⟩, hoperands⟩, rfl⟩
  | _ => simp [equal]

/-! ### The laws -/

/-- What equals another value is equalled by it. -/
theorem equal_symm {value other : Value} (hkeys : value.KeysDistinct) (h : value.equal other) :
    other.equal value := by
  induction value using induction generalizing other with
  | none | int | string | binary | error => cases other <;> simp_all [equal]
  | float number =>
      obtain ⟨number', rfl, hnumber⟩ := float_equal_iff.mp h
      exact float_equal_iff.mpr ⟨number, rfl, PartialEquivBEq.symm hnumber⟩
  | list items ih =>
      obtain ⟨others, rfl, hitems⟩ := list_equal_iff.mp h
      exact list_equal_iff.mpr ⟨items, rfl, forall₂_symm_of_mem hitems fun item hitem _ =>
        ih item hitem (hkeys.of_list item hitem)⟩
  | dict entries ih =>
      obtain ⟨others, rfl, hentries⟩ := dict_equal_iff.mp h
      obtain ⟨hdistinct, hinside⟩ := hkeys.of_dict
      exact dict_equal_iff.mpr ⟨entries, rfl, hentries.symm hdistinct fun entry hentry _ =>
        ih entry hentry (hinside entry hentry)⟩
  | collection id kind attributes operands ids ihattributes ihoperands =>
      obtain ⟨id', attributes', operands', rfl, hattributes, hoperands⟩ :=
        collection_equal_iff.mp h
      obtain ⟨hdistinct, habove, hbelow⟩ := hkeys.of_collection
      refine collection_equal_iff.mpr ⟨id, attributes, operands, rfl, ?_, ?_⟩
      · exact hattributes.symm hdistinct fun entry hentry _ =>
          ihattributes entry hentry (habove entry hentry)
      · exact forall₂_symm_of_mem hoperands fun operand hoperand _ =>
          ihoperands operand hoperand (hbelow operand hoperand)

/-- What a value equals and what that equals are equal. -/
theorem equal_trans {first second third : Value} (h : first.equal second)
    (h' : second.equal third) : first.equal third := by
  induction first using induction generalizing second third with
  | none | int | string | binary | error => cases second <;> simp_all [equal]
  | float number =>
      obtain ⟨number', rfl, hnumber⟩ := float_equal_iff.mp h
      obtain ⟨number'', rfl, hnumber'⟩ := float_equal_iff.mp h'
      exact float_equal_iff.mpr ⟨number'', rfl, PartialEquivBEq.trans hnumber hnumber'⟩
  | list items ih =>
      obtain ⟨items', rfl, hitems⟩ := list_equal_iff.mp h
      obtain ⟨items'', rfl, hitems'⟩ := list_equal_iff.mp h'
      exact list_equal_iff.mpr ⟨items'', rfl,
        forall₂_trans_of_mem hitems hitems' fun item hitem _ _ => ih item hitem⟩
  | dict entries ih =>
      obtain ⟨entries', rfl, hentries⟩ := dict_equal_iff.mp h
      obtain ⟨entries'', rfl, hentries'⟩ := dict_equal_iff.mp h'
      exact dict_equal_iff.mpr ⟨entries'', rfl,
        hentries.trans hentries' fun entry hentry _ _ => ih entry hentry⟩
  | collection id kind attributes operands ids ihattributes ihoperands =>
      obtain ⟨id', attributes', operands', rfl, hattributes, hoperands⟩ :=
        collection_equal_iff.mp h
      obtain ⟨id'', attributes'', operands'', rfl, hattributes', hoperands'⟩ :=
        collection_equal_iff.mp h'
      exact collection_equal_iff.mpr ⟨id'', attributes'', operands'', rfl,
        hattributes.trans hattributes' fun entry hentry _ _ => ihattributes entry hentry,
        forall₂_trans_of_mem hoperands hoperands' fun operand hoperand _ _ =>
          ihoperands operand hoperand⟩

/-- A value equals itself unless NaN stands somewhere in it. -/
theorem equal_self_iff {value : Value} (hkeys : value.KeysDistinct) :
    value.equal value ↔ ¬ value.HoldsNaN := by
  induction value using induction with
  | none | int | string | binary | error => simp [equal, HoldsNaN, parts]
  | float number =>
      simp [equal, Double.beq_self_iff, HoldsNaN, parts]
  | list items ih =>
      have hitems : (∀ item ∈ items, item.equal item) ↔ ∀ item ∈ items, ¬ item.HoldsNaN :=
        forall₂_congr fun item hitem => ih item hitem (hkeys.of_list item hitem)
      simp [list_equal_iff, List.forall₂_same, hitems, holdsNaN_list]
  | dict entries ih =>
      obtain ⟨hdistinct, hinside⟩ := hkeys.of_dict
      have hentries : (∀ entry ∈ entries, entry.2.equal entry.2) ↔
          ∀ entry ∈ entries, ¬ entry.2.HoldsNaN :=
        forall₂_congr fun entry hentry => ih entry hentry (hinside entry hentry)
      simp [dict_equal_iff, Dict.Matches.self_iff hdistinct, hentries, holdsNaN_dict, -Prod.forall,
        -Prod.exists]
  | collection id kind attributes operands ids ihattributes ihoperands =>
      obtain ⟨hdistinct, habove, hbelow⟩ := hkeys.of_collection
      have hattributes : (∀ entry ∈ attributes, entry.2.equal entry.2) ↔
          ∀ entry ∈ attributes, ¬ entry.2.HoldsNaN :=
        forall₂_congr fun entry hentry => ihattributes entry hentry (habove entry hentry)
      have hoperands : (∀ operand ∈ operands, (collection operand).equal (collection operand)) ↔
          ∀ operand ∈ operands, ¬ (collection operand).HoldsNaN :=
        forall₂_congr fun operand hoperand => ihoperands operand hoperand (hbelow operand hoperand)
      simp [collection_equal_iff, Dict.Matches.self_iff hdistinct, List.forall₂_same, hattributes,
        hoperands, holdsNaN_collection, -Prod.forall, -Prod.exists]

end Value

/-! ### Identities -/

section Renaming

variable (rename : NodeId → NodeId)

mutual

/-- Equality does not see identities. -/
theorem Value.equal_renamed :
    ∀ value other : Value, value.equal (other.renamed rename) = value.equal other
  | .none, other | .int _, other | .float _, other | .string _, other | .binary _, other
  | .error _, other => by cases other <;> simp [Value.renamed, Value.equal]
  | .list items, other => by
      cases other <;> simp [Value.renamed, Value.equal, equalItems_renamed items]
  | .dict entries, other => by
      cases other <;>
        simp [Value.renamed, Value.equal, equalEntries_renamed entries, length_renamedEntries]
  | .collection node, other => by
      cases other <;> simp [Value.renamed, Value.equal, Collection.equal_renamed node]

theorem Collection.equal_renamed :
    ∀ node other : Collection, node.equal (other.renamed rename) = node.equal other
  | .node _ _ attributes operands _, .node _ _ _ _ _ => by
      simp [Collection.renamed, Collection.equal, equalEntries_renamed attributes,
        equalOperands_renamed operands, length_renamedEntries]

theorem equalItems_renamed :
    ∀ items others : List Value,
      equalItems items (renamedItems rename others) = equalItems items others
  | [], others => by cases others <;> simp [renamedItems, equalItems]
  | item :: items, others => by
      cases others <;>
        simp [renamedItems, equalItems, Value.equal_renamed item, equalItems_renamed items]

theorem equalEntries_renamed :
    ∀ entries others : List (String × Value),
      equalEntries entries (renamedEntries rename others) = equalEntries entries others
  | [], _ => by simp [equalEntries]
  | (key, value) :: entries, others => by
      rw [equalEntries, equalEntries, Dict.find?_renamed, equalEntries_renamed entries]
      cases Dict.find? others key <;> simp [Value.equal_renamed value]

theorem equalOperands_renamed :
    ∀ operands others : List Collection,
      equalOperands operands (renamedOperands rename others) = equalOperands operands others
  | [], others => by cases others <;> simp [renamedOperands, equalOperands]
  | operand :: operands, others => by
      cases others <;>
        simp [renamedOperands, equalOperands, Collection.equal_renamed operand,
          equalOperands_renamed operands]

end

end Renaming

end MediaCatalog
