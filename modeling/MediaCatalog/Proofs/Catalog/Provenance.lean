import MediaCatalog.Proofs.Catalog.Saved

/-!
Where saved collections come from. A collection that can be read was put there by a save, under the
name where it is now or under one that it was renamed from since. Together with the finite map that
the store comes to, this is all that runs of writes can bring about.
-/

namespace MediaCatalog

/-! ### Moves -/

/-- Where an accepted write takes what is saved in a slot: nowhere if it replaces or removes it, to
the new name if it renames it. -/
def Slot.moved? (slot : Slot) : Store.Write → Option Slot
  | .save name space _ | .remove name space =>
    if Slot.of? space name = some slot then none else some slot
  | .rename name newName space =>
    if Slot.of? space name = some slot then Slot.of? space newName else some slot

/-- Where further writes take what is saved in a slot; those that fail leave it where it is. -/
def Store.carried? (store : Store) : List Write → Slot → Option Slot
  | [], slot => some slot
  | write :: rest, slot =>
    (if (store.write? write).isSome then slot.moved? write else some slot).bind
      ((store.after write).carried? rest)

namespace Saved

variable {saved saved' : Saved} {write : Store.Write}

/-- All that an accepted write can do to the map. -/
inductive Accepts (saved : Saved) : Store.Write → Saved → Prop where
  | save (slot : Slot) (node : Collection) :
      Accepts saved (.save slot.name slot.space node) (saved.insert slot node)
  | remove (slot : Slot) : Accepts saved (.remove slot.name slot.space) (saved.erase slot)
  | rename {slot target : Slot} {node : Collection} (hspace : target.space = slot.space)
      (hnode : saved.lookup slot = some node) (hfree : target ∉ saved) :
      Accepts saved (.rename slot.name target.name slot.space)
        ((saved.erase slot).insert target node)

theorem accepts_of_write? (h : saved.write? write = some saved') : saved.Accepts write saved' := by
  cases write with
  | save name space node =>
      obtain ⟨slot, hslot, hsaved⟩ := Option.bind_eq_some_iff.mp h
      obtain ⟨rfl, rfl⟩ := Slot.of?_eq_some_iff.mp hslot
      exact Option.some.inj hsaved ▸ .save slot node
  | remove name space =>
      obtain ⟨slot, hslot, hsaved⟩ := Option.bind_eq_some_iff.mp h
      obtain ⟨rfl, rfl⟩ := Slot.of?_eq_some_iff.mp hslot
      split at hsaved
      · exact Option.some.inj hsaved ▸ .remove slot
      · cases hsaved
  | rename name newName space =>
      obtain ⟨slot, hslot, hrest⟩ := Option.bind_eq_some_iff.mp h
      obtain ⟨target, htarget, hrest⟩ := Option.bind_eq_some_iff.mp hrest
      obtain ⟨node, hnode, hsaved⟩ := Option.bind_eq_some_iff.mp hrest
      obtain ⟨rfl, rfl⟩ := Slot.of?_eq_some_iff.mp hslot
      obtain ⟨hspace, rfl⟩ := Slot.of?_eq_some_iff.mp htarget
      split at hsaved
      · cases hsaved
      · next hfree => exact Option.some.inj hsaved ▸ .rename hspace hnode hfree

/-- After an accepted write a slot holds what was just saved there, or what the write took there. -/
theorem Accepts.lookup_iff (h : saved.Accepts write saved') (slot : Slot) (node : Collection) :
    saved'.lookup slot = some node ↔ write = .save slot.name slot.space node ∨
      ∃ origin, saved.lookup origin = some node ∧ origin.moved? write = some slot := by
  cases h with
  | save place saving =>
      have hsame : Store.Write.save place.name place.space saving =
          .save slot.name slot.space node ↔ slot = place ∧ saving = node := by
        rw [Store.Write.save.injEq, Slot.ext_iff]
        tauto
      have hmoved (origin : Slot) :
          origin.moved? (.save place.name place.space saving) = some slot ↔
            slot ≠ place ∧ origin = slot := by
        simp only [Slot.moved?, Slot.of?_self, Option.some.injEq]
        split <;> simp_all [eq_comm]
      rw [lookup_insert_eq, hsame]
      simp only [hmoved]
      by_cases hslot : slot = place <;> simp [hslot]
  | remove place =>
      have hmoved (origin : Slot) : origin.moved? (.remove place.name place.space) = some slot ↔
          slot ≠ place ∧ origin = slot := by
        simp only [Slot.moved?, Slot.of?_self, Option.some.injEq]
        split <;> simp_all [eq_comm]
      rw [lookup_erase_eq]
      simp only [hmoved]
      by_cases hslot : slot = place <;> simp [hslot]
  | @rename place target moving hspace hnode hfree =>
      have htarget : Slot.of? place.space target.name = some target := by
        rw [← hspace, Slot.of?_self]
      have hmoved (origin : Slot) :
          origin.moved? (.rename place.name target.name place.space) = some slot ↔
            origin = place ∧ slot = target ∨ slot ≠ place ∧ origin = slot := by
        simp only [Slot.moved?, Slot.of?_self, htarget, Option.some.injEq]
        rcases eq_or_ne origin place with rfl | horigin
        · simp [eq_comm]
        · rw [if_neg horigin.symm, Option.some.injEq]
          simp only [horigin, false_and, false_or]
          exact ⟨fun hsame => ⟨hsame ▸ horigin, hsame⟩, fun hboth => hboth.2⟩
      have hnone : saved.lookup target = none := Finmap.lookup_eq_none.mpr hfree
      rw [lookup_insert_eq, lookup_erase_eq]
      simp only [hmoved, reduceCtorEq, false_or, and_or_left, exists_or, exists_eq_right_right]
      by_cases hslot : slot = target
      · subst hslot
        simp [hnone, hnode]
      · simp [hslot, and_comm]

/-- Where a write takes a collection, accepted or not. -/
theorem lookup_after (saved : Saved) (write : Store.Write) (slot : Slot) (node : Collection) :
    (saved.after write).lookup slot = some node ↔ write = .save slot.name slot.space node ∨
      ∃ origin, saved.lookup origin = some node ∧
        (if (saved.write? write).isSome then origin.moved? write else some origin) = some slot := by
  rw [after]
  cases hwrite : saved.write? write with
  | some saved' => simpa using (accepts_of_write? hwrite).lookup_iff slot node
  | none =>
      have hother : write ≠ .save slot.name slot.space node := by
        rintro rfl
        rw [write?, Slot.of?_self] at hwrite
        cases hwrite
      simp [hother]

end Saved

/-! ### Runs -/

namespace Store

variable (store : Store)

theorem afterAll_append (writes later : List Write) :
    store.afterAll (writes ++ later) = (store.afterAll writes).afterAll later :=
  List.foldl_append

theorem carried?_append_singleton (writes : List Write) (write : Write) (slot : Slot) :
    store.carried? (writes ++ [write]) slot = (store.carried? writes slot).bind fun slot =>
      if ((store.afterAll writes).write? write).isSome then slot.moved? write else some slot := by
  induction writes generalizing store slot with
  | nil => exact Option.bind_fun_some _
  | cons first rest ih =>
      have htail : (store.after first).carried? (rest ++ [write]) = fun slot => _ := funext (ih _)
      rw [List.cons_append, carried?, htail, carried?, Option.bind_assoc]
      rfl

/-- The writes leave in a slot what one of them saved and the later ones took there. -/
theorem Represents.lookup_afterAll_iff {store : Store} {saved : Saved} (h : store.Represents saved)
    (hempty : ∀ slot, saved.lookup slot = none) (writes : List Write) (slot : Slot)
    (node : Collection) : (saved.afterAll writes).lookup slot = some node ↔
      ∃ earlier later origin, writes = earlier ++ .save origin.name origin.space node :: later ∧
        (store.afterAll (earlier ++ [.save origin.name origin.space node])).carried? later origin =
          some slot := by
  induction writes using List.reverseRecOn generalizing slot with
  | nil => simp [Saved.afterAll, hempty]
  | append_singleton writes write ih =>
      have hafter : saved.afterAll (writes ++ [write]) = (saved.afterAll writes).after write := by
        rw [Saved.afterAll, List.foldl_append]
        rfl
      have htail (earlier later : List Write) (origin : Slot)
          (hwrites : writes = earlier ++ .save origin.name origin.space node :: later) :
          (store.afterAll (earlier ++ [.save origin.name origin.space node])).afterAll later =
            store.afterAll writes := by
        rw [← afterAll_append, hwrites, List.append_assoc]
        rfl
      rw [hafter, Saved.lookup_after, (h.afterAll writes).isSome_write?]
      constructor
      · rintro (rfl | ⟨place, hplace, hmoved⟩)
        · exact ⟨writes, [], slot, rfl, rfl⟩
        · obtain ⟨earlier, later, origin, hwrites, hcarried⟩ := (ih place).mp hplace
          refine ⟨earlier, later ++ [write], origin, ?_, ?_⟩
          · rw [hwrites, List.append_assoc]
            rfl
          · rw [carried?_append_singleton, hcarried, htail earlier later origin hwrites]
            exact hmoved
      · rintro ⟨earlier, later, origin, hwrites, hcarried⟩
        rcases List.eq_nil_or_concat later with rfl | ⟨later, last, rfl⟩
        · obtain ⟨-, hlast⟩ := List.append_inj' hwrites rfl
          obtain rfl := Option.some.inj hcarried
          exact .inl (List.singleton_inj.mp hlast)
        · rw [List.concat_eq_append] at hwrites hcarried
          rw [← List.cons_append, ← List.append_assoc] at hwrites
          obtain ⟨hearlier, hlast⟩ := List.append_inj' hwrites rfl
          obtain rfl := List.singleton_inj.mp hlast
          rw [carried?_append_singleton, htail earlier later origin hearlier] at hcarried
          obtain ⟨place, hplace, hmoved⟩ := Option.bind_eq_some_iff.mp hcarried
          exact .inr ⟨place, (ih place).mpr ⟨earlier, later, origin, hearlier, hplace⟩, hmoved⟩

/-- Whatever was written from the beginning, the store reads as the finite map that accepted the
same writes, each of which it accepts exactly if the map does. In a slot there is what some save put
into one and all later writes together took here. -/
theorem afterAll_refines (writes : List Write) :
    (empty.afterAll writes).ReadsAs (Saved.afterAll ∅ writes) ∧
    (∀ write, (∃ result, (empty.afterAll writes).write write = .ok result) ↔
      ∃ saved, (Saved.afterAll ∅ writes).write? write = some saved) ∧
    ∀ (slot : Slot) (node : Collection),
      (empty.afterAll writes).get slot.name slot.space = .ok node ↔
        ∃ earlier later origin, writes = earlier ++ .save origin.name origin.space node :: later ∧
          (empty.afterAll (earlier ++ [.save origin.name origin.space node])).carried? later
            origin = some slot := by
  have hrepresents := Represents.empty.afterAll writes
  refine ⟨hrepresents.readsAs, fun write => ?_, fun slot node => ?_⟩
  · rw [← Option.isSome_iff_exists, hrepresents.isSome_write?, write?]
    cases (empty.afterAll writes).write write <;> simp [Except.toOption]
  · rw [hrepresents.readsAs.get]
    exact Represents.empty.lookup_afterAll_iff (fun _ => Finmap.lookup_empty _) writes slot node

end Store

end MediaCatalog
