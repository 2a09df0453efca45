import Mathlib.Algebra.Group.Pi.Basic
import Mathlib.Data.Finset.Card
import Mathlib.Data.Finset.Dedup
import Mathlib.Data.String.Basic
import MediaCatalog.Object.Space

/-!
References to objects. The number that an object keeps is that of the handles that name it and of
the references that are held besides, and it is gone as soon as there are none. What takes a
reference or gives one back keeps the balance; only what gives one back can lose an object, and then
it is the one that the reference was to.
-/

namespace MediaCatalog

/-- What is noted when an object is disposed of. -/
def LiveObject.disposal (live : LiveObject) : Option String :=
  if live.noted then some live.tables.name else none

/-- The object whose disposal an event tells of. -/
def ObjectEvent.disposed? : ObjectEvent → Option String
  | disposed object => some object
  | _ => none

namespace ObjectSpace

/-- The disposals that were noted, the oldest first. -/
def disposals (space : ObjectSpace) : List String := space.trace.filterMap ObjectEvent.disposed?

/-- The names of the handles of an object. -/
def handlesOf (space : ObjectSpace) (object : ObjectId) : Finset String :=
  {name ∈ space.handles.keys.toFinset | space.handles[name]? = some object}

/-- The references to an object: those of its handles, and what is held besides. -/
def references (space : ObjectSpace) (held : ObjectId → Nat) (object : ObjectId) : Nat :=
  (space.handlesOf object).card + held object

/-- The number that each object keeps is that of the references to it, and objects without any are
gone. None is there before its time. -/
structure Balanced (space : ObjectSpace) (held : ObjectId → Nat) : Prop where
  counted : ∀ object, (space.objects[object]?).map LiveObject.references =
    if space.references held object = 0 then none else some (space.references held object)
  fresh : ∀ object, space.nextObject ≤ object → space.references held object = 0

/-- One reference to an object. -/
def single (object : ObjectId) : ObjectId → Nat := fun other => if object = other then 1 else 0

/-! ### Handles -/

section Handles

variable (space : ObjectSpace) (handle : String) (object other : ObjectId)

variable {space handle object} in
theorem mem_handlesOf : handle ∈ space.handlesOf object ↔ space.handles[handle]? = some object := by
  rw [handlesOf, Finset.mem_filter, List.mem_toFinset, Std.TreeMap.mem_keys]
  refine ⟨And.right, fun h => ⟨?_, h⟩⟩
  exact Std.TreeMap.mem_iff_isSome_getElem?.mpr (h ▸ rfl)

theorem handlesOf_insert :
    handlesOf { space with handles := space.handles.insert handle object } other =
      if object = other then insert handle (space.handlesOf other)
      else (space.handlesOf other).erase handle := by
  ext name
  rw [mem_handlesOf, Std.TreeMap.getElem?_insert]
  simp only [Std.LawfulEqCmp.compare_eq_iff_eq]
  by_cases hsame : object = other
  · rw [if_pos hsame, Finset.mem_insert, mem_handlesOf, hsame]
    by_cases hname : handle = name
    · simp [hname]
    · simp [hname, Ne.symm hname]
  · rw [if_neg hsame, Finset.mem_erase, mem_handlesOf]
    by_cases hname : handle = name
    · simp [hname, hsame]
    · simp [hname, Ne.symm hname]

theorem handlesOf_erase :
    handlesOf { space with handles := space.handles.erase handle } other =
      (space.handlesOf other).erase handle := by
  ext name
  rw [mem_handlesOf, Std.TreeMap.getElem?_erase, Finset.mem_erase, mem_handlesOf]
  simp only [Std.LawfulEqCmp.compare_eq_iff_eq]
  by_cases hname : handle = name
  · simp [hname]
  · simp [hname, Ne.symm hname]

variable {space object} in
theorem handlesOf_congr {space' : ObjectSpace} (h : space'.handles = space.handles) :
    space'.handlesOf object = space.handlesOf object := by
  rw [handlesOf, handlesOf, h]

variable {space handle object} in
/-- A handle that is taken away gives its reference back. -/
theorem card_handlesOf_erase (hnamed : space.handles[handle]? = some object) :
    (handlesOf { space with handles := space.handles.erase handle } other).card +
      single object other = (space.handlesOf other).card := by
  rw [handlesOf_erase, single]
  split
  · next hsame =>
    subst hsame
    exact Finset.card_erase_add_one (mem_handlesOf.mpr hnamed)
  · next hother =>
    have hnot : handle ∉ space.handlesOf other := fun hmem =>
      hother (Option.some.inj (hnamed.symm.trans (mem_handlesOf.mp hmem)))
    rw [Finset.erase_eq_of_notMem hnot, Nat.add_zero]

/-- What a handle named before gets its reference back. -/
theorem card_handlesOf_insert :
    (handlesOf { space with handles := space.handles.insert handle object } other).card +
        (space.handles[handle]?).elim 0 (single · other) =
      (space.handlesOf other).card + single object other := by
  have hold : (space.handles[handle]?).elim 0 (single · other) =
      if handle ∈ space.handlesOf other then 1 else 0 := by
    simp only [mem_handlesOf]
    cases space.handles[handle]? with
    | none => rfl
    | some old => simp only [Option.elim, single, Option.some.injEq]
  rw [hold, handlesOf_insert, single]
  by_cases hsame : object = other
  · rw [if_pos hsame, if_pos hsame]
    split
    · next hmem => rw [Finset.insert_eq_of_mem hmem]
    · next hnot => rw [Finset.card_insert_of_notMem hnot, Nat.add_zero]
  · rw [if_neg hsame, if_neg hsame]
    split
    · next hmem => rw [Finset.card_erase_add_one hmem, Nat.add_zero]
    · next hnot => rw [Finset.erase_eq_of_notMem hnot]

end Handles

/-! ### The balance -/

theorem references_add (space : ObjectSpace) (held : ObjectId → Nat) (object other : ObjectId) :
    space.references (held + single object) other =
      space.references held other + single object other :=
  (Nat.add_assoc _ _ _).symm

theorem single_self (object : ObjectId) : single object object = 1 := if_pos rfl

section Release

variable (space : ObjectSpace) (object : ObjectId)

theorem release_handles : (space.release object).handles = space.handles := by
  rw [release]
  split
  · rfl
  · split
    · rfl
    · dsimp only
      split <;> rfl

theorem release_nextObject : (space.release object).nextObject = space.nextObject := by
  rw [release]
  split
  · rfl
  · split
    · rfl
    · dsimp only
      split <;> rfl

variable {space object} {live : LiveObject} (hlive : space.objects[object]? = some live)
include hlive

theorem getElem?_release (other : ObjectId) : (space.release object).objects[other]? =
    if object = other then
      if 1 < live.references then some { live with references := live.references - 1 } else none
    else space.objects[other]? := by
  simp only [release, hlive]
  split
  · simp only [Std.TreeMap.getElem?_insert, Std.LawfulEqCmp.compare_eq_iff_eq]
  · have herased : (space.objects.erase object)[other]? =
        if object = other then none else space.objects[other]? := by
      simp only [Std.TreeMap.getElem?_erase, Std.LawfulEqCmp.compare_eq_iff_eq]
    split
    · exact herased
    · exact herased

theorem release_disposals : (space.release object).disposals =
    space.disposals ++ if 1 < live.references then [] else live.disposal.toList := by
  simp only [release, hlive]
  split
  · exact (List.append_nil _).symm
  · rw [LiveObject.disposal]
    split
    · exact List.filterMap_append
    · exact (List.append_nil _).symm

end Release

theorem getElem?_setHandle (space : ObjectSpace) (handle : String) (object : ObjectId) :
    (space.setHandle handle object).handles[handle]? = some object := by
  rw [setHandle]
  cases space.handles[handle]? with
  | none => exact Std.TreeMap.getElem?_insert_self
  | some old =>
      dsimp only
      rw [release_handles]
      exact Std.TreeMap.getElem?_insert_self

namespace Balanced

variable {space space' : ObjectSpace} {held : ObjectId → Nat} {object : ObjectId}

theorem empty : ({} : ObjectSpace).Balanced fun _ => 0 := by
  have hnone (object : ObjectId) : ({} : ObjectSpace).references (fun _ => 0) object = 0 := by
    have hcard : (({} : ObjectSpace).handlesOf object).card = 0 := by
      refine Finset.card_eq_zero.mpr (Finset.eq_empty_iff_forall_notMem.mpr fun name hname => ?_)
      cases mem_handlesOf.mp hname
    rw [references, hcard]
  refine ⟨fun object => ?_, fun object _ => hnone object⟩
  rw [if_pos (hnone object)]
  rfl

variable (h : space.Balanced held)
include h

/-- Handles, numbers of references and the next object are all that matters. -/
theorem congr (hhandles : space'.handles = space.handles)
    (hnext : space'.nextObject = space.nextObject)
    (hobjects : ∀ object : ObjectId, (space'.objects[object]?).map LiveObject.references =
      (space.objects[object]?).map LiveObject.references) : space'.Balanced held := by
  have hsame (object : ObjectId) :
      space'.references held object = space.references held object := by
    rw [references, references, handlesOf_congr hhandles]
  refine ⟨fun object => ?_, fun object hle => ?_⟩
  · rw [hobjects, hsame, h.counted]
  · rw [hsame]
    exact h.fresh object (hnext ▸ hle)

theorem references_eq {live : LiveObject} (hlive : space.objects[object]? = some live) :
    live.references = space.references held object ∧ 0 < live.references := by
  have hcounted := h.counted object
  rw [hlive] at hcounted
  split at hcounted
  · cases hcounted
  · next hpos =>
    have hsame : live.references = space.references held object := Option.some.inj hcounted
    omega

theorem exists_live (hpos : 0 < space.references held object) :
    ∃ live, space.objects[object]? = some live := by
  have hcounted := h.counted object
  rw [if_neg (by omega)] at hcounted
  obtain ⟨live, hlive, -⟩ := Option.map_eq_some_iff.mp hcounted
  exact ⟨live, hlive⟩

theorem exists_live_of_named {handle : String} (hnamed : space.handles[handle]? = some object) :
    ∃ live, space.objects[object]? = some live :=
  h.exists_live (Nat.add_pos_left (Finset.card_pos.mpr ⟨handle, mem_handlesOf.mpr hnamed⟩) _)

theorem lt_nextObject {live : LiveObject} (hlive : space.objects[object]? = some live) :
    object < space.nextObject := by
  by_contra hge
  have hnone := h.fresh object (Nat.le_of_not_lt hge)
  have hpos := h.references_eq hlive
  omega

theorem retain {live : LiveObject} (hlive : space.objects[object]? = some live) :
    (space.retain object).Balanced (held + single object) := by
  have hreferences (other : ObjectId) :
      (space.retain object).references (held + single object) other =
        space.references held other + single object other := space.references_add held object other
  refine ⟨fun other => ?_, fun other hle => ?_⟩
  · rw [hreferences, ObjectSpace.retain, Std.TreeMap.getElem?_modify, single]
    simp only [Std.LawfulEqCmp.compare_eq_iff_eq]
    split
    · next hsame =>
      subst hsame
      rw [hlive, if_neg (by omega), (h.references_eq hlive).1.symm]
      rfl
    · exact h.counted other
  · rw [hreferences, h.fresh other hle, single]
    have hother : object ≠ other := by
      rintro rfl
      exact absurd (h.lt_nextObject hlive) (Nat.not_lt.mpr hle)
    rw [if_neg hother]

omit h in
/-- A reference that is given back, and the object with the last one. -/
theorem release (h : space.Balanced (held + single object)) :
    (space.release object).Balanced held := by
  have hreferences (other : ObjectId) : space.references (held + single object) other =
      (space.release object).references held other + single object other := by
    rw [references_add, references, references, handlesOf_congr (release_handles space object)]
  have hobject := hreferences object
  rw [single_self] at hobject
  have hpos : 0 < space.references (held + single object) object := by omega
  obtain ⟨live, hlive⟩ := h.exists_live hpos
  have hlast := (h.references_eq hlive).1
  refine ⟨fun other => ?_, fun other hle => ?_⟩
  · rw [getElem?_release hlive]
    split
    · next hsame =>
      subst hsame
      split
      · rw [if_neg (by omega)]
        exact congrArg some (by dsimp only; omega)
      · rw [if_pos (by omega)]
        rfl
    · next hother =>
      rw [h.counted, hreferences, single, if_neg hother, Nat.add_zero]
  · have hnone := h.fresh other (release_nextObject space object ▸ hle)
    have hsum := hreferences other
    omega

omit h in
/-- A handle takes over a reference, and leaves that to what it named before. -/
theorem insertHandle (h : space.Balanced (held + single object)) (handle : String) :
    { space with handles := space.handles.insert handle object }.Balanced
      (held + fun other => (space.handles[handle]?).elim 0 (single · other)) := by
  have hreferences (other : ObjectId) :
      ObjectSpace.references { space with handles := space.handles.insert handle object }
        (held + fun other => (space.handles[handle]?).elim 0 (single · other)) other =
        space.references (held + single object) other := by
    have hcard := space.card_handlesOf_insert handle object other
    rw [references, references]
    simp only [Pi.add_apply]
    omega
  exact ⟨fun other => by rw [hreferences]; exact h.counted other,
    fun other hle => by rw [hreferences]; exact h.fresh other hle⟩

omit h in
theorem setHandle (h : space.Balanced (held + single object)) (handle : String) :
    (space.setHandle handle object).Balanced held := by
  have hnamed := h.insertHandle handle
  rw [ObjectSpace.setHandle]
  cases hold : space.handles[handle]? with
  | none =>
      rw [hold] at hnamed
      exact hnamed
  | some old =>
      rw [hold] at hnamed
      exact hnamed.release

/-- A handle that is taken away leaves its reference to whoever took it. -/
theorem eraseHandle {handle : String} (hnamed : space.handles[handle]? = some object) :
    { space with handles := space.handles.erase handle }.Balanced (held + single object) := by
  have hreferences (other : ObjectId) :
      ObjectSpace.references { space with handles := space.handles.erase handle }
        (held + single object) other = space.references held other := by
    have hcard := card_handlesOf_erase other hnamed
    rw [references, references]
    simp only [Pi.add_apply]
    omega
  exact ⟨fun other => by rw [hreferences]; exact h.counted other,
    fun other hle => by rw [hreferences]; exact h.fresh other hle⟩

end Balanced

/-! ### Turns -/

/-- What becomes of the objects from one time to a later one, in which at most one is lost. Names
stay, what was gone stays gone, and what was made meanwhile is there. The disposal of the lost
object is noted, if it is one to be noted, and nothing else is. -/
structure Turn (lost : Option ObjectId) (before after : ObjectSpace) : Prop where
  nextObject : before.nextObject ≤ after.nextObject
  gone : ∀ object < before.nextObject, before.objects[object]? = none →
    after.objects[object]? = none
  stays : ∀ (object : ObjectId) live, before.objects[object]? = some live → lost ≠ some object →
    ∃ later, after.objects[object]? = some later ∧ later.disposal = live.disposal
  made : ∀ object, before.nextObject ≤ object → object < after.nextObject →
    ∃ live, after.objects[object]? = some live
  loses : ∀ object, lost = some object → object < before.nextObject ∧
    (∃ live, before.objects[object]? = some live) ∧ after.objects[object]? = none
  disposals : after.disposals = before.disposals ++
    ((lost.bind (before.objects[·]?)).bind LiveObject.disposal).toList

namespace Turn

variable {before middle after : ObjectSpace} {lost : Option ObjectId}

/-- Nothing is lost or made. -/
theorem of_same (hnext : after.nextObject = before.nextObject)
    (hobjects : ∀ object : ObjectId, (after.objects[object]?).map LiveObject.disposal =
      (before.objects[object]?).map LiveObject.disposal)
    (hdisposals : after.disposals = before.disposals) : Turn none before after where
  nextObject := Nat.le_of_eq hnext.symm
  gone object _ hnone := by
    have hsame := hobjects object
    rw [hnone] at hsame
    exact Option.map_eq_none_iff.mp hsame
  stays object live hlive _ := by
    have hsame := hobjects object
    rw [hlive] at hsame
    exact Option.map_eq_some_iff.mp hsame
  made object hle hlt := absurd hlt (Nat.not_lt.mpr (hnext ▸ hle))
  loses _ h := nomatch h
  disposals := by rw [hdisposals]; exact (List.append_nil _).symm

theorem refl (space : ObjectSpace) : Turn none space space := of_same rfl (fun _ => rfl) rfl

/-- An object that is lost after a turn in which none was. -/
theorem trans (h : Turn none before middle) (h' : Turn lost middle after)
    (hold : ∀ object, lost = some object → object < before.nextObject) :
    Turn lost before after where
  nextObject := Nat.le_trans h.nextObject h'.nextObject
  gone object hlt hnone :=
    h'.gone object (Nat.lt_of_lt_of_le hlt h.nextObject) (h.gone object hlt hnone)
  stays object live hlive hkept := by
    obtain ⟨later, hlater, hsame⟩ := h.stays object live hlive nofun
    obtain ⟨last, hlast, hsame'⟩ := h'.stays object later hlater hkept
    exact ⟨last, hlast, hsame'.trans hsame⟩
  made object hle hlt := by
    by_cases hmade : object < middle.nextObject
    · obtain ⟨live, hlive⟩ := h.made object hle hmade
      have hkept : lost ≠ some object := fun hlost =>
        absurd (hold object hlost) (Nat.not_lt.mpr hle)
      obtain ⟨later, hlater, -⟩ := h'.stays object live hlive hkept
      exact ⟨later, hlater⟩
    · exact h'.made object (Nat.le_of_not_lt hmade) hlt
  loses object hlost := by
    obtain ⟨-, ⟨later, hlater⟩, hgone⟩ := h'.loses object hlost
    refine ⟨hold object hlost, ?_, hgone⟩
    cases hlive : before.objects[object]? with
    | none => exact nomatch (h.gone object (hold object hlost) hlive).symm.trans hlater
    | some live => exact ⟨live, rfl⟩
  disposals := by
    rw [h'.disposals, h.disposals, List.append_assoc]
    congr 1
    cases lost with
    | none => rfl
    | some object =>
        obtain ⟨-, ⟨later, hlater⟩, -⟩ := h'.loses object rfl
        cases hlive : before.objects[object]? with
        | none => exact nomatch (h.gone object (hold object rfl) hlive).symm.trans hlater
        | some live =>
            obtain ⟨found, hfound, hsame⟩ := h.stays object live hlive nofun
            simp only [Option.bind_some, Option.bind_none, Option.toList_none, List.nil_append,
              hfound, hlive, hsame]

/-- Nothing was made in the first of the two. -/
theorem trans_same (h : Turn none before middle) (hnext : middle.nextObject = before.nextObject)
    (h' : Turn lost middle after) : Turn lost before after :=
  h.trans h' fun object hlost => hnext ▸ (h'.loses object hlost).1

/-- An object that is lost before a turn in which none is. -/
theorem trans_none (h : Turn lost before middle) (h' : Turn none middle after) :
    Turn lost before after where
  nextObject := Nat.le_trans h.nextObject h'.nextObject
  gone object hlt hnone :=
    h'.gone object (Nat.lt_of_lt_of_le hlt h.nextObject) (h.gone object hlt hnone)
  stays object live hlive hkept := by
    obtain ⟨later, hlater, hsame⟩ := h.stays object live hlive hkept
    obtain ⟨last, hlast, hsame'⟩ := h'.stays object later hlater nofun
    exact ⟨last, hlast, hsame'.trans hsame⟩
  made object hle hlt := by
    by_cases hmade : object < middle.nextObject
    · obtain ⟨live, hlive⟩ := h.made object hle hmade
      obtain ⟨later, hlater, -⟩ := h'.stays object live hlive nofun
      exact ⟨later, hlater⟩
    · exact h'.made object (Nat.le_of_not_lt hmade) hlt
  loses object hlost := by
    obtain ⟨hlt, hlive, hgone⟩ := h.loses object hlost
    exact ⟨hlt, hlive, h'.gone object (Nat.lt_of_lt_of_le hlt h.nextObject) hgone⟩
  disposals := by rw [h'.disposals, h.disposals]; exact List.append_nil _

end Turn

section Turns

variable {space : ObjectSpace} {held : ObjectId → Nat} {object : ObjectId}

theorem turn_retain (space : ObjectSpace) (object : ObjectId) :
    Turn none space (space.retain object) := by
  refine .of_same rfl (fun other => ?_) rfl
  rw [retain, Std.TreeMap.getElem?_modify]
  split
  · next hsame =>
    rw [Std.LawfulEqCmp.eq_of_compare hsame]
    cases space.objects[other]? <;> rfl
  · rfl

/-- Only the object to which a reference is given back can be lost, and it is with the last one. -/
theorem Balanced.turn_release (h : space.Balanced held) (object : ObjectId) :
    ∃ lost, (∀ other, lost = some other → object = other) ∧
      Turn lost space (space.release object) := by
  have hnext := release_nextObject space object
  cases hlive : space.objects[object]? with
  | none =>
      have hsame : space.release object = space := by simp only [ObjectSpace.release, hlive]
      rw [hsame]
      exact ⟨none, nofun, .refl space⟩
  | some live =>
      by_cases hmore : 1 < live.references
      · refine ⟨none, nofun, .of_same hnext (fun other => ?_) ?_⟩
        · rw [getElem?_release hlive, if_pos hmore]
          split
          · next hsame =>
            subst hsame
            rw [hlive]
            rfl
          · rfl
        · rw [release_disposals hlive, if_pos hmore, List.append_nil]
      · refine ⟨some object, fun _ => Option.some.inj, ?_⟩
        have hobjects (other : ObjectId) : (space.release object).objects[other]? =
            if object = other then none else space.objects[other]? := by
          rw [getElem?_release hlive, if_neg hmore]
        refine ⟨Nat.le_of_eq hnext.symm, fun other _ hnone => ?_,
          fun other found hfound hkept => ?_,
          fun other hle hlt => absurd hlt (Nat.not_lt.mpr (hnext ▸ hle)), ?_, ?_⟩
        · rw [hobjects, hnone, ite_self]
        · have hother : object ≠ other := fun hsame => hkept (congrArg some hsame)
          exact ⟨found, by rw [hobjects, if_neg hother, hfound], rfl⟩
        · rintro other hother
          obtain rfl := Option.some.inj hother
          exact ⟨h.lt_nextObject hlive, ⟨live, hlive⟩, by rw [hobjects, if_pos rfl]⟩
        · rw [release_disposals hlive, if_neg hmore, Option.bind_some, hlive, Option.bind_some]

/-- Whatever a handle named before may be lost when it names another object. -/
theorem Balanced.turn_setHandle (h : space.Balanced (held + single object)) (handle : String) :
    ∃ lost, (∀ other, lost = some other → space.handles[handle]? = some other) ∧
      Turn lost space (space.setHandle handle object) := by
  have hnamed := h.insertHandle handle
  have hsame : Turn none space { space with handles := space.handles.insert handle object } :=
    .of_same rfl (fun _ => rfl) rfl
  rw [ObjectSpace.setHandle]
  cases hold : space.handles[handle]? with
  | none => exact ⟨none, nofun, hsame⟩
  | some old =>
      obtain ⟨lost, hlost, hturn⟩ := hnamed.turn_release old
      exact ⟨lost, fun other hother => congrArg some (hlost other hother),
        hsame.trans_same rfl hturn⟩

/-- A handle comes to name an object that is there. -/
theorem Balanced.bind {live : LiveObject} (h : space.Balanced held)
    (hlive : space.objects[object]? = some live) (handle : String) :
    ((space.retain object).setHandle handle object).Balanced held ∧
      ∃ lost, Turn lost space ((space.retain object).setHandle handle object) := by
  have hretained := h.retain hlive
  obtain ⟨lost, -, hturn⟩ := hretained.turn_setHandle handle
  exact ⟨hretained.setHandle handle, lost, (turn_retain space object).trans_same rfl hturn⟩

/-- A handle that is dropped. -/
theorem Balanced.drop {handle : String} (h : space.Balanced held)
    (hnamed : space.handles[handle]? = some object) :
    ({ space with handles := space.handles.erase handle }.release object).Balanced held ∧
      ∃ lost, Turn lost space
        ({ space with handles := space.handles.erase handle }.release object) := by
  have herased := h.eraseHandle hnamed
  have hsame : Turn none space { space with handles := space.handles.erase handle } :=
    .of_same rfl (fun _ => rfl) rfl
  obtain ⟨lost, -, hturn⟩ := herased.turn_release object
  exact ⟨herased.release, lost, hsame.trans_same rfl hturn⟩

/-- The objects with one more, which no handle names yet. -/
def withNew (space : ObjectSpace) (name : String) (noted : Bool) : ObjectSpace :=
  { space with
    objects := space.objects.insert space.nextObject { tables := { name }, references := 1, noted }
    nextObject := space.nextObject + 1 }

theorem getElem?_withNew (space : ObjectSpace) (name : String) (noted : Bool) (other : ObjectId) :
    (space.withNew name noted).objects[other]? =
      if space.nextObject = other then some { tables := { name }, references := 1, noted }
      else space.objects[other]? := by
  simp only [withNew, Std.TreeMap.getElem?_insert, Std.LawfulEqCmp.compare_eq_iff_eq]

theorem Balanced.withNew (h : space.Balanced held) (name : String) (noted : Bool) :
    (space.withNew name noted).Balanced (held + single space.nextObject) := by
  have hreferences (other : ObjectId) :
      (space.withNew name noted).references (held + single space.nextObject) other =
        space.references held other + single space.nextObject other :=
    references_add space held space.nextObject other
  refine ⟨fun other => ?_, fun other hle => ?_⟩
  · rw [getElem?_withNew, hreferences, single]
    split
    · next hsame =>
      subst hsame
      rw [h.fresh _ (Nat.le_refl _)]
      rfl
    · exact h.counted other
  · have hlt : space.nextObject < other := hle
    rw [hreferences, h.fresh other hlt.le, single, if_neg hlt.ne]

theorem Balanced.turn_withNew (h : space.Balanced held) (name : String) (noted : Bool) :
    Turn none space (space.withNew name noted) := by
  refine ⟨Nat.le_succ _, fun other hlt hgone => ?_, fun other live hlive _ => ⟨live, ?_, rfl⟩,
    fun other hle hlt => ?_, nofun, (List.append_nil _).symm⟩
  · rw [getElem?_withNew, if_neg hlt.ne', hgone]
  · rw [getElem?_withNew, if_neg (h.lt_nextObject hlive).ne', hlive]
  · have hsame : space.nextObject = other := Nat.le_antisymm hle (Nat.le_of_lt_succ hlt)
    exact ⟨_, by rw [getElem?_withNew, if_pos hsame]⟩

/-- An object that is created has the reference of its handle. -/
theorem Balanced.create (h : space.Balanced held) (handle name : String) (noted : Bool) :
    (space.create handle name noted).Balanced held ∧
      ∃ lost, Turn lost space (space.create handle name noted) := by
  have hnew := h.withNew name noted
  obtain ⟨lost, hnamed, hlost⟩ := hnew.turn_setHandle handle
  refine ⟨hnew.setHandle handle, lost,
    (h.turn_withNew name noted).trans hlost fun other hother => ?_⟩
  -- What the handle named before is older.
  obtain ⟨live, hlive⟩ := h.exists_live_of_named (hnamed other hother)
  exact h.lt_nextObject hlive

end Turns

end ObjectSpace

end MediaCatalog
