import MediaCatalog.Proofs.Object.Quiet
import MediaCatalog.Proofs.Object.References

/-!
References in calm actions. Actions that make no handler react keep the balance of references, and
lose one object at the most. Most of them give back what they took and leave handles and numbers of
references as they were; only those that create an object, drop a handle or let one name another
object do more.
-/

namespace MediaCatalog

/-! ### What stays as it was -/

/-- What the account of references knows of an object. -/
def LiveObject.standing (live : LiveObject) : Nat × Option String :=
  (live.references, live.disposal)

namespace ObjectSpace

/-- Handles and references are as they were, and nothing was disposed of. -/
structure Steady (before after : ObjectSpace) : Prop where
  nextObject : after.nextObject = before.nextObject
  handles : after.handles = before.handles
  disposals : after.disposals = before.disposals
  objects : ∀ object : ObjectId, (after.objects[object]?).map LiveObject.standing =
    (before.objects[object]?).map LiveObject.standing

namespace Steady

variable {space before after : ObjectSpace} {object : ObjectId} {live : LiveObject}
  {held : ObjectId → Nat}

theorem refl (space : ObjectSpace) : space.Steady space := ⟨rfl, rfl, rfl, fun _ => rfl⟩

theorem balanced (h : before.Steady after) (hbalanced : before.Balanced held) :
    after.Balanced held := by
  refine hbalanced.congr h.handles h.nextObject fun object => ?_
  have hsame := congrArg (Option.map Prod.fst) (h.objects object)
  rw [Option.map_map, Option.map_map] at hsame
  exact hsame

theorem turn (h : before.Steady after) : Turn none before after := by
  refine .of_same h.nextObject (fun object => ?_) h.disposals
  have hsame := congrArg (Option.map Prod.snd) (h.objects object)
  rw [Option.map_map, Option.map_map] at hsame
  exact hsame

theorem note (space : ObjectSpace) {event : ObjectEvent} (h : event.disposed? = none) :
    space.Steady (space.note event) := by
  refine ⟨rfl, rfl, ?_, fun _ => rfl⟩
  show (space.trace ++ [event]).filterMap ObjectEvent.disposed? = space.disposals
  rw [List.filterMap_append, List.filterMap_cons_none h]
  exact List.append_nil _

/-- The tables of an object are replaced by others of the same name. -/
theorem setTables (hlive : space.objects[object]? = some live) {tables : ObjectTables}
    (hname : tables.name = live.tables.name) : space.Steady (space.setTables object tables) := by
  refine ⟨rfl, rfl, rfl, fun other => ?_⟩
  rw [ObjectSpace.setTables, Std.TreeMap.getElem?_modify]
  split
  · next hsame =>
    obtain rfl := Std.LawfulEqCmp.eq_of_compare hsame
    rw [hlive]
    simp only [Option.map_some, LiveObject.standing, LiveObject.disposal, hname]
  · rfl

/-- What happens while a reference to an object is held leaves everything as it was if it does so
apart from this. -/
theorem release (hlive : space.objects[object]? = some live) (hpos : 0 < live.references)
    (h : (space.retain object).Steady after) : space.Steady (after.release object) := by
  obtain ⟨found, hfound, hstanding⟩ : ∃ found, after.objects[object]? = some found ∧
      found.standing = (live.references + 1, live.disposal) := by
    have hsame := h.objects object
    rw [getElem?_retain hlive] at hsame
    exact Option.map_eq_some_iff.mp hsame
  have hmore : found.references = live.references + 1 := congrArg Prod.fst hstanding
  have hlast : 1 < found.references := by omega
  refine ⟨(release_nextObject after object).trans h.nextObject,
    (release_handles after object).trans h.handles, ?_, fun other => ?_⟩
  · rw [release_disposals hfound, if_pos hlast, List.append_nil]
    exact h.disposals
  · rw [getElem?_release hfound, if_pos hlast]
    split
    · next hsame =>
      subst hsame
      rw [hlive, Option.map_some, Option.map_some, LiveObject.standing, hmore]
      exact congrArg (fun disposal => some (live.references, disposal))
        (congrArg Prod.snd hstanding)
    · next hother =>
      rw [h.objects, retain, Std.TreeMap.getElem?_modify]
      simp only [Std.LawfulEqCmp.compare_eq_iff_eq, if_neg hother]

theorem retain_release (h : space.Balanced held) (object : ObjectId) :
    space.Steady ((space.retain object).release object) := by
  cases hlive : space.objects[object]? with
  | none =>
      have hsame (other : ObjectId) : (space.retain object).objects[other]? =
          space.objects[other]? := by
        rw [retain, Std.TreeMap.getElem?_modify]
        split
        · next hother =>
          obtain rfl := Std.LawfulEqCmp.eq_of_compare hother
          rw [hlive]
          rfl
        · rfl
      have hnothing : (space.retain object).release object = space.retain object := by
        simp only [ObjectSpace.release, hsame, hlive]
      rw [hnothing]
      exact ⟨rfl, rfl, rfl, fun other => by rw [hsame]⟩
  | some live => exact .release hlive (h.references_eq hlive).2 (.refl _)

end Steady

end ObjectSpace

/-! ### Tables keep their names -/

namespace Registry

variable {κ η γ : Type} {registry changed : Registry κ η γ}

theorem name_of_register [DecidableEq κ] {command : UInt32} {handler : κ}
    (h : registry.register command handler = .ok changed) : changed.name = registry.name := by
  rw [register] at h
  split at h
  · obtain rfl := Except.ok.inj h
    rfl
  · split at h
    · obtain rfl := Except.ok.inj h
      rfl
    · cases h

theorem name_of_removeFirst? {signal : UInt32} {test : Listener η γ → Bool}
    (h : registry.removeFirst? signal test = some changed) : changed.name = registry.name := by
  rw [removeFirst?] at h
  split at h
  · obtain rfl := Option.some.inj h
    rfl
  · cases h

theorem name_of_disconnect [DecidableEq η] [DecidableEq γ] {signal : UInt32} {handler : η}
    {context : Option γ} (h : registry.disconnect signal handler context = .ok changed) :
    changed.name = registry.name := by
  rw [disconnect] at h
  split at h
  · next hremove =>
    obtain rfl := Except.ok.inj h
    exact name_of_removeFirst? hremove
  · cases h

theorem name_of_unsubscribe {subscription : Subscription}
    (h : registry.unsubscribe subscription = .ok changed) : changed.name = registry.name := by
  rw [unsubscribe] at h
  split at h
  · next hremove =>
    obtain rfl := Except.ok.inj h
    exact name_of_removeFirst? hremove
  · cases h

end Registry

/-! ### Runs -/

namespace Run

variable {α : Type}

/-- A run that leaves handles and references as they were. -/
def Steadies (body : Run α) : Prop :=
  ∀ (space : ObjectSpace) held, space.Balanced held → space.Steady (objectsAfter (body space))

/-- A run that keeps the balance and loses one object at the most. -/
def Careful (body : Run α) : Prop :=
  ∀ (space : ObjectSpace) held, space.Balanced held →
    (objectsAfter (body space)).Balanced held ∧
      ∃ lost, ObjectSpace.Turn lost space (objectsAfter (body space))

theorem Steadies.careful {body : Run α} (h : Steadies body) : Careful body :=
  fun space held hbalanced =>
    have hsteady := h space held hbalanced
    ⟨hsteady.balanced hbalanced, none, hsteady.turn⟩

theorem steadies_note {event : ObjectEvent} (h : event.disposed? = none) : Steadies (note event) :=
  fun space _ _ => .note space h

theorem objectsAfter_holding (object : ObjectId) (body : Run α) (space : ObjectSpace) :
    objectsAfter (holding object body space) =
      (objectsAfter (body (space.retain object))).release object := by
  rw [holding]
  cases body (space.retain object) <;> rfl

theorem Steadies.onObject (self : Option ObjectId) (handle : String)
    {body : ObjectId → ObjectTables → Run ActionAnswer}
    (h : ∀ object live (space : ObjectSpace) held, space.Balanced held →
      space.objects[object]? = some live →
        space.Steady (objectsAfter (body object live.tables space))) :
    Steadies (onObject self handle body) := by
  intro space held hbalanced
  rw [Run.onObject, get_bind_apply]
  cases space.lookup? self handle with
  | none => exact .refl space
  | some object =>
      dsimp only
      cases hlive : space.objects[object]? with
      | none => exact .refl space
      | some live =>
          dsimp only
          rw [objectsAfter_holding]
          exact .release hlive (hbalanced.references_eq hlive).2
            (h object { live with references := live.references + 1 } _ _
              (hbalanced.retain hlive) (ObjectSpace.getElem?_retain hlive))

theorem steady_change {space : ObjectSpace} {object : ObjectId} {live : LiveObject}
    (hlive : space.objects[object]? = some live) {tables : Except Error ObjectTables}
    (h : ∀ changed, tables = .ok changed → changed.name = live.tables.name) :
    space.Steady (objectsAfter (change object tables space)) := by
  cases tables with
  | error cause => exact .refl space
  | ok tables => exact .setTables hlive (h tables rfl)

theorem steadies_of_refl {body : Run α} (h : ∀ space, objectsAfter (body space) = space) :
    Steadies body := fun space _ _ => (h space).symm ▸ .refl space

/-- An object that a handle is made to name is kept by it. -/
theorem careful_clone (self : Option ObjectId) (handle target : String) :
    Careful (perform Watched.idle self (.clone handle target)) := by
  intro space held hbalanced
  rw [perform, Run.onObject, get_bind_apply]
  cases space.lookup? self handle with
  | none => exact ⟨hbalanced, none, .refl space⟩
  | some object =>
      dsimp only
      cases hlive : space.objects[object]? with
      | none => exact ⟨hbalanced, none, .refl space⟩
      | some live =>
          dsimp only
          rw [objectsAfter_holding]
          obtain ⟨hbound, lost, hturn⟩ :=
            (hbalanced.retain hlive).bind (ObjectSpace.getElem?_retain hlive) target
          obtain ⟨lost', hobject, hturn'⟩ := hbound.turn_release object
          have hreleased := hbound.release
          -- The target names the object, which is therefore still there.
          have hnamed : (((space.retain object).retain object).setHandle target object |>.release
              object).handles[target]? = some object := by
            rw [ObjectSpace.release_handles]
            exact ObjectSpace.getElem?_setHandle _ target object
          obtain ⟨found, hfound⟩ := hreleased.exists_live_of_named hnamed
          cases lost' with
          | none =>
              have hfirst := (ObjectSpace.turn_retain space object).trans_same rfl hturn
              exact ⟨hreleased, lost, hfirst.trans_none hturn'⟩
          | some other =>
              obtain rfl := hobject other rfl
              cases hfound.symm.trans (hturn'.loses object rfl).2.2

/-- Calm actions keep the balance and lose one object at the most. -/
theorem careful_perform (self : Option ObjectId) {action : Action}
    (h : Watched.calm action = true) : Careful (perform Watched.idle self action) := by
  cases action with
  | create handle name noted => exact fun space held hbalanced => hbalanced.create handle name noted
  | drop handle =>
      intro space held hbalanced
      rw [perform, get_bind_apply]
      cases hnamed : space.handles[handle]? with
      | none => exact ⟨hbalanced, none, .refl space⟩
      | some object => exact hbalanced.drop hnamed
  | clone handle target => exact careful_clone self handle target
  | upgrade weak target =>
      intro space held hbalanced
      rw [perform, get_bind_apply]
      cases space.weakHandles[weak]? with
      | none => exact ⟨hbalanced, none, .refl space⟩
      | some object =>
          dsimp only
          split
          · next hthere =>
            obtain ⟨live, hlive⟩ := Option.isSome_iff_exists.mp
              (Std.TreeMap.isSome_getElem?_eq_contains.trans hthere)
            exact hbalanced.bind hlive target
          · exact ⟨hbalanced, none, .refl space⟩
  | downgrade handle weak =>
      rw [perform]
      exact Steadies.careful
        (.onObject self handle fun _ _ _ _ _ _ => ⟨rfl, rfl, rfl, fun _ => rfl⟩)
  | references handle =>
      refine (steadies_of_refl fun space => ?_).careful
      rw [perform, get_bind_apply]
      cases (space.lookup? self handle).bind (space.objects[·]?) <;> rfl
  | describe handle =>
      refine (steadies_of_refl fun space => ?_).careful
      rw [perform, get_bind_apply]
      cases space.handles[handle]?.bind (space.objects[·]?) <;> rfl
  | name handle =>
      rw [perform]
      exact Steadies.careful (.onObject self handle fun _ _ space _ _ _ => .refl space)
  | same handle other =>
      rw [perform]
      refine Steadies.careful
        (.onObject self handle fun object live space held hbalanced hlive => ?_)
      rw [get_bind_apply]
      cases space.lookup? self other with
      | none => exact .refl space
      | some second =>
          dsimp only
          rw [objectsAfter_holding]
          exact .retain_release hbalanced second
  | register handle command handler =>
      rw [perform]
      exact Steadies.careful (.onObject self handle fun _ _ _ _ _ hlive =>
        steady_change hlive fun _ => Registry.name_of_register)
  | hasCommand handle command =>
      rw [perform]
      exact Steadies.careful (.onObject self handle fun _ _ space _ _ _ => .refl space)
  | connect handle signal handler context =>
      rw [perform]
      refine Steadies.careful (.onObject self handle fun object live space _ _ hlive => ?_)
      have hset : space.Steady
          (space.setTables object (live.tables.connect signal handler context).2) :=
        .setTables hlive rfl
      exact ⟨hset.nextObject, hset.handles, hset.disposals, hset.objects⟩
  | disconnect handle signal handler context =>
      rw [perform]
      exact Steadies.careful (.onObject self handle fun _ _ _ _ _ hlive =>
        steady_change hlive fun _ => Registry.name_of_disconnect)
  | unsubscribe handle number =>
      rw [perform]
      refine Steadies.careful (.onObject self handle fun _ _ space _ _ hlive => ?_)
      rw [get_bind_apply]
      cases space.subscriptions[number]? with
      | none => exact .refl space
      | some subscription => exact steady_change hlive fun _ => Registry.name_of_unsubscribe
  | disconnectAll handle signal =>
      rw [perform]
      exact Steadies.careful (.onObject self handle fun _ _ _ _ _ hlive => .setTables hlive rfl)
  | count handle signal =>
      rw [perform]
      exact Steadies.careful (.onObject self handle fun _ _ space _ _ _ => .refl space)
  | panic message => exact (steadies_of_refl fun _ => rfl).careful
  | call | emit => cases h

end Run

end MediaCatalog
