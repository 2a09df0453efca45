import MediaCatalog.Proofs.Object.Order
import MediaCatalog.Proofs.Object.Watch

/-!
Calls of signal handlers. Each leaves one event in the trace. Actions other than calls and emissions
make no handler react, so they leave no such event: what they do to handles, references and tables
concerns the next emission only. They keep the connections in the order in which they were made.
-/

namespace MediaCatalog

/-! ### Calls in the trace -/

/-- Events that tell of the call of a signal handler. -/
def ObjectEvent.isCall : ObjectEvent → Bool
  | handled .. | recorded .. => true
  | _ => false

/-- The calls of signal handlers that were noted. -/
def ObjectSpace.calls (space : ObjectSpace) : List ObjectEvent :=
  space.trace.filter ObjectEvent.isCall

/-- The event that tells of a call. -/
def Invocation.event (invocation : Invocation) : ObjectEvent :=
  match invocation.listener.handler with
  | .script name => .handled name invocation.object invocation.value invocation.listener.context
  | .recorder tag => .recorded tag invocation.object invocation.value

theorem Invocation.isCall_event (invocation : Invocation) : invocation.event.isCall = true := by
  obtain ⟨emission, object, ⟨token, handler, context⟩, value⟩ := invocation
  cases handler <;> rfl

namespace ObjectSpace

theorem calls_note (space : ObjectSpace) (event : ObjectEvent) :
    (space.note event).calls = space.calls ++ [event].filter ObjectEvent.isCall :=
  List.filter_append ..

theorem getElem?_retain {space : ObjectSpace} {object : ObjectId} {live : LiveObject}
    (hlive : space.objects[object]? = some live) :
    (space.retain object).objects[object]? =
      some { live with references := live.references + 1 } := by
  simp [retain, hlive]

/-- From one state of the objects to a later one no signal handler was called, and what is connected
then is in order if it was so before. -/
structure QuietTo (before after : ObjectSpace) : Prop where
  calls : after.calls = before.calls
  inOrder : before.InOrder → after.InOrder

namespace QuietTo

variable {before middle after : ObjectSpace}

theorem refl (space : ObjectSpace) : space.QuietTo space := ⟨rfl, fun h => h⟩

theorem trans (h : before.QuietTo middle) (h' : middle.QuietTo after) : before.QuietTo after :=
  ⟨h'.calls.trans h.calls, fun hbefore => h'.inOrder (h.inOrder hbefore)⟩

theorem note (space : ObjectSpace) {event : ObjectEvent} (h : event.isCall = false) :
    space.QuietTo (space.note event) := by
  refine ⟨?_, fun hspace => hspace⟩
  rw [calls_note, List.filter_cons_of_neg (by simp [h])]
  exact List.append_nil _

theorem retain (space : ObjectSpace) (object : ObjectId) : space.QuietTo (space.retain object) :=
  ⟨rfl, fun hspace => hspace.retain object⟩

theorem release (space : ObjectSpace) (object : ObjectId) :
    space.QuietTo (space.release object) := by
  refine ⟨?_, fun hspace => hspace.release object⟩
  rw [ObjectSpace.release]
  split
  · rfl
  · split
    · rfl
    · dsimp only
      split
      · rw [calls_note]
        exact List.append_nil _
      · rfl

theorem setHandle (space : ObjectSpace) (handle : String) (object : ObjectId) :
    space.QuietTo (space.setHandle handle object) := by
  refine ⟨?_, fun hspace => hspace.setHandle handle object⟩
  rw [ObjectSpace.setHandle]
  split
  · rfl
  · rw [(release _ _).calls]
    rfl

theorem create (space : ObjectSpace) (handle name : String) (noted : Bool) :
    space.QuietTo (space.create handle name noted) := by
  refine ⟨?_, fun hspace => hspace.create handle name noted⟩
  rw [ObjectSpace.create, (setHandle _ _ _).calls]
  rfl

end QuietTo

end ObjectSpace

/-! ### Quiet runs -/

namespace Run

variable {α β : Type}

/-- The objects after a run, whether it ended in a panic or not. -/
def objectsAfter : EStateM.Result String ObjectSpace α → ObjectSpace
  | .ok _ space => space
  | .error _ space => space

/-- A run in which no signal handler is called. -/
def Quiet (body : Run α) : Prop := ∀ space : ObjectSpace, space.QuietTo (objectsAfter (body space))

theorem Quiet.pure (answer : α) : Quiet (Pure.pure answer) := fun space => .refl space

theorem Quiet.throw (panic : String) : Quiet (MonadExcept.throw panic : Run α) :=
  fun space => .refl space

theorem Quiet.get : Quiet (get : Run ObjectSpace) := fun space => .refl space

theorem Quiet.modify {change : ObjectSpace → ObjectSpace}
    (h : ∀ space : ObjectSpace, space.QuietTo (change space)) : Quiet (modify change) := h

theorem Quiet.bind {body : Run α} {next : α → Run β} (h : Quiet body)
    (hnext : ∀ answer, Quiet (next answer)) : Quiet (body >>= next) := by
  intro space
  have hbody := h space
  simp only [Bind.bind, EStateM.bind]
  cases hresult : body space with
  | ok answer after =>
      rw [hresult] at hbody
      exact hbody.trans (hnext answer after)
  | error panic after =>
      rw [hresult] at hbody
      exact hbody

theorem quiet_modify {change : ObjectSpace → ObjectSpace} {next : Run α}
    (h : ∀ space : ObjectSpace, space.QuietTo (change space)) (hnext : Quiet next) :
    Quiet (modify change >>= fun _ => next) :=
  Quiet.bind (.modify h) fun _ => hnext

theorem quietTo_holding {body : Run α} {space : ObjectSpace} {object : ObjectId}
    (h : (space.retain object).QuietTo (objectsAfter (body (space.retain object)))) :
    space.QuietTo (objectsAfter (holding object body space)) := by
  rw [Run.holding]
  cases hresult : body (space.retain object) with
  | ok answer after =>
      rw [hresult] at h
      exact .trans (.retain space object) (h.trans (.release after object))
  | error panic after =>
      rw [hresult] at h
      exact .trans (.retain space object) (h.trans (.release after object))

theorem get_bind_apply (next : ObjectSpace → Run α) (space : ObjectSpace) :
    (get >>= next) space = next space space := rfl

/-- What is done on an object finds its connections in order if those of all objects are so. -/
theorem Quiet.onObject (self : Option ObjectId) (handle : String)
    {body : ObjectId → ObjectTables → Run ActionAnswer}
    (h : ∀ object tables (space : ObjectSpace), (space.InOrder → tables.InOrder) →
      space.QuietTo (objectsAfter (body object tables space))) :
    Quiet (onObject self handle body) := by
  intro space
  rw [Run.onObject, get_bind_apply]
  cases space.lookup? self handle with
  | none => exact .refl space
  | some object =>
      dsimp only
      cases hlive : space.objects[object]? with
      | none => exact .refl space
      | some live =>
          have htables (hspace : (space.retain object).InOrder) : live.tables.InOrder :=
            hspace object { live with references := live.references + 1 }
              (ObjectSpace.getElem?_retain hlive)
          exact quietTo_holding (h object live.tables (space.retain object) htables)

theorem Quiet.note {event : ObjectEvent} (h : event.isCall = false) : Quiet (note event) :=
  .modify fun space => .note space h

theorem quietTo_change {space : ObjectSpace} (object : ObjectId)
    {tables : Except Error ObjectTables}
    (h : space.InOrder → ∀ changed, tables = .ok changed → changed.InOrder) :
    space.QuietTo (objectsAfter (change object tables space)) := by
  cases tables with
  | error cause => exact .refl space
  | ok tables => exact ⟨rfl, fun hspace => hspace.setTables object (h hspace tables rfl)⟩

theorem quiet_bind (handle : String) (object : ObjectId) : Quiet (bind handle object) :=
  .modify fun space => .trans (.retain space object) (.setHandle _ handle object)

/-- Calm actions call no signal handler. -/
theorem quiet_perform (self : Option ObjectId) {action : Action}
    (h : Watched.calm action = true) : Quiet (perform Watched.idle self action) := by
  cases action with
  | create handle name noted =>
      rw [perform]
      exact quiet_modify (fun space => .create space handle name noted) (Quiet.pure _)
  | drop handle =>
      refine Quiet.get.bind fun space => ?_
      split
      · exact .pure _
      · next object _ =>
        refine quiet_modify (fun space => ?_) (Quiet.pure _)
        have hnamed : space.QuietTo { space with handles := space.handles.erase handle } :=
          ⟨rfl, fun hspace => hspace⟩
        exact hnamed.trans (.release _ object)
  | clone handle target =>
      rw [perform]
      refine .onObject self handle fun object _ space _ => ?_
      exact (quiet_bind target object).bind (fun _ => .pure ActionAnswer.done) space
  | downgrade handle weak =>
      rw [perform]
      exact .onObject self handle fun _ _ _ _ => ⟨rfl, fun hspace => hspace⟩
  | upgrade weak target =>
      refine Quiet.get.bind fun space => ?_
      split
      · exact .pure _
      · next object _ =>
        split
        · exact (quiet_bind target object).bind fun _ => .pure (ActionAnswer.truth true)
        · exact .pure _
  | references handle =>
      refine Quiet.get.bind fun space => ?_
      split
      · exact .pure _
      · exact .pure _
  | describe handle =>
      refine Quiet.get.bind fun space => ?_
      split
      · exact .pure _
      · exact .pure _
  | name handle =>
      rw [perform]
      exact .onObject self handle fun _ _ space _ => .refl space
  | same handle other =>
      rw [perform]
      refine .onObject self handle fun object _ space _ => ?_
      rw [get_bind_apply]
      cases space.lookup? self other with
      | none => exact .refl space
      | some second => exact quietTo_holding (.refl _)
  | register handle command handler =>
      rw [perform]
      exact .onObject self handle fun object tables space htables =>
        quietTo_change object fun hspace _ hchanged => (htables hspace).register hchanged
  | hasCommand handle command =>
      rw [perform]
      exact .onObject self handle fun _ _ space _ => .refl space
  | connect handle signal handler context =>
      rw [perform]
      exact .onObject self handle fun object tables space htables =>
        ⟨rfl, fun hspace =>
          hspace.setTables object ((htables hspace).connect signal handler context)⟩
  | disconnect handle signal handler context =>
      rw [perform]
      exact .onObject self handle fun object tables space htables =>
        quietTo_change object fun hspace _ hchanged => (htables hspace).disconnect hchanged
  | unsubscribe handle number =>
      rw [perform]
      refine .onObject self handle fun object tables space htables => ?_
      rw [get_bind_apply]
      cases space.subscriptions[number]? with
      | none => exact .refl space
      | some subscription =>
          exact quietTo_change object fun hspace _ hchanged =>
            (htables hspace).unsubscribe hchanged
  | disconnectAll handle signal =>
      rw [perform]
      exact .onObject self handle fun object tables space htables =>
        ⟨rfl, fun hspace => hspace.setTables object ((htables hspace).disconnectAll signal)⟩
  | count handle signal =>
      rw [perform]
      exact .onObject self handle fun _ _ space _ => .refl space
  | panic message => exact .throw message
  | call | emit => cases h

end Run

end MediaCatalog
