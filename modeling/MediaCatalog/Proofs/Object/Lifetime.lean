import Mathlib.Data.List.Chain
import MediaCatalog.Proofs.Object.Calm
import MediaCatalog.Proofs.Object.Chronicle

/-!
The lifetime of objects. Whatever handlers do, and however deep they nest, an object is there as
long as somebody refers to it: a handle, an action at work or an emission that runs its handlers.
With the last reference it is gone, there and then, and it does not come back.
-/

namespace MediaCatalog

/-! ### References at a moment -/

/-- How often an object is held. -/
def heldBy (holds : List Hold) (object : ObjectId) : Nat := (holds.map Hold.object).count object

theorem heldBy_cons (hold : Hold) (holds : List Hold) :
    heldBy (hold :: holds) = heldBy holds + ObjectSpace.single hold.object := by
  funext object
  rw [heldBy, List.map_cons, List.count_cons]
  simp only [beq_iff_eq]
  rfl

theorem heldBy_eq (holds : List Hold) (object : ObjectId) :
    heldBy holds object = holds.count (.action object) + holds.count (.emission object) := by
  rw [heldBy]
  induction holds with
  | nil => rfl
  | cons hold holds ih =>
      rw [List.map_cons, List.count_cons, List.count_cons, List.count_cons, ih]
      cases hold with
      | action other => simp [Hold.object]; omega
      | emission other => simp [Hold.object]; omega

namespace Moment

variable (moment : Moment) (object : ObjectId)

/-- The handles of an object: those with names, and those of the actions at work. -/
def handles : Nat := (moment.space.handlesOf object).card + moment.holds.count (.action object)

/-- The running emissions of an object that has handlers for them. -/
def emissions : Nat := moment.holds.count (.emission object)

def references : Nat := moment.handles object + moment.emissions object

theorem references_eq :
    moment.references object = moment.space.references (heldBy moment.holds) object := by
  rw [references, handles, emissions, ObjectSpace.references, heldBy_eq]
  exact Nat.add_assoc _ _ _

end Moment

/-! ### Histories -/

/-- Moments that come of each other, the latest first. -/
inductive History : List Moment → Prop where
  | start : History [{}]
  | turn {now later : Moment} {past : List Moment} {lost : Option ObjectId}
      (h : History (now :: past)) (hbalanced : later.space.Balanced (heldBy later.holds))
      (hturn : ObjectSpace.Turn lost now.space later.space) : History (later :: now :: past)

/-- From one chronicle to a later one the history goes on, and whoever took hold of an object
meanwhile has let go of it. -/
def Chronicle.Leads (before after : Chronicle) : Prop :=
  History before.moments → History after.moments ∧ after.now.holds = before.now.holds

theorem History.balanced {moments : List Moment} (h : History moments) :
    ∀ moment ∈ moments, moment.space.Balanced (heldBy moment.holds) := by
  induction h with
  | start =>
      intro moment hmoment
      obtain rfl := List.mem_singleton.mp hmoment
      exact .empty
  | turn _ hbalanced _ ih =>
      intro moment hmoment
      rcases List.mem_cons.mp hmoment with rfl | hpast
      · exact hbalanced
      · exact ih moment hpast

theorem History.now {chronicle : Chronicle} (h : History chronicle.moments) :
    chronicle.now.space.Balanced (heldBy chronicle.now.holds) :=
  h.balanced _ List.mem_cons_self

namespace Chronicle.Leads

theorem refl (chronicle : Chronicle) : chronicle.Leads chronicle := fun h => ⟨h, rfl⟩

theorem trans {before middle after : Chronicle} (h : before.Leads middle)
    (h' : middle.Leads after) : before.Leads after := by
  intro hbefore
  obtain ⟨hmiddle, hholds⟩ := h hbefore
  obtain ⟨hafter, hholds'⟩ := h' hmiddle
  exact ⟨hafter, hholds'.trans hholds⟩

end Chronicle.Leads

/-! ### Runs -/

namespace Chronicled

variable {α β : Type}

/-- A run with which the history goes on. -/
def Proper (body : Chronicled α) : Prop :=
  ∀ chronicle : Chronicle, chronicle.Leads (after (body chronicle))

theorem proper_pure (answer : α) : Proper (Pure.pure answer) := fun chronicle => .refl chronicle

theorem proper_lift {body : Run α} (h : body.Careful) : Proper (lift body) := by
  intro chronicle hbefore
  obtain ⟨hbalanced, lost, hturn⟩ := h chronicle.now.space _ hbefore.now
  have hafter : after (lift body chronicle) =
      chronicle.become (Run.objectsAfter (body chronicle.now.space)) := by
    rw [lift]
    cases body chronicle.now.space <;> rfl
  rw [hafter]
  exact ⟨.turn hbefore hbalanced hturn, rfl⟩

theorem proper_note {event : ObjectEvent} (h : event.disposed? = none) :
    Proper (lift (Run.note event)) :=
  proper_lift (Run.steadies_note h).careful

theorem leads_bind {body : Chronicled α} {next : α → Chronicled β} {chronicle : Chronicle}
    (h : chronicle.Leads (after (body chronicle))) (hnext : ∀ answer, Proper (next answer)) :
    chronicle.Leads (after ((body >>= next) chronicle)) := by
  simp only [Bind.bind, EStateM.bind]
  cases hresult : body chronicle with
  | ok answer later =>
      rw [hresult] at h
      exact h.trans (hnext answer later)
  | error panic later =>
      rw [hresult] at h
      exact h

theorem Proper.bind {body : Chronicled α} {next : α → Chronicled β} (h : Proper body)
    (hnext : ∀ answer, Proper (next answer)) : Proper (body >>= next) :=
  fun chronicle => leads_bind (h chronicle) hnext

theorem get_bind_apply (next : Chronicle → Chronicled α) (chronicle : Chronicle) :
    (get >>= next) chronicle = next chronicle chronicle := rfl

theorem Proper.get_bind {next : Chronicle → Chronicled α}
    (h : ∀ chronicle, Proper (next chronicle)) : Proper (get >>= next) :=
  fun chronicle => h chronicle chronicle

theorem Proper.forM {items : List β} {body : β → Chronicled Unit}
    (h : ∀ item, Proper (body item)) : Proper (items.forM body) := by
  induction items with
  | nil => exact proper_pure ()
  | cons item items ih => exact (h item).bind fun _ => ih

/-- What holds on to an object that is there lets go of it in the end, and of no other. -/
theorem leads_holding {hold : Hold} {body : Chronicled α} {chronicle : Chronicle}
    (hlive : History chronicle.moments →
      ∃ live, chronicle.now.space.objects[hold.object]? = some live)
    (h : (chronicle.take hold).Leads (after (body (chronicle.take hold)))) :
    chronicle.Leads (after (holding hold body chronicle)) := by
  intro hbefore
  obtain ⟨live, hlive⟩ := hlive hbefore
  have hbalanced : (chronicle.take hold).now.space.Balanced
      (heldBy chronicle.now.holds + ObjectSpace.single hold.object) := hbefore.now.retain hlive
  rw [← heldBy_cons] at hbalanced
  obtain ⟨hafter, hholds⟩ := h
    (.turn hbefore hbalanced (ObjectSpace.turn_retain chronicle.now.space hold.object))
  have hresult : after (holding hold body chronicle) =
      (after (body (chronicle.take hold))).letGo hold := by
    rw [holding]
    cases body (chronicle.take hold) <;> rfl
  rw [hresult]
  generalize after (body (chronicle.take hold)) = later at hafter hholds
  have hlater := hafter.now
  have hleft : later.now.holds = hold :: chronicle.now.holds := hholds
  rw [hleft, heldBy_cons] at hlater
  obtain ⟨lost, -, hturn⟩ := hlater.turn_release hold.object
  have hrest : (later.letGo hold).now.holds = chronicle.now.holds := by
    show later.now.holds.erase hold = chronicle.now.holds
    rw [hleft]
    exact List.erase_cons_head _ _
  refine ⟨.turn hafter ?_ hturn, hrest⟩
  rw [hrest]
  exact hlater.release

theorem Proper.onObject (self : Option ObjectId) (handle : String)
    {body : ObjectId → ObjectTables → Chronicled ActionAnswer}
    (h : ∀ object tables (chronicle : Chronicle), .action object ∈ chronicle.now.holds →
      chronicle.Leads (after (body object tables chronicle))) :
    Proper (onObject self handle body) := by
  intro chronicle
  rw [Chronicled.onObject, get_bind_apply]
  cases chronicle.now.space.lookup? self handle with
  | none => exact proper_pure _ chronicle
  | some object =>
      dsimp only
      cases hlive : chronicle.now.space.objects[object]? with
      | none => exact proper_pure _ chronicle
      | some live =>
          exact leads_holding (fun _ => ⟨live, hlive⟩)
            (h object live.tables (chronicle.take (.action object)) List.mem_cons_self)

/-- Reactions with which the history goes on. -/
structure Reactions.Proper (reactions : Reactions) : Prop where
  signal : ∀ object tables value listener,
    Chronicled.Proper (reactions.signal object tables value listener)
  command : ∀ object tables handler call,
    Chronicled.Proper (reactions.command object tables handler call)

namespace Reactions.Proper

variable {reactions : Reactions} (h : reactions.Proper)
include h

/-- An emission is made by somebody who holds on to the object. -/
theorem emit {object : ObjectId} {chronicle : Chronicle}
    (hheld : .action object ∈ chronicle.now.holds) (tables : ObjectTables) (signal : UInt32)
    (value : Value) :
    chronicle.Leads (after (Chronicled.emit reactions object tables signal value chronicle)) := by
  rw [Chronicled.emit]
  cases tables.listeners signal with
  | nil => exact proper_pure () chronicle
  | cons listener listeners =>
      refine leads_holding (fun hbefore => ?_)
        (Proper.forM (fun listener => h.signal object tables value listener) _)
      have hpos : 0 < heldBy chronicle.now.holds object :=
        List.count_pos_iff.mpr (List.mem_map_of_mem hheld)
      exact hbefore.now.exists_live (Nat.add_pos_right _ hpos)

theorem call (object : ObjectId) (tables : ObjectTables) (command : UInt32) (args : List Value) :
    Chronicled.Proper (Chronicled.call reactions object tables command args) := by
  rw [Chronicled.call]
  cases tables.commands[command]? with
  | none => exact proper_pure _
  | some handler => exact h.command object tables handler { args }

theorem perform (self : Option ObjectId) (action : Action) :
    Chronicled.Proper (Chronicled.perform reactions self action) := by
  cases action with
  | call handle command args =>
      exact .onObject self handle fun object tables chronicle _ =>
        leads_bind (h.call object tables command args chronicle) fun call =>
          proper_pure (ActionAnswer.called call)
  | emit handle signal value =>
      exact .onObject self handle fun object tables chronicle hheld =>
        leads_bind (h.emit hheld tables signal value) fun _ => proper_pure ActionAnswer.emitted
  | _ =>
      rw [perform_of_calm rfl]
      exact proper_lift (Run.careful_perform self rfl)

theorem program (self : ObjectId) (program : Program) :
    Chronicled.Proper (Chronicled.program reactions self program) := by
  induction program with
  | done => exact proper_pure ()
  | act action next ih =>
      exact (h.perform (some self) action).bind fun answer =>
        (proper_note rfl).bind fun _ => ih answer

end Reactions.Proper

theorem proper_reactions (behaviour : Behaviour) (allowance : Nat) :
    (reactions behaviour allowance).Proper := by
  induction allowance with
  | zero =>
      refine ⟨fun object tables value listener => ?_, fun object tables handler call => ?_⟩
      · obtain ⟨token, handler, context⟩ := listener
        cases handler with
        | recorder tag => exact proper_note rfl
        | script name => exact proper_note rfl
      · exact proper_lift fun space held hbalanced =>
          (Run.steadies_note rfl).careful space held hbalanced
  | succ allowance ih =>
      refine ⟨fun object tables value listener => ?_, fun object tables handler call => ?_⟩
      · obtain ⟨token, handler, context⟩ := listener
        cases handler with
        | recorder tag => exact proper_note rfl
        | script name =>
            exact (proper_note rfl).bind fun _ => .get_bind fun _ => ih.program object _
      · exact (proper_note rfl).bind fun _ => .get_bind fun _ =>
          (ih.program object _).bind fun _ => proper_pure _

theorem history_run (behaviour : Behaviour) (allowance : Nat) (actions : List Action) :
    History (run behaviour allowance actions).moments := by
  have hgeneral (actions : List Action) (chronicle : Chronicle) (h : History chronicle.moments) :
      History (actions.foldl (fun chronicle action =>
        after (step behaviour allowance action chronicle)) chronicle).moments := by
    induction actions generalizing chronicle with
    | nil => exact h
    | cons action actions ih =>
        exact ih _ ((proper_reactions behaviour allowance).perform none action chronicle h).1
  exact hgeneral actions {} .start

end Chronicled

/-! ### What a history tells -/

/-- The objects that are there at one time and gone at another. -/
def ObjectSpace.goneUntil (before after : ObjectSpace) : List ObjectId :=
  before.objects.keys.filter fun object => !after.objects.contains object

/-- The objects that were lost from moment to moment, the first one first, and what was to be noted
of each. -/
def Moment.losses : List Moment → List (ObjectId × Option String)
  | later :: earlier :: past =>
    losses (earlier :: past) ++ (earlier.space.goneUntil later.space).map fun object =>
      (object, (earlier.space.objects[object]?).bind LiveObject.disposal)
  | _ => []

theorem Moment.map_fst_losses (later earlier : Moment) (past : List Moment) :
    (losses (later :: earlier :: past)).map Prod.fst =
      (losses (earlier :: past)).map Prod.fst ++ earlier.space.goneUntil later.space := by
  rw [losses, List.map_append, List.map_map]
  exact congrArg _ (List.map_id _)

/-- One moment comes of another: at most one object lost its last reference in between, and its
disposal was noted, if it is one to be noted, and no other. -/
def Moment.Follows (later earlier : Moment) : Prop :=
  ∃ lost : Option ObjectId,
    (∀ object, lost = some object ↔
      0 < earlier.references object ∧ later.references object = 0) ∧
    later.space.disposals = earlier.space.disposals ++
      ((lost.bind (earlier.space.objects[·]?)).bind LiveObject.disposal).toList

/-- Objects live as long as there are references to them. -/
structure Chronicle.Truthful (chronicle : Chronicle) : Prop where
  /-- An object counts its handles and the emissions that run its handlers. It is gone when there
  are none. -/
  counted : ∀ moment ∈ chronicle.moments, ∀ object,
    (moment.space.objects[object]?).map LiveObject.references =
      if moment.handles object + moment.emissions object = 0 then none
      else some (moment.handles object + moment.emissions object)
  /-- This is what anybody is told who asks for the number of references. -/
  told : ∀ moment ∈ chronicle.moments, ∀ self handle object,
    moment.space.lookup? self handle = some object → ∀ reactions,
      Run.perform reactions self (.references handle) moment.space =
        .ok (if moment.references object = 0 then .nothing
          else .number (moment.references object)) moment.space
  /-- The disposal of an object is noted when it loses its last reference, and never else. -/
  follows : chronicle.moments.IsChain Moment.Follows
  disposals : chronicle.now.space.disposals =
    (Moment.losses chronicle.moments).filterMap Prod.snd
  /-- No object is lost twice. -/
  once : ((Moment.losses chronicle.moments).map Prod.fst).Nodup
  /-- What was created is lost or still there. -/
  lost : ∀ object, object ∈ (Moment.losses chronicle.moments).map Prod.fst ↔
    object < chronicle.now.space.nextObject ∧ chronicle.now.space.objects[object]? = none
  /-- What was lost does not come back. -/
  gone : chronicle.moments.Pairwise fun later earlier =>
    ∀ object < earlier.space.nextObject, earlier.references object = 0 →
      later.references object = 0
  /-- A weak handle yields the object as long as it is there, and nothing from then on. -/
  upgrades : ∀ moment ∈ chronicle.moments, ∀ (weak target : String) object,
    moment.space.weakHandles[weak]? = some object → ∀ reactions self,
      (moment.references object = 0 →
        Run.perform reactions self (.upgrade weak target) moment.space =
          .ok (.truth false) moment.space) ∧
      (0 < moment.references object → ∃ after,
        Run.perform reactions self (.upgrade weak target) moment.space = .ok (.truth true) after)

namespace ObjectSpace

variable {before after : ObjectSpace} {lost : Option ObjectId} {object : ObjectId}

theorem mem_goneUntil : object ∈ before.goneUntil after ↔
    (∃ live, before.objects[object]? = some live) ∧ after.objects[object]? = none := by
  rw [goneUntil, List.mem_filter, Std.TreeMap.mem_keys, Std.TreeMap.mem_iff_isSome_getElem?,
    Std.TreeMap.contains_eq_isSome_getElem?, Option.isSome_iff_exists]
  cases after.objects[object]? <;> simp

theorem nodup_goneUntil (before after : ObjectSpace) : (before.goneUntil after).Nodup :=
  Std.TreeMap.nodup_keys.filter _

theorem Turn.lost_iff (h : Turn lost before after) : lost = some object ↔
    (∃ live, before.objects[object]? = some live) ∧ after.objects[object]? = none := by
  refine ⟨fun hlost => (h.loses object hlost).2, fun ⟨⟨live, hlive⟩, hgone⟩ => ?_⟩
  by_contra hkept
  obtain ⟨later, hlater, -⟩ := h.stays object live hlive hkept
  cases hgone.symm.trans hlater

theorem Turn.goneUntil_eq (h : Turn lost before after) :
    before.goneUntil after = lost.toList := by
  have hmem (object : ObjectId) : object ∈ before.goneUntil after ↔ lost = some object :=
    mem_goneUntil.trans h.lost_iff.symm
  cases lost with
  | none => exact List.eq_nil_iff_forall_not_mem.mpr fun object hgone =>
      nomatch (hmem object).mp hgone
  | some object =>
      refine List.perm_singleton.mp
        ((List.perm_ext_iff_of_nodup (nodup_goneUntil before after)
          (List.nodup_singleton object)).mpr fun other => ?_)
      rw [hmem, List.mem_singleton, Option.some.injEq, eq_comm]

end ObjectSpace

namespace History

variable {moments : List Moment}

theorem references_eq_zero_iff (h : History moments) {moment : Moment} (hmoment : moment ∈ moments)
    (object : ObjectId) :
    moment.references object = 0 ↔ moment.space.objects[object]? = none := by
  have hcounted := (h.balanced moment hmoment).counted object
  rw [← moment.references_eq] at hcounted
  constructor
  · intro hzero
    rw [if_pos hzero] at hcounted
    exact Option.map_eq_none_iff.mp hcounted
  · intro hnone
    by_contra hpos
    rw [if_neg hpos, hnone] at hcounted
    cases hcounted

theorem follows (h : History moments) : moments.IsChain Moment.Follows := by
  induction h with
  | start => exact .singleton _
  | @turn now later past lost h hbalanced hturn ih =>
      have hall : History (later :: now :: past) := .turn h hbalanced hturn
      refine List.isChain_cons_cons.mpr ⟨⟨lost, fun object => ?_, hturn.disposals⟩, ih⟩
      have hnow := hall.references_eq_zero_iff (List.mem_cons_of_mem _ List.mem_cons_self) object
      rw [hall.references_eq_zero_iff List.mem_cons_self, Nat.pos_iff_ne_zero, ne_eq, hnow,
        hturn.lost_iff]
      exact and_congr_left' Option.ne_none_iff_exists'.symm

theorem gone (h : History moments) : moments.Pairwise fun later earlier =>
    earlier.space.nextObject ≤ later.space.nextObject ∧
      ∀ object < earlier.space.nextObject, earlier.space.objects[object]? = none →
        later.space.objects[object]? = none := by
  induction h with
  | start => exact List.pairwise_singleton _ _
  | @turn now later past lost h hbalanced hturn ih =>
      refine List.pairwise_cons.mpr ⟨fun earlier hearlier => ?_, ih⟩
      rcases List.mem_cons.mp hearlier with rfl | hpast
      · exact ⟨hturn.nextObject, hturn.gone⟩
      · obtain ⟨hle, hgone⟩ := (List.pairwise_cons.mp ih).1 earlier hpast
        exact ⟨hle.trans hturn.nextObject, fun object hlt hnone =>
          hturn.gone object (hlt.trans_le hle) (hgone object hlt hnone)⟩

/-- What was ever created and is not there was lost at some time, and nothing else was. -/
theorem mem_losses (h : History moments) : ∀ now ∈ moments.head?, ∀ object,
    object ∈ (Moment.losses moments).map Prod.fst ↔
      object < now.space.nextObject ∧ now.space.objects[object]? = none := by
  induction h with
  | start =>
      rintro now ⟨⟩ object
      exact ⟨nofun, fun h => absurd h.1 (Nat.not_lt_zero _)⟩
  | @turn now later past lost h hbalanced hturn ih =>
      rintro later ⟨⟩ object
      rw [Moment.map_fst_losses, List.mem_append, ih now rfl, ObjectSpace.mem_goneUntil]
      constructor
      · rintro (⟨hlt, hnone⟩ | ⟨⟨live, hlive⟩, hgone⟩)
        · exact ⟨hlt.trans_le hturn.nextObject, hturn.gone object hlt hnone⟩
        · obtain ⟨hlt, -, -⟩ := hturn.loses object (hturn.lost_iff.mpr ⟨⟨live, hlive⟩, hgone⟩)
          exact ⟨hlt.trans_le hturn.nextObject, hgone⟩
      · rintro ⟨hlt, hgone⟩
        cases hlive : now.space.objects[object]? with
        | some live => exact .inr ⟨⟨live, rfl⟩, hgone⟩
        | none =>
            refine .inl ⟨?_, rfl⟩
            by_contra hge
            obtain ⟨live, hmade⟩ := hturn.made object (Nat.le_of_not_lt hge) hlt
            cases hgone.symm.trans hmade

/-- What was lost before is not there to be lost again. -/
theorem nodup_losses (h : History moments) : ((Moment.losses moments).map Prod.fst).Nodup := by
  induction h with
  | start => exact .nil
  | @turn now later past lost h hbalanced hturn ih =>
      rw [Moment.map_fst_losses, List.nodup_append]
      refine ⟨ih, ObjectSpace.nodup_goneUntil _ _, fun old hold object hlost hsame => ?_⟩
      obtain ⟨⟨live, hlive⟩, -⟩ := ObjectSpace.mem_goneUntil.mp hlost
      rw [← hsame] at hlive
      cases ((h.mem_losses now rfl old).mp hold).2.symm.trans hlive

/-- The disposals noted are those of the objects lost, in the order in which they were lost. -/
theorem disposals_eq (h : History moments) : ∀ now ∈ moments.head?,
    now.space.disposals = (Moment.losses moments).filterMap Prod.snd := by
  induction h with
  | start =>
      rintro now ⟨⟩
      rfl
  | @turn now later past lost h hbalanced hturn ih =>
      rintro later ⟨⟩
      rw [Moment.losses, hturn.goneUntil_eq, hturn.disposals, ih now rfl, List.filterMap_append]
      cases lost with
      | none => rfl
      | some object =>
          simp only [Option.bind_some, Option.toList_some, List.map_cons, List.map_nil,
            List.filterMap_cons, List.filterMap_nil]
          cases (now.space.objects[object]?).bind LiveObject.disposal <;> rfl

end History

theorem Run.perform_upgrade {space : ObjectSpace} {weak : String} {object : ObjectId}
    (hweak : space.weakHandles[weak]? = some object) (reactions : Reactions)
    (self : Option ObjectId) (target : String) :
    perform reactions self (.upgrade weak target) space =
      if space.objects.contains object then
        .ok (.truth true) ((space.retain object).setHandle target object)
      else .ok (.truth false) space := by
  rw [perform, get_bind_apply]
  simp only [hweak]
  split <;> rfl

theorem Run.perform_references {space : ObjectSpace} {handle : String} {object : ObjectId}
    {self : Option ObjectId} (hnamed : space.lookup? self handle = some object)
    (reactions : Reactions) : perform reactions self (.references handle) space =
      .ok (((space.objects[object]?).map LiveObject.references).elim .nothing .number) space := by
  rw [perform, get_bind_apply]
  simp only [hnamed, Option.bind_some]
  cases space.objects[object]? <;> rfl

theorem Chronicle.truthful {chronicle : Chronicle} (h : History chronicle.moments) :
    chronicle.Truthful := by
  have hcounted (moment : Moment) (hmoment : moment ∈ chronicle.moments) (object : ObjectId) :
      (moment.space.objects[object]?).map LiveObject.references =
        if moment.references object = 0 then none else some (moment.references object) := by
    rw [moment.references_eq]
    exact (h.balanced moment hmoment).counted object
  refine ⟨hcounted, ?_, h.follows, h.disposals_eq chronicle.now rfl, h.nodup_losses,
    h.mem_losses chronicle.now rfl, ?_, ?_⟩
  · intro moment hmoment self handle object hnamed reactions
    rw [Run.perform_references hnamed, hcounted moment hmoment]
    split <;> rfl
  · refine h.gone.imp_of_mem fun hlater hearlier hgone object hlt hzero => ?_
    rw [h.references_eq_zero_iff hearlier] at hzero
    exact (h.references_eq_zero_iff hlater object).mpr (hgone.2 object hlt hzero)
  · intro moment hmoment weak target object hweak reactions self
    have hthere := h.references_eq_zero_iff hmoment object
    rw [Run.perform_upgrade hweak, Std.TreeMap.contains_eq_isSome_getElem?]
    cases hlive : moment.space.objects[object]? with
    | none => exact ⟨fun _ => rfl, fun hpos => absurd (hthere.mpr hlive) hpos.ne'⟩
    | some live =>
        refine ⟨fun hzero => ?_, fun _ => ⟨_, rfl⟩⟩
        cases hlive.symm.trans (hthere.mp hzero)

/-- Whatever handlers do, and however deep: at every moment of a run an object counts its handles
and the emissions that run its handlers. It is disposed of once, in the very step in which the last
of these goes, and no weak handle yields it from then on. -/
theorem Run.objects_live_while_referred_to (behaviour : Behaviour) (allowance : Nat)
    (actions : List Action) :
    (∀ action chronicle, Chronicled.plain (Chronicled.step behaviour allowance action chronicle) =
      step behaviour allowance action chronicle.now.space) ∧
    (Chronicled.run behaviour allowance actions).now.space =
      steps behaviour allowance actions {} ∧
    (Chronicled.run behaviour allowance actions).Truthful :=
  ⟨Chronicled.step_shadows behaviour allowance, Chronicled.run_now behaviour allowance actions,
    Chronicle.truthful (Chronicled.history_run behaviour allowance actions)⟩

/-- A handler that drops the handle of its object. -/
def dropping : Behaviour where
  signal _ _ _ _ := .ofActions [.drop "playlist"]
  command _ _ _ := .done
  conclude _ call := call

-- An emission outlives the last named handle of its object: the disposal comes with the end of the
-- action that made the emission.
example : (Chronicled.run dropping 1
    [.create "playlist" "playlist" true, .connect "playlist" 1 (.script "drop") none,
      .emit "playlist" 1 .none]).moments.reverse.map
        (fun moment => (moment.handles 0, moment.emissions 0, moment.space.disposals)) =
    [(0, 0, []), (1, 0, []), (1, 0, []), (2, 0, []), (2, 1, []), (2, 1, []), (1, 1, []), (1, 1, []),
      (1, 0, []), (0, 0, ["playlist"])] := by
  decide +kernel

end MediaCatalog
