import Mathlib.Data.List.Induction
import MediaCatalog.Proofs.Client.Replies

/-!
Settling once. A reply is completed, cancelled and given callbacks as often as anyone likes, in any
order. The first completion or cancel decides what it comes to, and the first callback is the only
one that it takes. What a reply is after some deeds, and what comes of the next one, follows from
these two firsts alone: the callback runs with the later of them, and the owner is told of a cancel
that comes first.
-/

namespace MediaCatalog

/-- What a callback is told of a settlement. -/
@[simp] def Settlement.outcome? : Settlement → Option (Except Error Value)
  | result outcome => some outcome
  | sent | cancelled => none

namespace Reply

/-! ### Deeds -/

/-- What can be done with a reply. -/
inductive Deed where
  | complete (outcome : Except Error Value)
  | cancel
  | onComplete

namespace Deed

/-- What a deed makes of a reply that waits, if it settles it. -/
@[simp] def settlement? : Deed → Option Settlement
  | complete outcome => some (.result outcome)
  | cancel => some .cancelled
  | onComplete => none

/-- Deeds that register a callback, or try to. -/
@[simp] def registers : Deed → Bool
  | onComplete => true
  | _ => false

end Deed

/-- What comes of a deed. -/
structure Effect where
  /-- The answer to whoever did it. -/
  answer : Except Error Unit := .ok ()
  /-- What the callback was called with, if it ran. -/
  called : Option (Except Error Value) := none
  /-- The owner was told of a cancel. -/
  told : Bool := false

def perform (reply : Reply) : Deed → Effect × Reply
  | .complete outcome =>
    let (reply, called) := reply.complete outcome
    ({ called }, reply)
  | .cancel =>
    let (reply, told) := reply.cancel
    ({ told }, reply)
  | .onComplete =>
    match reply.onComplete with
    | .ok (reply, called) => ({ called }, reply)
    | .error cause => ({ answer := .error cause }, reply)

/-- The effects of some deeds, one for each, and the reply after them. -/
def performAll (reply : Reply) : List Deed → List Effect × Reply
  | [] => ([], reply)
  | deed :: rest =>
    let (effect, reply) := reply.perform deed
    let (effects, reply) := reply.performAll rest
    (effect :: effects, reply)

theorem performAll_append (reply : Reply) (deeds more : List Deed) :
    reply.performAll (deeds ++ more) =
      ((reply.performAll deeds).1 ++ ((reply.performAll deeds).2.performAll more).1,
        ((reply.performAll deeds).2.performAll more).2) := by
  induction deeds generalizing reply with
  | nil => rfl
  | cons deed rest ih => simp only [List.cons_append, performAll, ih]

theorem length_performAll (reply : Reply) (deeds : List Deed) :
    (reply.performAll deeds).1.length = deeds.length := by
  induction deeds generalizing reply with
  | nil => rfl
  | cons deed rest ih => simp only [performAll, List.length_cons, ih]

/-- The effect of a deed among others is its effect on the reply as the earlier ones left it. -/
theorem getElem?_performAll (reply : Reply) (earlier later : List Deed) (deed : Deed) :
    (reply.performAll (earlier ++ deed :: later)).1[earlier.length]? =
      some ((reply.performAll earlier).2.perform deed).1 := by
  have hlength := reply.length_performAll earlier
  rw [performAll_append, List.getElem?_append_right (Nat.le_of_eq hlength), hlength, Nat.sub_self]
  rfl

/-! ### What a history leaves -/

/-- The settlement that the first deed to settle anything has in mind. -/
def first? (deeds : List Deed) : Option Settlement := deeds.findSome? Deed.settlement?

/-- No deed has waiting in mind. -/
theorem first?_ne_sent (deeds : List Deed) : first? deeds ≠ some .sent := by
  intro hsent
  obtain ⟨deed, -, hdeed⟩ := List.exists_of_findSome?_eq_some hsent
  cases deed <;> cases hdeed

theorem first?_append (deeds more : List Deed) :
    first? (deeds ++ more) = (first? deeds).or (first? more) :=
  List.findSome?_append

theorem first?_snoc (deeds : List Deed) (deed : Deed) :
    first? (deeds ++ [deed]) = (first? deeds).or deed.settlement? := by
  rw [first?_append]
  cases deed <;> rfl

theorem any_registers_snoc (deeds : List Deed) (deed : Deed) :
    (deeds ++ [deed]).any Deed.registers = (deeds.any Deed.registers || deed.registers) := by
  rw [List.any_append, List.any_cons, List.any_nil, Bool.or_false]

/-- A new reply to which all of this was done. -/
def lived (request : UInt32) (hooked : Bool) (deeds : List Deed) : Reply where
  request
  settlement := (first? deeds).getD .sent
  callback :=
    if deeds.any Deed.registers then if (first? deeds).isSome then .spent else .waiting
    else .unset
  hooked := hooked && (first? deeds).isNone

/-- What comes of a deed after all of this. -/
def effectAfter (request : UInt32) (hooked : Bool) (earlier : List Deed) : Deed → Effect
  | .complete outcome =>
    { called := if earlier.any Deed.registers ∧ first? earlier = none then some outcome else none }
  | .cancel => { told := hooked && (first? earlier).isNone }
  | .onComplete =>
    if earlier.any Deed.registers then
      { answer := .error (.invalidArgument s!"reply {request} already has a callback") }
    else
      { called :=
          match first? earlier with
          | some (.result outcome) => some outcome
          | _ => none }

theorem perform_lived (request : UInt32) (hooked : Bool) (deeds : List Deed) (deed : Deed) :
    (lived request hooked deeds).perform deed =
      (effectAfter request hooked deeds deed, lived request hooked (deeds ++ [deed])) := by
  unfold lived effectAfter
  rw [first?_snoc, any_registers_snoc]
  -- Waiting or settled, with a callback or without one, each deed does what is said of it.
  cases hsettled : first? deeds with
  | none => cases deed <;> cases deeds.any Deed.registers <;> cases hooked <;> rfl
  | some settlement =>
      cases settlement with
      | sent => exact absurd hsettled (first?_ne_sent deeds)
      | result earlier => cases deed <;> cases deeds.any Deed.registers <;> cases hooked <;> rfl
      | cancelled => cases deed <;> cases deeds.any Deed.registers <;> cases hooked <;> rfl

/-- A reply is what its history makes of it. -/
theorem performAll_snd (request : UInt32) (hooked : Bool) (deeds : List Deed) :
    (performAll { request, hooked } deeds).2 = lived request hooked deeds := by
  induction deeds using List.reverseRecOn with
  | nil => cases hooked <;> rfl
  | append_singleton deeds deed ih =>
      rw [performAll_append, ih, performAll, perform_lived]
      rfl

/-! ### Whole histories -/

section Histories

variable (request : UInt32) (hooked : Bool) (earlier : List Deed) (deed : Deed)

theorem effectAfter_answer :
    (effectAfter request hooked earlier deed).answer =
      if deed.registers ∧ earlier.any Deed.registers then
        .error (.invalidArgument s!"reply {request} already has a callback")
      else .ok () := by
  cases deed with
  | complete outcome => rfl
  | cancel => rfl
  | onComplete =>
      rw [effectAfter]
      cases earlier.any Deed.registers <;> rfl

/-- The callback runs at completion if it was registered before, and otherwise when it is
registered. -/
theorem effectAfter_called_iff (outcome : Except Error Value) :
    (effectAfter request hooked earlier deed).called = some outcome ↔
      deed = .complete outcome ∧ first? earlier = none ∧ earlier.any Deed.registers = true ∨
        deed = .onComplete ∧ first? earlier = some (.result outcome) ∧
          earlier.any Deed.registers = false := by
  cases deed with
  | complete completed => simp [effectAfter, and_comm]
  | cancel => simp [effectAfter]
  | onComplete =>
      rw [effectAfter]
      cases earlier.any Deed.registers with
      | true => simp
      | false =>
          cases hfirst : first? earlier with
          | none => simp
          | some settlement => cases settlement <;> simp

theorem effectAfter_told_iff :
    (effectAfter request hooked earlier deed).told = true ↔
      deed = .cancel ∧ hooked = true ∧ first? earlier = none := by
  cases deed with
  | complete completed => simp [effectAfter]
  | cancel => simp [effectAfter]
  | onComplete =>
      rw [effectAfter]
      cases earlier.any Deed.registers <;> simp

end Histories

/-- All effects of some deeds on a new reply. -/
theorem performAll_snoc (request : UInt32) (hooked : Bool) (deeds : List Deed) (deed : Deed) :
    (performAll { request, hooked } (deeds ++ [deed])).1 =
      (performAll { request, hooked } deeds).1 ++ [effectAfter request hooked deeds deed] := by
  rw [performAll_append, performAll_snd, performAll, perform_lived]
  rfl

/-- The callback runs once if there is one and an outcome came first, and else never. -/
theorem filterMap_called (request : UInt32) (hooked : Bool) (deeds : List Deed) :
    (performAll { request, hooked } deeds).1.filterMap Effect.called =
      if deeds.any Deed.registers then ((first? deeds).bind Settlement.outcome?).toList
      else [] := by
  induction deeds using List.reverseRecOn with
  | nil => rfl
  | append_singleton deeds deed ih =>
      rw [performAll_snoc, List.filterMap_append, ih, first?_snoc, any_registers_snoc]
      cases hregisters : deeds.any Deed.registers with
      | true =>
          cases hfirst : first? deeds with
          | none => cases deed <;> simp [effectAfter, hfirst, hregisters]
          | some settlement => cases deed <;> simp [effectAfter, hfirst, hregisters]
      | false =>
          cases hfirst : first? deeds with
          | none => cases deed <;> simp [effectAfter, hfirst, hregisters]
          | some settlement =>
              cases settlement <;> cases deed <;> simp [effectAfter, hfirst, hregisters]

/-- The owner is told once if a cancel came first, and else never. -/
theorem countP_told (request : UInt32) (hooked : Bool) (deeds : List Deed) :
    (performAll { request, hooked } deeds).1.countP Effect.told =
      match first? deeds with
      | some .cancelled => hooked.toNat
      | _ => 0 := by
  induction deeds using List.reverseRecOn with
  | nil => rfl
  | append_singleton deeds deed ih =>
      rw [performAll_snoc, List.countP_append, ih, first?_snoc, List.countP_singleton]
      have htold := effectAfter_told_iff request hooked deeds deed
      cases hfirst : first? deeds with
      | some settlement => simp [htold, hfirst]
      | none => cases deed <;> cases hooked <;> simp [htold, hfirst]

/-- Whatever is done with a reply, and in whatever order: the first completion or cancel settles it
and nothing changes that; the first callback is taken and all others are refused; it runs once, with
the outcome of the completion that settled the reply, at that completion or else when it is
registered, and not at all after a cancel; the owner is told once of a cancel that settled the
reply and of no other; and whoever waits is given what the reply settled with. -/
theorem settles_once (request : UInt32) (hooked : Bool) (deeds : List Deed) :
    let (effects, reply) := performAll { request, hooked } deeds
    reply.settlement = (first? deeds).getD .sent ∧
    (reply.status ≠ .sent → ∀ more,
      (reply.performAll more).2.settlement = reply.settlement) ∧
    effects.length = deeds.length ∧
    (∀ earlier deed later, deeds = earlier ++ deed :: later → ∃ effect,
      effects[earlier.length]? = some effect ∧
      effect.answer = (if deed.registers ∧ earlier.any Deed.registers then
          .error (.invalidArgument s!"reply {request} already has a callback")
        else .ok ()) ∧
      (∀ outcome, effect.called = some outcome ↔
        deed = .complete outcome ∧ first? earlier = none ∧ earlier.any Deed.registers = true ∨
          deed = .onComplete ∧ first? earlier = some (.result outcome) ∧
            earlier.any Deed.registers = false) ∧
      (effect.told = true ↔ deed = .cancel ∧ hooked = true ∧ first? earlier = none)) ∧
    effects.filterMap Effect.called =
      (if deeds.any Deed.registers then ((first? deeds).bind Settlement.outcome?).toList
        else []) ∧
    effects.countP Effect.told =
      (match first? deeds with
        | some .cancelled => hooked.toNat
        | _ => 0) ∧
    reply.poll = (first? deeds).map fun settlement =>
      settlement.outcome?.getD (.error .cancelled) := by
  have hreply (deeds : List Deed) : (performAll { request, hooked } deeds).2.settlement =
      (first? deeds).getD .sent := by
    rw [performAll_snd, lived]
  refine ⟨hreply deeds, fun hsettled more => ?_, length_performAll _ deeds, ?_,
    filterMap_called request hooked deeds, countP_told request hooked deeds, ?_⟩
  · rw [ne_eq, status_eq_sent_iff, hreply] at hsettled
    have hboth := hreply (deeds ++ more)
    rw [performAll_append, first?_append] at hboth
    rw [hreply]
    refine hboth.trans ?_
    cases hfirst : first? deeds with
    | none => exact absurd (by rw [hfirst]; rfl) hsettled
    | some settlement => rfl
  · rintro earlier deed later rfl
    refine ⟨effectAfter request hooked earlier deed, ?_, effectAfter_answer ..,
      effectAfter_called_iff _ _ _ _, effectAfter_told_iff ..⟩
    rw [getElem?_performAll, performAll_snd, perform_lived]
  · rw [poll, hreply]
    cases hfirst : first? deeds with
    | none => rfl
    | some settlement =>
        cases settlement with
        | sent => exact absurd hfirst (first?_ne_sent deeds)
        | result outcome => rfl
        | cancelled => rfl

end Reply

end MediaCatalog
