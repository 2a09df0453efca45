import MediaCatalog.Proofs.Object.Log

/-!
Subscriptions of several objects. An object numbers the connections to it by itself, and a
subscription holds no more than a signal and a number, so two objects hand out the same subscription
once both have as many connections and the next one is to the same signal. It ends the connection of
the object that it is used on, whichever of them handed it out. An object that never handed it out
refuses it.
-/

namespace MediaCatalog

namespace Registry

variable {ι κ η γ : Type} [DecidableEq ι]

/-! ### Several objects -/

/-- What a deed connects: the signal, the handler and the context. -/
def Deed.connection? : Deed κ η γ → Option (UInt32 × η × Option γ)
  | connect signal handler context => some (signal, handler, context)
  | _ => none

/-- Those of the deeds that were asked of one object. -/
def deedsOf (object : ι) (deeds : List (ι × Deed κ η γ)) : List (Deed κ η γ) :=
  deeds.filterMap fun entry => if entry.1 = object then some entry.2 else none

/-- What was connected to one object. -/
def connectionsOf (object : ι) (deeds : List (ι × Deed κ η γ)) : List (UInt32 × η × Option γ) :=
  (deedsOf object deeds).filterMap Deed.connection?

section Runs

variable [DecidableEq κ] [DecidableEq η] [DecidableEq γ]

/-- Ask one of several objects. -/
def performAt (objects : ι → Registry κ η γ) (object : ι) (deed : Deed κ η γ) :
    Answer × (ι → Registry κ η γ) :=
  let outcome := (objects object).perform deed
  (outcome.1, Function.update objects object outcome.2)

/-- The tables after each deed of a list was asked of its object. -/
def performEach (objects : ι → Registry κ η γ) (deeds : List (ι × Deed κ η γ)) :
    ι → Registry κ η γ :=
  deeds.foldl (fun objects entry => (performAt objects entry.1 entry.2).2) objects

/-- The tables of several objects to which this was done, from their creation on. -/
def runAll (names : ι → String) (deeds : List (ι × Deed κ η γ)) : ι → Registry κ η γ :=
  performEach (fun object => { name := names object }) deeds

/-- The object handed out the subscription at some point, for this connection. -/
def Issued (names : ι → String) (deeds : List (ι × Deed κ η γ)) (object : ι)
    (subscription : Subscription) (listener : Listener η γ) : Prop :=
  listener.token = subscription.token ∧ ∃ before after,
    deeds = before ++
      (object, .connect subscription.signal listener.handler listener.context) :: after ∧
    (performAt (runAll names before) object
      (.connect subscription.signal listener.handler listener.context)).1 =
        .subscribed subscription

/-- The object refuses to end the subscription, and nothing changes. -/
def Rejects (objects : ι → Registry κ η γ) (object : ι) (subscription : Subscription) : Prop :=
  performAt objects object (.unsubscribe subscription) =
    (.refused (.notFound
      s!"subscription to signal {subscription.signal} on {(objects object).name}"), objects)

/-- The object ends the subscription: the connection goes, and nothing else changes. -/
def Ends (objects : ι → Registry κ η γ) (object : ι) (subscription : Subscription)
    (listener : Listener η γ) : Prop :=
  ∃ front back after,
    (objects object).listeners subscription.signal = front ++ listener :: back ∧
    performAt objects object (.unsubscribe subscription) =
      (.done, Function.update objects object after) ∧
    (objects object).Rewired subscription.signal (front ++ back) after

/-- Whatever subscription was handed out, all objects but the one that did refuse it, and so does
that one unless the connection is still there. -/
def ActOnIssuers (names : ι → String) (deeds : List (ι × Deed κ η γ)) : Prop :=
  ∀ issuer subscription listener, Issued names deeds issuer subscription listener →
    ∀ object, (object ≠ issuer ∨
        listener ∉ (runAll names deeds object).listeners subscription.signal) →
      Rejects (runAll names deeds) object subscription

end Runs

/-! ### Numbers of connections -/

namespace Log

variable [DecidableEq η] [DecidableEq γ]

/-- Only what is connected is added to the connections made. -/
theorem made_note (log : Log κ η γ) (deed : Deed κ η γ) :
    (log.note deed).made = log.made ++ (deed.connection?.map fun (signal, handler, context) =>
      (signal, (⟨log.made.length, handler, context⟩ : Listener η γ))).toList := by
  cases deed with
  | connect signal handler context => rfl
  | disconnect signal handler context =>
      rw [note]
      split <;> exact (List.append_nil _).symm
  | register command handler => exact (List.append_nil _).symm
  | unsubscribe subscription => exact (List.append_nil _).symm
  | disconnectAll signal => exact (List.append_nil _).symm

/-- The connections made are those asked for, numbered one after the other. -/
theorem made_ofDeeds (deeds : List (Deed κ η γ)) :
    (ofDeeds deeds).made = (deeds.filterMap Deed.connection?).mapIdx
      fun token (signal, handler, context) => (signal, ⟨token, handler, context⟩) := by
  induction deeds using List.reverseRecOn with
  | nil => rfl
  | append_singleton deeds deed ih =>
      have hnote : ofDeeds (deeds ++ [deed]) = (ofDeeds deeds).note deed := by
        rw [ofDeeds, List.foldl_append]
        rfl
      rw [hnote, made_note, List.filterMap_append, List.mapIdx_append, ← ih, ih, List.length_mapIdx]
      refine congrArg _ ?_
      rw [List.filterMap_cons]
      cases deed.connection? with
      | none => rfl
      | some connection => simp

theorem getElem?_made_ofDeeds {deeds : List (Deed κ η γ)} {token : Nat} {signal : UInt32}
    {listener : Listener η γ} :
    (ofDeeds deeds).made[token]? = some (signal, listener) ↔
      listener.token = token ∧ (deeds.filterMap Deed.connection?)[token]? =
        some (signal, listener.handler, listener.context) := by
  obtain ⟨number, handler, context⟩ := listener
  rw [made_ofDeeds, List.getElem?_mapIdx]
  cases (deeds.filterMap Deed.connection?)[token]? with
  | none => simp
  | some connection =>
      obtain ⟨signal', handler', context'⟩ := connection
      simp only [Option.map_some, Option.some.injEq, Prod.mk.injEq, Listener.mk.injEq]
      tauto

end Log

/-! ### One object among several -/

section Places

variable {deeds : List (ι × Deed κ η γ)} {object other : ι} {deed : Deed κ η γ}

theorem deedsOf_cons_self (rest : List (ι × Deed κ η γ)) :
    deedsOf object ((object, deed) :: rest) = deed :: deedsOf object rest :=
  List.filterMap_cons_some (if_pos rfl)

theorem deedsOf_cons_of_ne (h : other ≠ object) (rest : List (ι × Deed κ η γ)) :
    deedsOf object ((other, deed) :: rest) = deedsOf object rest :=
  List.filterMap_cons_none (if_neg h)

theorem connectionsOf_append (before after : List (ι × Deed κ η γ)) :
    connectionsOf object (before ++ after) =
      connectionsOf object before ++ connectionsOf object after := by
  rw [connectionsOf, deedsOf, List.filterMap_append, List.filterMap_append]
  rfl

variable {place : Nat} {signal : UInt32} {handler : η} {context : Option γ}

theorem getElem?_connectionsOf (before after : List (ι × Deed κ η γ)) :
    (connectionsOf object (before ++ (object, .connect signal handler context) :: after))[
      (connectionsOf object before).length]? = some (signal, handler, context) := by
  have hnew : connectionsOf object ((object, .connect signal handler context) :: after) =
      (signal, handler, context) :: connectionsOf object after := by
    rw [connectionsOf, deedsOf_cons_self]
    rfl
  rw [connectionsOf_append, hnew, List.getElem?_append_right (Nat.le_refl _), Nat.sub_self]
  rfl

theorem connection_of_getElem?
    (h : (connectionsOf object [(other, deed)])[place]? = some (signal, handler, context)) :
    place = 0 ∧ other = object ∧ deed = .connect signal handler context := by
  obtain rfl : other = object := by
    by_contra hother
    rw [connectionsOf, deedsOf_cons_of_ne hother] at h
    cases h
  rw [connectionsOf, deedsOf_cons_self] at h
  cases deed with
  | connect =>
      cases place with
      | zero =>
          cases h
          exact ⟨rfl, rfl, rfl⟩
      | succ => cases h
  | register | disconnect | unsubscribe | disconnectAll => cases h

/-- What was connected to an object is found in the run. -/
theorem exists_of_getElem?_connectionsOf
    (h : (connectionsOf object deeds)[place]? = some (signal, handler, context)) :
    ∃ before after, deeds = before ++ (object, .connect signal handler context) :: after ∧
      (connectionsOf object before).length = place := by
  induction deeds using List.reverseRecOn with
  | nil => cases h
  | append_singleton deeds entry ih =>
      rw [connectionsOf_append, List.getElem?_append] at h
      split at h
      · obtain ⟨before, after, rfl, hplace⟩ := ih h
        exact ⟨before, after ++ [entry], by rw [List.append_assoc, List.cons_append], hplace⟩
      · next hlength =>
        obtain ⟨hplace, hasked, hdeed⟩ := connection_of_getElem? h
        exact ⟨deeds, [], by rw [← hasked, ← hdeed], by omega⟩

end Places

section Steps

variable [DecidableEq κ] [DecidableEq η] [DecidableEq γ]
  {names : ι → String} {deeds : List (ι × Deed κ η γ)} {object : ι} {subscription : Subscription}
  {listener : Listener η γ}

/-- What is asked of other objects makes no difference to an object. -/
theorem performEach_apply (objects : ι → Registry κ η γ) (deeds : List (ι × Deed κ η γ))
    (object : ι) :
    performEach objects deeds object = (objects object).performAll (deedsOf object deeds) := by
  induction deeds generalizing objects with
  | nil => rfl
  | cons entry rest ih =>
      obtain ⟨asked, deed⟩ := entry
      refine (ih (performAt objects asked deed).2).trans ?_
      by_cases hasked : asked = object
      · rw [hasked, deedsOf_cons_self]
        exact congrArg (performAll · (deedsOf object rest)) (Function.update_self _ _ _)
      · rw [deedsOf_cons_of_ne hasked]
        exact congrArg (performAll · (deedsOf object rest))
          (Function.update_of_ne (Ne.symm hasked) _ _)

theorem follows_runAll (names : ι → String) (deeds : List (ι × Deed κ η γ)) (object : ι) :
    (runAll names deeds object).Follows (Log.ofDeeds (deedsOf object deeds)) := by
  rw [runAll, performEach_apply]
  exact follows_run (names object) (deedsOf object deeds)

/-- A new connection gets the number of connections that the object had before. -/
theorem performAt_connect (signal : UInt32) (handler : η) (context : Option γ) :
    (performAt (runAll names deeds) object (.connect signal handler context)).1 =
      .subscribed ⟨signal, (connectionsOf object deeds).length⟩ := by
  have hcount : (Log.ofDeeds (deedsOf object deeds)).made.length =
      (connectionsOf object deeds).length := by
    rw [Log.made_ofDeeds, List.length_mapIdx]
    rfl
  rw [← hcount]
  exact ((follows_runAll names deeds object).connect signal handler context).2.1

/-- An object numbers its subscriptions by what was connected to it, whatever the others do. -/
theorem issued_iff : Issued names deeds object subscription listener ↔
    listener.token = subscription.token ∧ (connectionsOf object deeds)[subscription.token]? =
      some (subscription.signal, listener.handler, listener.context) := by
  refine and_congr_right fun _ => ⟨?_, fun hconnection => ?_⟩
  · rintro ⟨before, after, rfl, hanswer⟩
    rw [performAt_connect] at hanswer
    rw [← Answer.subscribed.inj hanswer]
    exact getElem?_connectionsOf before after
  · obtain ⟨before, after, hdeeds, hplace⟩ := exists_of_getElem?_connectionsOf hconnection
    refine ⟨before, after, hdeeds, ?_⟩
    rw [performAt_connect, hplace]

theorem issued_iff_made : Issued names deeds object subscription listener ↔
    (Log.ofDeeds (deedsOf object deeds)).made[subscription.token]? =
      some (subscription.signal, listener) :=
  issued_iff.trans Log.getElem?_made_ofDeeds.symm

/-- An object handed a subscription out for one connection at most. -/
theorem Issued.unique {other : Listener η γ} (h : Issued names deeds object subscription listener)
    (h' : Issued names deeds object subscription other) : listener = other := by
  rw [issued_iff_made] at h h'
  exact congrArg Prod.snd (Option.some.inj (h.symm.trans h'))

/-- An object ends a subscription that it handed out itself, if the connection is still there, and
refuses all others. -/
theorem ends_or_rejects (names : ι → String) (deeds : List (ι × Deed κ η γ)) (object : ι)
    (subscription : Subscription) :
    (∃ listener, Issued names deeds object subscription listener ∧
      listener ∈ (runAll names deeds object).listeners subscription.signal ∧
      Ends (runAll names deeds) object subscription listener) ∨
    (∀ listener, Issued names deeds object subscription listener →
      listener ∉ (runAll names deeds object).listeners subscription.signal) ∧
      Rejects (runAll names deeds) object subscription := by
  have heffect := ((follows_runAll names deeds object).unsubscribe subscription).2
  rw [Rejects]
  simp only [Ends, performAt]
  generalize (runAll names deeds object).perform (.unsubscribe subscription) = outcome at heffect ⊢
  obtain ⟨answer, after⟩ := outcome
  rcases heffect with ⟨hnone, rfl, rfl⟩ | ⟨front, listener, back, hlisteners, hmade, rfl, hafter⟩
  · refine .inr ⟨fun listener hissued hthere => hnone listener hthere hissued.1, ?_⟩
    rw [Function.update_eq_self]
  · refine .inl ⟨listener, issued_iff_made.mpr hmade, ?_, front, back, after, hlisteners, rfl,
      hafter⟩
    rw [hlisteners]
    exact List.mem_append_right _ List.mem_cons_self

theorem Ends.not_rejects {objects : ι → Registry κ η γ}
    (h : Ends objects object subscription listener) : ¬ Rejects objects object subscription := by
  obtain ⟨front, back, after, -, hdone, -⟩ := h
  intro hrefused
  cases congrArg Prod.fst (hdone.symm.trans hrefused)

/-- Subscriptions are refused by the objects that did not hand them out exactly as long as no
connection is there whose subscription another object handed out as well. -/
theorem actOnIssuers_iff (names : ι → String) (deeds : List (ι × Deed κ η γ)) :
    ActOnIssuers names deeds ↔
      ∀ issuer object subscription listener other, object ≠ issuer →
        Issued names deeds issuer subscription listener →
        Issued names deeds object subscription other →
        other ∉ (runAll names deeds object).listeners subscription.signal := by
  constructor
  · intro hlaw issuer object subscription listener other hobject hissued hother hthere
    have hrejects := hlaw issuer subscription listener hissued object (.inl hobject)
    rcases ends_or_rejects names deeds object subscription with ⟨_, -, -, hends⟩ | ⟨hgone, -⟩
    · exact hends.not_rejects hrejects
    · exact hgone other hother hthere
  · intro halone issuer subscription listener hissued object hcase
    rcases ends_or_rejects names deeds object subscription with
      ⟨other, hother, hthere, -⟩ | ⟨-, hrejects⟩
    · exfalso
      by_cases hobject : object = issuer
      · subst hobject
        rw [hissued.unique hother] at hcase
        exact hcase.elim (absurd rfl) (absurd hthere)
      · exact halone issuer object subscription listener other hobject hissued hother hthere
    · exact hrejects

/-- An object numbers its subscriptions by what was connected to it. It ends the connection of a
subscription that it handed out itself as long as that is there, whichever object the subscription
at hand comes from, and refuses all others. So subscriptions act on the objects that handed them out
and on no others exactly as long as no connection is there whose subscription another object handed
out as well. -/
theorem subscriptions_act_by_number (names : ι → String) (deeds : List (ι × Deed κ η γ)) :
    (∀ object subscription listener, Issued names deeds object subscription listener ↔
      listener.token = subscription.token ∧ (connectionsOf object deeds)[subscription.token]? =
        some (subscription.signal, listener.handler, listener.context)) ∧
    (∀ object subscription,
      (∃ listener, Issued names deeds object subscription listener ∧
        listener ∈ (runAll names deeds object).listeners subscription.signal ∧
        Ends (runAll names deeds) object subscription listener) ∨
      (∀ listener, Issued names deeds object subscription listener →
        listener ∉ (runAll names deeds object).listeners subscription.signal) ∧
        Rejects (runAll names deeds) object subscription) ∧
    (ActOnIssuers names deeds ↔
      ∀ issuer object subscription listener other, object ≠ issuer →
        Issued names deeds issuer subscription listener →
        Issued names deeds object subscription other →
        other ∉ (runAll names deeds object).listeners subscription.signal) :=
  ⟨fun _ _ _ => issued_iff, ends_or_rejects names deeds, actOnIssuers_iff names deeds⟩

end Steps

/-- Two objects with a connection each, to the same signal. -/
def sameSignal : List (Bool × Deed String String String) :=
  [(false, .connect 1 "f" none), (true, .connect 1 "g" none)]

/-- The subscription of the first object ends the only connection of the second one. -/
theorem not_actOnIssuers_sameSignal :
    let names (second : Bool) : String := if second then "b" else "a"
    let outcome := performAt (runAll names sameSignal) true (.unsubscribe ⟨1, 0⟩)
    Issued names sameSignal false ⟨1, 0⟩ ⟨0, "f", none⟩ ∧ outcome.1 = .done ∧
      (outcome.2 true).count 1 = 0 ∧ (outcome.2 false).count 1 = 1 ∧
      ¬ ActOnIssuers names sameSignal := by
  intro names outcome
  have hissued : Issued names sameSignal false ⟨1, 0⟩ ⟨0, "f", none⟩ := ⟨rfl, [], _, rfl, rfl⟩
  have hdone : outcome.1 = .done := rfl
  refine ⟨hissued, hdone, rfl, rfl, fun hlaw => ?_⟩
  have hrejects := hlaw false ⟨1, 0⟩ _ hissued true (.inl (by decide))
  exact Answer.noConfusion (hdone.symm.trans (congrArg Prod.fst hrejects))

end Registry

end MediaCatalog
