import Mathlib.Data.List.Nodup
import Mathlib.Data.List.Range
import Mathlib.Logic.Function.Basic
import MediaCatalog.Proofs.Object.Order

/-!
What was ever asked of the tables of one object. A log only grows: it keeps every connection that
was made, the numbers of those that were taken off, and every handler that was registered. The
tables are what a log of all deeds leaves over, whatever was done and in whatever order.
-/

namespace MediaCatalog

namespace Registry

variable {κ η γ : Type}

/-! ### Deeds -/

/-- What can be asked of the tables of an object. -/
inductive Deed (κ η γ : Type) where
  | register (command : UInt32) (handler : κ)
  | connect (signal : UInt32) (handler : η) (context : Option γ)
  | disconnect (signal : UInt32) (handler : η) (context : Option γ)
  | unsubscribe (subscription : Subscription)
  | disconnectAll (signal : UInt32)

/-- What a deed answers. -/
inductive Answer where
  | done
  | subscribed (subscription : Subscription)
  /-- So many connections were taken off. -/
  | removed (count : Nat)
  | refused (cause : Error)

/-- Keep the tables when they are not to change. -/
def settle (registry : Registry κ η γ) : Except Error (Registry κ η γ) → Answer × Registry κ η γ
  | .ok changed => (.done, changed)
  | .error cause => (.refused cause, registry)

section Runs

variable [DecidableEq κ] [DecidableEq η] [DecidableEq γ]

def perform (registry : Registry κ η γ) : Deed κ η γ → Answer × Registry κ η γ
  | .register command handler => registry.settle (registry.register command handler)
  | .connect signal handler context =>
    let (subscription, changed) := registry.connect signal handler context
    (.subscribed subscription, changed)
  | .disconnect signal handler context =>
    registry.settle (registry.disconnect signal handler context)
  | .unsubscribe subscription => registry.settle (registry.unsubscribe subscription)
  | .disconnectAll signal =>
    let (count, changed) := registry.disconnectAll signal
    (.removed count, changed)

/-- The tables after a list of deeds. -/
def performAll (registry : Registry κ η γ) (deeds : List (Deed κ η γ)) : Registry κ η γ :=
  deeds.foldl (fun registry deed => (registry.perform deed).2) registry

/-- The tables of an object to which this was done, from its creation on. -/
def run (name : String) (deeds : List (Deed κ η γ)) : Registry κ η γ :=
  performAll { name } deeds

end Runs

/-! ### The log -/

/-- What was ever asked of an object. The connections have their places in the log as numbers. -/
structure Log (κ η γ : Type) where
  /-- The handlers that were to be registered, with their commands. -/
  registered : List (UInt32 × κ) := []
  /-- The connections that were made, with their signals. -/
  made : List (UInt32 × Listener η γ) := []
  /-- The numbers of the connections that were taken off. -/
  ended : List Nat := []
  tokens_made : made.map (·.2.token) = List.range made.length := by rfl
  ended_made : ∀ token ∈ ended, token < made.length := by simp

namespace Log

/-- The connections made on a signal less those taken off. -/
def live (log : Log κ η γ) (signal : UInt32) : List (Listener η γ) :=
  (log.made.filter fun (place, listener) => place = signal ∧ listener.token ∉ log.ended).map
    Prod.snd

/-- The first handler that was registered for a command. -/
def first? (log : Log κ η γ) (command : UInt32) : Option κ :=
  (log.registered.find? (·.1 = command)).map (·.2)

variable {log : Log κ η γ} {signal : UInt32} {listener : Listener η γ}

theorem mem_live : listener ∈ log.live signal ↔
    (signal, listener) ∈ log.made ∧ listener.token ∉ log.ended := by
  simp [live]

theorem made_inj {entry entry' : UInt32 × Listener η γ} (hentry : entry ∈ log.made)
    (hentry' : entry' ∈ log.made) (htoken : entry.2.token = entry'.2.token) : entry = entry' := by
  have hnodup : (log.made.map (·.2.token)).Nodup := log.tokens_made ▸ List.nodup_range
  exact List.inj_on_of_nodup_map hnodup hentry hentry' htoken

/-- The number of a connection is its place in the log. -/
theorem token_eq {place : Nat} (h : log.made[place]? = some (signal, listener)) :
    listener.token = place := by
  obtain ⟨hplace, hentry⟩ := List.getElem?_eq_some_iff.mp h
  have htokens : (log.made.map (·.2.token))[place]? = (List.range log.made.length)[place]? := by
    rw [log.tokens_made]
  simpa [hplace, hentry] using htokens

theorem getElem?_token (h : (signal, listener) ∈ log.made) :
    log.made[listener.token]? = some (signal, listener) := by
  obtain ⟨place, hentry⟩ := List.mem_iff_getElem?.mp h
  rwa [token_eq hentry]

theorem token_lt (h : (signal, listener) ∈ log.made) : listener.token < log.made.length :=
  (List.getElem?_eq_some_iff.mp (getElem?_token h)).1

/-- Take off the connections of a signal that a test accepts. -/
def without (log : Log κ η γ) (signal : UInt32) (test : Listener η γ → Bool) : Log κ η γ :=
  { log with
    ended := log.ended ++ ((log.live signal).filter test).map (·.token)
    ended_made := by
      intro token htoken
      rcases List.mem_append.mp htoken with hold | hnew
      · exact log.ended_made token hold
      · obtain ⟨listener, hlistener, rfl⟩ := List.mem_map.mp hnew
        exact token_lt (mem_live.mp (List.mem_of_mem_filter hlistener)).1 }

section Notes

variable [DecidableEq η] [DecidableEq γ]

/-- The latest connection of a handler with a context. -/
def latest? (log : Log κ η γ) (signal : UInt32) (handler : η) (context : Option γ) :
    Option (Listener η γ) :=
  ((log.live signal).filter fun listener =>
    listener.handler = handler ∧ listener.context = context).getLast?

/-- Put a deed into the log. -/
def note (log : Log κ η γ) : Deed κ η γ → Log κ η γ
  | .register command handler =>
    { log with registered := log.registered ++ [(command, handler)] }
  | .connect signal handler context =>
    { log with
      made := log.made ++ [(signal, ⟨log.made.length, handler, context⟩)]
      tokens_made := by simp [log.tokens_made, List.range_succ]
      ended_made := by
        intro token htoken
        have hmade : token < log.made.length := log.ended_made token htoken
        simp only [List.length_append, List.length_singleton]
        omega }
  | .disconnect signal handler context =>
    match log.latest? signal handler context with
    | none => log
    | some latest => log.without signal (·.token = latest.token)
  | .unsubscribe subscription => log.without subscription.signal (·.token = subscription.token)
  | .disconnectAll signal => log.without signal fun _ => true

/-- The log of everything that was done to an object. -/
def ofDeeds (deeds : List (Deed κ η γ)) : Log κ η γ :=
  deeds.foldl note {}

end Notes

theorem mem_ended_without {other : UInt32} {test : Listener η γ → Bool}
    (hmade : (other, listener) ∈ log.made) :
    listener.token ∈ (log.without signal test).ended ↔
      listener.token ∈ log.ended ∨ (other = signal ∧ test listener = true) := by
  constructor
  · intro hended
    rcases List.mem_append.mp hended with hold | hnew
    · exact .inl hold
    · obtain ⟨gone, hgone, htoken⟩ := List.mem_map.mp hnew
      obtain ⟨hgone, htest⟩ := List.mem_filter.mp hgone
      obtain ⟨rfl, rfl⟩ := Prod.mk.inj (made_inj (mem_live.mp hgone).1 hmade htoken)
      exact .inr ⟨rfl, htest⟩
  · rintro (hold | ⟨rfl, htest⟩)
    · exact List.mem_append_left _ hold
    · by_cases hold : listener.token ∈ log.ended
      · exact List.mem_append_left _ hold
      · exact List.mem_append_right _ (List.mem_map_of_mem
          (List.mem_filter.mpr ⟨mem_live.mpr ⟨hmade, hold⟩, htest⟩))

/-- Connections that are taken off take no others with them. -/
theorem live_without (log : Log κ η γ) (signal : UInt32) (test : Listener η γ → Bool) :
    (log.without signal test).live =
      Function.update log.live signal ((log.live signal).filter (!test ·)) := by
  ext1 other
  have hlive : (log.without signal test).live other =
      (log.made.filter fun (place, listener) => place = other ∧
        ¬(listener.token ∈ log.ended ∨ (other = signal ∧ test listener))).map Prod.snd := by
    refine congrArg (List.map Prod.snd) (List.filter_congr ?_)
    rintro ⟨place, listener⟩ hmade
    refine decide_eq_decide.mpr (and_congr_right fun hplace => not_congr ?_)
    exact mem_ended_without (hplace ▸ hmade)
  rw [hlive]
  by_cases hother : other = signal
  · subst hother
    rw [Function.update_self, live, List.filter_map, List.filter_filter]
    refine congrArg (List.map Prod.snd) (List.filter_congr fun entry _ => ?_)
    simp [Bool.and_comm, Bool.and_left_comm]
  · rw [Function.update_of_ne hother, live]
    simp [hother]

theorem live_connect [DecidableEq η] [DecidableEq γ] (log : Log κ η γ) (signal : UInt32)
    (handler : η) (context : Option γ) :
    (log.note (.connect signal handler context)).live = Function.update log.live signal
      (log.live signal ++ [⟨log.made.length, handler, context⟩]) := by
  have hnew : log.made.length ∉ log.ended := fun hended =>
    Nat.lt_irrefl _ (log.ended_made _ hended)
  ext1 other
  have hlive : (log.note (.connect signal handler context)).live other = log.live other ++
      ([(signal, ⟨log.made.length, handler, context⟩)].filter fun (place, listener) =>
        place = other ∧ listener.token ∉ log.ended).map Prod.snd := by
    rw [live, live, ← List.map_append, ← List.filter_append]
    rfl
  rw [hlive]
  by_cases hother : other = signal
  · subst hother
    simp [hnew]
  · simp [hother, Ne.symm hother]

/-- Numbers tell the connections of a signal apart. -/
theorem filter_live {front back : List (Listener η γ)}
    (hlive : log.live signal = front ++ listener :: back) :
    (log.live signal).filter (fun other => !decide (other.token = listener.token)) =
      front ++ back := by
  have hnodup : ((log.live signal).map (·.token)).Nodup := by
    have hsublist : ((log.live signal).map (·.token)).Sublist (log.made.map (·.2.token)) := by
      rw [live, List.map_map]
      exact List.filter_sublist.map _
    exact (log.tokens_made ▸ List.nodup_range).sublist hsublist
  rw [hlive, List.map_append, List.map_cons, List.nodup_middle, List.nodup_cons] at hnodup
  have hother (other) (hmem : other ∈ front ++ back) : other.token ≠ listener.token := by
    rintro htoken
    rw [← htoken, ← List.map_append] at hnodup
    exact hnodup.1 (List.mem_map_of_mem hmem)
  rw [hlive, List.filter_append, List.filter_cons_of_neg (by simp), ← List.filter_append]
  exact List.filter_eq_self.mpr fun other hmem => by simpa using hother other hmem

section Latest

variable [DecidableEq η] [DecidableEq γ] {handler : η} {context : Option γ}

theorem latest?_eq_none (h : ∀ listener ∈ log.live signal,
    decide (listener.handler = handler ∧ listener.context = context) = false) :
    log.latest? signal handler context = none := by
  rw [latest?, List.getLast?_eq_none_iff]
  exact List.filter_eq_nil_iff.mpr fun listener hlistener =>
    Bool.eq_false_iff.mp (h listener hlistener)

theorem latest?_eq_some {front back : List (Listener η γ)}
    (hlive : log.live signal = front ++ listener :: back)
    (hlistener : decide (listener.handler = handler ∧ listener.context = context) = true)
    (hback : ∀ newer ∈ back,
      decide (newer.handler = handler ∧ newer.context = context) = false) :
    log.latest? signal handler context = some listener := by
  have hnone : back.filter (fun newer =>
      decide (newer.handler = handler ∧ newer.context = context)) = [] :=
    List.filter_eq_nil_iff.mpr fun newer hnewer => Bool.eq_false_iff.mp (hback newer hnewer)
  rw [latest?, hlive, List.filter_append, List.filter_cons, if_pos hlistener, hnone]
  exact List.getLast?_concat

end Latest

section Growth

variable [DecidableEq η] [DecidableEq γ] {token : Nat}

/-- What was taken off stays off. -/
theorem ended_note (h : token ∈ log.ended) (deed : Deed κ η γ) :
    token ∈ (log.note deed).ended := by
  cases deed with
  | register command handler => exact h
  | connect signal handler context => exact h
  | disconnect signal handler context =>
    rw [note]
    split
    · exact h
    · exact List.mem_append_left _ h
  | unsubscribe subscription => exact List.mem_append_left _ h
  | disconnectAll signal => exact List.mem_append_left _ h

theorem ended_foldl (h : token ∈ log.ended) (deeds : List (Deed κ η γ)) :
    token ∈ (deeds.foldl note log).ended := by
  induction deeds generalizing log with
  | nil => exact h
  | cons deed deeds ih => exact ih (ended_note h deed)

/-- Handlers that are registered later come too late. -/
theorem first?_register (log : Log κ η γ) (command : UInt32) (handler : κ) (other : UInt32) :
    (log.note (.register command handler)).first? other =
      (log.first? other).or (if command = other then some handler else none) := by
  show ((log.registered ++ [(command, handler)]).find? (·.1 = other)).map (·.2) = _
  rw [List.find?_append, Option.map_or, first?]
  by_cases hother : command = other
  · simp [hother]
  · simp [hother]

end Growth

end Log

/-! ### What a deed does -/

/-- Only the connections of one signal changed. -/
structure Rewired (registry : Registry κ η γ) (signal : UInt32)
    (listeners : List (Listener η γ)) (after : Registry κ η γ) : Prop where
  name : after.name = registry.name
  commands : after.commands = registry.commands
  listeners : after.listeners = Function.update registry.listeners signal listeners

theorem listeners_withConnections (registry : Registry κ η γ) (signal : UInt32)
    (listeners : List (Listener η γ)) :
    (registry.withConnections signal listeners.reverse).listeners =
      Function.update registry.listeners signal listeners := by
  ext1 other
  rw [Registry.listeners, connections_withConnections, Function.update_apply]
  by_cases hother : other = signal
  · simp [hother]
  · simp [hother, Ne.symm hother, Registry.listeners]

theorem listeners_connect (registry : Registry κ η γ) (signal : UInt32) (handler : η)
    (context : Option γ) : (registry.connect signal handler context).2.listeners =
      Function.update registry.listeners signal
        (registry.listeners signal ++ [⟨registry.nextToken, handler, context⟩]) := by
  ext1 other
  rw [Registry.listeners, connections_connect, Function.update_apply]
  by_cases hother : other = signal
  · simp [hother, Registry.listeners]
  · simp [hother, Ne.symm hother, Registry.listeners]

/-- Nothing is taken off, or the newest of the connections that the test accepts. -/
theorem removeFirst?_cases (registry : Registry κ η γ) (signal : UInt32)
    (test : Listener η γ → Bool) :
    (registry.removeFirst? signal test = none ∧
      ∀ listener ∈ registry.listeners signal, test listener = false) ∨
    ∃ front listener back, registry.listeners signal = front ++ listener :: back ∧
      test listener = true ∧ (∀ newer ∈ back, test newer = false) ∧
      registry.removeFirst? signal test =
        some (registry.withConnections signal (front ++ back).reverse) := by
  rw [removeFirst?, Registry.listeners]
  cases hany : (registry.connections signal).any test with
  | false =>
    refine .inl ⟨rfl, fun listener hlistener => ?_⟩
    exact Bool.eq_false_iff.mpr (List.any_eq_false.mp hany listener (List.mem_reverse.mp hlistener))
  | true =>
    obtain ⟨matching, hmatching, htest⟩ := List.any_eq_true.mp hany
    obtain ⟨listener, newer, older, hnewer, hlistener, hconnections, herase⟩ :=
      List.exists_of_eraseP hmatching htest
    refine .inr ⟨older.reverse, listener, newer.reverse, ?_, hlistener, ?_, ?_⟩
    · simp [hconnections]
    · exact fun other hother => Bool.eq_false_iff.mpr (hnewer other (List.mem_reverse.mp hother))
    · simp [herase]

/-- The tables are what the log leaves over. -/
structure Follows (registry : Registry κ η γ) (log : Log κ η γ) : Prop where
  listeners : registry.listeners = log.live
  commands : ∀ command, registry.commands[command]? = log.first? command
  nextToken : registry.nextToken = log.made.length

namespace Follows

variable {registry : Registry κ η γ} {log : Log κ η γ} {signal : UInt32}

/-- Connections of a signal are taken off the tables and ended in the log. -/
theorem withConnections (h : registry.Follows log) {test : Listener η γ → Bool}
    {listeners : List (Listener η γ)}
    (hkept : (log.live signal).filter (!test ·) = listeners) :
    (registry.withConnections signal listeners.reverse).Follows (log.without signal test) where
  listeners := by rw [listeners_withConnections, Log.live_without, hkept, h.listeners]
  commands := h.commands
  nextToken := h.nextToken

/-- One connection is taken off the tables and ended in the log. -/
theorem takeOff (h : registry.Follows log) {listener : Listener η γ}
    {front back : List (Listener η γ)}
    (hlisteners : registry.listeners signal = front ++ listener :: back) :
    (registry.withConnections signal (front ++ back).reverse).Follows
      (log.without signal (·.token = listener.token)) :=
  h.withConnections (Log.filter_live (h.listeners ▸ hlisteners))

/-- A connection that was made and is not there any more was taken off. -/
theorem ended (h : registry.Follows log) {subscription : Subscription}
    {listener : Listener η γ}
    (hmade : log.made[subscription.token]? = some (subscription.signal, listener))
    (hgone : ∀ other ∈ registry.listeners subscription.signal,
      other.token ≠ subscription.token) : subscription.token ∈ log.ended := by
  have htoken := Log.token_eq hmade
  rw [h.listeners] at hgone
  by_contra hlive
  refine hgone listener (Log.mem_live.mpr ⟨List.mem_of_getElem? hmade, ?_⟩) htoken
  rwa [htoken]

end Follows

section Steps

variable [DecidableEq κ] [DecidableEq η] [DecidableEq γ]

/-- What a deed answers and does to the tables, by the log of what was done before. -/
def Effect (log : Log κ η γ) (registry : Registry κ η γ) :
    Deed κ η γ → Answer × Registry κ η γ → Prop
  | .register command handler, (answer, after) =>
    match log.first? command with
    | none =>
      answer = .done ∧
        after = { registry with commands := registry.commands.insert command handler }
    | some first =>
      after = registry ∧ answer = if first = handler then .done else .refused
        (.invalidArgument s!"command {command} already registered on {registry.name}")
  | .connect signal handler context, (answer, after) =>
    answer = .subscribed ⟨signal, log.made.length⟩ ∧
      registry.Rewired signal
        (registry.listeners signal ++ [⟨log.made.length, handler, context⟩]) after
  | .disconnect signal handler context, (answer, after) =>
    ((∀ listener ∈ registry.listeners signal,
        ¬(listener.handler = handler ∧ listener.context = context)) ∧
      answer = .refused (.notFound s!"handler for signal {signal} on {registry.name}") ∧
      after = registry) ∨
    ∃ front latest back, registry.listeners signal = front ++ latest :: back ∧
      (latest.handler = handler ∧ latest.context = context) ∧
      (∀ newer ∈ back, ¬(newer.handler = handler ∧ newer.context = context)) ∧
      answer = .done ∧ registry.Rewired signal (front ++ back) after
  | .unsubscribe subscription, (answer, after) =>
    ((∀ listener ∈ registry.listeners subscription.signal,
        listener.token ≠ subscription.token) ∧
      answer = .refused
        (.notFound s!"subscription to signal {subscription.signal} on {registry.name}") ∧
      after = registry) ∨
    ∃ front listener back,
      registry.listeners subscription.signal = front ++ listener :: back ∧
      log.made[subscription.token]? = some (subscription.signal, listener) ∧
      answer = .done ∧ registry.Rewired subscription.signal (front ++ back) after
  | .disconnectAll signal, (answer, after) =>
    answer = .removed (registry.listeners signal).length ∧ registry.Rewired signal [] after

namespace Follows

variable {registry : Registry κ η γ} {log : Log κ η γ}

theorem register (h : registry.Follows log) (command : UInt32) (handler : κ) :
    (registry.perform (.register command handler)).2.Follows
        (log.note (.register command handler)) ∧
      Effect log registry (.register command handler)
        (registry.perform (.register command handler)) := by
  rw [Effect, perform, Registry.register, h.commands command]
  cases hknown : log.first? command with
  | none =>
    refine ⟨⟨h.listeners, fun other => ?_, h.nextToken⟩, rfl, rfl⟩
    rw [Log.first?_register, settle, Std.TreeMap.getElem?_insert, h.commands other]
    by_cases hother : command = other
    · subst hother
      simp [hknown]
    · simp [hother]
  | some known =>
    -- The first handler stays, whichever is registered now.
    have hlate (other : UInt32) : registry.commands[other]? =
        (log.note (.register command handler)).first? other := by
      rw [Log.first?_register, h.commands other]
      by_cases hother : command = other
      · subst hother
        simp [hknown]
      · simp [hother]
    by_cases hsame : known = handler
    · simp only [hsame, if_true]
      exact ⟨⟨h.listeners, hlate, h.nextToken⟩, rfl, rfl⟩
    · simp only [hsame, if_false]
      exact ⟨⟨h.listeners, hlate, h.nextToken⟩, rfl, rfl⟩

theorem connect (h : registry.Follows log) (signal : UInt32) (handler : η) (context : Option γ) :
    (registry.perform (.connect signal handler context)).2.Follows
        (log.note (.connect signal handler context)) ∧
      Effect log registry (.connect signal handler context)
        (registry.perform (.connect signal handler context)) := by
  refine ⟨⟨?_, h.commands, ?_⟩, ?_, rfl, rfl, ?_⟩
  · rw [Log.live_connect, ← h.listeners, ← h.nextToken]
    exact registry.listeners_connect signal handler context
  · simp [perform, Registry.connect, Log.note, h.nextToken]
  · exact congrArg (fun token => Answer.subscribed ⟨signal, token⟩) h.nextToken
  · rw [← h.nextToken]
    exact registry.listeners_connect signal handler context

theorem disconnect (h : registry.Follows log) (signal : UInt32) (handler : η)
    (context : Option γ) :
    (registry.perform (.disconnect signal handler context)).2.Follows
        (log.note (.disconnect signal handler context)) ∧
      Effect log registry (.disconnect signal handler context)
        (registry.perform (.disconnect signal handler context)) := by
  rw [Effect, perform, Registry.disconnect, Log.note]
  rcases registry.removeFirst?_cases signal fun listener =>
    listener.handler = handler ∧ listener.context = context with
    ⟨hremove, hnone⟩ | ⟨front, latest, back, hlisteners, hlatest, hback, hremove⟩
  · rw [hremove, Log.latest?_eq_none (h.listeners ▸ hnone)]
    exact ⟨h, .inl ⟨fun listener hlistener => of_decide_eq_false (hnone listener hlistener),
      rfl, rfl⟩⟩
  · rw [hremove, Log.latest?_eq_some (h.listeners ▸ hlisteners) hlatest hback]
    exact ⟨h.takeOff hlisteners, .inr ⟨front, latest, back, hlisteners,
      of_decide_eq_true hlatest, fun newer hnewer => of_decide_eq_false (hback newer hnewer), rfl,
      rfl, rfl, registry.listeners_withConnections signal (front ++ back)⟩⟩

theorem unsubscribe (h : registry.Follows log) (subscription : Subscription) :
    (registry.perform (.unsubscribe subscription)).2.Follows
        (log.note (.unsubscribe subscription)) ∧
      Effect log registry (.unsubscribe subscription)
        (registry.perform (.unsubscribe subscription)) := by
  rw [Effect, perform, Registry.unsubscribe, Log.note]
  rcases registry.removeFirst?_cases subscription.signal
    fun listener => listener.token = subscription.token with
    ⟨hremove, hnone⟩ | ⟨front, listener, back, hlisteners, htoken, -, hremove⟩
  · rw [hremove]
    refine ⟨⟨?_, h.commands, h.nextToken⟩, .inl ⟨fun listener hlistener =>
      of_decide_eq_false (hnone listener hlistener), rfl, rfl⟩⟩
    have hkept : (log.live subscription.signal).filter
        (fun listener => !decide (listener.token = subscription.token)) =
          log.live subscription.signal :=
      List.filter_eq_self.mpr fun listener hlistener => by
        rw [hnone listener (h.listeners ▸ hlistener), Bool.not_false]
    rw [Log.live_without, hkept, Function.update_eq_self]
    exact h.listeners
  · have hmem : listener ∈ log.live subscription.signal := by
      rw [← h.listeners, hlisteners]
      exact List.mem_append_right _ List.mem_cons_self
    rw [hremove, ← of_decide_eq_true htoken]
    exact ⟨h.takeOff hlisteners, .inr ⟨front, listener, back, hlisteners,
      Log.getElem?_token (Log.mem_live.mp hmem).1, rfl,
      rfl, rfl, registry.listeners_withConnections subscription.signal (front ++ back)⟩⟩

theorem disconnectAll (h : registry.Follows log) (signal : UInt32) :
    (registry.perform (.disconnectAll signal)).2.Follows (log.note (.disconnectAll signal)) ∧
      Effect log registry (.disconnectAll signal)
        (registry.perform (.disconnectAll signal)) := by
  have hkept : (log.live signal).filter (fun _ => !true) = [] := List.filter_false _
  refine ⟨h.withConnections hkept, ?_, rfl, rfl, ?_⟩
  · simp [count, Registry.listeners]
  · exact registry.listeners_withConnections signal []

theorem perform (h : registry.Follows log) (deed : Deed κ η γ) :
    (registry.perform deed).2.Follows (log.note deed) ∧
      Effect log registry deed (registry.perform deed) := by
  cases deed with
  | register command handler => exact h.register command handler
  | connect signal handler context => exact h.connect signal handler context
  | disconnect signal handler context => exact h.disconnect signal handler context
  | unsubscribe subscription => exact h.unsubscribe subscription
  | disconnectAll signal => exact h.disconnectAll signal

theorem performAll (h : registry.Follows log) (deeds : List (Deed κ η γ)) :
    (registry.performAll deeds).Follows (deeds.foldl Log.note log) := by
  induction deeds generalizing registry log with
  | nil => exact h
  | cons deed deeds ih => exact ih (h.perform deed).1

end Follows

theorem follows_run (name : String) (deeds : List (Deed κ η γ)) :
    (run name deeds).Follows (Log.ofDeeds deeds) := by
  refine Follows.performAll ⟨?_, fun command => ?_, rfl⟩ deeds
  · ext1 signal
    rfl
  · exact Std.TreeMap.getElem?_emptyc

/-! ### Used subscriptions -/

/-- Ending the subscription again is refused and changes nothing. -/
def Spent (registry : Registry κ η γ) (subscription : Subscription) : Prop :=
  registry.perform (.unsubscribe subscription) =
    (.refused (.notFound s!"subscription to signal {subscription.signal} on {registry.name}"),
      registry)

namespace Follows

variable {registry : Registry κ η γ} {log : Log κ η γ} {subscription : Subscription}

theorem spent (h : registry.Follows log) (hended : subscription.token ∈ log.ended) :
    registry.Spent subscription := by
  have heffect := (h.perform (.unsubscribe subscription)).2
  rw [Spent]
  generalize registry.perform (.unsubscribe subscription) = outcome at heffect ⊢
  obtain ⟨answer, after⟩ := outcome
  rcases heffect with ⟨-, rfl, rfl⟩ | ⟨front, listener, back, hlisteners, hmade, -⟩
  · rfl
  · -- A connection that is still there was not taken off.
    have hlive : listener ∈ log.live subscription.signal := by
      rw [← h.listeners, hlisteners]
      exact List.mem_append_right _ List.mem_cons_self
    rw [← Log.token_eq hmade] at hended
    exact absurd hended (Log.mem_live.mp hlive).2

end Follows

/-- Connecting a handler and disconnecting it again leaves the connections as they were. -/
theorem connect_disconnect (registry : Registry κ η γ) (signal : UInt32) (handler : η)
    (context : Option γ) :
    ∃ after, (registry.perform (.connect signal handler context)).2.perform
        (.disconnect signal handler context) = (.done, after) ∧
      after.name = registry.name ∧ after.commands = registry.commands ∧
      after.listeners = registry.listeners := by
  set connected := (registry.connect signal handler context).2
  have hdisconnect : connected.disconnect signal handler context =
      .ok (connected.withConnections signal (registry.connections signal)) := by
    rw [Registry.disconnect, removeFirst?, connections_connect, if_pos rfl, List.any_cons,
      List.eraseP_cons]
    simp
  refine ⟨connected.withConnections signal (registry.connections signal), ?_, rfl, rfl, ?_⟩
  · exact congrArg connected.settle hdisconnect
  · rw [← List.reverse_reverse (registry.connections signal), listeners_withConnections,
      listeners_connect, Function.update_idem]
    exact Function.update_eq_self signal registry.listeners

/-! ### Whole runs -/

variable {deeds : List (Deed κ η γ)} {subscription : Subscription} {listener : Listener η γ}

theorem spent_run (name : String) (hended : subscription.token ∈ (Log.ofDeeds deeds).ended)
    (further : List (Deed κ η γ)) : (run name (deeds ++ further)).Spent subscription := by
  refine (follows_run name (deeds ++ further)).spent ?_
  rw [Log.ofDeeds, List.foldl_append]
  exact Log.ended_foldl hended further

/-- A subscription that was ended once is used up. -/
theorem spent_unsubscribe (name : String) (hmade : (Log.ofDeeds deeds).made[subscription.token]? =
      some (subscription.signal, listener)) (further : List (Deed κ η γ)) :
    (run name (deeds ++ .unsubscribe subscription :: further)).Spent subscription := by
  have hended : subscription.token ∈
      (Log.ofDeeds (deeds ++ [.unsubscribe subscription])).ended := by
    have htoken := Log.token_eq hmade
    rw [Log.ofDeeds, List.foldl_append, ← htoken]
    refine (Log.mem_ended_without (List.mem_of_getElem? hmade)).mpr (.inr ⟨rfl, ?_⟩)
    exact decide_eq_true htoken
  have hspent := spent_run name hended further
  rwa [List.append_assoc] at hspent

/-- Whatever was done to an object, its tables hold what the log of it leaves over. The handler that
a call reaches is the first that was registered. -/
theorem run_follows_log (name : String) (deeds : List (Deed κ η γ)) :
    let registry := run name deeds
    let log := Log.ofDeeds deeds
    (∀ signal, registry.listeners signal = log.live signal ∧
      registry.count signal = (log.live signal).length) ∧
    (∀ deed, Effect log registry deed (registry.perform deed)) ∧
    (∀ (subscription : Subscription) (listener : Listener η γ),
      log.made[subscription.token]? = some (subscription.signal, listener) →
      ∀ further : List (Deed κ η γ),
        ((∀ other ∈ registry.listeners subscription.signal, other.token ≠ subscription.token) →
          (run name (deeds ++ further)).Spent subscription) ∧
        (run name (deeds ++ .unsubscribe subscription :: further)).Spent subscription) ∧
    (∀ (signal : UInt32) (handler : η) (context : Option γ), ∃ after,
      (registry.perform (.connect signal handler context)).2.perform
          (.disconnect signal handler context) = (.done, after) ∧
        after.name = registry.name ∧ after.commands = registry.commands ∧
        after.listeners = registry.listeners) ∧
    (∀ command, registry.commands[command]? = log.first? command) ∧
    ∀ (deeds : List (Deed String SignalHandler String)) (reactions : Run.Reactions)
      (object : ObjectId) (command : UInt32) (args : List Value),
      Run.call reactions object (run name deeds) command args =
        match (Log.ofDeeds deeds).first? command with
        | none => return { args }
        | some handler => reactions.command object (run name deeds) handler { args } := by
  intro registry log
  have hfollows : registry.Follows log := follows_run name deeds
  refine ⟨fun signal => ⟨congrFun hfollows.listeners signal, ?_⟩,
    fun deed => (hfollows.perform deed).2, fun subscription listener hmade further => ⟨?_, ?_⟩,
    registry.connect_disconnect, hfollows.commands, fun deeds reactions object command args => ?_⟩
  · rw [← hfollows.listeners, Registry.listeners, List.length_reverse, count]
  · exact fun hgone => spent_run name (hfollows.ended hmade hgone) further
  · exact spent_unsubscribe name hmade further
  · rw [← (follows_run name deeds).commands command]
    rfl

end Steps

end Registry

end MediaCatalog
