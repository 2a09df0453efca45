import MediaCatalog.Proofs.Object.Snapshot

/-!
Chronicles of runs over objects. A chronicle has every moment of a run: the objects as they stand
after each action that makes no handler react, and whenever an action or an emission takes hold of
an object or lets go of it. It takes no part in the run: answers, objects and trace are those of a
run without it.
-/

namespace MediaCatalog

/-- Who holds a reference to an object, besides its handles. -/
inductive Hold where
  /-- An action is at work on the object. -/
  | action (object : ObjectId)
  /-- An emission runs the handlers of the object. -/
  | emission (object : ObjectId)
  deriving DecidableEq

def Hold.object : Hold → ObjectId
  | action object | emission object => object

/-- The objects at one time, and who holds on to them, the latest first. -/
structure Moment where
  space : ObjectSpace := {}
  holds : List Hold := []

/-- The moments of a run. -/
structure Chronicle where
  now : Moment := {}
  /-- The moments before, the latest first. -/
  past : List Moment := []

namespace Chronicle

/-- All moments, the latest first. -/
def moments (chronicle : Chronicle) : List Moment := chronicle.now :: chronicle.past

/-- The next moment. -/
def next (chronicle : Chronicle) (moment : Moment) : Chronicle :=
  { now := moment, past := chronicle.moments }

/-- The objects change. -/
def become (chronicle : Chronicle) (space : ObjectSpace) : Chronicle :=
  chronicle.next { chronicle.now with space }

/-- Somebody takes hold of an object. -/
def take (chronicle : Chronicle) (hold : Hold) : Chronicle :=
  chronicle.next
    { space := chronicle.now.space.retain hold.object, holds := hold :: chronicle.now.holds }

/-- Somebody lets go of an object. -/
def letGo (chronicle : Chronicle) (hold : Hold) : Chronicle :=
  chronicle.next
    { space := chronicle.now.space.release hold.object, holds := chronicle.now.holds.erase hold }

end Chronicle

/-- A run over the objects with a chronicle. -/
abbrev Chronicled := EStateM String Chronicle

namespace Chronicled

variable {α β : Type}

/-! ### Runs -/

/-- A run of which the chronicle has the end only. -/
def lift (body : Run α) : Chronicled α := fun chronicle =>
  match body chronicle.now.space with
  | .ok answer space => .ok answer (chronicle.become space)
  | .error panic space => .error panic (chronicle.become space)

/-- Hold a reference to an object while something runs. -/
def holding (hold : Hold) (body : Chronicled α) : Chronicled α := fun chronicle =>
  match body (chronicle.take hold) with
  | .ok answer chronicle => .ok answer (chronicle.letGo hold)
  | .error panic chronicle => .error panic (chronicle.letGo hold)

/-- How handlers react. -/
structure Reactions where
  signal : ObjectId → ObjectTables → Value → Listener SignalHandler String → Chronicled Unit
  command : ObjectId → ObjectTables → String → Arguments → Chronicled Arguments

def emit (reactions : Reactions) (object : ObjectId) (tables : ObjectTables) (signal : UInt32)
    (value : Value) : Chronicled Unit :=
  match tables.listeners signal with
  | [] => return
  | listeners =>
    holding (.emission object) (listeners.forM (reactions.signal object tables value))

def call (reactions : Reactions) (object : ObjectId) (tables : ObjectTables) (command : UInt32)
    (args : List Value) : Chronicled Arguments :=
  match tables.commands[command]? with
  | none => return { args }
  | some handler => reactions.command object tables handler { args }

def onObject (self : Option ObjectId) (handle : String)
    (body : ObjectId → ObjectTables → Chronicled ActionAnswer) : Chronicled ActionAnswer := do
  let chronicle ← get
  match chronicle.now.space.lookup? self handle with
  | none => return .noSuchHandle
  | some object =>
    match chronicle.now.space.objects[object]? with
    | none => return .noSuchHandle
    | some live => holding (.action object) (body object live.tables)

/-- Carry out an action; only a call or an emission makes handlers react. -/
def perform (reactions : Reactions) (self : Option ObjectId) : Action → Chronicled ActionAnswer
  | .call handle command args => onObject self handle fun object tables =>
    return .called (← call reactions object tables command args)
  | .emit handle signal value => onObject self handle fun object tables => do
    emit reactions object tables signal value
    return .emitted
  | action => lift (Run.perform Watched.idle self action)

theorem perform_of_calm {reactions : Reactions} {self : Option ObjectId} {action : Action}
    (h : Watched.calm action = true) :
    perform reactions self action = lift (Run.perform Watched.idle self action) := by
  cases action with
  | call | emit => cases h
  | _ => rfl

def program (reactions : Reactions) (self : ObjectId) : Program → Chronicled Unit
  | .done => return
  | .act action next => do
    let answer ← perform reactions (some self) action
    lift (Run.note (.performed action answer))
    program reactions self (next answer)

def reactions (behaviour : Behaviour) : (allowance : Nat) → Reactions
  | 0 =>
    { signal := fun object tables value listener =>
        lift ((Run.reactions behaviour 0).signal object tables value listener)
      command := fun object tables handler call =>
        lift ((Run.reactions behaviour 0).command object tables handler call) }
  | allowance + 1 =>
    let inner := reactions behaviour allowance
    { signal := fun object tables value listener =>
        match listener.handler with
        | .recorder tag => lift (Run.note (.recorded tag tables.name value))
        | .script name => do
          lift (Run.note (.handled name tables.name value listener.context))
          let trace := (← get).now.space.trace
          program inner object (behaviour.signal name value listener.context trace)
      command := fun object tables handler call => do
        lift (Run.note (.commanded handler tables.name call.args))
        let trace := (← get).now.space.trace
        program inner object (behaviour.command handler call.args trace)
        return behaviour.conclude handler call }

/-- An action from outside. -/
def step (behaviour : Behaviour) (allowance : Nat) (action : Action) : Chronicled ActionAnswer :=
  perform (reactions behaviour allowance) none action

/-- The chronicle after a run, whether it ended in a panic or not. -/
def after : EStateM.Result String Chronicle α → Chronicle
  | .ok _ chronicle => chronicle
  | .error _ chronicle => chronicle

/-- The chronicle of some actions from outside, from the beginning. A panic ends the action that it
happens in. -/
def run (behaviour : Behaviour) (allowance : Nat) (actions : List Action) : Chronicle :=
  actions.foldl (fun chronicle action => after (step behaviour allowance action chronicle)) {}

/-! ### The run without the chronicle -/

/-- What came of a run, without the chronicle. -/
def plain : EStateM.Result String Chronicle α → EStateM.Result String ObjectSpace α
  | .ok answer chronicle => .ok answer chronicle.now.space
  | .error panic chronicle => .error panic chronicle.now.space

/-- A run with a chronicle goes as one without. -/
def Shadows (chronicled : Chronicled α) (body : Run α) : Prop :=
  ∀ chronicle, plain (chronicled chronicle) = body chronicle.now.space

namespace Shadows

theorem pure (answer : α) : Shadows (Pure.pure answer) (Pure.pure answer) := fun _ => rfl

theorem lift (body : Run α) : Shadows (Chronicled.lift body) body := by
  intro chronicle
  rw [Chronicled.lift]
  cases body chronicle.now.space <;> rfl

variable {chronicled : Chronicled α} {body : Run α}

theorem bind (h : Shadows chronicled body) {chronicledNext : α → Chronicled β}
    {bodyNext : α → Run β} (hnext : ∀ answer, Shadows (chronicledNext answer) (bodyNext answer)) :
    Shadows (chronicled >>= chronicledNext) (body >>= bodyNext) := by
  intro chronicle
  have hbody := h chronicle
  simp only [Bind.bind, EStateM.bind, ← hbody]
  cases chronicled chronicle with
  | ok answer later => exact hnext answer later
  | error panic later => rfl

theorem holding (h : Shadows chronicled body) (hold : Hold) :
    Shadows (Chronicled.holding hold chronicled) (Run.holding hold.object body) := by
  intro chronicle
  have hbody := h (chronicle.take hold)
  rw [Chronicled.holding, Run.holding]
  show _ = (match body (chronicle.take hold).now.space with
    | .ok answer space => .ok answer (space.release hold.object)
    | .error panic space => .error panic (space.release hold.object) :
      EStateM.Result String ObjectSpace α)
  rw [← hbody]
  cases chronicled (chronicle.take hold) <;> rfl

/-- Whoever looks at the objects sees the same. -/
theorem get_bind {chronicledNext : Chronicle → Chronicled β} {bodyNext : ObjectSpace → Run β}
    (hnext : ∀ chronicle : Chronicle,
      Shadows (chronicledNext chronicle) (bodyNext chronicle.now.space)) :
    Shadows (get >>= chronicledNext) (get >>= bodyNext) :=
  fun chronicle => hnext chronicle chronicle

theorem onObject (self : Option ObjectId) (handle : String)
    {chronicledBody : ObjectId → ObjectTables → Chronicled ActionAnswer}
    {body : ObjectId → ObjectTables → Run ActionAnswer}
    (hbody : ∀ object tables, Shadows (chronicledBody object tables) (body object tables)) :
    Shadows (Chronicled.onObject self handle chronicledBody) (Run.onObject self handle body) := by
  refine get_bind fun chronicle => ?_
  cases chronicle.now.space.lookup? self handle with
  | none => exact pure _
  | some object =>
      dsimp only
      cases chronicle.now.space.objects[object]? with
      | none => exact pure _
      | some live => exact (hbody object live.tables).holding (.action object)

theorem forM {items : List β} {chronicledBody : β → Chronicled Unit} {body : β → Run Unit}
    (hbody : ∀ item, Shadows (chronicledBody item) (body item)) :
    Shadows (items.forM chronicledBody) (items.forM body) := by
  induction items with
  | nil => exact pure ()
  | cons item items ih => exact (hbody item).bind fun _ => ih

end Shadows

/-- Reactions that go as those without a chronicle. -/
structure Reactions.Shadow (chronicled : Reactions) (bare : Run.Reactions) : Prop where
  signal : ∀ object tables value listener,
    Shadows (chronicled.signal object tables value listener)
      (bare.signal object tables value listener)
  command : ∀ object tables handler call,
    Shadows (chronicled.command object tables handler call)
      (bare.command object tables handler call)

namespace Reactions.Shadow

variable {chronicled : Reactions} {bare : Run.Reactions} (h : chronicled.Shadow bare)
include h

theorem emit (object : ObjectId) (tables : ObjectTables) (signal : UInt32) (value : Value) :
    Shadows (Chronicled.emit chronicled object tables signal value)
      (Run.emit bare object tables signal value) := by
  rw [Chronicled.emit, Run.emit]
  cases tables.listeners signal with
  | nil => exact .pure ()
  | cons listener listeners =>
      exact (Shadows.forM fun listener => h.signal object tables value listener).holding
        (.emission object)

theorem call (object : ObjectId) (tables : ObjectTables) (command : UInt32) (args : List Value) :
    Shadows (Chronicled.call chronicled object tables command args)
      (Run.call bare object tables command args) := by
  rw [Chronicled.call, Run.call]
  cases tables.commands[command]? with
  | none => exact .pure _
  | some handler => exact h.command object tables handler { args }

theorem perform (self : Option ObjectId) (action : Action) :
    Shadows (Chronicled.perform chronicled self action) (Run.perform bare self action) := by
  cases action with
  | call handle command args =>
      exact .onObject self handle fun object tables =>
        (h.call object tables command args).bind fun call => .pure (.called call)
  | emit handle signal value =>
      exact .onObject self handle fun object tables =>
        (h.emit object tables signal value).bind fun _ => .pure .emitted
  | _ =>
      rw [perform_of_calm rfl, Watched.perform_idle rfl]
      exact .lift _

theorem program (self : ObjectId) (program : Program) :
    Shadows (Chronicled.program chronicled self program) (Run.program bare self program) := by
  induction program with
  | done => exact .pure _
  | act action next ih =>
      exact (h.perform (some self) action).bind fun answer =>
        (Shadows.lift _).bind fun _ => ih answer

end Reactions.Shadow

theorem reactions_shadow (behaviour : Behaviour) (allowance : Nat) :
    (reactions behaviour allowance).Shadow (Run.reactions behaviour allowance) := by
  induction allowance with
  | zero =>
      exact ⟨fun object tables value listener =>
          .lift ((Run.reactions behaviour 0).signal object tables value listener),
        fun object tables handler call =>
          .lift ((Run.reactions behaviour 0).command object tables handler call)⟩
  | succ allowance ih =>
      refine ⟨fun object tables value listener => ?_, fun object tables handler call => ?_⟩
      · obtain ⟨token, handler, context⟩ := listener
        cases handler with
        | recorder tag => exact .lift (Run.note (.recorded tag tables.name value))
        | script name =>
            exact (Shadows.lift _).bind fun _ => .get_bind fun _ => ih.program object _
      · exact (Shadows.lift _).bind fun _ => .get_bind fun _ =>
          (ih.program object _).bind fun _ => .pure _

/-- A chronicle takes no part in a run. -/
theorem step_shadows (behaviour : Behaviour) (allowance : Nat) (action : Action) :
    Shadows (step behaviour allowance action) (Run.step behaviour allowance action) :=
  (reactions_shadow behaviour allowance).perform none action

theorem objectsAfter_plain (result : EStateM.Result String Chronicle α) :
    Run.objectsAfter (plain result) = (after result).now.space := by
  cases result <;> rfl

/-- The last moment of a chronicle has the objects as the actions leave them. -/
theorem run_now (behaviour : Behaviour) (allowance : Nat) (actions : List Action) :
    (run behaviour allowance actions).now.space = Run.steps behaviour allowance actions {} := by
  have hgeneral (actions : List Action) (chronicle : Chronicle) :
      (actions.foldl (fun chronicle action => after (step behaviour allowance action chronicle))
        chronicle).now.space = Run.steps behaviour allowance actions chronicle.now.space := by
    induction actions generalizing chronicle with
    | nil => rfl
    | cons action actions ih =>
        rw [List.foldl_cons, ih, ← objectsAfter_plain, step_shadows behaviour allowance action]
        rfl
  exact hgeneral actions {}

end Chronicled

end MediaCatalog
