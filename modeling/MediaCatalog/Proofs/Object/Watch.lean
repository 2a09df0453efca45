import MediaCatalog.Object.Run

/-!
Watched runs over objects. A watcher keeps account of the emissions, as they begin and end, and of
the signal handlers that are called for them. It takes no part in the run: answers, objects and
trace are those of a run that nobody watches.
-/

namespace MediaCatalog

/-- What is emitted, and the objects as they stand when the emission begins. -/
structure Emission where
  space : ObjectSpace
  object : ObjectId
  signal : UInt32
  value : Value

/-- One call of a signal handler. -/
structure Invocation where
  /-- The number of the emission that it is for. -/
  emission : Nat
  /-- The name of the object that the handler runs for. -/
  object : String
  listener : Listener SignalHandler String
  value : Value

/-- The account of a watcher. -/
structure Watch where
  /-- The emissions, numbered in the order in which they begin. -/
  emissions : List Emission := []
  /-- All calls of signal handlers, the oldest first. -/
  invocations : List Invocation := []
  /-- The numbers of the emissions that came to their end. -/
  ended : List Nat := []

namespace Watch

/-- The account when an emission begins. -/
def opened (watch : Watch) (emission : Emission) : Watch :=
  { watch with emissions := watch.emissions ++ [emission] }

/-- The account when a handler is called. -/
def called (watch : Watch) (invocation : Invocation) : Watch :=
  { watch with invocations := watch.invocations ++ [invocation] }

/-- The account when an emission ends. -/
def closed (watch : Watch) (number : Nat) : Watch :=
  { watch with ended := watch.ended ++ [number] }

end Watch

/-- A run over the objects with a watcher. -/
abbrev Watched := EStateM String (ObjectSpace × Watch)

namespace Watched

variable {α β : Type}

/-! ### What the watcher notes -/

/-- A run in which nothing happens that the watcher notes. -/
def lift (body : Run α) : Watched α := fun (space, watch) =>
  match body space with
  | .ok answer space => .ok answer (space, watch)
  | .error panic space => .error panic (space, watch)

/-- An emission begins. Its number is given. -/
def noteBegin (object : ObjectId) (signal : UInt32) (value : Value) : Watched Nat :=
  fun (space, watch) =>
    .ok watch.emissions.length (space, watch.opened { space, object, signal, value })

/-- A signal handler is called. -/
def noteCall (invocation : Invocation) : Watched Unit := fun (space, watch) =>
  .ok () (space, watch.called invocation)

/-- An emission comes to its end. -/
def noteEnd (emission : Nat) : Watched Unit := fun (space, watch) =>
  .ok () (space, watch.closed emission)

/-! ### Runs -/

/-- Hold a reference to an object while something runs. -/
def holding (object : ObjectId) (body : Watched α) : Watched α := fun (space, watch) =>
  match body (space.retain object, watch) with
  | .ok answer (space, watch) => .ok answer (space.release object, watch)
  | .error panic (space, watch) => .error panic (space.release object, watch)

/-- How handlers react. -/
structure Reactions where
  signal : ObjectId → ObjectTables → Value → Listener SignalHandler String → Watched Unit
  command : ObjectId → ObjectTables → String → Arguments → Watched Arguments

/-- Give a value to one connection. -/
def deliver (reactions : Reactions) (emission : Nat) (object : ObjectId) (tables : ObjectTables)
    (value : Value) (listener : Listener SignalHandler String) : Watched Unit := do
  noteCall { emission, object := tables.name, listener, value }
  reactions.signal object tables value listener

/-- Give a value to some connections of an object. -/
def deliverAll (reactions : Reactions) (emission : Nat) (object : ObjectId)
    (tables : ObjectTables) (value : Value) :
    List (Listener SignalHandler String) → Watched Unit
  | [] => return
  | listeners => holding object (listeners.forM (deliver reactions emission object tables value))

def emit (reactions : Reactions) (object : ObjectId) (tables : ObjectTables) (signal : UInt32)
    (value : Value) : Watched Unit := do
  let emission ← noteBegin object signal value
  deliverAll reactions emission object tables value (tables.listeners signal)
  noteEnd emission

def call (reactions : Reactions) (object : ObjectId) (tables : ObjectTables) (command : UInt32)
    (args : List Value) : Watched Arguments :=
  match tables.commands[command]? with
  | none => return { args }
  | some handler => reactions.command object tables handler { args }

def onObject (self : Option ObjectId) (handle : String)
    (body : ObjectId → ObjectTables → Watched ActionAnswer) : Watched ActionAnswer := do
  let (space, _) ← get
  match space.lookup? self handle with
  | none => return .noSuchHandle
  | some object =>
    match space.objects[object]? with
    | none => return .noSuchHandle
    | some live => holding object (body object live.tables)

/-- No handler reacts. -/
def idle : Run.Reactions where
  signal _ _ _ _ := return
  command _ _ _ call := return call

/-- Carry out an action; only a call or an emission makes handlers react. -/
def perform (reactions : Reactions) (self : Option ObjectId) : Action → Watched ActionAnswer
  | .call handle command args => onObject self handle fun object tables =>
    return .called (← call reactions object tables command args)
  | .emit handle signal value => onObject self handle fun object tables => do
    emit reactions object tables signal value
    return .emitted
  | action => lift (Run.perform idle self action)

/-- Actions that make no handler react. -/
def calm : Action → Bool
  | .call .. | .emit .. => false
  | _ => true

theorem perform_of_calm {reactions : Reactions} {self : Option ObjectId} {action : Action}
    (h : calm action = true) :
    perform reactions self action = lift (Run.perform idle self action) := by
  cases action with
  | call | emit => cases h
  | _ => rfl

theorem perform_idle {reactions : Run.Reactions} {self : Option ObjectId} {action : Action}
    (h : calm action = true) :
    Run.perform idle self action = Run.perform reactions self action := by
  cases action with
  | call | emit => cases h
  | _ => rfl

def program (reactions : Reactions) (self : ObjectId) : Program → Watched Unit
  | .done => return
  | .act action next => do
    let answer ← perform reactions (some self) action
    lift (Run.note (.performed action answer))
    program reactions self (next answer)

def reactions (behaviour : Behaviour) : (allowance : Nat) → Reactions
  | 0 =>
    { signal := fun object tables value listener =>
        lift ((Run.reactions behaviour 0).signal object tables value listener)
      command := fun object tables handler call =>
        lift ((Run.reactions behaviour 0).command object tables handler call) }
  | allowance + 1 =>
    let inner := reactions behaviour allowance
    { signal := fun object tables value listener =>
        match listener.handler with
        | .recorder tag => lift (Run.note (.recorded tag tables.name value))
        | .script name => do
          lift (Run.note (.handled name tables.name value listener.context))
          let (space, _) ← get
          program inner object (behaviour.signal name value listener.context space.trace)
      command := fun object tables handler call => do
        lift (Run.note (.commanded handler tables.name call.args))
        let (space, _) ← get
        program inner object (behaviour.command handler call.args space.trace)
        return behaviour.conclude handler call }

/-- An action from outside. -/
def step (behaviour : Behaviour) (allowance : Nat) (action : Action) : Watched ActionAnswer :=
  perform (reactions behaviour allowance) none action

/-! ### The run without the watcher -/

/-- What came of a run, without the account. -/
def unwatched : EStateM.Result String (ObjectSpace × Watch) α → EStateM.Result String ObjectSpace α
  | .ok answer (space, _) => .ok answer space
  | .error panic (space, _) => .error panic space

/-- A watched run goes as one that nobody watches. -/
def Shadows (watched : Watched α) (plain : Run α) : Prop :=
  ∀ space watch, unwatched (watched (space, watch)) = plain space

namespace Shadows

theorem pure (answer : α) : Shadows (Pure.pure answer) (Pure.pure answer) := fun _ _ => rfl

theorem lift (body : Run α) : Shadows (Watched.lift body) body := by
  intro space watch
  rw [Watched.lift]
  cases body space <;> rfl

variable {watched : Watched α} {plain : Run α}

theorem bind (h : Shadows watched plain) {watchedNext : α → Watched β} {plainNext : α → Run β}
    (hnext : ∀ answer, Shadows (watchedNext answer) (plainNext answer)) :
    Shadows (watched >>= watchedNext) (plain >>= plainNext) := by
  intro space watch
  have hplain := h space watch
  simp only [Bind.bind, EStateM.bind, ← hplain]
  cases watched (space, watch) with
  | ok answer after => exact hnext answer after.1 after.2
  | error panic after => rfl

theorem holding (h : Shadows watched plain) (object : ObjectId) :
    Shadows (Watched.holding object watched) (Run.holding object plain) := by
  intro space watch
  rw [Watched.holding, Run.holding, ← h (space.retain object) watch]
  cases watched (space.retain object, watch) <;> rfl

theorem noteBegin_bind (object : ObjectId) (signal : UInt32) (value : Value)
    {next : Nat → Watched α} (h : ∀ emission, Shadows (next emission) plain) :
    Shadows (noteBegin object signal value >>= next) plain :=
  fun space _ => h _ space _

theorem noteCall_bind (invocation : Invocation) (h : Shadows watched plain) :
    Shadows (noteCall invocation >>= fun _ => watched) plain :=
  fun space _ => h space _

theorem bind_noteEnd {watched : Watched Unit} {plain : Run Unit} (h : Shadows watched plain)
    (emission : Nat) : Shadows (watched >>= fun _ => noteEnd emission) plain := by
  intro space watch
  rw [← h space watch]
  simp only [Bind.bind, EStateM.bind]
  cases watched (space, watch) <;> rfl

/-- Whoever looks at the objects sees the same. -/
theorem get_bind {watchedNext : ObjectSpace × Watch → Watched β} {plainNext : ObjectSpace → Run β}
    (hnext : ∀ space watch, Shadows (watchedNext (space, watch)) (plainNext space)) :
    Shadows (get >>= watchedNext) (get >>= plainNext) :=
  fun space watch => hnext space watch space watch

theorem onObject (self : Option ObjectId) (handle : String)
    {watchedBody : ObjectId → ObjectTables → Watched ActionAnswer}
    {plainBody : ObjectId → ObjectTables → Run ActionAnswer}
    (hbody : ∀ object tables, Shadows (watchedBody object tables) (plainBody object tables)) :
    Shadows (Watched.onObject self handle watchedBody) (Run.onObject self handle plainBody) := by
  refine get_bind fun space watch => ?_
  dsimp only
  cases space.lookup? self handle with
  | none => exact pure _
  | some object =>
      dsimp only
      cases space.objects[object]? with
      | none => exact pure _
      | some live => exact (hbody object live.tables).holding object

theorem forM {items : List β} {watchedBody : β → Watched Unit} {plainBody : β → Run Unit}
    (hbody : ∀ item, Shadows (watchedBody item) (plainBody item)) :
    Shadows (items.forM watchedBody) (items.forM plainBody) := by
  induction items with
  | nil => exact pure ()
  | cons item items ih => exact (hbody item).bind fun _ => ih

end Shadows

/-- Reactions that go as those that nobody watches. -/
structure Reactions.Shadow (watched : Reactions) (plain : Run.Reactions) : Prop where
  signal : ∀ object tables value listener,
    Shadows (watched.signal object tables value listener)
      (plain.signal object tables value listener)
  command : ∀ object tables handler call,
    Shadows (watched.command object tables handler call)
      (plain.command object tables handler call)

namespace Reactions.Shadow

variable {watched : Reactions} {plain : Run.Reactions} (h : watched.Shadow plain)
include h

theorem deliverAll (emission : Nat) (object : ObjectId) (tables : ObjectTables) (value : Value)
    (listeners : List (Listener SignalHandler String)) :
    Shadows (Watched.deliverAll watched emission object tables value listeners)
      (match listeners with
        | [] => pure ()
        | listeners => Run.holding object (listeners.forM (plain.signal object tables value))) := by
  have hdeliver (listener : Listener SignalHandler String) :
      Shadows (deliver watched emission object tables value listener)
        (plain.signal object tables value listener) :=
    .noteCall_bind _ (h.signal object tables value listener)
  cases listeners with
  | nil => exact .pure ()
  | cons listener listeners => exact (Shadows.forM hdeliver).holding object

theorem emit (object : ObjectId) (tables : ObjectTables) (signal : UInt32) (value : Value) :
    Shadows (Watched.emit watched object tables signal value)
      (Run.emit plain object tables signal value) :=
  .noteBegin_bind object signal value fun emission =>
    (h.deliverAll emission object tables value (tables.listeners signal)).bind_noteEnd emission

theorem call (object : ObjectId) (tables : ObjectTables) (command : UInt32) (args : List Value) :
    Shadows (Watched.call watched object tables command args)
      (Run.call plain object tables command args) := by
  rw [Watched.call, Run.call]
  cases tables.commands[command]? with
  | none => exact .pure _
  | some handler => exact h.command object tables handler { args }

theorem perform (self : Option ObjectId) (action : Action) :
    Shadows (Watched.perform watched self action) (Run.perform plain self action) := by
  cases action with
  | call handle command args =>
      exact .onObject self handle fun object tables =>
        (h.call object tables command args).bind fun call => .pure (.called call)
  | emit handle signal value =>
      exact .onObject self handle fun object tables =>
        (h.emit object tables signal value).bind fun _ => .pure .emitted
  | _ =>
      rw [perform_of_calm rfl, perform_idle rfl]
      exact .lift _

theorem program (self : ObjectId) (program : Program) :
    Shadows (Watched.program watched self program) (Run.program plain self program) := by
  induction program with
  | done => exact .pure _
  | act action next ih =>
      exact (h.perform (some self) action).bind fun answer =>
        (Shadows.lift _).bind fun _ => ih answer

end Reactions.Shadow

theorem reactions_shadow (behaviour : Behaviour) (allowance : Nat) :
    (reactions behaviour allowance).Shadow (Run.reactions behaviour allowance) := by
  induction allowance with
  | zero =>
      exact ⟨fun object tables value listener =>
          .lift ((Run.reactions behaviour 0).signal object tables value listener),
        fun object tables handler call =>
          .lift ((Run.reactions behaviour 0).command object tables handler call)⟩
  | succ allowance ih =>
      refine ⟨fun object tables value listener => ?_, fun object tables handler call => ?_⟩
      · obtain ⟨token, handler, context⟩ := listener
        cases handler with
        | recorder tag => exact .lift (Run.note (.recorded tag tables.name value))
        | script name =>
            exact (Shadows.lift _).bind fun _ => .get_bind fun space watch => ih.program object _
      · exact (Shadows.lift _).bind fun _ => .get_bind fun space watch =>
          (ih.program object _).bind fun _ => .pure _

/-- The watcher takes no part in a run. -/
theorem step_shadows (behaviour : Behaviour) (allowance : Nat) (action : Action) :
    Shadows (step behaviour allowance action) (Run.step behaviour allowance action) :=
  (reactions_shadow behaviour allowance).perform none action

end Watched

end MediaCatalog
