import MediaCatalog.Object.Space
import MediaCatalog.Text.Quoted

/-!
Runs over objects. An emission goes to the connections that the signal has when it
begins, in the order in which they were made. What handlers connect or take off
meanwhile counts from the next emission on. Handlers may act on any object, so
emissions and calls nest; an allowance bounds how deep programs may run inside each
other, and a handler called beyond it is noted and does nothing.

A panic ends everything that is running. The references that were held on the way
are released.
-/

namespace MediaCatalog

/-- A run over the objects. A panic ends it and keeps what happened before. -/
abbrev Run := EStateM String ObjectSpace

namespace Run

def note (event : ObjectEvent) : Run Unit := modify (·.note event)

/-- Hold a reference to an object while something runs. -/
def holding {α : Type} (object : ObjectId) (body : Run α) : Run α := fun space =>
  match body (space.retain object) with
  | .ok answer space => .ok answer (space.release object)
  | .error panic space => .error panic (space.release object)

/-- How handlers react. -/
structure Reactions where
  /-- A connection of an object's signal is given a value. -/
  signal : ObjectId → ObjectTables → Value → Listener SignalHandler String → Run Unit
  /-- A command handler of an object is given a call. -/
  command : ObjectId → ObjectTables → String → Arguments → Run Arguments

/-- Give a value to all connections that the signal has now. -/
def emit (reactions : Reactions) (object : ObjectId) (tables : ObjectTables)
    (signal : UInt32) (value : Value) : Run Unit :=
  match tables.listeners signal with
  | [] => return
  | listeners => holding object (listeners.forM (reactions.signal object tables value))

/-- Give a call to the handler of the command. Without one the call stays as it is. -/
def call (reactions : Reactions) (object : ObjectId) (tables : ObjectTables)
    (command : UInt32) (args : List Value) : Run Arguments :=
  match tables.commands[command]? with
  | none => return { args }
  | some handler => reactions.command object tables handler { args }

/-- Act on the tables of the object that a handle names, and hold on to it. -/
def onObject (self : Option ObjectId) (handle : String)
    (body : ObjectId → ObjectTables → Run ActionAnswer) : Run ActionAnswer := do
  let space ← get
  match space.lookup? self handle with
  | none => return .noSuchHandle
  | some object =>
    match space.objects[object]? with
    | none => return .noSuchHandle
    | some live => holding object (body object live.tables)

/-- Store changed tables, or answer with the refusal. -/
def change (object : ObjectId) (tables : Except Error ObjectTables) : Run ActionAnswer := do
  match tables with
  | .error cause => return .refused cause
  | .ok tables =>
    modify (·.setTables object tables)
    return .done

/-- Let a handle name an object, which gets a reference for it. -/
def bind (handle : String) (object : ObjectId) : Run Unit :=
  modify fun space => (space.retain object).setHandle handle object

/-- An object as diagnostics show it. -/
def describe (live : LiveObject) : String :=
  s!"Object \x7b name: {Text.quoted live.tables.name}, refs: {live.references} \x7d"

/-- Carry out an action, for a handler of `self` or for nobody. -/
def perform (reactions : Reactions) (self : Option ObjectId) : Action → Run ActionAnswer
  | .create handle name noted => do
    modify (·.create handle name noted)
    return .done
  | .drop handle => do
    match (← get).handles[handle]? with
    | none => return .truth false
    | some object =>
      modify fun space =>
        { space with handles := space.handles.erase handle }.release object
      return .truth true
  | .clone handle target => onObject self handle fun object _ => do
    bind target object
    return .done
  | .downgrade handle weak => onObject self handle fun object _ => do
    modify fun space => { space with weakHandles := space.weakHandles.insert weak object }
    return .done
  | .upgrade weak target => do
    let space ← get
    match space.weakHandles[weak]? with
    | none => return .truth false
    | some object =>
      if space.objects.contains object then
        bind target object
        return .truth true
      else return .truth false
  | .references handle => do
    let space ← get
    match (space.lookup? self handle).bind (space.objects[·]?) with
    | none => return .nothing
    | some live => return .number live.references
  | .describe handle => do
    let space ← get
    match space.handles[handle]?.bind (space.objects[·]?) with
    | none => return .nothing
    | some live => return .text (describe live)
  | .name handle => onObject self handle fun _ tables => return .text tables.name
  | .same handle other => onObject self handle fun object _ => do
    match (← get).lookup? self other with
    | none => return .nothing
    | some second => holding second (return .truth (object == second))
  | .register handle command handler => onObject self handle fun object tables =>
    change object (tables.register command handler)
  | .hasCommand handle command => onObject self handle fun _ tables =>
    return .truth (tables.hasCommand command)
  | .call handle command args => onObject self handle fun object tables =>
    return .called (← call reactions object tables command args)
  | .connect handle signal handler context => onObject self handle fun object tables => do
    let (subscription, tables) := tables.connect signal handler context
    let number := (← get).subscriptions.length
    modify fun space =>
      { space.setTables object tables with
        subscriptions := space.subscriptions ++ [subscription] }
    return .subscribed number signal
  | .disconnect handle signal handler context => onObject self handle fun object tables =>
    change object (tables.disconnect signal handler context)
  | .unsubscribe handle number => onObject self handle fun object tables => do
    match (← get).subscriptions[number]? with
    | none => return .noSuchSubscription
    | some subscription => change object (tables.unsubscribe subscription)
  | .disconnectAll handle signal => onObject self handle fun object tables => do
    let (count, tables) := tables.disconnectAll signal
    modify (·.setTables object tables)
    return .number count
  | .count handle signal => onObject self handle fun _ tables =>
    return .number (tables.count signal)
  | .emit handle signal value => onObject self handle fun object tables => do
    emit reactions object tables signal value
    return .emitted
  | .panic message => throw message

/-- Run a program for an object, and note each action with its answer. -/
def program (reactions : Reactions) (self : ObjectId) : Program → Run Unit
  | .done => return
  | .act action next => do
    let answer ← perform reactions (some self) action
    note (.performed action answer)
    program reactions self (next answer)

/-- How handlers react when programs may still run `allowance` deep. Every call of a
handler is noted; beyond the allowance nothing else happens, except that a command
handler still records its outcome. -/
def reactions (behaviour : Behaviour) : (allowance : Nat) → Reactions
  | 0 =>
    { signal := fun _ tables value listener =>
        match listener.handler with
        | .recorder tag => note (.recorded tag tables.name value)
        | .script name => note (.handled name tables.name value listener.context)
      command := fun _ tables handler call => do
        note (.commanded handler tables.name call.args)
        return behaviour.conclude handler call }
  | allowance + 1 =>
    let inner := reactions behaviour allowance
    { signal := fun object tables value listener =>
        match listener.handler with
        | .recorder tag => note (.recorded tag tables.name value)
        | .script name => do
          note (.handled name tables.name value listener.context)
          program inner object (behaviour.signal name value listener.context (← get).trace)
      command := fun object tables handler call => do
        note (.commanded handler tables.name call.args)
        program inner object (behaviour.command handler call.args (← get).trace)
        return behaviour.conclude handler call }

/-- An action from outside. -/
def step (behaviour : Behaviour) (allowance : Nat) (action : Action) : Run ActionAnswer :=
  perform (reactions behaviour allowance) none action

end Run

end MediaCatalog
