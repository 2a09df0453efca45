import Std.Data.TreeMap
import MediaCatalog.Error

/-!
What an object has registered: a handler for each command, and for each signal
the handlers connected to it. Handlers and contexts count by identity. A handler
may be connected several times; taking it off removes its latest connection.
-/

namespace MediaCatalog

/-- One connection of a handler to a signal, with the context it is given. -/
structure Listener (η γ : Type) where
  token : Nat
  handler : η
  context : Option γ

/-- What a connection is taken off by. It names a signal and a number, not the
object. -/
structure Subscription where
  signal : UInt32
  token : Nat
  deriving DecidableEq, Repr, Inhabited

/-- The tables of an object with command handlers `κ`, signal handlers `η` and
contexts `γ`. -/
structure Registry (κ η γ : Type) where
  name : String
  commands : Std.TreeMap UInt32 κ := {}
  /-- The connections of each signal, the newest first. -/
  signals : Std.TreeMap UInt32 (List (Listener η γ)) := {}
  nextToken : Nat := 0

namespace Registry

variable {κ η γ : Type}

/-- Register the handler of a command. Another handler than the registered one is
refused. -/
def register [DecidableEq κ] (registry : Registry κ η γ) (command : UInt32) (handler : κ) :
    Except Error (Registry κ η γ) :=
  match registry.commands[command]? with
  | none => .ok { registry with commands := registry.commands.insert command handler }
  | some known =>
    if known = handler then .ok registry
    else .error (.invalidArgument s!"command {command} already registered on {registry.name}")

def hasCommand (registry : Registry κ η γ) (command : UInt32) : Bool :=
  registry.commands.contains command

/-- The connections of a signal, the newest first. -/
def connections (registry : Registry κ η γ) (signal : UInt32) : List (Listener η γ) :=
  registry.signals[signal]?.getD []

/-- The connections of a signal in the order in which they were made. -/
def listeners (registry : Registry κ η γ) (signal : UInt32) : List (Listener η γ) :=
  (registry.connections signal).reverse

def count (registry : Registry κ η γ) (signal : UInt32) : Nat :=
  (registry.connections signal).length

/-- Connect a handler to a signal. -/
def connect (registry : Registry κ η γ) (signal : UInt32) (handler : η) (context : Option γ) :
    Subscription × Registry κ η γ :=
  let token := registry.nextToken
  (⟨signal, token⟩,
    { registry with
      signals := registry.signals.insert signal
        (⟨token, handler, context⟩ :: registry.connections signal)
      nextToken := token + 1 })

/-- Replace the connections of a signal. -/
def withConnections (registry : Registry κ η γ) (signal : UInt32)
    (connections : List (Listener η γ)) : Registry κ η γ :=
  { registry with
    signals :=
      if connections.isEmpty then registry.signals.erase signal
      else registry.signals.insert signal connections }

/-- Take off the newest connection of a signal that a test accepts. -/
def removeFirst? (registry : Registry κ η γ) (signal : UInt32) (test : Listener η γ → Bool) :
    Option (Registry κ η γ) :=
  let connections := registry.connections signal
  if connections.any test then
    some (registry.withConnections signal (connections.eraseP test))
  else none

/-- Take off the newest connection of a handler with a context. -/
def disconnect [DecidableEq η] [DecidableEq γ] (registry : Registry κ η γ) (signal : UInt32)
    (handler : η) (context : Option γ) : Except Error (Registry κ η γ) :=
  match registry.removeFirst? signal fun listener =>
      listener.handler = handler ∧ listener.context = context with
  | some registry => .ok registry
  | none => .error (.notFound s!"handler for signal {signal} on {registry.name}")

/-- Take off the connection that a subscription names. -/
def unsubscribe (registry : Registry κ η γ) (subscription : Subscription) :
    Except Error (Registry κ η γ) :=
  match registry.removeFirst? subscription.signal fun listener =>
      listener.token = subscription.token with
  | some registry => .ok registry
  | none =>
    .error (.notFound s!"subscription to signal {subscription.signal} on {registry.name}")

/-- Take off all connections of a signal, with their number. -/
def disconnectAll (registry : Registry κ η γ) (signal : UInt32) : Nat × Registry κ η γ :=
  (registry.count signal, registry.withConnections signal [])

end Registry

end MediaCatalog
