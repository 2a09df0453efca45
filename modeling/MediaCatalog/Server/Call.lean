import MediaCatalog.Server.Command

/-!
Calls of the service. Each change of the store is announced on the collection object
by the signal of changed collections. The service itself calls nobody; it answers
with the announcement and the listeners that it is for, as they were connected when
it was made.
-/

namespace MediaCatalog

/-- An emission: the signal, what it carries, and whom it goes to. -/
structure Announcement where
  signal : UInt32
  payload : Value
  listeners : List Observer

namespace Service

/-- An answered call. -/
structure Answer where
  outcome : Except Error Value
  service : Service
  announcement : Option Announcement := none

/-- The announcement of a change to those who listen now. -/
def announce (service : Service) (change : Change) : Announcement :=
  let signal := SignalKind.collectionChanged.number
  { signal
    payload := change.toValue
    listeners := (service.collection.listeners signal).map Listener.handler }

/-- Invoke a handler. -/
def run (service : Service) (handler : CommandHandler) (call : Arguments) : Build Answer :=
  match handler with
  | .fixed _ answer =>
    return { outcome := (call.finish (.ok (.string answer))).outcome, service }
  | .sync =>
    return {
      outcome := (call.finish (.ok .none)).outcome
      service := { service with syncs := service.syncs + 1 } }
  | .collection command => do
    match ← service.handle command call with
    | .error error => return { outcome := (call.finish (.error error)).outcome, service }
    | .ok done =>
      return {
        outcome := (call.finish (.ok done.value)).outcome
        service := done.service
        announcement := done.change.map service.announce }

/-- Call a command of an object. A command that nobody handles answers nothing. -/
def call (service : Service) (object : ServerObject) (command : UInt32) (args : List Value) :
    Build Answer :=
  match service.object? object with
  | none =>
    return {
      outcome := .error (.invalidArgument s!"object {object.name} has no commands"), service }
  | some served =>
    match served.commands[command]? with
    | none => return { outcome := (Arguments.mk args none none).outcome, service }
    | some handler => service.run handler { args }

end Service

end MediaCatalog
