import MediaCatalog.Object.Arguments
import MediaCatalog.Object.Registry

/-!
What handlers do. A handler is a program: it acts on objects, one action after
another, and each answer may decide how it goes on. Objects are named by handles;
inside a handler the handle `$` is the object that it runs for.
-/

namespace MediaCatalog

/-- A handler that can be connected to a signal. -/
inductive SignalHandler where
  /-- A program with an identity. -/
  | script (name : String)
  /-- Notes that it was called and does nothing else; it cannot be named again. -/
  | recorder (tag : String)
  deriving DecidableEq, Repr

/-- The tables of an object: command handlers and contexts are known by name. -/
abbrev ObjectTables := Registry String SignalHandler String

inductive Action where
  /-- Create an object; `noted` tells whether its disposal is noted. -/
  | create (handle name : String) (noted : Bool)
  | drop (handle : String)
  | clone (handle target : String)
  /-- Make a weak handle, which does not keep the object. -/
  | downgrade (handle weak : String)
  | upgrade (weak target : String)
  | references (handle : String)
  | describe (handle : String)
  | name (handle : String)
  | same (handle other : String)
  | register (handle : String) (command : UInt32) (handler : String)
  | hasCommand (handle : String) (command : UInt32)
  | call (handle : String) (command : UInt32) (args : List Value)
  | connect (handle : String) (signal : UInt32) (handler : SignalHandler)
      (context : Option String)
  | disconnect (handle : String) (signal : UInt32) (handler : SignalHandler)
      (context : Option String)
  /-- End the subscription with this number. -/
  | unsubscribe (handle : String) (subscription : Nat)
  | disconnectAll (handle : String) (signal : UInt32)
  | count (handle : String) (signal : UInt32)
  | emit (handle : String) (signal : UInt32) (value : Value)
  /-- Give up, and with it everything that is running. -/
  | panic (message : String)

/-- What an action answers. -/
inductive ActionAnswer where
  | done
  | emitted
  | truth (value : Bool)
  | number (value : Nat)
  | text (value : String)
  | nothing
  | noSuchHandle
  | noSuchSubscription
  | subscribed (subscription : Nat) (signal : UInt32)
  | refused (cause : Error)
  | called (call : Arguments)

inductive Program where
  | done
  | act (action : Action) (next : ActionAnswer → Program)

namespace Program

/-- Actions one after another, whatever they answer. -/
def ofActions : List Action → Program
  | [] => done
  | action :: rest => act action fun _ => ofActions rest

end Program

/-- What was noted while programs ran. -/
inductive ObjectEvent where
  /-- A signal handler was called. -/
  | handled (handler object : String) (value : Value) (context : Option String)
  | recorded (tag object : String) (value : Value)
  /-- A command handler was called. -/
  | commanded (handler object : String) (args : List Value)
  | performed (action : Action) (answer : ActionAnswer)
  | disposed (object : String)

/-- What the named handlers do. As a program may depend on everything noted before,
it can keep count of what happened to it. -/
structure Behaviour where
  signal : (handler : String) → Value → (context : Option String) → List ObjectEvent →
    Program
  command : (handler : String) → List Value → List ObjectEvent → Program
  /-- The outcome that a command handler records at its end. -/
  conclude : (handler : String) → Arguments → Arguments

end MediaCatalog
