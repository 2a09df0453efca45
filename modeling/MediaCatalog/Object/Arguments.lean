import MediaCatalog.Error
import MediaCatalog.Value.Basic

/-!
The arguments of a command call and what its handler made of them. An argument
that is missing, or of another type than the command wants, is refused by an
error that names it.
-/

namespace MediaCatalog

/-- A call in progress: its arguments, and the outcomes recorded so far. -/
structure Arguments where
  args : List Value
  result : Option Value := none
  failure : Option Error := none

namespace Arguments

def arg (call : Arguments) (index : Nat) (name : String) : Except Error Value :=
  match call.args[index]? with
  | some value => .ok value
  | none => .error (.invalidArgument s!"missing argument {index} ({name})")

/-- The argument, seen as `view?` sees it. -/
def argAs {α : Type} (view? : Value → Option α) (expected : String)
    (call : Arguments) (index : Nat) (name : String) : Except Error α := do
  let value ← call.arg index name
  match view? value with
  | some item => .ok item
  | none =>
    .error (.invalidArgument s!"argument {name} must be a {expected}, got {value.typeName}")

def string := argAs Value.string? "string"

def int := argAs Value.int? "int64"

def collection := argAs Value.collection? "collection"

def strings := argAs Value.strings? "list of strings"

/-- Record an outcome. A value and an error are kept apart, the last of each. -/
def finish (call : Arguments) : Except Error Value → Arguments
  | .ok value => { call with result := some value }
  | .error error => { call with failure := some error }

/-- The outcome of the call: an error if one was recorded, and none if nobody answered. -/
def outcome (call : Arguments) : Except Error Value :=
  match call.failure with
  | some error => .error error
  | none => .ok (call.result.getD .none)

end Arguments

end MediaCatalog
