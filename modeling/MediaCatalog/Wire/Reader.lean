import MediaCatalog.Error
import MediaCatalog.Value.Basic
import MediaCatalog.Wire.Format

/-!
Reading values. A reader consumes bytes from the front of its input and keeps
the table of the nodes that it has finished, in the order of their numbers. The
table outlives a failure: what was finished before it stays.

Values nest at most `maxDepth` deep. The reader of a value is given the number
of levels it may still open and hands one less to what it reads inside, so the
recursion is on that number.
-/

namespace MediaCatalog

namespace Wire

structure ReadState where
  input : List UInt8
  /-- Finished nodes, in the order of their numbers. -/
  nodes : List Collection
  /-- The next unused identity. -/
  next : NodeId

abbrev Reader := EStateM WireError ReadState

/-- The first `count` items and the rest, if there are so many. -/
def splitAt? {α : Type} (count : Nat) (items : List α) : Option (List α × List α) :=
  let front := items.take count
  if front.length = count then some (front, items.drop count) else none

/-- What stands in front is split off from what follows. -/
theorem splitAt?_append {α : Type} {count : Nat} {front : List α} (size : front.length = count)
    (rest : List α) : splitAt? count (front ++ rest) = some (front, rest) := by
  subst size
  simp [splitAt?]

/-- Cut a list into pieces of `size`. -/
def pieces {α : Type} (size : Nat) : (count : Nat) → List α → List (List α)
  | 0, _ => []
  | count + 1, items => items.take size :: pieces size count (items.drop size)

namespace Reader

def bytes (count : Nat) : Reader (List UInt8) := fun state =>
  match splitAt? count state.input with
  | some (front, rest) => .ok front { state with input := rest }
  | none => .error .unexpectedEnd state

def byte : Reader UInt8 := fun state =>
  match state.input with
  | byte :: rest => .ok byte { state with input := rest }
  | [] => .error .unexpectedEnd state

def word : Reader Nat := return ofBigEndian (← bytes 4)

def text : Reader String := do
  match String.fromUTF8? (← bytes (← word)).toByteArray with
  | some text => return text
  | none => throw .invalidUtf8

/-- Run a reader `count` times. -/
def many {α : Type} (item : Reader α) : (count : Nat) → Reader (List α)
  | 0 => pure []
  | count + 1 => do
    let first ← item
    let rest ← many item count
    return first :: rest

def entry (value : Reader Value) : Reader (String × Value) := do
  let key ← text
  return (key, ← value)

/-- Entries of a table; a repeated key replaces the value before. -/
def dict (value : Reader Value) : Reader (Dict Value) := do
  return Dict.ofEntries (← many (entry value) (← word))

/-- Media ids; all their bytes have to be there before the first is taken. -/
def ids : Reader (List Int64) := do
  let count ← word
  let front ← bytes (8 * count)
  return (pieces 8 count front).map fun piece => (UInt64.ofNat (ofBigEndian piece)).toInt64

def operand (value : Reader Value) : Reader Collection := do
  match ← value with
  | .collection node => return node
  | _ => throw .expectedCollection

/-- Enter a finished node into the table, under a new identity. -/
def finish (kind : CollectionKind) (attributes : Dict Value) (operands : List Collection)
    (ids : List Int64) : Reader Collection := fun state =>
  let node := .node state.next kind attributes operands ids
  .ok node { state with nodes := state.nodes ++ [node], next := state.next + 1 }

def collection (value : Reader Value) : Reader Collection := do
  let code ← byte
  match CollectionKind.ofCode? code with
  | none => throw (.unknownCollectionKind code)
  | some kind => do
    let attributes ← dict value
    let ids ← ids
    let operands ← many (operand value) (← word)
    finish kind attributes operands ids

def reference : Reader Collection := do
  let number ← word
  match (← get).nodes[number]? with
  | some node => return node
  | none => throw (.invalidReference (UInt32.ofNat number))

/-- A value that may open `depth` levels, its own included. The end of the input
is noticed before the limit is. -/
def value : (depth : Nat) → Reader Value
  | 0 => do
    match (← get).input with
    | [] => throw .unexpectedEnd
    | _ :: _ => throw .nestingTooDeep
  | depth + 1 => do
    let code ← byte
    match Marker.ofCode? code with
    | none => throw (.unknownMarker code)
    | some .none => return .none
    | some .int => return .int (UInt64.ofNat (ofBigEndian (← bytes 8))).toInt64
    | some .float => return .float (.ofBits (UInt64.ofNat (ofBigEndian (← bytes 8))))
    | some .string => return .string (← text)
    | some .binary => return .binary (← bytes (← word))
    | some .list => return .list (← many (value depth) (← word))
    | some .dict => return .dict (← dict (value depth))
    | some .collection => return .collection (← collection (value depth))
    | some .error => return .error (← text)
    | some .reference => return .collection (← reference)

end Reader

/-- How deep values may nest. -/
def maxDepth : Nat := 128

end Wire

open Wire

/-- A decoder holds the nodes finished so far in the current message. -/
structure Decoder where
  nodes : List Collection := []

namespace Decoder

/-- Read one value from the front of the input: the value and what is left. -/
def decode (decoder : Decoder) (input : List UInt8) :
    Build (Except WireError (Value × List UInt8) × Decoder) := fun next =>
  match Reader.value maxDepth ⟨input, decoder.nodes, next⟩ with
  | .ok value state => ((.ok (value, state.input), ⟨state.nodes⟩), state.next)
  | .error error state => ((.error error, ⟨state.nodes⟩), state.next)

/-- Read values until the input ends; each takes at least one byte, so `fuel`
need not exceed the length of the input. -/
def decodeUpTo (decoder : Decoder) : (fuel : Nat) → List UInt8 →
    Build (Except WireError (List Value) × Decoder)
  | _, [] => return (.ok [], decoder)
  | 0, _ => return (.error .unexpectedEnd, decoder)
  | fuel + 1, input => do
    match ← decoder.decode input with
    | (.error error, decoder) => return (.error error, decoder)
    | (.ok (value, rest), decoder) =>
      match ← decoder.decodeUpTo fuel rest with
      | (.error error, decoder) => return (.error error, decoder)
      | (.ok values, decoder) => return (.ok (value :: values), decoder)

/-- Read values until the input ends. -/
def decodeAll (decoder : Decoder) (input : List UInt8) :
    Build (Except WireError (List Value) × Decoder) :=
  decoder.decodeUpTo input.length input

/-- Forget the current message. -/
def reset (_ : Decoder) : Decoder := {}

end Decoder

/-- The first value of a message. -/
def decode (input : List UInt8) : Build (Except WireError Value) := do
  let (answer, _) ← Decoder.decode {} input
  return answer.map Prod.fst

/-- All values of a message. -/
def decodeAll (input : List UInt8) : Build (Except WireError (List Value)) := do
  return (← Decoder.decodeAll {} input).1

end MediaCatalog
