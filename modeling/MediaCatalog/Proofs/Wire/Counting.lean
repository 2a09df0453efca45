import MediaCatalog.Proofs.Wire.Scalar

/-!
Counting levels. The reader of a value is told how many levels are left; a decoder that is used
again and again has to count them: up when a value is let in, and down again when it is done with,
whether it was read or not. This module has the reader that counts. It also writes down what happens
on the way and is not told by the values that come out: which values are open, which keys a table
has, which nodes are finished, and what numbers are taken for. It reads what the other one reads,
failures included, and always comes back to the level it was on.
-/

namespace MediaCatalog.Wire

/-- What happens while values are read. -/
inductive ReadEvent where
  /-- A value is let in. -/
  | opened
  /-- The value that was let in last is done with, whether it was read or not. -/
  | closed
  /-- A dictionary or the attributes of a node are read, with the keys in the order in which they
  came. -/
  | table (keys : List String)
  /-- A node is finished under its number. -/
  | finished (number : Nat) (node : Collection)
  /-- A number that was read is taken for a node. -/
  | resolved (number : Nat) (node : Collection)

/-- The state of a reader that counts. -/
structure CountingState extends ReadState where
  /-- How many values are open. -/
  depth : Nat
  /-- What happened so far. -/
  events : List ReadEvent

abbrev CountingReader := EStateM WireError CountingState

namespace Counting

variable {α β : Type}

/-! ### The reader -/

/-- A reader that opens no values and finishes no nodes. -/
def lift (read : Reader α) : CountingReader α := fun state =>
  match read state.toReadState with
  | .ok result after => .ok result { state with toReadState := after }
  | .error cause after => .error cause { state with toReadState := after }

/-- Write down what happens. -/
def note (event : ReadEvent) : CountingReader PUnit := fun state =>
  .ok ⟨⟩ { state with events := state.events ++ [event] }

/-- Run a reader `count` times. -/
def many (item : CountingReader α) : (count : Nat) → CountingReader (List α)
  | 0 => pure []
  | count + 1 => do
    let first ← item
    let rest ← many item count
    return first :: rest

def entry (value : CountingReader Value) : CountingReader (String × Value) := do
  let key ← lift Reader.text
  return (key, ← value)

def dict (value : CountingReader Value) : CountingReader (Dict Value) := do
  let entries ← many (entry value) (← lift Reader.word)
  note (.table (entries.map Prod.fst))
  return Dict.ofEntries entries

def operand (value : CountingReader Value) : CountingReader Collection := do
  match ← value with
  | .collection node => return node
  | _ => throw .expectedCollection

def finish (kind : CollectionKind) (attributes : Dict Value) (operands : List Collection)
    (ids : List Int64) : CountingReader Collection := fun state =>
  let node := .node state.next kind attributes operands ids
  .ok node { state with
    nodes := state.nodes ++ [node]
    next := state.next + 1
    events := state.events ++ [.finished state.nodes.length node] }

/-- What follows the kind of a node. -/
def node (value : CountingReader Value) (kind : CollectionKind) : CountingReader Collection := do
  let attributes ← dict value
  let ids ← lift Reader.ids
  let operands ← many (operand value) (← lift Reader.word)
  finish kind attributes operands ids

def collection (value : CountingReader Value) : CountingReader Collection := do
  let code ← lift Reader.byte
  match CollectionKind.ofCode? code with
  | none => throw (.unknownCollectionKind code)
  | some kind => node value kind

/-- The node of a number. -/
def resolve (number : Nat) : CountingReader Collection := fun state =>
  match state.nodes[number]? with
  | some node => .ok node { state with events := state.events ++ [.resolved number node] }
  | none => .error (.invalidReference (UInt32.ofNat number)) state

def reference : CountingReader Collection := do resolve (← lift Reader.word)

/-- What follows a marker. -/
def body (value : CountingReader Value) : Marker → CountingReader Value
  | .list => return .list (← many value (← lift Reader.word))
  | .dict => return .dict (← dict value)
  | .collection => return .collection (← collection value)
  | .reference => return .collection (← reference)
  | marker => lift (Reader.body 0 marker)

/-- Nothing is counted where nothing is inside. -/
theorem body_scalar (value : CountingReader Value) (levels : Nat) {marker : Marker}
    (hscalar : marker ∉ Marker.composite) :
    body value marker = lift (Reader.body levels marker) := by
  cases marker with
  | list | dict | collection | reference => exact absurd hscalar (by decide)
  | _ => rfl

/-- Count one level more, and again one less after the reader has come to its end in any way. What
is too deep is not read at all. -/
def within (read : CountingReader α) : CountingReader α := fun state =>
  let depth := state.depth + 1
  if maxDepth < depth then .error .nestingTooDeep { state with depth := depth - 1 }
  else
    match read { state with depth, events := state.events ++ [.opened] } with
    | .ok result after =>
      .ok result { after with depth := after.depth - 1, events := after.events ++ [.closed] }
    | .error cause after =>
      .error cause { after with depth := after.depth - 1, events := after.events ++ [.closed] }

/-- A value, as long as there are turns: one for each value that is open, and one more. -/
def value : (turns : Nat) → CountingReader Value
  | 0 => throw .nestingTooDeep
  | turns + 1 => do
    match (← get).input with
    | [] => throw .unexpectedEnd
    | _ :: _ =>
      within do
        let code ← lift Reader.byte
        match Marker.ofCode? code with
        | none => throw (.unknownMarker code)
        | some marker => body (value turns) marker

/-- Values until the input ends, as long as there are turns. -/
def values : (turns : Nat) → CountingReader (List Value)
  | 0 => do
    match (← get).input with
    | [] => return []
    | _ :: _ => throw .unexpectedEnd
  | turns + 1 => do
    match (← get).input with
    | [] => return []
    | _ :: _ =>
      let first ← value (maxDepth + 1)
      let rest ← values turns
      return first :: rest

/-! ### The plain reader -/

/-- The state in which a run ends. -/
def final {σ : Type} : EStateM.Result WireError σ α → σ
  | .ok _ state => state
  | .error _ state => state

/-- What is left of a run without counter and events. -/
def plain : EStateM.Result WireError CountingState α → EStateM.Result WireError ReadState α
  | .ok result state => .ok result state.toReadState
  | .error cause state => .error cause state.toReadState

/-- At this depth the counting reader does what the plain one does, and it comes back to this
depth. -/
def Follows (depth : Nat) (counting : CountingReader α) (read : Reader α) : Prop :=
  ∀ state : CountingState, state.depth = depth →
    plain (counting state) = read state.toReadState ∧ (final (counting state)).depth = depth

namespace Follows

variable {depth : Nat}

theorem pure (result : α) : Follows depth (Pure.pure result) (Pure.pure result) :=
  fun _ hdepth => ⟨rfl, hdepth⟩

theorem throw (cause : WireError) :
    Follows depth (MonadExcept.throw cause : CountingReader α) (MonadExcept.throw cause) :=
  fun _ hdepth => ⟨rfl, hdepth⟩

theorem lift (read : Reader α) : Follows depth (Counting.lift read) read := by
  intro state hdepth
  rw [Counting.lift]
  cases read state.toReadState with
  | _ => exact ⟨rfl, hdepth⟩

theorem note (event : ReadEvent) : Follows depth (Counting.note event) (Pure.pure ⟨⟩) :=
  fun _ hdepth => ⟨rfl, hdepth⟩

theorem bind {counting : CountingReader α} {read : Reader α} {next : α → CountingReader β}
    {next' : α → Reader β} (h : Follows depth counting read)
    (h' : ∀ result, Follows depth (next result) (next' result)) :
    Follows depth (counting >>= next) (read >>= next') := by
  intro state hdepth
  obtain ⟨hplain, hfinal⟩ := h state hdepth
  show plain (EStateM.bind counting next state) = EStateM.bind read next' state.toReadState ∧
    (final (EStateM.bind counting next state)).depth = depth
  rw [EStateM.bind, EStateM.bind, ← hplain]
  cases hcounting : counting state with
  | error cause after =>
      rw [hcounting] at hfinal
      exact ⟨rfl, hfinal⟩
  | ok result after =>
      rw [hcounting] at hfinal
      exact h' result after hfinal

theorem many {item : CountingReader α} {read : Reader α} (h : Follows depth item read) :
    ∀ count, Follows depth (Counting.many item count) (Reader.many read count)
  | 0 => .pure []
  | count + 1 => h.bind fun _ => (many h count).bind fun _ => .pure _

theorem finish (kind : CollectionKind) (attributes : Dict Value) (operands : List Collection)
    (ids : List Int64) : Follows depth (Counting.finish kind attributes operands ids)
      (Reader.finish kind attributes operands ids) :=
  fun _ hdepth => ⟨rfl, hdepth⟩

theorem reference : Follows depth Counting.reference Reader.reference := by
  refine (Follows.lift Reader.word).bind fun number => ?_
  intro state hdepth
  rw [Reader.bind_get, resolve]
  cases state.nodes[number]? with
  | _ => exact ⟨rfl, hdepth⟩

section Parts

variable {counting : CountingReader Value} {read : Reader Value} (h : Follows depth counting read)
include h

theorem entry : Follows depth (Counting.entry counting) (Reader.entry read) :=
  (Follows.lift _).bind fun _ => h.bind fun _ => .pure _

theorem dict : Follows depth (Counting.dict counting) (Reader.dict read) :=
  (Follows.lift _).bind fun _ => (h.entry.many _).bind fun _ =>
    (Follows.note _).bind fun _ => .pure _

theorem operand : Follows depth (Counting.operand counting) (Reader.operand read) := by
  refine h.bind fun result => ?_
  cases result with
  | collection node => exact .pure node
  | _ => exact .throw _

theorem collection : Follows depth (Counting.collection counting) (Reader.collection read) := by
  refine (Follows.lift _).bind fun code => ?_
  cases CollectionKind.ofCode? code with
  | none => exact .throw _
  | some kind =>
      exact h.dict.bind fun _ => (Follows.lift _).bind fun _ => (Follows.lift _).bind fun _ =>
        (h.operand.many _).bind fun _ => .finish _ _ _ _

end Parts

theorem body {levels : Nat} {counting : CountingReader Value}
    (h : Follows depth counting (Reader.value levels)) (marker : Marker) :
    Follows depth (Counting.body counting marker) (Reader.body levels marker) := by
  cases marker with
  | list => exact (Follows.lift _).bind fun _ => (h.many _).bind fun _ => .pure _
  | dict => exact h.dict.bind fun _ => .pure _
  | collection => exact h.collection.bind fun _ => .pure _
  | reference => exact Follows.reference.bind fun _ => .pure _
  | _ =>
      rw [body_scalar counting levels (by decide)]
      exact .lift _

/-- One level further down the counter is one higher. -/
theorem within {counting : CountingReader α} {read : Reader α} (hdepth : depth < maxDepth)
    (h : Follows (depth + 1) counting read) : Follows depth (Counting.within counting) read := by
  rintro state rfl
  rw [Counting.within, if_neg (Nat.not_lt.mpr hdepth)]
  obtain ⟨hplain, hfinal⟩ := h { state with
    depth := state.depth + 1, events := state.events ++ [.opened] } rfl
  rw [← hplain]
  cases hcounting : counting { state with
    depth := state.depth + 1, events := state.events ++ [.opened] } with
  | _ =>
      rw [hcounting] at hfinal
      exact ⟨rfl, congrArg (· - 1) hfinal⟩

end Follows

/-- With turns enough the counting reader does what the plain one does on the levels that are left.
More turns make no difference. -/
theorem follows_value {turns depth levels : Nat} (hdepth : depth + levels = maxDepth)
    (hturns : levels < turns) : Follows depth (value turns) (Reader.value levels) := by
  induction turns generalizing depth levels with
  | zero => exact absurd hturns (Nat.not_lt_zero _)
  | succ turns ih =>
      rintro ⟨⟨input, nodes, next⟩, _, events⟩ rfl
      cases input with
      | nil => cases levels <;> exact ⟨rfl, rfl⟩
      | cons byte rest =>
          cases levels with
          | zero =>
              -- No level is left, so the counter is at the limit.
              obtain rfl : _ = maxDepth := hdepth
              exact ⟨rfl, rfl⟩
          | succ levels =>
              refine Follows.within (by omega) ?_ _ rfl
              rw [Reader.value_succ]
              refine (Follows.lift _).bind fun code => ?_
              cases Marker.ofCode? code with
              | none => exact .throw _
              | some marker => exact (ih (by omega) (by omega)).body marker

end Counting

/-! ### Decoders -/

namespace CountingState

/-- In front of the first call. -/
def initial (next : NodeId) : CountingState :=
  { input := [], nodes := [], next, depth := 0, events := [] }

/-- The decoder that has come to this state. -/
def decoder (state : CountingState) : Decoder := ⟨state.nodes⟩

end CountingState

open Counting

/-- What a decoder answers when its reader comes to this. -/
def answered {α β : Type} (outcome : EStateM.Result WireError CountingState α)
    (answer : α → CountingState → β) : (Except WireError β × Decoder) × NodeId :=
  match outcome with
  | .ok result after => ((.ok (answer result after), after.decoder), after.next)
  | .error cause after => ((.error cause, after.decoder), after.next)

/-- From the first level on there is one turn for each level and one more. -/
theorem follows_value_top : Follows 0 (value (maxDepth + 1)) (Reader.value maxDepth) :=
  follows_value (Nat.zero_add maxDepth) (Nat.lt_succ_self _)

section Decoding

variable {state : CountingState} (hdepth : state.depth = 0)
include hdepth

/-- A decoder answers what the counting reader comes to. -/
theorem decode_eq_answered (input : List UInt8) :
    state.decoder.decode input state.next =
      answered (value (maxDepth + 1) { state with input }) fun value after =>
        (value, after.input) := by
  obtain ⟨hplain, -⟩ := follows_value_top { state with input } hdepth
  rw [Decoder.decode, CountingState.decoder, ← hplain]
  cases value (maxDepth + 1) { state with input } with
  | _ => rfl

theorem decodeUpTo_eq_answered (turns : Nat) :
    state.decoder.decodeUpTo turns state.input state.next =
      answered (values turns state) fun values _ => values := by
  induction turns generalizing state with
  | zero =>
      obtain ⟨⟨input, nodes, next⟩, depth, past⟩ := state
      cases input <;> rfl
  | succ turns ih =>
      obtain ⟨⟨input, nodes, next⟩, depth, past⟩ := state
      cases input with
      | nil => rfl
      | cons first rest =>
          have hfirst := decode_eq_answered hdepth (first :: rest)
          obtain ⟨-, hmiddle⟩ :=
            follows_value_top ⟨⟨first :: rest, nodes, next⟩, depth, past⟩ hdepth
          show _ = answered (EStateM.bind (value (maxDepth + 1))
            (fun first => EStateM.bind (values turns) fun rest => pure (first :: rest)) _) _
          simp only [Decoder.decodeUpTo, bind, StateT.bind, hfirst, EStateM.bind]
          cases hvalue : value (maxDepth + 1) ⟨⟨first :: rest, nodes, next⟩, depth, past⟩ with
          | error cause after => rfl
          | ok item after =>
              rw [hvalue] at hmiddle
              have hothers := ih (show after.depth = 0 from hmiddle)
              simp only [answered, StateT.bind] at hothers ⊢
              rw [hothers]
              cases values turns after with
              | _ => rfl

theorem decodeAll_eq_answered (input : List UInt8) :
    state.decoder.decodeAll input state.next =
      answered (values input.length { state with input }) fun values _ => values :=
  @decodeUpTo_eq_answered { state with input } hdepth input.length

end Decoding

end MediaCatalog.Wire
