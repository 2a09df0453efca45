import Mathlib.Data.List.Nodup
import MediaCatalog.Proofs.Wire.Counting

/-!
What the events tell. On the way through an input the reader that counts never opens more values
than there are levels, nor more than it takes bytes. It only adds to the nodes that are known, it
writes down under which number each of them is finished, and a number is taken for the node that was
finished under it before. All this holds however the reader comes to its end.
-/

namespace MediaCatalog.Wire

/-! ### Events -/

namespace ReadEvent

/-- How many more values are open after the event. -/
def change : ReadEvent → Int
  | opened => 1
  | closed => -1
  | table _ | finished _ _ | resolved _ _ => 0

def isOpened : ReadEvent → Bool
  | opened => true
  | _ => false

end ReadEvent

/-- How many more values are open after the events than before them. -/
def nesting (events : List ReadEvent) : Int := (events.map ReadEvent.change).sum

/-- How many values were let in. -/
def openings (events : List ReadEvent) : Nat := events.countP ReadEvent.isOpened

@[simp] theorem nesting_nil : nesting [] = 0 := rfl

@[simp] theorem nesting_append (first second : List ReadEvent) :
    nesting (first ++ second) = nesting first + nesting second := by
  simp [nesting]

@[simp] theorem nesting_cons (event : ReadEvent) (events : List ReadEvent) :
    nesting (event :: events) = event.change + nesting events := by
  simp [nesting]

@[simp] theorem openings_append (first second : List ReadEvent) :
    openings (first ++ second) = openings first + openings second :=
  List.countP_append

theorem openings_inside (events : List ReadEvent) :
    openings (.opened :: events ++ [.closed]) = openings events + 1 := by
  rw [openings_append, openings, List.countP_cons_of_pos rfl]
  rfl

/-- From this level on, no more values are open at any time than there are levels, and in the end as
many as in the beginning. -/
structure Levelled (depth : Nat) (events : List ReadEvent) : Prop where
  bounded : ∀ first, first <+: events → 0 ≤ nesting first ∧ depth + nesting first ≤ maxDepth
  settled : nesting events = 0

namespace Levelled

variable {depth : Nat} {events events' : List ReadEvent}

theorem nil (h : depth ≤ maxDepth) : Levelled depth [] where
  bounded first hfirst := by
    rw [List.prefix_nil.mp hfirst, nesting_nil]
    omega
  settled := rfl

theorem append (h : Levelled depth events) (h' : Levelled depth events') :
    Levelled depth (events ++ events') where
  bounded first hfirst := by
    rcases List.prefix_or_prefix_of_prefix hfirst (List.prefix_append events events') with
      hshort | ⟨inner, rfl⟩
    · exact h.bounded first hshort
    · rw [nesting_append, h.settled, Int.zero_add]
      exact h'.bounded inner ((List.prefix_append_right_inj events).mp hfirst)
  settled := by rw [nesting_append, h.settled, h'.settled, Int.add_zero]

/-- An event that opens and closes nothing. -/
theorem single {event : ReadEvent} (h : depth ≤ maxDepth) (hchange : event.change = 0) :
    Levelled depth [event] where
  bounded first hfirst := by
    have hzero : nesting first = 0 := by
      rcases List.prefix_cons_iff.mp hfirst with rfl | ⟨rest, rfl, hrest⟩
      · rfl
      · rw [List.prefix_nil.mp hrest, nesting_cons, hchange, nesting_nil, Int.add_zero]
    omega
  settled := by rw [nesting_cons, hchange, nesting_nil, Int.add_zero]

/-- What is levelled one level further down is levelled between opening and closing. -/
theorem inside (h : Levelled (depth + 1) events) :
    Levelled depth (.opened :: events ++ [.closed]) where
  bounded first hfirst := by
    have hbelow := (h.bounded [] List.nil_prefix).2
    rw [nesting_nil] at hbelow
    rcases List.prefix_concat_iff.mp hfirst with rfl | hfirst
    · simp only [nesting_append, nesting_cons, nesting_nil, ReadEvent.change, h.settled]
      omega
    rcases List.prefix_cons_iff.mp hfirst with rfl | ⟨inner, rfl, hinner⟩
    · rw [nesting_nil]
      omega
    · have hbounded := h.bounded inner hinner
      rw [nesting_cons, ReadEvent.change]
      omega
  settled := by
    simp only [nesting_append, nesting_cons, nesting_nil, ReadEvent.change, h.settled]
    omega

end Levelled

/-! ### States -/

namespace ReadState

/-- The identities of the finished nodes, in the order of their numbers. -/
def table (state : ReadState) : List NodeId := state.nodes.map Collection.id

/-- No identity was given twice, and those to come are new. -/
structure Sound (state : ReadState) : Prop where
  nodup : state.table.Nodup
  fresh : ∀ id ∈ state.table, id < state.next

theorem table_push (state : ReadState) {node : Collection} (hid : node.id = state.next) :
    (state.nodes ++ [node]).map Collection.id = state.table ++ [state.next] := by
  rw [List.map_append, List.map_singleton, hid, table]

/-- The next node gets an identity that none has. -/
theorem Sound.push {state : ReadState} (h : state.Sound) {node : Collection}
    (hid : node.id = state.next) :
    Sound { state with nodes := state.nodes ++ [node], next := state.next + 1 } := by
  refine ⟨?_, ?_⟩
  · rw [table, state.table_push hid]
    refine List.nodup_append.mpr ⟨h.nodup, List.nodup_singleton _, ?_⟩
    rintro id hold _ hnew rfl
    exact Nat.lt_irrefl _ (List.mem_singleton.mp hnew ▸ h.fresh id hold)
  · rw [table, state.table_push hid]
    intro id hmem
    rcases List.mem_append.mp hmem with hold | hnew
    · exact Nat.lt_succ_of_lt (h.fresh id hold)
    · exact List.mem_singleton.mp hnew ▸ Nat.lt_succ_self _

end ReadState

/-- The events tell which nodes are known under which numbers, and each number that was taken for a
node had been given to it before. -/
structure CountingState.Recorded (state : CountingState) : Prop where
  depth : state.depth ≤ maxDepth
  sound : state.toReadState.Sound
  numbered : ∀ number node, .finished number node ∈ state.events ↔
    state.nodes[number]? = some node
  resolved : ∀ earlier number node, earlier ++ [.resolved number node] <+: state.events →
    .finished number node ∈ earlier

namespace CountingState.Recorded

variable {state : CountingState} (h : state.Recorded)
include h

/-- Bytes may be taken. -/
theorem with_input (input : List UInt8) : Recorded { state with input } :=
  ⟨h.depth, ⟨h.sound.nodup, h.sound.fresh⟩, h.numbered, h.resolved⟩

/-- Values may be opened and closed, as far as there are levels, and tables may be read. -/
theorem note {event : ReadEvent} (hevent : ∀ number node,
      event ≠ .finished number node ∧ event ≠ .resolved number node)
    {depth : Nat} (hdepth : depth ≤ maxDepth) (input : List UInt8) :
    Recorded { state with input, depth, events := state.events ++ [event] } where
  depth := hdepth
  sound := ⟨h.sound.nodup, h.sound.fresh⟩
  numbered number node := by
    rw [List.mem_append, ← h.numbered number node, List.mem_singleton]
    exact or_iff_left (hevent number node).1.symm
  resolved earlier number node hbegins := by
    rcases List.prefix_concat_iff.mp hbegins with hlast | hbefore
    · obtain ⟨-, hsame⟩ := List.append_inj' hlast rfl
      exact absurd (List.singleton_inj.mp hsame).symm (hevent number node).2
    · exact h.resolved earlier number node hbefore

theorem finish (kind : CollectionKind) (attributes : Dict Value) (operands : List Collection)
    (ids : List Int64) :
    Recorded (Counting.final (Counting.finish kind attributes operands ids state)) where
  depth := h.depth
  sound := h.sound.push rfl
  numbered number other := by
    simp only [Counting.final, Counting.finish]
    rw [List.mem_append, h.numbered number other, List.mem_singleton, ReadEvent.finished.injEq]
    rcases Nat.lt_trichotomy number state.nodes.length with hlt | rfl | hgt
    · rw [List.getElem?_append_left hlt]
      simp [Nat.ne_of_lt hlt]
    · rw [List.getElem?_eq_none (Nat.le_refl _), List.getElem?_concat_length]
      simp [eq_comm]
    · rw [List.getElem?_eq_none hgt.le,
        List.getElem?_eq_none (List.length_append.trans_le (Nat.succ_le_of_lt hgt))]
      simp [Nat.ne_of_gt hgt]
  resolved earlier number other hbegins := by
    rcases List.prefix_concat_iff.mp hbegins with hlast | hbefore
    · obtain ⟨-, hsame⟩ := List.append_inj' hlast rfl
      cases hsame
    · exact h.resolved earlier number other hbefore

theorem resolve {number : Nat} {node : Collection} (hnode : state.nodes[number]? = some node) :
    Recorded { state with events := state.events ++ [.resolved number node] } where
  depth := h.depth
  sound := h.sound
  numbered number' other := by
    rw [List.mem_append, ← h.numbered number' other]
    simp
  resolved earlier number' other hbegins := by
    rcases List.prefix_concat_iff.mp hbegins with hlast | hbefore
    · obtain ⟨rfl, hsame⟩ := List.append_inj' hlast rfl
      obtain ⟨rfl, rfl⟩ := ReadEvent.resolved.inj (List.singleton_inj.mp hsame)
      exact (h.numbered number' other).mpr hnode
    · exact h.resolved earlier number' other hbefore

end CountingState.Recorded

theorem CountingState.recorded_initial (next : NodeId) : (initial next).Recorded where
  depth := Nat.zero_le _
  sound := ⟨List.nodup_nil, fun _ hid => absurd hid List.not_mem_nil⟩
  numbered number node := by simp [initial]
  resolved earlier number node hbegins := by simp [initial] at hbegins

/-- From one state of a counting reader to a later one. -/
structure Advance (state after : CountingState) (events : List ReadEvent) : Prop where
  recorded : after.events = state.events ++ events
  levelled : Levelled state.depth events
  depth : after.depth = state.depth
  input : after.input <:+ state.input
  openings : openings events + after.input.length ≤ state.input.length
  nodes : state.nodes <+: after.nodes
  next : state.next ≤ after.next

namespace Advance

variable {state middle after : CountingState} {events events' : List ReadEvent}

theorem refl (h : state.Recorded) : Advance state state [] :=
  ⟨(List.append_nil _).symm, .nil h.depth, rfl, List.suffix_rfl, (Nat.zero_add _).le,
    List.prefix_rfl, Nat.le_refl _⟩

theorem trans (h : Advance state middle events) (h' : Advance middle after events') :
    Advance state after (events ++ events') where
  recorded := by rw [h'.recorded, h.recorded, List.append_assoc]
  levelled := h.levelled.append (h.depth ▸ h'.levelled)
  depth := h'.depth.trans h.depth
  input := h'.input.trans h.input
  openings := by
    have hfirst := h.openings
    have hsecond := h'.openings
    rw [openings_append]
    omega
  nodes := h.nodes.trans h'.nodes
  next := h.next.trans h'.next

end Advance

/-! ### Readers -/

namespace Counting

variable {α β : Type}

/-- However the reader comes to its end, it only advances. -/
def Safe (read : CountingReader α) : Prop :=
  ∀ state : CountingState, state.Recorded →
    ∃ events, Advance state (final (read state)) events ∧ (final (read state)).Recorded

/-- The reader takes bytes from the front and does nothing else. -/
def OnlyTakes (read : Reader α) : Prop :=
  ∀ state : ReadState, ∃ input, final (read state) = { state with input } ∧ input <:+ state.input

namespace OnlyTakes

theorem pure (result : α) : OnlyTakes (Pure.pure result) :=
  fun state => ⟨state.input, rfl, List.suffix_rfl⟩

theorem throw (cause : WireError) : OnlyTakes (MonadExcept.throw cause : Reader α) :=
  fun state => ⟨state.input, rfl, List.suffix_rfl⟩

theorem bind {read : Reader α} {next : α → Reader β} (h : OnlyTakes read)
    (h' : ∀ result, OnlyTakes (next result)) : OnlyTakes (read >>= next) := by
  intro state
  obtain ⟨input, hfinal, hinput⟩ := h state
  cases hread : read state with
  | error cause after =>
      rw [Reader.bind_error hread]
      rw [hread] at hfinal
      exact ⟨input, hfinal, hinput⟩
  | ok result after =>
      rw [hread] at hfinal
      obtain ⟨input', hfinal', hinput'⟩ := h' result after
      obtain rfl : after = { state with input } := hfinal
      rw [Reader.bind_ok hread]
      exact ⟨input', hfinal', hinput'.trans hinput⟩

theorem bytes (count : Nat) : OnlyTakes (Reader.bytes count) := by
  intro state
  rw [Reader.bytes, splitAt?]
  by_cases hsize : (state.input.take count).length = count
  · rw [if_pos hsize]
    exact ⟨_, rfl, List.drop_suffix _ _⟩
  · rw [if_neg hsize]
    exact ⟨_, rfl, List.suffix_rfl⟩

theorem byte : OnlyTakes Reader.byte := by
  rintro ⟨input, nodes, next⟩
  cases input with
  | nil => exact ⟨[], rfl, List.suffix_rfl⟩
  | cons first rest => exact ⟨rest, rfl, List.suffix_cons _ _⟩

theorem kept : Reader.Kept OnlyTakes := ⟨pure, throw, bind, bytes⟩

end OnlyTakes

namespace Safe

theorem pure (result : α) : Safe (Pure.pure result) :=
  fun _ hstate => ⟨[], .refl hstate, hstate⟩

theorem throw (cause : WireError) : Safe (MonadExcept.throw cause : CountingReader α) :=
  fun _ hstate => ⟨[], .refl hstate, hstate⟩

theorem lift {read : Reader α} (h : OnlyTakes read) : Safe (Counting.lift read) := by
  intro state hstate
  obtain ⟨input, hfinal, hinput⟩ := h state.toReadState
  have hafter : final (Counting.lift read state) = { state with input } := by
    rw [Counting.lift]
    cases hread : read state.toReadState with
    | _ =>
        rw [hread] at hfinal
        exact congrArg (fun after => { state with toReadState := after }) hfinal
  rw [hafter]
  exact ⟨[], ⟨(List.append_nil _).symm, .nil hstate.depth, rfl, hinput,
    (Nat.zero_add _).le.trans hinput.length_le, List.prefix_rfl, Nat.le_refl _⟩,
    hstate.with_input input⟩

theorem bind {read : CountingReader α} {next : α → CountingReader β} (h : Safe read)
    (h' : ∀ result, Safe (next result)) : Safe (read >>= next) := by
  intro state hstate
  obtain ⟨events, hadvance, hmiddle⟩ := h state hstate
  show ∃ events, Advance state (final (EStateM.bind read next state)) events ∧
    (final (EStateM.bind read next state)).Recorded
  rw [EStateM.bind]
  cases hread : read state with
  | error cause after =>
      rw [hread] at hadvance hmiddle
      exact ⟨events, hadvance, hmiddle⟩
  | ok result after =>
      rw [hread] at hadvance hmiddle
      obtain ⟨events', hadvance', hafter⟩ := h' result after hmiddle
      exact ⟨events ++ events', hadvance.trans hadvance', hafter⟩

theorem note (keys : List String) : Safe (Counting.note (.table keys)) :=
  fun state hstate => ⟨[.table keys],
    ⟨rfl, .single hstate.depth rfl, rfl, List.suffix_rfl, (Nat.zero_add _).le, List.prefix_rfl,
      Nat.le_refl _⟩, hstate.note (by simp) hstate.depth state.input⟩

theorem many {item : CountingReader α} (h : Safe item) : ∀ count, Safe (Counting.many item count)
  | 0 => .pure []
  | count + 1 => h.bind fun _ => (many h count).bind fun _ => .pure _

theorem finish (kind : CollectionKind) (attributes : Dict Value) (operands : List Collection)
    (ids : List Int64) : Safe (Counting.finish kind attributes operands ids) :=
  fun state hstate => ⟨[.finished state.nodes.length _],
    ⟨rfl, .single hstate.depth rfl, rfl, List.suffix_rfl, (Nat.zero_add _).le,
      List.prefix_append _ _, Nat.le_succ _⟩, hstate.finish kind attributes operands ids⟩

theorem resolve (number : Nat) : Safe (Counting.resolve number) := by
  intro state hstate
  rw [Counting.resolve]
  cases hnode : state.nodes[number]? with
  | none => exact ⟨[], .refl hstate, hstate⟩
  | some node =>
      exact ⟨[.resolved number node],
        ⟨rfl, .single hstate.depth rfl, rfl, List.suffix_rfl, (Nat.zero_add _).le,
          List.prefix_rfl, Nat.le_refl _⟩, hstate.resolve hnode⟩

section Parts

variable {value : CountingReader Value} (h : Safe value)
include h

theorem entry : Safe (Counting.entry value) :=
  (lift OnlyTakes.kept.text).bind fun _ => h.bind fun _ => .pure _

theorem dict : Safe (Counting.dict value) :=
  (lift OnlyTakes.kept.word).bind fun _ => (h.entry.many _).bind fun _ =>
    (Safe.note _).bind fun _ => .pure _

theorem operand : Safe (Counting.operand value) := by
  refine h.bind fun item => ?_
  split
  · exact .pure _
  · exact .throw _

theorem node (kind : CollectionKind) : Safe (Counting.node value kind) :=
  h.dict.bind fun _ => (lift OnlyTakes.kept.ids).bind fun _ =>
    (lift OnlyTakes.kept.word).bind fun _ => (h.operand.many _).bind fun _ => .finish _ _ _ _

theorem collection : Safe (Counting.collection value) := by
  refine (lift .byte).bind fun code => ?_
  split
  · exact .throw _
  · exact h.node _

theorem body (marker : Marker) : Safe (Counting.body value marker) := by
  cases marker with
  | list => exact (lift OnlyTakes.kept.word).bind fun _ => (h.many _).bind fun _ => .pure _
  | dict => exact h.dict.bind fun _ => .pure _
  | collection => exact h.collection.bind fun _ => .pure _
  | reference =>
      exact ((lift OnlyTakes.kept.word).bind fun number => resolve number).bind fun _ => .pure _
  | _ =>
      rw [body_scalar value 0 (by decide)]
      exact lift (OnlyTakes.kept.scalar 0 (by decide))

end Parts

/-- What is opened takes its marker, so there are no more openings than bytes. -/
theorem within {next : UInt8 → CountingReader α} (h : ∀ code, Safe (next code))
    {state : CountingState} (hstate : state.Recorded) {first : UInt8} {rest : List UInt8}
    (hinput : state.input = first :: rest) :
    ∃ events,
      Advance state (final (Counting.within (Counting.lift Reader.byte >>= next) state)) events ∧
        (final (Counting.within (Counting.lift Reader.byte >>= next) state)).Recorded := by
  obtain ⟨⟨input, nodes, fresh⟩, depth, past⟩ := state
  obtain rfl : input = first :: rest := hinput
  rw [Counting.within]
  by_cases hdeep : maxDepth < depth + 1
  · rw [if_pos hdeep]
    exact ⟨[], .refl hstate, hstate⟩
  rw [if_neg hdeep]
  -- After the marker the reader is one level further down.
  let inner : CountingState := ⟨⟨rest, nodes, fresh⟩, depth + 1, past ++ [.opened]⟩
  have hinner : inner.Recorded := hstate.note (by simp) (Nat.not_lt.mp hdeep) rest
  obtain ⟨events, hadvance, hfinal⟩ := h first inner hinner
  have hmarker : (Counting.lift Reader.byte >>= next)
      ⟨⟨first :: rest, nodes, fresh⟩, depth + 1, past ++ [.opened]⟩ = next first inner := rfl
  rw [hmarker]
  have houter (after : CountingState) (hadvance : Advance inner after events)
      (hafter : after.Recorded) :
      let closed : CountingState :=
        { after with depth := after.depth - 1, events := after.events ++ [.closed] }
      Advance ⟨⟨first :: rest, nodes, fresh⟩, depth, past⟩ closed
        (.opened :: events ++ [.closed]) ∧ closed.Recorded := by
    have hdepth : after.depth = depth + 1 := hadvance.depth
    refine ⟨⟨?_, hadvance.levelled.inside, ?_, ?_, ?_, hadvance.nodes, hadvance.next⟩, ?_⟩
    · simp [hadvance.recorded, inner]
    · simp [hdepth]
    · exact hadvance.input.trans (List.suffix_cons _ _)
    · have hopenings := hadvance.openings
      rw [openings_inside, List.length_cons]
      simp only [inner] at hopenings ⊢
      omega
    · exact hafter.note (by simp) (by omega) _
  cases hnext : next first inner with
  | _ =>
      rw [hnext] at hadvance hfinal
      exact ⟨_, houter _ hadvance hfinal⟩

theorem value (turns : Nat) : Safe (Counting.value turns) := by
  induction turns with
  | zero => exact .throw _
  | succ turns ih =>
      intro state hstate
      obtain ⟨⟨input, nodes, next⟩, depth, past⟩ := state
      cases input with
      | nil => exact ⟨[], .refl hstate, hstate⟩
      | cons first rest =>
          refine within (fun code => ?_) hstate rfl
          split
          · exact .throw _
          · exact ih.body _

theorem values (turns : Nat) : Safe (Counting.values turns) := by
  induction turns with
  | zero =>
      intro state hstate
      obtain ⟨⟨input, nodes, next⟩, depth, past⟩ := state
      cases input with
      | _ => exact ⟨[], .refl hstate, hstate⟩
  | succ turns ih =>
      intro state hstate
      obtain ⟨⟨input, nodes, next⟩, depth, past⟩ := state
      cases input with
      | nil => exact ⟨[], .refl hstate, hstate⟩
      | cons first rest =>
          exact ((value _).bind fun _ => ih.bind fun _ => .pure _) _ hstate

end Safe

end Counting

end MediaCatalog.Wire
