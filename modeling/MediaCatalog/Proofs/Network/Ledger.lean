import Mathlib.Algebra.Group.Nat.Defs
import Mathlib.Data.List.Induction
import MediaCatalog.Client.Request
import MediaCatalog.Wire.Message

/-!
The ledger of a connection. Which messages are accepted, and which of them were answered, follows
from the order of the actions and the length of the queue alone: neither what the messages say nor
how they travel matters. The ledger keeps account of this, and serves as the specification of the
connection.
-/

namespace MediaCatalog

/-- What is done with a connection. The client's part is to send, to subscribe, to register
callbacks and to cancel; the reader takes one message at a time. -/
inductive ClientAction (η : Type) where
  | send (command : Command)
  | subscribe (signal : SignalKind) (subscriber : η)
  /-- Register a callback for the reply at a position. -/
  | onComplete (reply : Nat)
  | cancel (reply : Nat)
  | read

/-- A command that was accepted, and how many requests had been made up to it. -/
structure Posting where
  number : Nat
  command : Command

/-- The message of a posting. Request numbers take four bytes. -/
def Posting.message (posting : Posting) : Message where
  request := UInt32.ofNat posting.number
  object := posting.command.object
  command := posting.command.number
  args := posting.command.args

structure Ledger where
  /-- Everything accepted so far, the oldest first. -/
  accepted : List Posting := []
  /-- How many of these were answered. -/
  answered : Nat := 0
  /-- How many requests were made; one that is refused counts as well. -/
  drawn : Nat := 0
  /-- Positions of the replies that were cancelled before their answer. -/
  withdrawn : List Nat := []
  /-- Signals that were asked for. -/
  requested : List UInt32 := []

namespace Ledger

/-- What waits for its answer. -/
def waiting (ledger : Ledger) : List Posting := ledger.accepted.drop ledger.answered

/-- What was answered. -/
def served (ledger : Ledger) : List Posting := ledger.accepted.take ledger.answered

def accept (ledger : Ledger) (command : Command) : Ledger :=
  { ledger with
    accepted := ledger.accepted ++ [⟨ledger.drawn + 1, command⟩]
    drawn := ledger.drawn + 1 }

/-- Refuse a command. Its request number is used up. -/
def refuse (ledger : Ledger) : Ledger := { ledger with drawn := ledger.drawn + 1 }

/-- Note that a reply was cancelled. -/
def withdraw (ledger : Ledger) (reply : Nat) : Ledger :=
  { ledger with withdrawn := reply :: ledger.withdrawn }

/-- Accept a command unless as many wait as may wait. -/
def post (capacity : Nat) (ledger : Ledger) (command : Command) : Bool × Ledger :=
  if ledger.waiting.length < max capacity 1 then (true, ledger.accept command)
  else (false, ledger.refuse)

/-- The command by which a signal is asked for. -/
def forwarding (signal : SignalKind) : Command where
  object := .signal
  number := forwardCommand
  args := [.int signal.number.toUInt64.toInt64]

variable {η : Type}

def step (capacity : Nat) (ledger : Ledger) : ClientAction η → Ledger
  | .send command => (ledger.post capacity command).2
  | .subscribe signal _ =>
    if signal.number ∈ ledger.requested then ledger
    else
      let (accepted, ledger) := ledger.post capacity (forwarding signal)
      if accepted then { ledger with requested := signal.number :: ledger.requested } else ledger
  | .onComplete _ => ledger
  | .cancel reply =>
    if ledger.answered ≤ reply ∧ reply < ledger.accepted.length then ledger.withdraw reply
    else ledger
  | .read => { ledger with answered := min (ledger.answered + 1) ledger.accepted.length }

/-- The ledger after some actions. -/
def run (capacity : Nat) (actions : List (ClientAction η)) : Ledger :=
  actions.foldl (step capacity) {}

/-- No message waits so long that its request number comes back. -/
def Timely (ledger : Ledger) : Prop :=
  ∀ posting ∈ ledger.waiting, ledger.drawn < posting.number + 2 ^ 32

/-! ### Accounts in order -/

/-- What every ledger keeps to: only what was accepted is answered or cancelled, and numbers
ascend. -/
structure Valid (ledger : Ledger) : Prop where
  answered_le : ledger.answered ≤ ledger.accepted.length
  withdrawn_lt : ∀ reply ∈ ledger.withdrawn, reply < ledger.accepted.length
  ascending : ledger.accepted.Pairwise fun earlier later => earlier.number < later.number
  number_le : ∀ posting ∈ ledger.accepted, posting.number ≤ ledger.drawn

theorem Valid.empty : Valid {} where
  answered_le := Nat.le_refl _
  withdrawn_lt := by simp
  ascending := .nil
  number_le := by simp

theorem Valid.accept {ledger : Ledger} (h : ledger.Valid) (command : Command) :
    (ledger.accept command).Valid := by
  have hlength : (ledger.accept command).accepted.length = ledger.accepted.length + 1 :=
    List.length_append
  have hlater : ∀ posting ∈ ledger.accepted, posting.number < ledger.drawn + 1 :=
    fun posting hposting => Nat.lt_succ_of_le (h.number_le posting hposting)
  refine ⟨?_, ?_, ?_, ?_⟩
  · rw [hlength]
    exact Nat.le_succ_of_le h.answered_le
  · intro reply hreply
    rw [hlength]
    exact Nat.lt_succ_of_lt (h.withdrawn_lt reply hreply)
  · refine List.pairwise_append.mpr ⟨h.ascending, List.pairwise_singleton _ _, ?_⟩
    intro posting hposting last hlast
    rw [List.mem_singleton.mp hlast]
    exact hlater posting hposting
  · intro posting hposting
    rcases List.mem_append.mp hposting with hold | hnew
    · exact Nat.le_of_lt (hlater posting hold)
    · exact Nat.le_of_eq (congrArg Posting.number (List.mem_singleton.mp hnew))

theorem Valid.refuse {ledger : Ledger} (h : ledger.Valid) : ledger.refuse.Valid :=
  ⟨h.answered_le, h.withdrawn_lt, h.ascending,
    fun posting hposting => Nat.le_succ_of_le (h.number_le posting hposting)⟩

theorem Valid.post {ledger : Ledger} (h : ledger.Valid) (capacity : Nat) (command : Command) :
    (ledger.post capacity command).2.Valid := by
  rw [Ledger.post]
  split
  · exact h.accept command
  · exact h.refuse

theorem Valid.step {ledger : Ledger} (h : ledger.Valid) (capacity : Nat)
    (action : ClientAction η) : (ledger.step capacity action).Valid := by
  cases action with
  | send command => exact h.post capacity command
  | subscribe signal subscriber =>
      have hpost := h.post capacity (forwarding signal)
      simp only [Ledger.step]
      split
      · exact h
      · split
        · exact ⟨hpost.answered_le, hpost.withdrawn_lt, hpost.ascending, hpost.number_le⟩
        · exact hpost
  | onComplete reply => exact h
  | cancel reply =>
      simp only [Ledger.step]
      split
      · next hreply =>
        exact ⟨h.answered_le, List.forall_mem_cons.mpr ⟨hreply.2, h.withdrawn_lt⟩, h.ascending,
          h.number_le⟩
      · exact h
  | read => exact ⟨Nat.min_le_right _ _, h.withdrawn_lt, h.ascending, h.number_le⟩

theorem run_append (capacity : Nat) (actions : List (ClientAction η)) (action : ClientAction η) :
    run capacity (actions ++ [action]) = (run capacity actions).step capacity action := by
  simp [run]

theorem run_valid (capacity : Nat) (actions : List (ClientAction η)) :
    (run capacity actions).Valid := by
  induction actions using List.reverseRecOn with
  | nil => exact .empty
  | append_singleton actions action ih =>
      rw [run_append]
      exact ih.step capacity action

/-! ### Request numbers -/

/-- Two numbers less than `2 ^ 32` apart stay apart in four bytes. -/
theorem ofNat_ne {first second : Nat} (hlt : first < second) (hnear : second < first + 2 ^ 32) :
    UInt32.ofNat first ≠ UInt32.ofNat second := by
  intro hsame
  have hmod := congrArg UInt32.toNat hsame
  rw [UInt32.toNat_ofNat', UInt32.toNat_ofNat'] at hmod
  omega

section Requests

variable {ledger : Ledger} (h : ledger.Valid)

theorem mem_waiting {i : Nat} {posting : Posting} (hposting : ledger.accepted[i]? = some posting)
    (hi : ledger.answered ≤ i) : posting ∈ ledger.waiting := by
  obtain ⟨hlength, rfl⟩ := List.getElem?_eq_some_iff.mp hposting
  exact List.mem_drop_iff_getElem.mpr ⟨i - ledger.answered, by omega, by simp [hi]⟩

include h

theorem Valid.waiting_accept (command : Command) :
    (ledger.accept command).waiting = ledger.waiting ++ [⟨ledger.drawn + 1, command⟩] :=
  List.drop_append_of_le_length h.answered_le

theorem Valid.lt_of_waiting {posting : Posting} (hposting : posting ∈ ledger.waiting) :
    posting.number < ledger.drawn + 1 :=
  Nat.lt_succ_of_le (h.number_le posting (List.mem_of_mem_drop hposting))

/-- Messages that wait at the same time have different requests. -/
theorem Valid.eq_of_request_eq (htimely : ledger.Timely) {i j : Nat} {posting posting' : Posting}
    (hi : ledger.accepted[i]? = some posting) (hj : ledger.accepted[j]? = some posting')
    (hwaiting : ledger.answered ≤ i) (hwaiting' : ledger.answered ≤ j)
    (hsame : posting.message.request = posting'.message.request) : i = j := by
  have hne {i j : Nat} {posting posting' : Posting} (hi : ledger.accepted[i]? = some posting)
      (hj : ledger.accepted[j]? = some posting') (hwaiting : ledger.answered ≤ i) (hlt : i < j) :
      posting.message.request ≠ posting'.message.request := by
    have hmem := mem_waiting hi hwaiting
    obtain ⟨hilength, rfl⟩ := List.getElem?_eq_some_iff.mp hi
    obtain ⟨hjlength, rfl⟩ := List.getElem?_eq_some_iff.mp hj
    -- The later number is between the earlier one and the last, which is not far.
    have hearlier := List.pairwise_iff_getElem.mp h.ascending i j hilength hjlength hlt
    have hnear := htimely _ hmem
    have hdrawn := h.number_le _ (List.getElem_mem hjlength)
    exact ofNat_ne hearlier (by omega)
  rcases Nat.lt_trichotomy i j with hlt | heq | hgt
  · exact absurd hsame (hne hi hj hwaiting hlt)
  · exact heq
  · exact absurd hsame.symm (hne hj hi hwaiting' hgt)

end Requests

/-! ### Reading -/

section Reading

variable {ledger : Ledger} {posting : Posting} {rest : List Posting}
  (hwaiting : ledger.waiting = posting :: rest) (capacity : Nat)

/-- The reader finds nothing if nothing waits. -/
theorem Valid.read_idle (h : ledger.Valid) (hidle : ledger.waiting = []) (capacity : Nat) :
    ledger.step (η := η) capacity .read = ledger := by
  have hlength := List.drop_eq_nil_iff.mp hidle
  have hle := h.answered_le
  have hsame : min (ledger.answered + 1) ledger.accepted.length = ledger.answered := by omega
  rw [Ledger.step, hsame]

include hwaiting

/-- What waits longest is next. -/
theorem getElem?_answered : ledger.accepted[ledger.answered]? = some posting := by
  have hfirst : ledger.waiting[0]? = some posting := by
    rw [hwaiting]
    rfl
  rwa [waiting, List.getElem?_drop, Nat.add_zero] at hfirst

theorem answered_read :
    (ledger.step (η := η) capacity .read).answered = ledger.answered + 1 := by
  obtain ⟨hlt, -⟩ := List.getElem?_eq_some_iff.mp (getElem?_answered hwaiting)
  exact Nat.min_eq_left hlt

/-- The reader takes what waits longest. -/
theorem waiting_read : (ledger.step (η := η) capacity .read).waiting = rest := by
  rw [waiting, answered_read hwaiting]
  show ledger.accepted.drop (ledger.answered + 1) = rest
  rw [← List.tail_drop, ← waiting, hwaiting, List.tail_cons]

/-- Answers come in the order of sending. -/
theorem served_read :
    (ledger.step (η := η) capacity .read).served = ledger.served ++ [posting] := by
  rw [served, answered_read hwaiting]
  show ledger.accepted.take (ledger.answered + 1) = _
  rw [List.take_add_one, getElem?_answered hwaiting]
  rfl

end Reading

/-! ### What the others leave alone -/

section Growing

variable {ledger : Ledger} (capacity : Nat)

theorem served_post (h : ledger.Valid) (command : Command) :
    (ledger.post capacity command).2.served = ledger.served := by
  rw [post]
  split
  · exact List.take_append_of_le_length h.answered_le
  · rfl

theorem accepted_post (command : Command) :
    ledger.accepted <+: (ledger.post capacity command).2.accepted := by
  rw [post]
  split
  · exact List.prefix_append _ _
  · exact List.prefix_rfl

/-- Only the reader answers. -/
theorem served_act (h : ledger.Valid) {action : ClientAction η} (hact : action ≠ .read) :
    (ledger.step capacity action).served = ledger.served := by
  cases action with
  | send command => exact served_post capacity h command
  | subscribe signal subscriber =>
      simp only [step]
      split
      · rfl
      · split
        all_goals exact served_post capacity h _
  | onComplete reply => rfl
  | cancel reply =>
      simp only [step]
      split
      all_goals rfl
  | read => exact absurd rfl hact

/-- What was accepted stays accepted, in the same order. -/
theorem accepted_grows (ledger : Ledger) (action : ClientAction η) :
    ledger.accepted <+: (ledger.step capacity action).accepted := by
  cases action with
  | send command => exact accepted_post capacity command
  | subscribe signal subscriber =>
      simp only [step]
      split
      · exact List.prefix_rfl
      · split
        all_goals exact accepted_post capacity _
  | onComplete reply => exact List.prefix_rfl
  | cancel reply =>
      simp only [step]
      split
      all_goals exact List.prefix_rfl
  | read => exact List.prefix_rfl

theorem Valid.length_served (h : ledger.Valid) : ledger.served.length = ledger.answered := by
  rw [served, List.length_take, Nat.min_eq_left h.answered_le]

end Growing

/-! ### Whole runs -/

section Runs

variable (capacity : Nat) (actions : List (ClientAction η))

/-- Reading on answers as many messages as are read, but not more than wait. -/
theorem run_reads (count : Nat) :
    run capacity (actions ++ List.replicate count .read) =
      { run capacity actions with
        answered := min ((run capacity actions).answered + count)
          (run capacity actions).accepted.length } := by
  induction count with
  | zero =>
      have hle := (run_valid capacity actions).answered_le
      simp only [List.replicate_zero, List.append_nil, Nat.add_zero, Nat.min_eq_left hle]
  | succ count ih =>
      have hmin (answered length : Nat) :
          min (min (answered + count) length + 1) length = min (answered + (count + 1)) length := by
        omega
      rw [List.replicate_succ', ← List.append_assoc, run_append, ih, step]
      simp only [hmin]

/-- Reading on for long enough answers everything. -/
theorem served_reads {count : Nat} (hcount : (run capacity actions).waiting.length ≤ count) :
    (run capacity (actions ++ List.replicate count .read)).served =
      (run capacity actions).accepted := by
  rw [waiting, List.length_drop] at hcount
  have henough : (run capacity actions).accepted.length ≤
      (run capacity actions).answered + count := by
    omega
  rw [run_reads]
  exact List.take_of_length_le (Nat.le_min.mpr ⟨henough, Nat.le_refl _⟩)

/-- An action makes one request at most. -/
theorem drawn_step_le (ledger : Ledger) (action : ClientAction η) :
    (ledger.step capacity action).drawn ≤ ledger.drawn + 1 := by
  have hpost (command : Command) : (ledger.post capacity command).2.drawn = ledger.drawn + 1 := by
    rw [post]
    split
    all_goals rfl
  cases action with
  | send command => exact Nat.le_of_eq (hpost command)
  | subscribe signal subscriber =>
      simp only [step]
      split
      · exact Nat.le_succ _
      · split
        all_goals exact Nat.le_of_eq (hpost _)
  | onComplete reply => exact Nat.le_succ _
  | cancel reply =>
      simp only [step]
      split
      all_goals exact Nat.le_succ _
  | read => exact Nat.le_succ _

/-- After how many actions request numbers come back. -/
theorem timely_of_length_lt (hlength : actions.length < 2 ^ 32) :
    (run capacity actions).Timely := by
  have hdrawn : (run capacity actions).drawn ≤ actions.length := by
    clear hlength
    induction actions using List.reverseRecOn with
    | nil => exact Nat.le_refl _
    | append_singleton actions action ih =>
        have hstep := drawn_step_le capacity (run capacity actions) action
        rw [run_append, List.length_append, List.length_singleton]
        omega
  intro posting _
  omega

end Runs

end Ledger

end MediaCatalog
