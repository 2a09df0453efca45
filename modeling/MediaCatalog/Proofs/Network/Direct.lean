import MediaCatalog.Network.Serving
import MediaCatalog.Proofs.Server.Mirror
import MediaCatalog.Proofs.Server.Sound

/-!
Direct calls. This is what messages come to when the service is called with them one after
another, without a connection, and how an outcome reads once it was relayed to a client. Messages
to the signal object do not concern the service. Over a link that encodes, what nests too deep to
be decoded takes the place of a call or of an outcome.
-/

namespace MediaCatalog

open Wire

/-- What a message comes to. -/
abbrev Outcome := Except Error Value

/-- Both failed for one reason, or one value is a copy of the other. -/
abbrev Outcome.Copied : Outcome → Outcome → Prop := Agree fun value copy => CopyOf [value] [copy]

theorem Outcome.Copied.refl : ∀ outcome : Outcome, outcome.Copied outcome
  | .ok value => .done (CopyOf.refl [value])
  | .error cause => .failed cause

theorem Outcome.Copied.trans {outcome outcome' outcome'' : Outcome} (h : outcome.Copied outcome')
    (h' : outcome'.Copied outcome'') : outcome.Copied outcome'' := by
  cases h with
  | failed cause => exact h'
  | done hcopy =>
      cases h' with
      | done hcopy' => exact .done (hcopy.trans hcopy')

/-! ### Relayed outcomes -/

/-- An outcome as a client gets to know it. Values, lookup misses and messages of the server are
kept, any other error becomes a message of its text, and with `wire` so does a value that nests
too deep. -/
def relayed (wire : Bool) : Outcome → Outcome
  | .ok value =>
    if wire ∧ maxDepth < depthOf [value] then
      .error (.remote (Error.wire .nestingTooDeep).message)
    else .ok value
  | .error (.notFound what) => .error (.notFound what)
  | .error (.remote reason) => .error (.remote reason)
  | .error cause => .error (.remote cause.message)

@[simp] theorem relayed_ok (value : Value) : relayed false (.ok value) = .ok value := by
  simp [relayed]

theorem relayed_copied (wire : Bool) {outcome copy : Outcome} (h : outcome.Copied copy) :
    (relayed wire outcome).Copied (relayed wire copy) := by
  cases h with
  | failed cause => exact .refl _
  | done hcopy =>
      simp only [relayed, hcopy.depthOf_eq]
      split
      · exact .failed _
      · exact .done hcopy

/-- Whether a link encodes does not matter to values that are not too deep. -/
theorem relayed_shallow {outcome : Outcome}
    (h : ∀ value, outcome = .ok value → depthOf [value] ≤ maxDepth) (wire : Bool) :
    relayed wire outcome = relayed false outcome := by
  cases outcome with
  | error cause => cases cause <;> rfl
  | ok value =>
      have hdepth := h value rfl
      simp only [relayed]
      rw [if_neg (by omega), if_neg (by simp)]

/-- The payload by which an outcome travels. -/
def payloadOf (outcome : Outcome) : Value := (Delivery.reply 0 0 outcome).payload

/-- Errors travel as texts. -/
theorem exists_payloadOf_error (cause : Error) :
    ∃ text, payloadOf (.error cause) = .error text := by
  cases cause with
  | _ => exact ⟨_, rfl⟩

namespace Delivery

variable (request object : UInt32) (outcome : Outcome)

@[simp] theorem payload_reply : (reply request object outcome).payload = payloadOf outcome := by
  cases outcome <;> rfl

/-- A reply tells the outcome that it carries. -/
theorem outcome_reply : (reply request object outcome).outcome = relayed false outcome := by
  cases outcome with
  | ok value => simp [relayed, Delivery.outcome, reply]
  | error cause => cases cause <;> rfl

end Delivery

theorem payloadOf_copied {outcome copy : Outcome} (h : outcome.Copied copy) :
    CopyOf [payloadOf outcome] [payloadOf copy] := by
  cases h with
  | failed cause => exact CopyOf.refl _
  | done hcopy => exact hcopy

theorem payloadOf_wellFormed {outcome : Outcome}
    (h : ∀ value, outcome = .ok value → WellFormed [value]) : WellFormed [payloadOf outcome] := by
  cases outcome with
  | ok value => exact h value rfl
  | error cause =>
      obtain ⟨text, htext⟩ := exists_payloadOf_error cause
      rw [htext]
      exact .plain (.plain rfl rfl trivial)

/-! ### Carrying out messages -/

/-- The message cannot be decoded for its depth. -/
def Message.TooDeep (message : Message) : Prop := maxDepth < depthOf [.list message.args]

instance (message : Message) : Decidable message.TooDeep := inferInstanceAs (Decidable (_ < _))

/-- What is answered to a message to the signal object. -/
def signalOutcome (command : UInt32) (args : List Value) : Outcome :=
  if command = forwardCommand ∧ (Network.signalArg? args).isNone then
    .error (.invalidArgument "broadcast request needs a known signal id")
  else .ok .none

namespace Service

/-- Carry out a message. With `wire`, one that nests too deep fails and has no effect. -/
def carryOut (wire : Bool) (service : Service) (message : Message) : Build (Outcome × Service) :=
  if wire ∧ message.TooDeep then return (.error (.wire .nestingTooDeep), service)
  else
    match message.object with
    | .signal => return (signalOutcome message.command message.args, service)
    | object => do
      let answer ← service.call object message.command message.args
      return (answer.outcome, answer.service)

variable {service copy : Service} {message : Message}

theorem carryOut_tooDeep (h : message.TooDeep) (service : Service) (next : NodeId) :
    service.carryOut true message next = ((.error (.wire .nestingTooDeep), service), next) := by
  rw [carryOut]
  rw [if_pos ⟨rfl, h⟩]
  rfl

/-- A message that is not too deep is carried out alike over both kinds of links. -/
theorem carryOut_shallow (h : ¬ message.TooDeep) (wire : Bool) (service : Service) :
    service.carryOut wire message = service.carryOut false message := by
  simp only [carryOut, h, and_false, if_false]

theorem signalOutcome_copy {args copies : List Value} (hargs : CopyOf args copies)
    (command : UInt32) : signalOutcome command copies = signalOutcome command args := by
  have harg : Network.signalArg? copies = Network.signalArg? args := by
    obtain ⟨rename, -, rfl⟩ := hargs
    cases args with
    | nil => rfl
    | cons first rest => simp [Network.signalArg?]
  rw [signalOutcome, signalOutcome, harg]

/-- Copies of the arguments have the same effect on a mirroring service. -/
theorem Mirrors.carryOut (h : service.Mirrors copy) {args : List Value}
    (hargs : CopyOf message.args args) (next next' : NodeId) :
    let result := (service.carryOut false message next).1
    let result' := (copy.carryOut false { message with args } next').1
    result.1.Copied result'.1 ∧ result.2.Mirrors result'.2 := by
  obtain ⟨request, object, command, sent⟩ := message
  have hcall (object : ServerObject) := h.call hargs object command next next'
  cases object with
  | signal =>
      refine ⟨?_, h⟩
      rw [show (copy.carryOut false ⟨request, .signal, command, args⟩ next').1.1 =
        signalOutcome command args from rfl, signalOutcome_copy hargs]
      exact .refl _
  | collection => exact ⟨(hcall .collection).outcome, (hcall .collection).service⟩
  | sync => exact ⟨(hcall .sync).outcome, (hcall .sync).service⟩

/-- What a sound service answers to arguments in order is in order, and it stays sound. -/
theorem Sound.carryOut (h : service.Sound) (hargs : WellFormed message.args) (wire : Bool)
    (next : NodeId) :
    (∀ value, (service.carryOut wire message next).1.1 = .ok value → WellFormed [value]) ∧
      (service.carryOut wire message next).1.2.Sound := by
  obtain ⟨request, object, command, args⟩ := message
  have hcall (object : ServerObject) := h.call hargs object command next
  rw [Service.carryOut]
  split
  · exact ⟨nofun, h⟩
  · cases object with
    | signal =>
        refine ⟨fun value hvalue => ?_, h⟩
        change signalOutcome command args = .ok value at hvalue
        rw [signalOutcome] at hvalue
        split at hvalue
        · exact nomatch hvalue
        · exact Except.ok.inj hvalue ▸ .plain .none
    | collection => exact ⟨(hcall .collection).outcome, (hcall .collection).service⟩
    | sync => exact ⟨(hcall .sync).outcome, (hcall .sync).service⟩

/-- Carry out messages one after another. -/
def carryOutAll (wire : Bool) : Service → List Message → Build (List Outcome × Service)
  | service, [] => return ([], service)
  | service, message :: rest => do
    let (outcome, service) ← service.carryOut wire message
    let (outcomes, service) ← service.carryOutAll wire rest
    return (outcome :: outcomes, service)

theorem carryOutAll_append (wire : Bool) (service : Service) (messages : List Message)
    (message : Message) (next : NodeId) :
    service.carryOutAll wire (messages ++ [message]) next =
      let ((outcomes, service), next) := service.carryOutAll wire messages next
      let ((outcome, service), next) := service.carryOut wire message next
      ((outcomes ++ [outcome], service), next) := by
  induction messages generalizing service next with
  | nil => rfl
  | cons first rest ih =>
      simp only [List.cons_append, carryOutAll, bind, StateT.bind]
      generalize service.carryOut wire first next = result
      obtain ⟨⟨outcome, service⟩, next⟩ := result
      simp only [ih]
      rfl

/-- What messages come to does not depend on those after them. -/
theorem carryOutAll_outcomes (wire : Bool) (service : Service) (messages more : List Message)
    (next : NodeId) :
    (service.carryOutAll wire messages next).1.1 <+:
      (service.carryOutAll wire (messages ++ more) next).1.1 := by
  induction messages generalizing service next with
  | nil => exact List.nil_prefix
  | cons message rest ih =>
      simp only [List.cons_append, carryOutAll, bind, StateT.bind]
      generalize service.carryOut wire message next = result
      obtain ⟨⟨outcome, service⟩, next⟩ := result
      exact List.prefix_cons_inj outcome |>.mpr (ih service next)

/-- A sound service stays sound, whatever it carries out. -/
theorem Sound.carryOutAll (h : service.Sound) {messages : List Message}
    (hargs : ∀ message ∈ messages, WellFormed message.args) (wire : Bool) (next : NodeId) :
    (service.carryOutAll wire messages next).1.2.Sound := by
  induction messages generalizing service next with
  | nil => exact h
  | cons message rest ih =>
      rw [List.forall_mem_cons] at hargs
      have hsound := (h.carryOut hargs.1 wire next).2
      simp only [Service.carryOutAll, bind, StateT.bind]
      generalize service.carryOut wire message next = result at hsound ⊢
      obtain ⟨⟨outcome, service⟩, next⟩ := result
      exact ih hsound hargs.2 next

/-- Without messages that nest too deep, encoding makes no difference. -/
theorem carryOutAll_shallow (wire : Bool) (service : Service) {messages : List Message}
    (h : ∀ message ∈ messages, ¬ message.TooDeep) :
    service.carryOutAll wire messages = service.carryOutAll false messages := by
  induction messages generalizing service with
  | nil => rfl
  | cons message rest ih =>
      rw [List.forall_mem_cons] at h
      simp only [carryOutAll, carryOut_shallow h.1, ih _ h.2]

end Service

end MediaCatalog
