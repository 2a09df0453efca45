import MediaCatalog.Proofs.Object.Account

/-!
Emissions and the tables. Whatever handlers do while they run, each emission calls the connections
that its signal had when it began: all of them unless a panic cuts it short, each once, in the order
in which they were made, with the value that is emitted and their own context. This holds of the
emissions that handlers make themselves, to any depth, each with the tables as it finds them.
-/

namespace MediaCatalog

variable {α β : Type}

/-! ### Watched runs -/

namespace Watched

variable {origin : ObjectSpace}

theorem get_bind_apply (next : ObjectSpace × Watch → Watched α) (objects : ObjectSpace × Watch) :
    (get >>= next) objects = next objects objects := rfl

/-- A run keeps the account right, and ends with one of two kinds of account. -/
def Ends (origin : ObjectSpace) (finished panicked : Watch → Prop) :
    EStateM.Result String (ObjectSpace × Watch) α → Prop
  | .ok _ (space, watch) => watch.Faithful origin space ∧ finished watch
  | .error _ (space, watch) => watch.Faithful origin space ∧ panicked watch

namespace Ends

variable {finished finished' panicked panicked' : Watch → Prop}

theorem imp {result : EStateM.Result String (ObjectSpace × Watch) α}
    (h : Ends origin finished panicked result)
    (hfinished : ∀ watch, finished watch → finished' watch)
    (hpanicked : ∀ watch, panicked watch → panicked' watch) :
    Ends origin finished' panicked' result := by
  cases result with
  | ok answer after => exact ⟨h.1, hfinished _ h.2⟩
  | error panic after => exact ⟨h.1, hpanicked _ h.2⟩

variable {space : ObjectSpace} {watch : Watch} {body : Watched α}

theorem bind {next : α → Watched β} (h : Ends origin finished' panicked (body (space, watch)))
    (hnext : ∀ answer space watch, watch.Faithful origin space → finished' watch →
      Ends origin finished panicked (next answer (space, watch))) :
    Ends origin finished panicked ((body >>= next) (space, watch)) := by
  simp only [Bind.bind, EStateM.bind]
  cases hresult : body (space, watch) with
  | ok answer after =>
      rw [hresult] at h
      exact hnext answer after.1 after.2 h.1 h.2
  | error panic after =>
      rw [hresult] at h
      exact h

theorem holding {object : ObjectId}
    (h : Ends origin finished panicked (body (space.retain object, watch))) :
    Ends origin finished panicked (Watched.holding object body (space, watch)) := by
  rw [Watched.holding]
  cases hresult : body (space.retain object, watch) with
  | ok answer after =>
      rw [hresult] at h
      exact ⟨h.1.of_quietTo (.release after.1 object), h.2⟩
  | error panic after =>
      rw [hresult] at h
      exact ⟨h.1.of_quietTo (.release after.1 object), h.2⟩

theorem lift {plain : Run α} (h : plain.Quiet) (hfaithful : watch.Faithful origin space)
    (hfinished : finished watch) (hpanicked : panicked watch) :
    Ends origin finished panicked (Watched.lift plain (space, watch)) := by
  have hquiet := h space
  rw [Watched.lift]
  cases hresult : plain space with
  | ok answer after =>
      rw [hresult] at hquiet
      exact ⟨hfaithful.of_quietTo hquiet, hfinished⟩
  | error panic after =>
      rw [hresult] at hquiet
      exact ⟨hfaithful.of_quietTo hquiet, hpanicked⟩

end Ends

/-- From a right account a run goes on to a right account, and concerns later emissions only. -/
def Keeps (body : Watched α) : Prop :=
  ∀ origin space watch, Watch.Faithful origin space watch →
    Ends origin (Watch.Completes watch) (Watch.Frames watch.emissions.length watch)
      (body (space, watch))

namespace Keeps

theorem pure (answer : α) : Keeps (Pure.pure answer) :=
  fun _ _ watch hfaithful => ⟨hfaithful, .refl watch⟩

theorem lift {plain : Run α} (h : plain.Quiet) : Keeps (Watched.lift plain) :=
  fun _ _ watch hfaithful => .lift h hfaithful (.refl watch) (.refl _ watch)

variable {body : Watched α}

/-- After one part of a run, what the other keeps is kept of the whole. -/
theorem after {watch middle : Watch} {space : ObjectSpace} (h : Keeps body)
    (hmiddle : Watch.Completes watch middle) (hfaithful : middle.Faithful origin space) :
    Ends origin (Watch.Completes watch) (Watch.Frames watch.emissions.length watch)
      (body (space, middle)) :=
  (h origin space middle hfaithful).imp (fun _ hafter => hmiddle.trans hafter)
    fun _ hafter => hmiddle.1.trans hafter hmiddle.1.length_le

theorem bind {next : α → Watched β} (h : Keeps body) (hnext : ∀ answer, Keeps (next answer)) :
    Keeps (body >>= next) :=
  fun origin space watch hfaithful => (h origin space watch hfaithful).bind
    fun answer _ _ hfaithful' hmiddle => (hnext answer).after hmiddle hfaithful'

theorem get_bind {next : ObjectSpace × Watch → Watched β}
    (h : ∀ space watch, Keeps (next (space, watch))) : Keeps (get >>= next) :=
  fun origin space watch hfaithful => h space watch origin space watch hfaithful

/-- What is done on an object finds it alive, with its tables. -/
theorem onObject (self : Option ObjectId) (handle : String)
    {body : ObjectId → ObjectTables → Watched ActionAnswer}
    (h : ∀ (object : ObjectId) (live : LiveObject) origin (space : ObjectSpace) watch,
      space.objects[object]? = some live → Watch.Faithful origin space watch →
        Ends origin (Watch.Completes watch) (Watch.Frames watch.emissions.length watch)
          (body object live.tables (space, watch))) :
    Keeps (Watched.onObject self handle body) := by
  intro origin space watch hfaithful
  have hnone : Keeps (Pure.pure .noSuchHandle : Watched ActionAnswer) := .pure _
  rw [Watched.onObject, get_bind_apply]
  dsimp only
  cases space.lookup? self handle with
  | none => exact hnone origin space watch hfaithful
  | some object =>
      dsimp only
      cases hlive : space.objects[object]? with
      | none => exact hnone origin space watch hfaithful
      | some live =>
          exact .holding (h object { live with references := live.references + 1 } origin _ watch
            (ObjectSpace.getElem?_retain hlive) (hfaithful.of_quietTo (.retain space object)))

end Keeps

/-! ### Emissions -/

/-- Reactions that keep the account right. A signal handler that is called first notes it. -/
structure Reactions.Keep (reactions : Reactions) : Prop where
  signal : ∀ (invocation : Invocation) object (tables : ObjectTables),
    tables.name = invocation.object → ∃ body : Watched Unit, Keeps body ∧
      reactions.signal object tables invocation.value invocation.listener =
        (Watched.lift (Run.note invocation.event) >>= fun _ => body)
  command : ∀ object tables handler call, Keeps (reactions.command object tables handler call)

namespace Reactions.Keep

variable {reactions : Reactions} (h : reactions.Keep)
include h

/-- One call that the tables had for an emission. -/
theorem deliver (invocation : Invocation) {emission : Emission} {space : ObjectSpace}
    {watch : Watch} (hfaithful : watch.Faithful origin space)
    (hemission : watch.emissions[invocation.emission]? = some emission)
    (hopen : invocation.emission ∉ watch.ended)
    (hnext : watch.callsOf invocation.emission ++ [invocation] <+:
      emission.calls invocation.emission)
    {object : ObjectId} {tables : ObjectTables} (hname : tables.name = invocation.object) :
    Ends origin (Watch.Delivers invocation.emission [invocation] watch)
      (Watch.Frames invocation.emission watch)
      (Watched.deliver reactions invocation.emission object tables invocation.value
        invocation.listener (space, watch)) := by
  obtain ⟨body, hbody, hsignal⟩ := h.signal invocation object tables hname
  have hlt : invocation.emission < watch.emissions.length :=
    (List.getElem?_eq_some_iff.mp hemission).1
  have hcalled := hfaithful.called hemission hopen hnext
  have hdeliver : Watched.deliver reactions invocation.emission object tables invocation.value
      invocation.listener (space, watch) =
        body (space.note invocation.event, watch.called invocation) := by
    rw [Watched.deliver, hsignal, hname]
    rfl
  rw [hdeliver]
  exact (hbody origin _ _ hcalled).imp (fun _ hafter => .called hafter) fun _ hafter =>
    hafter.of_called hlt

/-- The calls that the tables had for an emission, one after the other. What the handlers do to the
tables changes nothing of it. -/
theorem forM_deliver {emission : Emission} {number : Nat} (object : ObjectId)
    {tables : ObjectTables} {value : Value} (listeners : List (Listener SignalHandler String))
    {space : ObjectSpace} {watch : Watch} (hfaithful : watch.Faithful origin space)
    (hemission : watch.emissions[number]? = some emission) (hopen : number ∉ watch.ended)
    (hnext : watch.callsOf number ++
      listeners.map (fun listener => ⟨number, tables.name, listener, value⟩) <+:
        emission.calls number) :
    Ends origin
      (Watch.Delivers number
        (listeners.map fun listener => ⟨number, tables.name, listener, value⟩) watch)
      (Watch.Frames number watch)
      (listeners.forM (Watched.deliver reactions number object tables value) (space, watch)) := by
  induction listeners generalizing space watch with
  | nil => exact ⟨hfaithful, .nil number watch⟩
  | cons listener listeners ih =>
      have hlt : number < watch.emissions.length := (List.getElem?_eq_some_iff.mp hemission).1
      rw [List.map_cons, List.append_cons] at hnext
      have hfirst := (List.prefix_append _ _).trans hnext
      refine (h.deliver ⟨number, tables.name, listener, value⟩ hfaithful hemission hopen hfirst
        rfl).bind fun _ space' watch' hfaithful' hdelivered => ?_
      have hcalls := hdelivered.callsOf number hlt
      rw [if_pos rfl] at hcalls
      rw [← hcalls] at hnext
      have hopen' : number ∉ watch'.ended := fun hended =>
        hopen ((hdelivered.ended number hlt).mp hended)
      refine (ih hfaithful' (hdelivered.getElem? hemission) hopen' hnext).imp ?_ ?_
      · intro after hafter
        exact hdelivered.append hafter
      · intro after hafter
        exact (hdelivered.frames hlt).trans hafter (Nat.le_refl number)

theorem deliverAll {emission : Emission} {number : Nat} (object : ObjectId)
    {tables : ObjectTables} {value : Value} (listeners : List (Listener SignalHandler String))
    {space : ObjectSpace} {watch : Watch} (hfaithful : watch.Faithful origin space)
    (hemission : watch.emissions[number]? = some emission) (hopen : number ∉ watch.ended)
    (hnext : watch.callsOf number ++
      listeners.map (fun listener => ⟨number, tables.name, listener, value⟩) <+:
        emission.calls number) :
    Ends origin
      (Watch.Delivers number
        (listeners.map fun listener => ⟨number, tables.name, listener, value⟩) watch)
      (Watch.Frames number watch)
      (Watched.deliverAll reactions number object tables value listeners (space, watch)) := by
  cases listeners with
  | nil => exact ⟨hfaithful, .nil number watch⟩
  | cons listener listeners =>
      have hretained : watch.Faithful origin (space.retain object) :=
        hfaithful.of_quietTo (.retain space object)
      exact (h.forM_deliver object (listener :: listeners) hretained hemission hopen hnext).holding

/-- An emission calls what the tables have when it begins. -/
theorem emit {object : ObjectId} {live : LiveObject} {space : ObjectSpace} {watch : Watch}
    (hfaithful : watch.Faithful origin space) (hlive : space.objects[object]? = some live)
    (signal : UInt32) (value : Value) :
    Ends origin
      (fun after => Watch.Completes watch after ∧
        watch.emissions ++ [⟨space, object, signal, value⟩] <+: after.emissions)
      (fun after => Watch.Frames watch.emissions.length watch after ∧
        watch.emissions ++ [⟨space, object, signal, value⟩] <+: after.emissions)
      (Watched.emit reactions object live.tables signal value (space, watch)) := by
  have hcalls : Emission.calls ⟨space, object, signal, value⟩ watch.emissions.length =
      (live.tables.listeners signal).map fun listener =>
        ⟨watch.emissions.length, live.tables.name, listener, value⟩ := by
    rw [Emission.calls, hlive]
  have hopened : (watch.opened ⟨space, object, signal, value⟩).Faithful origin space :=
    hfaithful.opened rfl
  have hemission : (watch.opened ⟨space, object, signal, value⟩).emissions[
      watch.emissions.length]? = some ⟨space, object, signal, value⟩ :=
    List.getElem?_concat_length
  have hnone : (watch.opened ⟨space, object, signal, value⟩).callsOf watch.emissions.length = [] :=
    hfaithful.callsOf_eq_nil (Nat.le_refl _)
  have hopen : watch.emissions.length ∉ watch.ended := fun hended =>
    absurd (hfaithful.ended_lt _ hended) (Nat.lt_irrefl _)
  have hdelivers := h.deliverAll object (live.tables.listeners signal) hopened hemission hopen
    (by rw [hnone, hcalls]; exact List.prefix_refl _)
  refine (hdelivers.imp (fun _ hafter => hafter) fun after hafter => ?_).bind
    fun _ space' watch' hfaithful' hdelivered => ?_
  · exact ⟨hafter.of_opened, hafter.emissions⟩
  · have hmade := hdelivered.callsOf watch.emissions.length (by simp [Watch.opened])
    rw [if_pos rfl, hnone, List.nil_append, ← hcalls] at hmade
    exact ⟨hfaithful'.closed (hdelivered.getElem? hemission) hmade, hdelivered.closed,
      hdelivered.emissions⟩

theorem call (object : ObjectId) (tables : ObjectTables) (command : UInt32) (args : List Value) :
    Keeps (Watched.call reactions object tables command args) := by
  rw [Watched.call]
  cases tables.commands[command]? with
  | none => exact .pure _
  | some handler => exact h.command object tables handler { args }

theorem perform (self : Option ObjectId) (action : Action) :
    Keeps (Watched.perform reactions self action) := by
  cases action with
  | call handle command args =>
      rw [Watched.perform]
      refine .onObject self handle fun object live origin space watch _ hfaithful => ?_
      have hcalled : Keeps (Watched.call reactions object live.tables command args >>=
          fun call => Pure.pure (ActionAnswer.called call)) :=
        (h.call object live.tables command args).bind fun _ => .pure _
      exact hcalled origin space watch hfaithful
  | emit handle signal value =>
      rw [Watched.perform]
      refine .onObject self handle fun object live origin space watch hlive hfaithful => ?_
      have hemitted := h.emit hfaithful hlive signal value
      refine (hemitted.imp (fun _ hafter => hafter.1) fun _ hafter => hafter.1).bind ?_
      intro _ space' after hfaithful' hafter
      exact ⟨hfaithful', hafter⟩
  | _ =>
      rw [perform_of_calm rfl]
      exact .lift (Run.quiet_perform self rfl)

theorem program (self : ObjectId) (program : Program) :
    Keeps (Watched.program reactions self program) := by
  induction program with
  | done => exact .pure ()
  | act action next ih =>
      exact (h.perform (some self) action).bind fun answer =>
        (Keeps.lift (.note rfl)).bind fun _ => ih answer

end Reactions.Keep

theorem reactions_keep (behaviour : Behaviour) (allowance : Nat) :
    (reactions behaviour allowance).Keep := by
  induction allowance with
  | zero =>
      refine ⟨?_, ?_⟩
      · rintro ⟨emission, name, ⟨token, handler, context⟩, value⟩ object tables rfl
        refine ⟨pure (), .pure (), ?_⟩
        cases handler <;> rfl
      · intro object tables handler call
        exact .lift ((Run.Quiet.note rfl).bind fun _ => .pure _)
  | succ allowance ih =>
      refine ⟨?_, ?_⟩
      · rintro ⟨emission, name, ⟨token, handler, context⟩, value⟩ object tables rfl
        cases handler with
        | recorder tag => exact ⟨pure (), .pure (), rfl⟩
        | script name => exact ⟨_, .get_bind fun space watch => ih.program object _, rfl⟩
      · intro object tables handler call
        exact (Keeps.lift (.note rfl)).bind fun _ => .get_bind fun space watch =>
          (ih.program object _).bind fun _ => .pure _

theorem step_keeps (behaviour : Behaviour) (allowance : Nat) (action : Action) :
    Keeps (step behaviour allowance action) :=
  (reactions_keep behaviour allowance).perform none action

/-! ### What the watcher saw -/

/-- The account of a run. -/
def account : EStateM.Result String (ObjectSpace × Watch) α → Watch
  | .ok _ (_, watch) => watch
  | .error _ (_, watch) => watch

namespace Ends

variable {finished panicked : Watch → Prop} {result : EStateM.Result String (ObjectSpace × Watch) α}
  (h : Ends origin finished panicked result)
include h

theorem faithful : (account result).Faithful origin (Run.objectsAfter (unwatched result)) := by
  cases result with
  | ok answer after => exact h.1
  | error panic after => exact h.1

theorem account_of_ok {answer : α} {space : ObjectSpace}
    (hok : unwatched result = .ok answer space) : finished (account result) := by
  cases result with
  | ok answer after => exact h.2
  | error panic after => cases hok

/-- What a run comes to either way. -/
theorem account_of_imp {seen : Watch → Prop} (hfinished : ∀ watch, finished watch → seen watch)
    (hpanicked : ∀ watch, panicked watch → seen watch) : seen (account result) := by
  cases result with
  | ok answer after => exact hfinished _ h.2
  | error panic after => exact hpanicked _ h.2

end Ends

/-- An emission from outside is the first of its run. -/
theorem step_emit_begins (behaviour : Behaviour) (allowance : Nat) {space : ObjectSpace}
    {handle : String} {object : ObjectId} (hlookup : space.lookup? none handle = some object)
    {live : LiveObject} (hlive : space.objects[object]? = some live) (signal : UInt32)
    (value : Value) :
    (account (step behaviour allowance (.emit handle signal value) (space, {}))).emissions[0]? =
      some ⟨space.retain object, object, signal, value⟩ := by
  have hretained := ObjectSpace.getElem?_retain hlive
  have hfaithful : Watch.Faithful space (space.retain object) {} :=
    (Watch.Faithful.empty space).of_quietTo (.retain space object)
  have hemitted := (reactions_keep behaviour allowance).emit hfaithful hretained signal value
  have hstep : step behaviour allowance (.emit handle signal value) (space, {}) =
      holding object (emit (reactions behaviour allowance) object live.tables signal value >>=
        fun _ => pure .emitted) (space, {}) := by
    rw [step, perform, onObject, get_bind_apply]
    simp only [hlookup, hlive]
  have hbegins : Ends space
      (fun after => [⟨space.retain object, object, signal, value⟩] <+: after.emissions)
      (fun after => [⟨space.retain object, object, signal, value⟩] <+: after.emissions)
      (step behaviour allowance (.emit handle signal value) (space, {})) := by
    rw [hstep]
    refine Ends.holding ((hemitted.imp (fun _ hafter => hafter.2) fun _ hafter => hafter.2).bind ?_)
    intro _ space' after hfaithful' hafter
    exact ⟨hfaithful', hafter⟩
  obtain ⟨later, hlater⟩ := hbegins.account_of_imp (fun _ hafter => hafter) fun _ hafter => hafter
  rw [← hlater]
  rfl

theorem step_faithful (behaviour : Behaviour) (allowance : Nat) (action : Action)
    (space : ObjectSpace) :
    (account (step behaviour allowance action (space, {}))).Faithful space
      (Run.objectsAfter (Run.step behaviour allowance action space)) := by
  have hends := step_keeps behaviour allowance action space space {} (.empty space)
  rw [← step_shadows behaviour allowance action space {}]
  exact hends.faithful

end Watched

namespace Run

/-- The objects after some actions from outside. A panic ends the action that it happens in. -/
def steps (behaviour : Behaviour) (allowance : Nat) (actions : List Action)
    (space : ObjectSpace) : ObjectSpace :=
  actions.foldl (fun space action => objectsAfter (step behaviour allowance action space)) space

/-- Whatever handlers do, they leave the connections in the order in which they were made. -/
theorem inOrder_step (behaviour : Behaviour) (allowance : Nat) (action : Action)
    {space : ObjectSpace} (h : space.InOrder) :
    (objectsAfter (step behaviour allowance action space)).InOrder :=
  ((Watched.step_faithful behaviour allowance action space).inOrder h).1

theorem inOrder_steps (behaviour : Behaviour) (allowance : Nat) (actions : List Action)
    {space : ObjectSpace} (h : space.InOrder) :
    (steps behaviour allowance actions space).InOrder := by
  induction actions generalizing space with
  | nil => exact h
  | cons action actions ih => exact ih (inOrder_step behaviour allowance action h)

end Run

/-- Whatever an action from outside makes handlers do, and however deep: a watcher, who takes no
part in it, sees each signal handler that is called, for one emission each time. The calls for an
emission are those that the tables had when it began, in their order: a connection that was made
since is not among them, one that was taken off still is. They are all made, unless a panic cuts the
emission short. Their order is the one in which they were connected, if all connections stand so
when the action begins; and then they do when it ends. -/
theorem Run.emissions_call_snapshot (behaviour : Behaviour) (allowance : Nat) (action : Action)
    (space : ObjectSpace) :
    let run := Watched.step behaviour allowance action (space, {})
    let watch := Watched.account run
    Watched.unwatched run = step behaviour allowance action space ∧
    (objectsAfter (step behaviour allowance action space)).calls =
      space.calls ++ watch.invocations.map Invocation.event ∧
    (∀ invocation ∈ watch.invocations, invocation.emission < watch.emissions.length) ∧
    (∀ (number : Nat) emission, watch.emissions[number]? = some emission →
      watch.callsOf number <+: emission.calls number ∧
      (number ∈ watch.ended → watch.callsOf number = emission.calls number)) ∧
    (∀ answer after, step behaviour allowance action space = .ok answer after →
      ∀ number < watch.emissions.length, number ∈ watch.ended) ∧
    (space.InOrder →
      (objectsAfter (step behaviour allowance action space)).InOrder ∧
      ∀ (number : Nat) emission, watch.emissions[number]? = some emission →
        (emission.calls number).Pairwise fun sooner later =>
          sooner.listener.token < later.listener.token) ∧
    (∀ handle signal value object live, action = .emit handle signal value →
      space.lookup? none handle = some object → space.objects[object]? = some live →
        watch.emissions[0]? = some ⟨space.retain object, object, signal, value⟩) := by
  intro run watch
  have hshadows : Watched.unwatched run = step behaviour allowance action space :=
    Watched.step_shadows behaviour allowance action space {}
  have hends := Watched.step_keeps behaviour allowance action space space {} (.empty space)
  have hfaithful := Watched.step_faithful behaviour allowance action space
  refine ⟨hshadows, hfaithful.traced, hfaithful.numbered, ?_, ?_, ?_, ?_⟩
  · intro number emission hemission
    exact ⟨hfaithful.callsOf_prefix number emission hemission,
      hfaithful.callsOf_ended number emission hemission⟩
  · intro answer after hok number hlt
    have hcompletes := hends.account_of_ok (hshadows.trans hok)
    exact hcompletes.2 number (Nat.zero_le number) hlt
  · intro hspace
    obtain ⟨hafter, hemissions⟩ := hfaithful.inOrder hspace
    refine ⟨hafter, fun number emission hemission => ?_⟩
    exact Emission.calls_inOrder (hemissions emission (List.mem_of_getElem? hemission)) number
  · rintro handle signal value object live rfl hlookup hlive
    exact Watched.step_emit_begins behaviour allowance hlookup hlive signal value

/-- The first handler takes off the second, connects a third, and emits once more. -/
def meddling : Behaviour where
  signal handler value _ _ :=
    match handler, value with
    | "first", .string "begin" =>
      .ofActions [.disconnect "$" 1 (.script "second") none,
        .connect "$" 1 (.script "third") none, .emit "$" 1 (.string "again")]
    | _, _ => .done
  command _ _ _ := .done
  conclude _ call := call

/-- An object with two handlers. -/
def meddled : ObjectSpace :=
  Run.steps meddling 0
    [.create "playlist" "playlist" false, .connect "playlist" 1 (.script "first") none,
      .connect "playlist" 1 (.script "second") none] {}

/-- The emission in between calls the third handler and not the second, the one around it the
second and not the third. -/
theorem Run.emissions_call_snapshot_meddled :
    let run := Watched.step meddling 2 (.emit "playlist" 1 (.string "begin")) (meddled, {})
    meddled.InOrder ∧ meddled.lookup? none "playlist" = some 0 ∧
    (∃ live, meddled.objects[(0 : ObjectId)]? = some live ∧
      (Watched.account run).emissions[0]? =
        some ⟨meddled.retain 0, 0, 1, .string "begin"⟩) ∧
    (∀ (number : Nat) emission, (Watched.account run).emissions[number]? = some emission →
      (emission.calls number).Pairwise fun sooner later =>
        sooner.listener.token < later.listener.token) ∧
    (Watched.account run).invocations.map (fun call => (call.emission, call.listener.handler)) =
      [(0, .script "first"), (1, .script "first"), (1, .script "third"),
        (0, .script "second")] := by
  intro run
  have hinOrder : meddled.InOrder := inOrder_steps meddling 0 _ .empty
  have hlookup : meddled.lookup? none "playlist" = some 0 := by decide +kernel
  have hlive : (meddled.objects[(0 : ObjectId)]?).isSome := by decide +kernel
  obtain ⟨live, hlive⟩ := Option.isSome_iff_exists.mp hlive
  obtain ⟨-, -, -, -, -, horder, hfirst⟩ :=
    emissions_call_snapshot meddling 2 (.emit "playlist" 1 (.string "begin")) meddled
  exact ⟨hinOrder, hlookup, ⟨live, hlive, hfirst _ _ _ _ live rfl hlookup hlive⟩,
    (horder hinOrder).2, by decide +kernel⟩

end MediaCatalog
