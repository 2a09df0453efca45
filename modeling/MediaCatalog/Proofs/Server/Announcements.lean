import MediaCatalog.Proofs.Catalog.NameView
import MediaCatalog.Proofs.Server.Queries

/-!
Announcements of a service. Each command that changes the store announces the change that it
made, and no other command announces anything. So whoever is told of the changes from the
beginning knows the names that the service lists.
-/

namespace MediaCatalog

/-- A change leads from one store to another, and without a change the store stays the same. -/
inductive Store.Leads (before : Store) : Option Change → Store → Prop where
  | same : Leads before none before
  | changed {change : Change} {after : Store}
      (h : before.view.follow? change = some after.view) : Leads before (some change) after

/-- What an announcement gives to somebody who listens to changes: its payload, once for each
connection. -/
def Announcement.heardBy (announcement : Announcement) (observer : Observer) : List Value :=
  if announcement.signal = SignalKind.collectionChanged.number then
    (announcement.listeners.filter (· = observer)).map fun _ => announcement.payload
  else []

namespace Service

variable {service : Service} {call : Arguments} {done : Done}

/-! ### Commands -/

/-- A command tells how it changed the store, and it does not concern those who listen. -/
structure Done.Tells (done : Done) (service : Service) : Prop where
  store : service.store.Leads done.change done.service.store
  collection : done.service.collection = service.collection

/-- A command that changed nothing which others can see. -/
structure Done.Leaves (done : Done) (service : Service) : Prop where
  library : done.service.library = service.library
  store : done.service.store = service.store
  collection : done.service.collection = service.collection
  sync : done.service.sync = service.sync
  change : done.change = none

/-- What changes nothing tells of no change. -/
theorem Done.Leaves.tells (h : done.Leaves service) : done.Tells service :=
  ⟨by rw [h.store, h.change]; exact .same, h.collection⟩

theorem leaves_get (h : service.get call = .ok done) : done.Leaves service := by
  obtain ⟨name, -, h⟩ := exists_of_bind_ok h
  obtain ⟨space, -, h⟩ := exists_of_bind_ok h
  obtain ⟨node, -, h⟩ := exists_of_bind_ok h
  obtain rfl := Except.ok.inj h
  exact ⟨rfl, rfl, rfl, rfl, rfl⟩

theorem leaves_list (h : service.list call = .ok done) : done.Leaves service := by
  obtain ⟨space, -, h⟩ := exists_of_bind_ok h
  obtain rfl := Except.ok.inj h
  exact ⟨rfl, rfl, rfl, rfl, rfl⟩

theorem leaves_find (h : service.find call = .ok done) : done.Leaves service := by
  obtain ⟨id, -, h⟩ := exists_of_bind_ok h
  obtain ⟨space, -, h⟩ := exists_of_bind_ok h
  obtain rfl := Except.ok.inj h
  exact ⟨rfl, rfl, rfl, rfl, rfl⟩

theorem leaves_query (h : service.query call = .ok done) : done.Leaves service := by
  obtain ⟨node, -, h⟩ := exists_of_bind_ok h
  obtain ⟨spec, -, h⟩ := exists_of_bind_ok h
  obtain ⟨ids, -, h⟩ := exists_of_bind_ok h
  obtain ⟨value, -, h⟩ := exists_of_bind_ok h
  obtain rfl := Except.ok.inj h
  exact ⟨rfl, rfl, rfl, rfl, rfl⟩

theorem leaves_queryInfos (h : service.queryInfos call = .ok done) : done.Leaves service := by
  obtain ⟨node, -, h⟩ := exists_of_bind_ok h
  obtain ⟨start, -, h⟩ := exists_of_bind_ok h
  obtain ⟨length, -, h⟩ := exists_of_bind_ok h
  obtain ⟨properties, -, h⟩ := exists_of_bind_ok h
  obtain ⟨group, -, h⟩ := exists_of_bind_ok h
  dsimp only at h
  split at h
  · exact nomatch h
  · obtain ⟨ids, -, h⟩ := exists_of_bind_ok h
    obtain rfl := Except.ok.inj h
    exact ⟨rfl, rfl, rfl, rfl, rfl⟩

/-- An argument that was read is there. -/
theorem getElem?_of_arg {index : Nat} {what : String} {value : Value}
    (h : call.arg index what = .ok value) : call.args[index]? = some value := by
  rw [Arguments.arg] at h
  split at h
  · next hvalue =>
    rw [hvalue]
    exact congrArg some (Except.ok.inj h)
  · cases h

/-- A text argument that was read is there. -/
theorem getElem?_of_string {index : Nat} {what text : String}
    (h : call.string index what = .ok text) : call.args[index]? = some (Value.string text) := by
  obtain ⟨value, hvalue, h⟩ := exists_of_bind_ok h
  rw [getElem?_of_arg hvalue]
  cases value <;> cases h
  rfl

/-- A collection argument that was read is there. -/
theorem getElem?_of_collection {index : Nat} {what : String} {node : Collection}
    (h : call.collection index what = .ok node) :
    call.args[index]? = some (Value.collection node) := by
  obtain ⟨value, hvalue, h⟩ := exists_of_bind_ok h
  rw [getElem?_of_arg hvalue]
  cases value <;> cases h
  rfl

theorem exists_of_save (h : service.save call = .ok done) :
    ∃ name space node result, call.args[0]? = some (Value.string name) ∧
      spaceArg call 1 = .ok space ∧ call.args[2]? = some (Value.collection node) ∧
      service.store.save name space node = .ok result ∧ done = service.changed result := by
  obtain ⟨name, hname, h⟩ := exists_of_bind_ok h
  obtain ⟨space, hspace, h⟩ := exists_of_bind_ok h
  obtain ⟨node, hnode, h⟩ := exists_of_bind_ok h
  obtain ⟨result, hsave, h⟩ := exists_of_bind_ok h
  exact ⟨name, space, node, result, getElem?_of_string hname, hspace, getElem?_of_collection hnode,
    hsave, (Except.ok.inj h).symm⟩

theorem exists_of_remove (h : service.remove call = .ok done) :
    ∃ name space result, call.args[0]? = some (Value.string name) ∧ spaceArg call 1 = .ok space ∧
      service.store.remove name space = .ok result ∧ done = service.changed result := by
  obtain ⟨name, hname, h⟩ := exists_of_bind_ok h
  obtain ⟨space, hspace, h⟩ := exists_of_bind_ok h
  obtain ⟨result, hremove, h⟩ := exists_of_bind_ok h
  exact ⟨name, space, result, getElem?_of_string hname, hspace, hremove, (Except.ok.inj h).symm⟩

theorem exists_of_rename (h : service.rename call = .ok done) :
    ∃ name newName space result, call.args[0]? = some (Value.string name) ∧
      call.args[1]? = some (Value.string newName) ∧ spaceArg call 2 = .ok space ∧
      service.store.rename name newName space = .ok result ∧ done = service.changed result := by
  obtain ⟨name, hname, h⟩ := exists_of_bind_ok h
  obtain ⟨newName, hnewName, h⟩ := exists_of_bind_ok h
  obtain ⟨space, hspace, h⟩ := exists_of_bind_ok h
  obtain ⟨result, hrename, h⟩ := exists_of_bind_ok h
  exact ⟨name, newName, space, result, getElem?_of_string hname, getElem?_of_string hnewName,
    hspace, hrename, (Except.ok.inj h).symm⟩

theorem exists_of_importPlaylist {next : NodeId}
    (h : (service.importPlaylist call next).1 = .ok done) :
    ∃ urls, service.playlistUrls call = .ok urls ∧
      done.service = { service with library := (entriesOfUrls service.library urls).2 } ∧
      done.change = none := by
  rw [importPlaylist] at h
  cases hurls : service.playlistUrls call with
  | error cause =>
      rw [hurls] at h
      exact nomatch h
  | ok urls =>
      rw [hurls] at h
      obtain rfl := Except.ok.inj h
      exact ⟨urls, rfl, rfl, rfl⟩

theorem tells_handle {command : CollectionCommand} {next : NodeId}
    (h : (service.handle command call next).1 = .ok done) : done.Tells service := by
  cases command with
  | get => exact (leaves_get h).tells
  | list => exact (leaves_list h).tells
  | find => exact (leaves_find h).tells
  | query => exact (leaves_query h).tells
  | queryInfos => exact (leaves_queryInfos h).tells
  | save =>
      obtain ⟨name, space, node, result, -, -, -, hsave, rfl⟩ := exists_of_save h
      exact ⟨.changed (Store.apply_save hsave), rfl⟩
  | remove =>
      obtain ⟨name, space, result, -, -, hremove, rfl⟩ := exists_of_remove h
      exact ⟨.changed (Store.apply_remove hremove), rfl⟩
  | rename =>
      obtain ⟨name, newName, space, result, -, -, -, hrename, rfl⟩ := exists_of_rename h
      exact ⟨.changed (Store.apply_rename hrename), rfl⟩
  | importPlaylist =>
      obtain ⟨urls, -, hservice, hchange⟩ := exists_of_importPlaylist h
      exact ⟨by rw [hservice, hchange]; exact .same, by rw [hservice]⟩

/-! ### Calls -/

/-- The change that a call made is the one that it announces. -/
structure Answer.Announces (answer : Answer) (service : Service) (change : Option Change) :
    Prop where
  announcement : answer.announcement = change.map service.announce
  store : service.store.Leads change answer.service.store
  collection : answer.service.collection = service.collection

theorem run_announces (service : Service) (handler : CommandHandler) (call : Arguments)
    (next : NodeId) : ∃ change, (service.run handler call next).1.Announces service change := by
  cases handler with
  | fixed registration answer => exact ⟨none, rfl, .same, rfl⟩
  | sync => exact ⟨none, rfl, .same, rfl⟩
  | collection command =>
      have htells (done : Done) (hdone : (service.handle command call next).1 = .ok done) :
          done.Tells service := tells_handle hdone
      simp only [run, bind, StateT.bind]
      generalize service.handle command call next = result at htells ⊢
      obtain ⟨outcome, after⟩ := result
      cases outcome with
      | error cause => exact ⟨none, rfl, .same, rfl⟩
      | ok done => exact ⟨done.change, rfl, (htells done rfl).store, (htells done rfl).collection⟩

theorem call_announces (service : Service) (object : ServerObject) (command : UInt32)
    (args : List Value) (next : NodeId) :
    ∃ change, (service.call object command args next).1.Announces service change := by
  rw [Service.call]
  cases service.object? object with
  | none => exact ⟨none, rfl, .same, rfl⟩
  | some served =>
      dsimp only
      cases served.commands[command]? with
      | none => exact ⟨none, rfl, .same, rfl⟩
      | some handler => exact run_announces service handler { args } next

/-! ### Listening -/

/-- The observer is connected once to the signal of changed collections. -/
def Notifies (service : Service) (observer : Observer) : Prop :=
  ((service.collection.listeners SignalKind.collectionChanged.number).map Listener.handler).count
    observer = 1

/-- Whoever is connected once is given each announced change once. -/
theorem heardBy_announce {observer : Observer} (h : service.Notifies observer) (change : Change) :
    (service.announce change).heardBy observer = [change.toValue] := by
  rw [Announcement.heardBy, announce, if_pos rfl, List.filter_eq, List.map_replicate, h]
  rfl

/-- Carry out commands one after another, with what an observer is given meanwhile. -/
def listen (observer : Observer) : Service → List Command → Build (List Value × Service)
  | service, [] => return ([], service)
  | service, command :: rest => do
    let answer ← service.call command.object command.number command.args
    let (heard, service) ← answer.service.listen observer rest
    return (answer.announcement.elim [] (·.heardBy observer) ++ heard, service)

/-- The changes that are heard of lead from the store before to the store after. -/
theorem listen_changes {observer : Observer} (h : service.Notifies observer)
    (commands : List Command) (next : NodeId) :
    ∃ changes : List Change,
      (service.listen observer commands next).1.1 = changes.map Change.toValue ∧
      changes.foldlM NameView.follow? service.store.view =
        some (service.listen observer commands next).1.2.store.view ∧
      (service.listen observer commands next).1.2.collection = service.collection := by
  induction commands generalizing service next with
  | nil => exact ⟨[], rfl, rfl, rfl⟩
  | cons command rest ih =>
      obtain ⟨change, hannounces⟩ :=
        call_announces service command.object command.number command.args next
      simp only [listen, bind, StateT.bind]
      generalize service.call command.object command.number command.args next = result
        at hannounces ⊢
      obtain ⟨answer, next⟩ := result
      obtain ⟨hannouncement, hstore, hcollection⟩ := hannounces
      have hnotifies : answer.service.Notifies observer := by
        rw [Notifies, hcollection]
        exact h
      obtain ⟨changes, hheard, hview, hsame⟩ := ih hnotifies next
      dsimp only at hannouncement hstore hcollection ⊢
      generalize answer.service.listen observer rest next = listened at hheard hview hsame ⊢
      obtain ⟨⟨heard, after⟩, next⟩ := listened
      obtain rfl : heard = changes.map Change.toValue := hheard
      refine ⟨change.toList ++ changes, ?_, ?_, hsame.trans hcollection⟩
      · rw [hannouncement, List.map_append]
        cases change with
        | none => rfl
        | some change =>
          exact congrArg (· ++ changes.map Change.toValue) (heardBy_announce h change)
      · rw [List.foldlM_append]
        generalize answer.service.store = store at hstore hview
        cases hstore with
        | same => exact hview
        | @changed change _ happly =>
            have hfirst :
                [change].foldlM NameView.follow? service.store.view = some store.view := by
              simpa using happly
            rw [Option.toList_some, hfirst]
            exact hview

/-- The store lists its names. -/
theorem ask_list (h : service.Offers .list) (space : Namespace) (next : NodeId) :
    (service.ask (.list space) next).1 = .ok (.ofStrings (service.store.names space)) := by
  have hspace : spaceArg { args := [Request.spaceArg space] } 0 = .ok space := by
    simp only [spaceArg, Arguments.string, Arguments.argAs, Arguments.arg, Request.spaceArg,
      List.getElem?_cons_zero, Value.string?, bind, Except.bind, Namespace.parse_name]
  have hdone : service.list { args := [Request.spaceArg space] } =
      .ok { value := .ofStrings (service.store.names space), service } := by
    rw [list, hspace]
    rfl
  have hhandle : (service.handle .list { args := [Request.spaceArg space] } next).1 =
      service.list { args := [Request.spaceArg space] } := rfl
  refine (call_outcome h [Request.spaceArg space] next).trans ?_
  rw [hhandle, hdone]
  rfl

/-- Whoever listens from the beginning can account for every change, and then knows the names as
the service lists them. -/
theorem listen_mirrors_store {observer : Observer} (hempty : service.store = .empty)
    (hlist : service.Offers .list) (hnotifies : service.Notifies observer)
    (commands : List Command) (next : NodeId) :
    let (heard, after) := (service.listen observer commands next).1
    ∃ (changes : List Change) (view : NameView),
      heard = changes.map Change.toValue ∧
      heard.map Change.ofValue? = changes.map some ∧
      heard.foldlM NameView.hear? .empty = some view ∧
      ∀ space next', (after.ask (.list space) next').1 = .ok (.ofStrings (view.listed space)) := by
  obtain ⟨changes, hheard, hview, hcollection⟩ := listen_changes hnotifies commands next
  generalize (service.listen observer commands next).1 = result at hheard hview hcollection ⊢
  obtain ⟨heard, after⟩ := result
  obtain rfl : heard = changes.map Change.toValue := hheard
  rw [hempty, Store.view_empty] at hview
  refine ⟨changes, after.store.view, rfl, ?_, ?_, fun space next' => ?_⟩
  · simp
  · rw [List.foldlM_map]
    simpa [NameView.hear?] using hview
  · have hlist' : after.Offers .list := by
      rw [Offers, hcollection]
      exact hlist
    rw [ask_list hlist', Store.listed_view]

/-- A new service that two observers are connected to. -/
def observed : Service :=
  ((create {} { working := [] }).connect SignalKind.collectionChanged.number
    (.direct "recorder")).connect SignalKind.collectionChanged.number (.forwarder 0)

/-- Save twice, fail to save where nothing can be saved, rename, fail to rename, and remove. -/
def editing : List Command :=
  [Request.collectionCommand .save [.string "a", .string "Playlists", .collection default],
    Request.collectionCommand .save [.string "a", .string "Playlists", .collection default],
    Request.collectionCommand .save [.string "b", .string "*", .collection default],
    Request.collectionCommand .rename [.string "a", .string "b", .string "Playlists"],
    Request.collectionCommand .rename [.string "a", .string "c", .string "Playlists"],
    Request.collectionCommand .remove [.string "b", .string "Playlists"]]

/-- The forwarder can follow all of it. -/
theorem listen_mirrors_store_editing :
    observed.store = .empty ∧ observed.Offers .list ∧ observed.Notifies (.forwarder 0) ∧
      let (heard, after) := (observed.listen (.forwarder 0) editing 1).1
      ∃ (changes : List Change) (view : NameView),
        heard = changes.map Change.toValue ∧
        heard.map Change.ofValue? = changes.map some ∧
        heard.foldlM NameView.hear? .empty = some view ∧
        ∀ space next',
          (after.ask (.list space) next').1 = .ok (.ofStrings (view.listed space)) := by
  have hlist : observed.Offers .list := builtinCommands_number .list
  have hnotifies : observed.Notifies (.forwarder 0) := by
    rw [Notifies]
    decide
  exact ⟨rfl, hlist, hnotifies, listen_mirrors_store rfl hlist hnotifies editing 1⟩

end Service

end MediaCatalog
