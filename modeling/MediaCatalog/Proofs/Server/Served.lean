import MediaCatalog.Proofs.Catalog.Success
import MediaCatalog.Proofs.Fetch.Acceptance
import MediaCatalog.Proofs.Server.Atomic

/-!
Requests as they are served. What a client lays out as arguments the service reads back in the same
order, with the same types: a request that passes the checks of the client comes to the operation
that it stands for, and the service finds nothing wrong with its arguments.
-/

namespace MediaCatalog

/-! ### Contracts -/

/-- The names of the arguments that a command takes, if the object knows it. -/
def ServerObject.contract? (object : ServerObject) (number : UInt32) : Option (List String) :=
  match object with
  | .collection => (CollectionCommand.ofNumber? number).map CollectionCommand.arguments
  | .sync => if number = syncCommand then some [] else none
  | .signal => if number = forwardCommand then some ["signal"] else none

/-- A command has as many arguments as its object wants. -/
def Command.Complete (command : Command) : Prop :=
  ∃ names, command.object.contract? command.number = some names ∧
    command.args.length = names.length

theorem Request.complete_command (request : Request) (next : NodeId) :
    (request.command next).1.Complete := by
  have hcollection (command : CollectionCommand) (args : List Value)
      (h : args.length = command.arguments.length) :
      (collectionCommand command args).Complete :=
    ⟨command.arguments, by
      simp [collectionCommand, ServerObject.contract?], h⟩
  cases request with
  | sync => exact ⟨[], rfl, rfl⟩
  | _ => exact hcollection _ _ rfl

namespace Service

/-- The commands are where they were made. -/
structure Equipped (service : Service) : Prop where
  offers : ∀ command, service.Offers command
  syncs : service.sync.commands[MediaCatalog.syncCommand]? = some .sync

namespace Equipped

theorem create (settings : ServiceSettings) (files : Playlist.FileTree) :
    (Service.create settings files).Equipped :=
  ⟨create_offers settings files, by
    show (Std.TreeMap.ofList [(MediaCatalog.syncCommand, CommandHandler.sync)])[
      MediaCatalog.syncCommand]? = some .sync
    decide⟩

/-- What is registered later takes the place of nothing. -/
theorem getElem?_of_register {registry after : ServedObject} {number other : UInt32}
    {handler known : CommandHandler} (h : registry.register number handler = .ok after)
    (hknown : registry.commands[other]? = some known) : after.commands[other]? = some known := by
  rw [Registry.register] at h
  split at h
  · next hfree =>
    obtain rfl := Except.ok.inj h
    have hother : number ≠ other := by
      rintro rfl
      cases hfree.symm.trans hknown
    simpa [Std.TreeMap.getElem?_insert, hother] using hknown
  · split at h
    · obtain rfl := Except.ok.inj h
      exact hknown
    · cases h

variable {service : Service} (h : service.Equipped)
include h

theorem of_commands {after : Service}
    (hcollection : after.collection.commands = service.collection.commands)
    (hsync : after.sync.commands = service.sync.commands) : after.Equipped :=
  ⟨fun command => by rw [Offers, hcollection]; exact h.offers command, hsync ▸ h.syncs⟩

theorem call (object : ServerObject) (number : UInt32) (args : List Value) (next : NodeId) :
    (service.call object number args next).1.service.Equipped := by
  rcases service.call_cases args next object number with
    hleaves | ⟨served, command, done, -, -, hdone, hanswer⟩
  · exact h.of_commands (by rw [hleaves.collection]) (by rw [hleaves.sync])
  · obtain ⟨hcollection, hsync, -⟩ := handle_keeps hdone
    rw [hanswer]
    exact h.of_commands (by rw [Done.answer_service, hcollection])
      (by rw [Done.answer_service, hsync])

end Equipped

/-- No service that can be reached is without its commands. -/
theorem Reachable.equipped {service : Service} (h : service.Reachable) : service.Equipped := by
  induction h with
  | create settings files => exact .create settings files
  | call _ object number args next _ ih => exact ih.call object number args next
  | library _ _ ih => exact ih.of_commands rfl rfl
  | command _ hregister ih =>
      obtain ⟨collection, hregistered, hafter⟩ := exists_of_bind_ok hregister
      obtain rfl := Except.ok.inj hafter
      exact ⟨fun command => Equipped.getElem?_of_register hregistered (ih.offers command), ih.syncs⟩
  | syncCommand _ hregister ih =>
      exact ⟨ih.offers, Equipped.getElem?_of_register hregister ih.syncs⟩
  | listeners _ hcollection hsync ih => exact ih.of_commands hcollection hsync
  | files _ files ih => exact ih.of_commands rfl rfl

/-! ### Direct operations -/

/-- What a request stands for, without arguments in between. -/
def meant (service : Service) : Request → Build (Except Error Done)
  | .get name space =>
    return (service.store.get name space).map fun collection =>
      { value := .collection collection, service }
  | .sync => return .ok { service := { service with syncs := service.syncs + 1 } }
  | .list space => return .ok { value := .ofStrings (service.store.names space), service }
  | .save collection name space =>
    return (service.store.save name space collection).map service.changed
  | .remove name space => return (service.store.remove name space).map service.changed
  | .find id space =>
    let found := (service.store.entries space).filter fun (_, _, collection) =>
      service.selects collection id
    return .ok
      { value := .ofStrings (found.map fun (_, name, _) => name), service := service.evaluated }
  | .rename name newName space =>
    return (service.store.rename name newName space).map service.changed
  | .query collection spec => return do
    let ids ← service.catalog.evaluate collection
    let value ← service.catalog.fetch (.ofValue service.settings.strict spec) ids
    return { value, service := service.evaluated }
  | .queryIds collection order start length =>
    return (service.catalog.evaluate collection).map fun ids =>
      { value := .list
          ((Window.cut ⟨start.toNat, length.toNat⟩ (service.catalog.sorted order ids)).map .int)
        service := service.evaluated }
  | .queryInfos collection order start length properties group =>
    return (service.catalog.evaluate collection).map fun ids =>
      { value := .list (service.catalog.infos (service.catalog.sorted order ids) properties group
          ⟨start.toNat, length.toNat⟩)
        service := service.evaluated }
  | .importPlaylist path =>
    match Playlist.pathOfUrl (Playlist.urlOfPath path) >>= Playlist.read service.files with
    | .error error => return .error error
    | .ok urls => do
      let (ids, library) := entriesOfUrls service.library urls
      let collection ← Collection.idlist ids
      return .ok { value := .collection collection, service := { service with library } }

/-- The answer to a command that came to this. -/
def answerOf (service : Service) : Except Error Done → Answer
  | .error cause => { outcome := .error cause, service }
  | .ok done => done.answer service

/-! ### Reading arguments -/

section Arguments

variable {call : Arguments} {index : Nat} {name : String}

theorem string_eq {text : String} (h : call.args[index]? = some (.string text)) :
    call.string index name = .ok text := by
  simp only [Arguments.string, Arguments.argAs, Arguments.arg, h, bind, Except.bind, Value.string?]

theorem int_eq {number : Int64} (h : call.args[index]? = some (.int number)) :
    call.int index name = .ok number := by
  simp only [Arguments.int, Arguments.argAs, Arguments.arg, h, bind, Except.bind, Value.int?]

theorem collection_eq {node : Collection} (h : call.args[index]? = some (.collection node)) :
    call.collection index name = .ok node := by
  simp only [Arguments.collection, Arguments.argAs, Arguments.arg, h, bind, Except.bind,
    Value.collection?]

theorem spaceArg_eq {space : Namespace}
    (h : call.args[index]? = some (Request.spaceArg space)) : spaceArg call index = .ok space := by
  rw [spaceArg, string_eq h]
  exact Namespace.parse_name space

theorem groupArg_eq {texts : List String}
    (h : call.args[index]? = some (Value.ofStrings texts)) : groupArg call index = .ok texts := by
  rw [groupArg, h]
  exact strings_eq texts h

end Arguments

/-! ### Calls -/

variable {service : Service}

/-- A command of the collection object answers with what it comes to. -/
theorem call_eq_answerOf {command : CollectionCommand} (h : service.Offers command)
    (args : List Value) (next : NodeId) :
    (service.call .collection command.number args next).1 =
      service.answerOf (service.handle command { args } next).1 := by
  rw [Offers] at h
  simp only [call, object?, h, run, bind, StateT.bind]
  generalize service.handle command { args } next = result
  obtain ⟨outcome, after⟩ := result
  cases outcome <;> rfl

section Requests

variable (service) (next : NodeId)

theorem query_eq (node : Collection) (spec : Value) :
    service.query { args := [.collection node, spec] } = do
      let ids ← service.catalog.evaluate node
      let value ← service.catalog.fetch (.ofValue service.settings.strict spec) ids
      return { value, service := service.evaluated } := by
  rw [query, collection_eq rfl]
  rfl

theorem queryInfos_ordered (collection : Collection) (order : List String) (start length : UInt32)
    {properties : List String} (group : List String) (hproperties : properties.isEmpty = false) :
    service.queryInfos { args := [.collection (collection.ordered order next).1,
        Request.countArg start, Request.countArg length, .ofStrings properties,
        .ofStrings group] } =
      (service.catalog.evaluate collection).map fun ids =>
        { value := .list (service.catalog.infos (service.catalog.sorted order ids) properties group
            ⟨start.toNat, length.toNat⟩)
          service := service.evaluated } := by
  rw [queryInfos, collection_eq rfl, countArg_eq start rfl, countArg_eq length rfl,
    strings_eq properties rfl, groupArg_eq rfl]
  simp only [bind, Except.bind, hproperties]
  rw [Catalog.evaluate, Catalog.select_ordered, Catalog.evaluate]
  cases service.catalog.select [] collection <;> rfl

theorem playlistUrls_eq (url : String) :
    service.playlistUrls { args := [.string url] } =
      Playlist.pathOfUrl url >>= Playlist.read service.files := by
  rw [playlistUrls, string_eq rfl]
  rfl

theorem importPlaylist_eq (path : String) :
    service.importPlaylist { args := [.string (Playlist.urlOfPath path)] } =
      service.meant (.importPlaylist path) := by
  cases hurls : Playlist.pathOfUrl (Playlist.urlOfPath path) >>= Playlist.read service.files with
  | error cause => simp only [importPlaylist, playlistUrls_eq, meant, hurls]
  | ok urls => simp only [importPlaylist, playlistUrls_eq, meant, hurls]

end Requests

/-- A request that passes the checks of the client comes to what it stands for. -/
theorem call_meant (h : service.Equipped) {request : Request} (hcheck : request.check = .ok ())
    (next later : NodeId) :
    let command := (request.command next).1
    (service.call command.object command.number command.args later).1 =
      service.answerOf (service.meant request later).1 := by
  have hcall (command : CollectionCommand) (args : List Value) :=
    call_eq_answerOf (h.offers command) args later
  cases request with
  | sync =>
      show (service.call .sync syncCommand [] later).1 = _
      simp only [call, object?]
      rw [h.syncs]
      rfl
  | get name space =>
      refine (hcall .get _).trans ?_
      show service.answerOf (service.get _) = _
      rw [get, string_eq rfl, spaceArg_eq rfl]
      rfl
  | list space =>
      refine (hcall .list _).trans ?_
      show service.answerOf (service.list _) = _
      rw [list, spaceArg_eq rfl]
      rfl
  | save collection name space =>
      refine (hcall .save _).trans ?_
      show service.answerOf (service.save _) = _
      rw [save, string_eq rfl, spaceArg_eq rfl, collection_eq rfl]
      rfl
  | remove name space =>
      refine (hcall .remove _).trans ?_
      show service.answerOf (service.remove _) = _
      rw [remove, string_eq rfl, spaceArg_eq rfl]
      rfl
  | find id space =>
      refine (hcall .find _).trans ?_
      show service.answerOf (service.find _) = _
      rw [find, int_eq rfl, spaceArg_eq rfl]
      rfl
  | rename name newName space =>
      refine (hcall .rename _).trans ?_
      show service.answerOf (service.rename _) = _
      rw [rename, string_eq rfl, string_eq rfl, spaceArg_eq rfl]
      rfl
  | query collection spec =>
      refine (hcall .query [.collection collection, spec]).trans ?_
      show service.answerOf (service.query { args := [.collection collection, spec] }) = _
      rw [query_eq]
      rfl
  | queryIds collection order start length =>
      refine (hcall .query [.collection (collection.page order start length next).1,
        FetchSpec.ids.toValue]).trans ?_
      show service.answerOf (service.query _) = _
      rw [query_ids_eq, Catalog.evaluate, Catalog.select_page, meant, Catalog.evaluate]
      cases service.catalog.select [] collection <;> rfl
  | queryInfos collection order start length properties group =>
      have hproperties : properties.isEmpty = false := by
        by_contra hempty
        simp [Request.check, Bool.not_eq_false _ ▸ hempty] at hcheck
      refine (hcall .queryInfos [.collection (collection.ordered order next).1,
        Request.countArg start, Request.countArg length, .ofStrings properties,
        .ofStrings group]).trans ?_
      show service.answerOf (service.queryInfos _) = _
      rw [service.queryInfos_ordered next collection order start length group hproperties]
      rfl
  | importPlaylist path =>
      refine (hcall .importPlaylist [.string (Playlist.urlOfPath path)]).trans ?_
      rw [handle, importPlaylist_eq]

end Service

/-! ### What can go wrong -/

/-- It fails, if at all, with a lookup miss or a message for the client. -/
def Reports {α : Type} (result : Except Error α) : Prop :=
  ∀ cause, result = .error cause → cause.Reported

namespace Reports

variable {α β : Type}

theorem ok (value : α) : Reports (.ok value) := fun _ h => nomatch h

theorem notFound (what : String) : Reports (.error (.notFound what) : Except Error α) :=
  fun _ h => .inl ⟨what, (Except.error.inj h).symm⟩

theorem remote (reason : String) : Reports (.error (.remote reason) : Except Error α) :=
  fun _ h => .inr ⟨reason, (Except.error.inj h).symm⟩

theorem bind {result : Except Error α} {next : α → Except Error β} (h : Reports result)
    (hnext : ∀ value, Reports (next value)) : Reports (result >>= next) := by
  cases result with
  | error cause => exact fun _ hcause => h _ (congrArg _ (Except.error.inj hcause))
  | ok value => exact hnext value

theorem map {result : Except Error α} (h : Reports result) (view : α → β) :
    Reports (result.map view) := by
  cases result with
  | error cause => exact fun _ hcause => h _ (congrArg _ (Except.error.inj hcause))
  | ok value => exact ok _

end Reports

theorem Namespace.ensureWritable_eq_ok_iff {space : Namespace} :
    space.ensureWritable = .ok () ↔ space ≠ .all := by
  cases space with
  | all => simp [ensureWritable]
  | _ => simp [ensureWritable]

theorem Request.requireName_eq_ok_iff {name what : String} :
    requireName name what = .ok () ↔ name ≠ "" := by
  rw [requireName]
  split <;> simp_all

namespace Store

variable (store : Store) (name newName : String) {space : Namespace}

theorem get_reports (space : Namespace) : Reports (store.get name space) := by
  rw [get]
  split
  · exact .ok _
  · exact .notFound _

theorem save_eq_ok {name : String} (hname : name ≠ "") (hspace : space ≠ .all)
    (collection : Collection) : ∃ change, store.save name space collection =
      .ok (change, store.withTable space ((store.table space).insert name collection)) := by
  simp only [save, if_neg hname, Namespace.ensureWritable_eq_ok_iff.mpr hspace]
  exact ⟨_, rfl⟩

/-- What was saved is there. -/
theorem get_withTable_insert {name : String} (hspace : space ≠ .all) (collection : Collection) :
    (store.withTable space ((store.table space).insert name collection)).get name space =
      .ok collection := by
  cases space with
  | all => exact absurd rfl hspace
  | collections | playlists => simp [get, Namespace.expand, table_withTable]

theorem remove_reports (hspace : space ≠ .all) : Reports (store.remove name space) := by
  rw [remove, Namespace.ensureWritable_eq_ok_iff.mpr hspace]
  refine Reports.bind (.ok ()) fun _ => ?_
  dsimp only
  split
  · exact .ok _
  · exact .notFound _

theorem rename_reports {newName : String} (hnew : newName ≠ "") (hspace : space ≠ .all) :
    Reports (store.rename name newName space) := by
  rw [rename, if_neg hnew, Namespace.ensureWritable_eq_ok_iff.mpr hspace]
  refine Reports.bind (.ok ()) fun _ => ?_
  dsimp only
  split
  · exact .remote _
  · split
    · exact .notFound _
    · exact .ok _

end Store

theorem Catalog.evaluate_reports (catalog : Catalog) (collection : Collection) :
    Reports (catalog.evaluate collection) :=
  (catalog.select_settles [] collection).reports

theorem Catalog.fetch_reports (catalog : Catalog) (strict : Bool) (spec : Value)
    (ids : List Int64) : Reports (catalog.fetch (.ofValue strict spec) ids) := by
  intro cause hcause
  obtain ⟨path, hfails, -⟩ := failsUnder_of_fetch catalog _ ids cause hcause
  exact .inr (Plan.isRemote_of_failsUnder strict spec path cause hfails)

theorem Playlist.pathOfUrl_reports (url : String) : Reports (pathOfUrl url) := by
  rw [pathOfUrl]
  split
  · exact .ok _
  · exact .remote _

theorem Playlist.read_reports (tree : FileTree) (path : String) : Reports (read tree path) := by
  rw [read]
  split
  · exact .ok _
  · exact .remote _

/-- A request that passes the checks of the client fails with no word about its arguments. -/
theorem Service.meant_reports (service : Service) {request : Request}
    (hcheck : request.check = .ok ()) (later : NodeId) :
    Reports (service.meant request later).1 := by
  cases request with
  | get name space => exact (service.store.get_reports name space).map _
  | sync => exact .ok _
  | list space => exact .ok _
  | find id space => exact .ok _
  | save collection name space =>
      obtain ⟨_, hname, hspace⟩ := exists_of_bind_ok hcheck
      obtain ⟨change, hsave⟩ := service.store.save_eq_ok
        (Request.requireName_eq_ok_iff.mp hname)
        (Namespace.ensureWritable_eq_ok_iff.mp hspace) collection
      show Reports ((service.store.save name space collection).map service.changed)
      rw [hsave]
      exact .ok _
  | remove name space =>
      obtain ⟨_, -, hspace⟩ := exists_of_bind_ok hcheck
      exact (service.store.remove_reports name
        (Namespace.ensureWritable_eq_ok_iff.mp hspace)).map _
  | rename name newName space =>
      obtain ⟨_, -, hrest⟩ := exists_of_bind_ok hcheck
      obtain ⟨_, hnew, hspace⟩ := exists_of_bind_ok hrest
      exact (service.store.rename_reports name (Request.requireName_eq_ok_iff.mp hnew)
        (Namespace.ensureWritable_eq_ok_iff.mp hspace)).map _
  | query collection spec =>
      exact (service.catalog.evaluate_reports collection).bind fun ids =>
        (service.catalog.fetch_reports _ spec ids).bind fun value => .ok _
  | queryIds collection order start length =>
      exact (service.catalog.evaluate_reports collection).map _
  | queryInfos collection order start length properties group =>
      exact (service.catalog.evaluate_reports collection).map _
  | importPlaylist path =>
      have hurls : Reports (Playlist.pathOfUrl (Playlist.urlOfPath path) >>=
          Playlist.read service.files) :=
        (Playlist.pathOfUrl_reports _).bind fun path => Playlist.read_reports service.files path
      rw [meant]
      generalize Playlist.pathOfUrl (Playlist.urlOfPath path) >>= Playlist.read service.files =
        result at hurls ⊢
      cases result with
      | error cause => exact fun _ hcause => hurls _ (congrArg _ (Except.error.inj hcause))
      | ok urls => exact .ok _

end MediaCatalog
