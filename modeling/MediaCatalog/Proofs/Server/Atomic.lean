import MediaCatalog.Proofs.Catalog.Growth
import MediaCatalog.Proofs.Catalog.Success
import MediaCatalog.Proofs.Server.Announcements

/-!
Commands are atomic. A call that fails, and a call of a command that only reads, changes neither
the library nor the store and announces nothing. Saving, removing and renaming touch the names that
they are given, in the namespace that they are given, and announce one change. Importing a playlist
adds entries and touches no other.
-/

namespace MediaCatalog

/-! ### Changes of the store -/

/-- The names that a change tells of. -/
def Change.names (change : Change) : List String := change.name :: change.newName.toList

/-- From one store to the other nothing differs but what is saved under the names that a change
tells of, in the one namespace that it tells of. -/
structure Store.Touched (before after : Store) (change : Change) : Prop where
  writable : change.space ≠ .all
  elsewhere : ∀ space name, space ≠ change.space ∨ name ∉ change.names →
    (after.table space)[name]? = (before.table space)[name]?

namespace Store

variable {store : Store} {name newName : String} {space : Namespace} {node : Collection}
  {result : Change × Store}

/-- A new table of a namespace that agrees with the old one but for some names. -/
theorem getElem?_withTable {table : Std.TreeMap String Collection} {names : List String}
    (htable : ∀ name ∉ names, table[name]? = (store.table space)[name]?) {other : Namespace}
    {name : String} (helsewhere : other ≠ space ∨ name ∉ names) :
    ((store.withTable space table).table other)[name]? = (store.table other)[name]? := by
  rw [table_withTable]
  split
  · next hsame =>
    obtain ⟨rfl, -⟩ := hsame
    exact htable name (helsewhere.resolve_left fun hne => hne rfl)
  · rfl

/-- A save puts a collection under the name that it is given, and a removal leaves none there. -/
theorem save_touches (h : store.save name space node = .ok result) :
    result.1.space = space ∧ result.1.names = [name] ∧ store.Touched result.2 result.1 ∧
      (result.2.table space)[name]? = some node := by
  rw [save] at h
  split at h
  · cases h
  · obtain ⟨_, hwritable, h⟩ := exists_of_bind_ok h
    obtain rfl := Except.ok.inj h
    have hspace := ne_all_of_writable hwritable
    refine ⟨rfl, rfl, ⟨hspace, fun _ _ => getElem?_withTable fun other hother => ?_⟩, ?_⟩
    · have hne : name ≠ other := fun hsame => hother (hsame ▸ List.mem_singleton_self name)
      simp [Std.TreeMap.getElem?_insert, hne]
    · simp [table_withTable, hspace]

theorem remove_touches (h : store.remove name space = .ok result) :
    result.1.space = space ∧ result.1.names = [name] ∧ store.Touched result.2 result.1 ∧
      (result.2.table space)[name]? = none := by
  obtain ⟨_, hwritable, h⟩ := exists_of_bind_ok h
  dsimp only at h
  split at h
  · obtain rfl := Except.ok.inj h
    have hspace := ne_all_of_writable hwritable
    refine ⟨rfl, rfl, ⟨hspace, fun _ _ => getElem?_withTable fun other hother => ?_⟩, ?_⟩
    · have hne : name ≠ other := fun hsame => hother (hsame ▸ List.mem_singleton_self name)
      simp [Std.TreeMap.getElem?_erase, hne]
    · simp [table_withTable, hspace]
  · cases h

/-- A renaming moves what is under one name to another one that was free. -/
theorem rename_touches (h : store.rename name newName space = .ok result) :
    result.1.space = space ∧ result.1.names = [name, newName] ∧ store.Touched result.2 result.1 ∧
      (store.table space)[newName]? = none ∧ (result.2.table space)[name]? = none ∧
      (result.2.table space)[newName]? = (store.table space)[name]? := by
  rw [rename] at h
  split at h
  · cases h
  · obtain ⟨_, hwritable, h⟩ := exists_of_bind_ok h
    dsimp only at h
    split at h
    · cases h
    · next hfree =>
      split at h
      · cases h
      · next node hnode =>
        obtain rfl := Except.ok.inj h
        have hspace := ne_all_of_writable hwritable
        rw [Std.TreeMap.contains_eq_isSome_getElem?, Bool.not_eq_true,
          Option.isSome_eq_false_iff, Option.isNone_iff_eq_none] at hfree
        have hnames : newName ≠ name := by
          rintro rfl
          rw [hfree] at hnode
          cases hnode
        refine ⟨rfl, rfl, ⟨hspace, fun _ _ => getElem?_withTable fun other hother => ?_⟩, hfree,
          ?_, ?_⟩
        · have hother : other ∉ [name, newName] := hother
          simp only [List.mem_cons, List.not_mem_nil, or_false, not_or] at hother
          simp [Std.TreeMap.getElem?_insert, Std.TreeMap.getElem?_erase, Ne.symm hother.1,
            Ne.symm hother.2]
        · simp [table_withTable, hspace, hnames]
        · simp [table_withTable, hspace, hnode]

end Store

namespace Service

/-! ### Imports -/

/-- There is an id left for each url that is new. -/
def EntriesFit (library : Library) : List String → Prop
  | [] => True
  | url :: rest =>
    (library.findBy? Library.urlProperty (.string url) = none → library.HasRoom) ∧
      EntriesFit (entryOfUrl library url).2 rest

/-- Every entry that was there is there as it was, and a new one has a url from the list and
nothing else. -/
structure Grown (before after : Library) (urls : List String) : Prop where
  kept : ∀ (id : Int64) (entry : Dict Value), before.entries[id]? = some entry →
    after.entries[id]? = some entry
  added : ∀ (id : Int64) (entry : Dict Value), after.entries[id]? = some entry →
    before.entries[id]? = some entry ∨
      ∃ url ∈ urls, entry = Dict.ofEntries [(Library.urlProperty, .string url)]

/-- The entry of one url. -/
theorem grown_entryOfUrl {library : Library} (h : library.Fresh) (url : String)
    (hroom : library.findBy? Library.urlProperty (.string url) = none → library.HasRoom) :
    Grown library (entryOfUrl library url).2 [url] ∧ (entryOfUrl library url).2.Fresh := by
  rw [entryOfUrl]
  cases hfound : library.findBy? Library.urlProperty (.string url) with
  | some id => exact ⟨⟨fun _ _ h => h, fun _ _ => .inl⟩, h⟩
  | none =>
      refine ⟨⟨fun id entry => h.getElem?_add _, fun id entry hentry => ?_⟩, h.add (hroom hfound) _⟩
      rw [Library.getElem?_add] at hentry
      split at hentry
      · exact .inr ⟨url, List.mem_singleton_self url, (Option.some.inj hentry).symm⟩
      · exact .inl hentry

theorem grown_entriesOfUrls {library : Library} (h : library.Fresh) {urls : List String}
    (hfit : EntriesFit library urls) :
    Grown library (entriesOfUrls library urls).2 urls ∧ (entriesOfUrls library urls).2.Fresh := by
  induction urls generalizing library with
  | nil => exact ⟨⟨fun _ _ h => h, fun _ _ => .inl⟩, h⟩
  | cons url rest ih =>
      obtain ⟨hfirst, hfresh⟩ := grown_entryOfUrl h url hfit.1
      obtain ⟨hrest, hfresh⟩ := ih hfresh hfit.2
      refine ⟨⟨fun id entry hentry => hrest.kept id entry (hfirst.kept id entry hentry),
        fun id entry hentry => ?_⟩, hfresh⟩
      rcases hrest.added id entry hentry with hentry | ⟨other, hother, hentry⟩
      · rcases hfirst.added id entry hentry with hentry | ⟨other, hother, hentry⟩
        · exact .inl hentry
        · exact .inr ⟨other, List.mem_singleton.mp hother ▸ List.mem_cons_self, hentry⟩
      · exact .inr ⟨other, List.mem_cons_of_mem _ hother, hentry⟩

/-- There is an id left for each new entry that an import of a playlist adds. -/
def ImportFits (service : Service) (call : Arguments) : Prop :=
  ∀ urls, service.playlistUrls call = .ok urls → EntriesFit service.library urls

/-! ### Successful commands -/

/-- The answer of a command that succeeded. -/
def Done.answer (done : Done) (service : Service) : Answer where
  outcome := .ok done.value
  service := done.service
  announcement := done.change.map service.announce

@[simp] theorem Done.answer_service (done : Done) (service : Service) :
    (done.answer service).service = done.service := rfl

/-- What changes nothing is not announced. -/
theorem Done.answer_of_no_change {done : Done} {service : Service} (h : done.change = none) :
    (done.answer service).announcement = none := by
  rw [Done.answer, h]
  rfl

section Commands

variable {service : Service} {call : Arguments} {done : Done}

/-- A command that touched what is saved under some names, and tells of it. -/
structure Done.Edits (done : Done) (service : Service) (change : Change) : Prop where
  library : done.service.library = service.library
  store : service.store.Touched done.service.store change
  collection : done.service.collection = service.collection
  sync : done.service.sync = service.sync
  change : done.change = some change

/-- A namespace argument that was read is there. -/
theorem getElem?_of_spaceArg {index : Nat} {space : Namespace}
    (h : spaceArg call index = .ok space) :
    call.args[index]? = some (Value.string space.name) := by
  obtain ⟨text, htext, h⟩ := exists_of_bind_ok h
  rw [getElem?_of_string htext]
  cases hname : Namespace.ofName? text with
  | none =>
      rw [Namespace.parse, hname] at h
      cases h
  | some known =>
      rw [Namespace.parse, hname] at h
      obtain rfl := Except.ok.inj h
      rw [Namespace.name_of_ofName? hname]

/-- The change that a command tells of is announced. -/
theorem Done.Edits.announced {change : Change} (h : done.Edits service change) :
    (done.answer service).announcement = some (service.announce change) := by
  rw [Done.answer, h.change]
  rfl

theorem edits_save (h : service.save call = .ok done) :
    ∃ (name : String) (node : Collection) (change : Change),
      call.args[0]? = some (Value.string name) ∧
      call.args[1]? = some (Value.string change.space.name) ∧
      call.args[2]? = some (Value.collection node) ∧ change.names = [name] ∧
      (done.service.store.table change.space)[name]? = some node ∧ done.Edits service change := by
  obtain ⟨name, space, node, result, hname, hspace, hnode, hsave, rfl⟩ := exists_of_save h
  obtain ⟨rfl, hnames, htouched, hsaved⟩ := Store.save_touches hsave
  exact ⟨name, node, result.1, hname, getElem?_of_spaceArg hspace, hnode, hnames, hsaved,
    rfl, htouched, rfl, rfl, rfl⟩

theorem edits_remove (h : service.remove call = .ok done) :
    ∃ (name : String) (change : Change), call.args[0]? = some (Value.string name) ∧
      call.args[1]? = some (Value.string change.space.name) ∧ change.names = [name] ∧
      (done.service.store.table change.space)[name]? = none ∧ done.Edits service change := by
  obtain ⟨name, space, result, hname, hspace, hremove, rfl⟩ := exists_of_remove h
  obtain ⟨rfl, hnames, htouched, hremoved⟩ := Store.remove_touches hremove
  exact ⟨name, result.1, hname, getElem?_of_spaceArg hspace, hnames, hremoved,
    rfl, htouched, rfl, rfl, rfl⟩

theorem edits_rename (h : service.rename call = .ok done) :
    ∃ (name newName : String) (change : Change),
      call.args[0]? = some (Value.string name) ∧
      call.args[1]? = some (Value.string newName) ∧
      call.args[2]? = some (Value.string change.space.name) ∧ change.names = [name, newName] ∧
      (service.store.table change.space)[newName]? = none ∧
      (done.service.store.table change.space)[name]? = none ∧
      (done.service.store.table change.space)[newName]? =
        (service.store.table change.space)[name]? ∧ done.Edits service change := by
  obtain ⟨name, newName, space, result, hname, hnewName, hspace, hrename, rfl⟩ := exists_of_rename h
  obtain ⟨rfl, hnames, htouched, hfree, hmoved, harrived⟩ := Store.rename_touches hrename
  exact ⟨name, newName, result.1, hname, hnewName, getElem?_of_spaceArg hspace, hnames, hfree,
    hmoved, harrived, rfl, htouched, rfl, rfl, rfl⟩

/-- The commands that change something. -/
def Writes (command : CollectionCommand) : Prop :=
  command = .save ∨ command = .remove ∨ command = .rename ∨ command = .importPlaylist

theorem leaves_handle {command : CollectionCommand} {next : NodeId} (hcommand : ¬ Writes command)
    (h : (service.handle command call next).1 = .ok done) : done.Leaves service := by
  cases command with
  | get => exact leaves_get h
  | list => exact leaves_list h
  | find => exact leaves_find h
  | query => exact leaves_query h
  | queryInfos => exact leaves_queryInfos h
  | save | remove | rename | importPlaylist => simp [Writes] at hcommand

/-- A command changes no tables, and the library only if it imports a playlist. -/
theorem handle_keeps {command : CollectionCommand} {next : NodeId}
    (h : (service.handle command call next).1 = .ok done) :
    done.service.collection = service.collection ∧ done.service.sync = service.sync ∧
      (command ≠ .importPlaylist → done.service.library = service.library) := by
  by_cases hcommand : Writes command
  · rcases hcommand with rfl | rfl | rfl | rfl
    · obtain ⟨_, _, _, -, -, -, -, -, hedits⟩ := edits_save h
      exact ⟨hedits.collection, hedits.sync, fun _ => hedits.library⟩
    · obtain ⟨_, _, -, -, -, -, hedits⟩ := edits_remove h
      exact ⟨hedits.collection, hedits.sync, fun _ => hedits.library⟩
    · obtain ⟨_, _, _, -, -, -, -, -, -, -, hedits⟩ := edits_rename h
      exact ⟨hedits.collection, hedits.sync, fun _ => hedits.library⟩
    · obtain ⟨urls, -, hservice, -⟩ := exists_of_importPlaylist h
      rw [hservice]
      exact ⟨rfl, rfl, fun hne => absurd rfl hne⟩
  · have hleaves := leaves_handle hcommand h
    exact ⟨hleaves.collection, hleaves.sync, fun _ => hleaves.library⟩

end Commands

/-! ### Calls -/

/-- A call that changed nothing which others can see, and of which nobody is told. -/
structure Answer.Leaves (answer : Answer) (service : Service) : Prop where
  library : answer.service.library = service.library
  store : answer.service.store = service.store
  collection : answer.service.collection = service.collection
  sync : answer.service.sync = service.sync
  announcement : answer.announcement = none

section Calls

variable (service : Service) (args : List Value) (next : NodeId)

/-- What comes of running a handler: nothing, unless it is a command that succeeded. -/
theorem run_cases (handler : CommandHandler) :
    (service.run handler { args } next).1.Leaves service ∨
      ∃ command done, handler = .collection command ∧
        (service.handle command { args } next).1 = .ok done ∧
        (service.run handler { args } next).1 = done.answer service := by
  cases handler with
  | fixed registration answer => exact .inl ⟨rfl, rfl, rfl, rfl, rfl⟩
  | sync => exact .inl ⟨rfl, rfl, rfl, rfl, rfl⟩
  | collection command =>
      simp only [run, bind, StateT.bind]
      generalize hresult : service.handle command { args } next = result
      obtain ⟨outcome, after⟩ := result
      cases outcome with
      | error cause => exact .inl ⟨rfl, rfl, rfl, rfl, rfl⟩
      | ok done => exact .inr ⟨command, done, rfl, by rw [hresult], rfl⟩

theorem call_cases (object : ServerObject) (number : UInt32) :
    (service.call object number args next).1.Leaves service ∨
      ∃ served command done, service.object? object = some served ∧
        served.commands[number]? = some (.collection command) ∧
        (service.handle command { args } next).1 = .ok done ∧
        (service.call object number args next).1 = done.answer service := by
  rw [call]
  cases hserved : service.object? object with
  | none => exact .inl ⟨rfl, rfl, rfl, rfl, rfl⟩
  | some served =>
      dsimp only
      cases hhandler : served.commands[number]? with
      | none => exact .inl ⟨rfl, rfl, rfl, rfl, rfl⟩
      | some handler =>
          rcases service.run_cases args next handler with
            hleaves | ⟨command, done, rfl, hdone, hrun⟩
          · exact .inl hleaves
          · exact .inr ⟨served, command, done, rfl, hhandler, hdone, hrun⟩

/-- A call that fails changes nothing. -/
theorem leaves_of_error {object : ServerObject} {number : UInt32} {cause : Error}
    (h : (service.call object number args next).1.outcome = .error cause) :
    (service.call object number args next).1.Leaves service := by
  rcases service.call_cases args next object number with hleaves | ⟨_, _, done, -, -, -, hanswer⟩
  · exact hleaves
  · rw [hanswer] at h
    cases h

/-- A command that succeeds, where it is called by its number. -/
theorem handled_of_ok {command : CollectionCommand} (hoffers : service.Offers command)
    {value : Value}
    (h : (service.call .collection command.number args next).1.outcome = .ok value) :
    ∃ done, (service.handle command { args } next).1 = .ok done ∧
      (service.call .collection command.number args next).1 = done.answer service := by
  have hcall : service.call .collection command.number args next =
      service.run (.collection command) { args } next := by
    rw [Offers] at hoffers
    simp only [call, object?, hoffers]
  rw [hcall] at h ⊢
  simp only [run, bind, StateT.bind] at h ⊢
  generalize hresult : service.handle command { args } next = result at h ⊢
  obtain ⟨outcome, after⟩ := result
  cases outcome with
  | error cause => cases h
  | ok done => exact ⟨done, rfl, rfl⟩

end Calls

/-! ### Reachable services -/

/-- The services that can come about: some commands were called, entries were added, changed and
removed, fixed answers were registered, listeners came and went, and files were written. -/
inductive Reachable : Service → Prop where
  | create (settings : ServiceSettings) (files : Playlist.FileTree) :
      Reachable (create settings files)
  | call {service : Service} (h : Reachable service) (object : ServerObject) (number : UInt32)
      (args : List Value) (next : NodeId)
      (hfits : object = .collection → number = CollectionCommand.importPlaylist.number →
        service.ImportFits { args }) :
      Reachable (service.call object number args next).1.service
  | library {service : Service} (h : Reachable service) {library : Library}
      (hlibrary : library.Reachable) : Reachable { service with library }
  | command {service after : Service} (h : Reachable service) {number : UInt32}
      {registration : Nat} {answer : String}
      (hregister : service.registerCommand number (.fixed registration answer) = .ok after) :
      Reachable after
  | syncCommand {service : Service} (h : Reachable service) {number : UInt32} {registration : Nat}
      {answer : String} {sync : ServedObject}
      (hregister : service.sync.register number (.fixed registration answer) = .ok sync) :
      Reachable { service with sync }
  | listeners {service : Service} (h : Reachable service) {collection sync : ServedObject}
      (hcollection : collection.commands = service.collection.commands)
      (hsync : sync.commands = service.sync.commands) :
      Reachable { service with collection, sync }
  | files {service : Service} (h : Reachable service) (files : Playlist.FileTree) :
      Reachable { service with files }

/-- The ids of the library were given out before, and the commands are where they were made and
nowhere else. -/
structure Intact (service : Service) : Prop where
  fresh : service.library.Fresh
  offers : ∀ command, service.Offers command
  only : ∀ (number : UInt32) (command : CollectionCommand),
    service.collection.commands[number]? = some (.collection command) → number = command.number
  sync : ∀ (number : UInt32) (command : CollectionCommand),
    service.sync.commands[number]? ≠ some (.collection command)

namespace Intact

theorem create (settings : ServiceSettings) (files : Playlist.FileTree) :
    (Service.create settings files).Intact where
  fresh := Library.Reachable.empty.fresh
  offers := create_offers settings files
  only := by
    intro number command hcommand
    change builtinCommands[number]? = some (.collection command) at hcommand
    have hmem : number ∈ builtinCommands := by
      rw [Std.TreeMap.mem_iff_isSome_getElem?, hcommand]
      rfl
    rw [builtinCommands, Std.TreeMap.mem_ofList, List.contains_iff_mem, List.map_map] at hmem
    obtain ⟨known, -, rfl⟩ := List.mem_map.mp hmem
    have hknown := (builtinCommands_number known).symm.trans hcommand
    rw [CommandHandler.collection.inj (Option.some.inj hknown)]
    rfl
  sync := by
    intro number command hcommand
    change (Std.TreeMap.ofList [(syncCommand, CommandHandler.sync)])[number]? = _ at hcommand
    have hmem : number ∈ Std.TreeMap.ofList [(syncCommand, CommandHandler.sync)] := by
      rw [Std.TreeMap.mem_iff_isSome_getElem?, hcommand]
      rfl
    rw [Std.TreeMap.mem_ofList, List.contains_iff_mem] at hmem
    obtain rfl : number = syncCommand := List.mem_singleton.mp hmem
    cases hcommand

/-- Registering a fixed answer puts no command of the collection object anywhere. -/
theorem getElem?_of_register {registry after : ServedObject} {number : UInt32}
    {registration : Nat} {answer : String}
    (h : registry.register number (.fixed registration answer) = .ok after) (other : UInt32)
    (command : CollectionCommand) :
    after.commands[other]? = some (.collection command) ↔
      registry.commands[other]? = some (.collection command) := by
  rw [Registry.register] at h
  split at h
  · next hfree =>
    obtain rfl := Except.ok.inj h
    dsimp only
    rw [Std.TreeMap.getElem?_insert]
    simp only [Std.LawfulEqCmp.compare_eq_iff_eq]
    split
    · next hsame =>
      rw [← hsame, hfree]
      simp
    · rfl
  · split at h
    · obtain rfl := Except.ok.inj h
      rfl
    · cases h

section Steps

variable {service : Service} (h : service.Intact)
include h

/-- It matters which numbers have commands of the collection object, and no more of the tables. -/
theorem of_tables {after : Service} (hfresh : after.library.Fresh)
    (hcollection : ∀ (number : UInt32) (command : CollectionCommand),
      after.collection.commands[number]? = some (.collection command) ↔
        service.collection.commands[number]? = some (.collection command))
    (hsync : ∀ (number : UInt32) (command : CollectionCommand),
      after.sync.commands[number]? = some (.collection command) ↔
        service.sync.commands[number]? = some (.collection command)) : after.Intact where
  fresh := hfresh
  offers command := (hcollection _ command).mpr (h.offers command)
  only number command hcommand := h.only number command ((hcollection number command).mp hcommand)
  sync number command hcommand := h.sync number command ((hsync number command).mp hcommand)

theorem of_same_tables {after : Service} (hfresh : after.library.Fresh)
    (hcollection : after.collection = service.collection) (hsync : after.sync = service.sync) :
    after.Intact :=
  h.of_tables hfresh (fun _ _ => by rw [hcollection]) fun _ _ => by rw [hsync]

/-- A command of the collection object is called there and by its number. -/
theorem eq_of_served {object : ServerObject} {served : ServedObject} {number : UInt32}
    {command : CollectionCommand} (hserved : service.object? object = some served)
    (hcommand : served.commands[number]? = some (.collection command)) :
    object = .collection ∧ number = command.number := by
  cases object with
  | signal => cases hserved
  | sync =>
      obtain rfl := Option.some.inj hserved
      exact absurd hcommand (h.sync number command)
  | collection =>
      obtain rfl := Option.some.inj hserved
      exact ⟨rfl, h.only number command hcommand⟩

theorem call {object : ServerObject} {number : UInt32} {args : List Value} (next : NodeId)
    (hfits : object = .collection → number = CollectionCommand.importPlaylist.number →
      service.ImportFits { args }) :
    (service.call object number args next).1.service.Intact := by
  rcases service.call_cases args next object number with
    hleaves | ⟨served, command, done, hserved, hcommand, hdone, hanswer⟩
  · exact h.of_same_tables (hleaves.library ▸ h.fresh) hleaves.collection hleaves.sync
  · obtain ⟨rfl, rfl⟩ := h.eq_of_served hserved hcommand
    obtain ⟨hcollection, hsync, hlibrary⟩ := handle_keeps hdone
    rw [hanswer]
    refine h.of_same_tables ?_ hcollection hsync
    by_cases himport : command = .importPlaylist
    · subst himport
      obtain ⟨urls, hurls, hservice, -⟩ := exists_of_importPlaylist hdone
      rw [Done.answer_service, hservice]
      exact (grown_entriesOfUrls h.fresh (hfits rfl rfl urls hurls)).2
    · exact hlibrary himport ▸ h.fresh

end Steps

end Intact

theorem Reachable.intact {service : Service} (h : service.Reachable) : service.Intact := by
  induction h with
  | create settings files => exact .create settings files
  | call _ object number args next hfits ih => exact ih.call next hfits
  | library _ hlibrary ih => exact ih.of_same_tables hlibrary.fresh rfl rfl
  | command _ hregister ih =>
      obtain ⟨collection, hregistered, hafter⟩ := exists_of_bind_ok hregister
      obtain rfl := Except.ok.inj hafter
      exact ih.of_tables ih.fresh (Intact.getElem?_of_register hregistered) fun _ _ => .rfl
  | syncCommand _ hregister ih =>
      exact ih.of_tables ih.fresh (fun _ _ => .rfl) (Intact.getElem?_of_register hregister)
  | listeners _ hcollection hsync ih =>
      exact ih.of_tables ih.fresh (fun _ _ => by rw [hcollection]) fun _ _ => by rw [hsync]
  | files _ files ih => exact ih.of_same_tables ih.fresh rfl rfl

/-- Whatever a service has been through and whatever it is called with: a call that fails, and one
of anything but the four commands that write, changes neither the library nor the store and is not
announced. A successful save, removal or renaming changes what is saved under the names that it was
given, in the one namespace that it was given, and nothing else, and one change is announced, which
tells of these names. A successful import of a playlist is not announced and leaves the store alone;
while there are ids left it only adds entries, with urls of the playlist. -/
theorem call_atomic {service : Service} (h : service.Reachable) (object : ServerObject)
    (number : UInt32) (args : List Value) (next : NodeId) :
    let answer := (service.call object number args next).1
    ((∃ cause, answer.outcome = .error cause) ∨
        (∀ command, Writes command → object = .collection → number ≠ command.number) →
      answer.service.library = service.library ∧ answer.service.store = service.store ∧
        answer.announcement = none) ∧
    ∀ value, object = .collection → answer.outcome = .ok value →
      (number = CollectionCommand.save.number →
        ∃ (name : String) (node : Collection) (change : Change),
          args[0]? = some (Value.string name) ∧
          args[1]? = some (Value.string change.space.name) ∧
          args[2]? = some (Value.collection node) ∧
          change.names = [name] ∧ (answer.service.store.table change.space)[name]? = some node ∧
          service.store.Touched answer.service.store change ∧
          answer.service.library = service.library ∧
          answer.announcement = some (service.announce change)) ∧
      (number = CollectionCommand.remove.number →
        ∃ (name : String) (change : Change), args[0]? = some (Value.string name) ∧
          args[1]? = some (Value.string change.space.name) ∧
          change.names = [name] ∧ (answer.service.store.table change.space)[name]? = none ∧
          service.store.Touched answer.service.store change ∧
          answer.service.library = service.library ∧
          answer.announcement = some (service.announce change)) ∧
      (number = CollectionCommand.rename.number →
        ∃ (name newName : String) (change : Change),
          args[0]? = some (Value.string name) ∧ args[1]? = some (Value.string newName) ∧
          args[2]? = some (Value.string change.space.name) ∧
          change.names = [name, newName] ∧
          (service.store.table change.space)[newName]? = none ∧
          (answer.service.store.table change.space)[name]? = none ∧
          (answer.service.store.table change.space)[newName]? =
            (service.store.table change.space)[name]? ∧
          service.store.Touched answer.service.store change ∧
          answer.service.library = service.library ∧
          answer.announcement = some (service.announce change)) ∧
      (number = CollectionCommand.importPlaylist.number →
        ∃ urls, service.playlistUrls { args } = .ok urls ∧
          answer.service.store = service.store ∧ answer.announcement = none ∧
          (EntriesFit service.library urls →
            Grown service.library answer.service.library urls)) := by
  intro answer
  have hintact := h.intact
  refine ⟨fun hquiet => ?_, fun value hobject hvalue => ?_⟩
  · have hleaves : answer.Leaves service := by
      rcases hquiet with ⟨cause, herror⟩ | hquiet
      · exact leaves_of_error service args next herror
      · rcases service.call_cases args next object number with
          hleaves | ⟨served, command, done, hserved, hcommand, hdone, hanswer⟩
        · exact hleaves
        · obtain ⟨hobject, hnumber⟩ := hintact.eq_of_served hserved hcommand
          have hdone := leaves_handle (fun hwrites => hquiet command hwrites hobject hnumber) hdone
          show (service.call object number args next).1.Leaves service
          rw [hanswer]
          exact ⟨hdone.library, hdone.store, hdone.collection, hdone.sync,
            Done.answer_of_no_change hdone.change⟩
    exact ⟨hleaves.library, hleaves.store, hleaves.announcement⟩
  · subst hobject
    have hhandled (command : CollectionCommand) (hnumber : number = command.number) :
        ∃ done, (service.handle command { args } next).1 = .ok done ∧
          answer = done.answer service := by
      subst hnumber
      exact handled_of_ok service args next (hintact.offers command) hvalue
    refine ⟨fun hnumber => ?_, fun hnumber => ?_, fun hnumber => ?_, fun hnumber => ?_⟩
    · obtain ⟨done, hdone, hanswer⟩ := hhandled .save hnumber
      obtain ⟨name, node, change, hname, hspace, hnode, hnames, hsaved, hedits⟩ := edits_save hdone
      rw [hanswer]
      exact ⟨name, node, change, hname, hspace, hnode, hnames, hsaved, hedits.store,
        hedits.library, hedits.announced⟩
    · obtain ⟨done, hdone, hanswer⟩ := hhandled .remove hnumber
      obtain ⟨name, change, hname, hspace, hnames, hremoved, hedits⟩ := edits_remove hdone
      rw [hanswer]
      exact ⟨name, change, hname, hspace, hnames, hremoved, hedits.store, hedits.library,
        hedits.announced⟩
    · obtain ⟨done, hdone, hanswer⟩ := hhandled .rename hnumber
      obtain ⟨name, newName, change, hname, hnewName, hspace, hnames, hfree, hmoved, harrived,
        hedits⟩ := edits_rename hdone
      rw [hanswer]
      exact ⟨name, newName, change, hname, hnewName, hspace, hnames, hfree, hmoved, harrived,
        hedits.store, hedits.library, hedits.announced⟩
    · obtain ⟨done, hdone, hanswer⟩ := hhandled .importPlaylist hnumber
      obtain ⟨urls, hurls, hservice, hchange⟩ := exists_of_importPlaylist hdone
      rw [hanswer, Done.answer_service, hservice]
      refine ⟨urls, hurls, rfl, Done.answer_of_no_change hchange, fun hfit => ?_⟩
      exact (grown_entriesOfUrls hintact.fresh hfit).1

/-- A service with one entry, and a playlist of that and of a new one. -/
def stocked : Service :=
  { create {} { working := [], files := [(["l"], "a\nb".toUTF8.toList)] } with
    library := (Library.empty.add [(Library.urlProperty, .string "file:///a")]).2 }

theorem reachable_stocked : stocked.Reachable :=
  .library (.create _ _) (.add .empty (by decide) _)

/-- The same after a collection was saved. -/
def curated : Service :=
  (stocked.call .collection CollectionCommand.save.number
    [.string "a", .string "Playlists", .collection default] 1).1.service

theorem reachable_curated : curated.Reachable :=
  reachable_stocked.call _ _ _ _ fun _ h => absurd h (by decide)

theorem playlistUrls_curated :
    curated.playlistUrls { args := [.string "file:///l"] } = .ok ["file:///a", "file:///b"] := by
  decide +kernel

theorem entriesFit_curated : EntriesFit curated.library ["file:///a", "file:///b"] :=
  ⟨fun _ => by decide +kernel, fun _ => by decide +kernel, trivial⟩

theorem outcome_curated : (curated.call .collection CollectionCommand.importPlaylist.number
    [.string "file:///l"] 2).1.outcome = .ok (.collection (.node 2 .idlist [] [] [1, 2])) := by
  with_unfolding_all rfl

/-- The import adds one entry to the one that is there. -/
theorem call_atomic_curated :
    let answer := (curated.call .collection CollectionCommand.importPlaylist.number
      [.string "file:///l"] 2).1
    curated.Reachable ∧ answer.outcome = .ok (.collection (.node 2 .idlist [] [] [1, 2])) ∧
      EntriesFit curated.library ["file:///a", "file:///b"] ∧
      answer.service.store = curated.store ∧ answer.announcement = none ∧
      Grown curated.library answer.service.library ["file:///a", "file:///b"] := by
  have hwrites := (call_atomic reachable_curated .collection
    CollectionCommand.importPlaylist.number [.string "file:///l"] 2).2 _ rfl outcome_curated
  obtain ⟨urls, hurls, hstore, hannouncement, hgrown⟩ := hwrites.2.2.2 rfl
  obtain rfl := Except.ok.inj (playlistUrls_curated.symm.trans hurls)
  exact ⟨reachable_curated, outcome_curated, entriesFit_curated, hstore, hannouncement,
    hgrown entriesFit_curated⟩

end Service

end MediaCatalog
