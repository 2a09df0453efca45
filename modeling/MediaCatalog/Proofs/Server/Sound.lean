import MediaCatalog.Proofs.Fetch.Material
import MediaCatalog.Server.Call

/-!
Sound services. In the library and in the store identities mark nodes and no key is repeated.
Calls with arguments in order keep it so, and what they answer is in order as well.
-/

namespace MediaCatalog

/-! ### Libraries -/

/-- Any values of the library are in order together. -/
def Library.Sound (library : Library) : Prop :=
  ∀ values : List Value, (∀ value ∈ values, library.Holds value) → WellFormed values

theorem Library.Sound.wellFormed {library : Library} (h : library.Sound) {values : List Value}
    (hvalues : ∀ value ∈ values, library.Yields value) : WellFormed values :=
  Value.MadeOf.wellFormed hvalues h

/-- A new entry of plain values adds no nodes. -/
theorem Library.Sound.add {library : Library} (h : library.Sound)
    {properties : List (String × Value)}
    (hplain : ∀ entry ∈ properties, library.Yields entry.2) : (library.add properties).2.Sound := by
  intro values hvalues
  refine h.wellFormed fun value hvalue => ?_
  obtain ⟨id, entry, key, hentry, hmem⟩ := hvalues value hvalue
  simp only [Library.add, Std.TreeMap.getElem?_insert] at hentry
  split at hentry
  · obtain rfl := Option.some.inj hentry
    exact Dict.forall_mem_ofEntries hplain (key, value) hmem
  · exact .held ⟨id, entry, key, hentry, hmem⟩

theorem WellFormed.nil : WellFormed [] :=
  ⟨by simp [WellShared, SharedNodes, nodesOfItems], by simp [partsOfItems]⟩

/-- Values without nodes and repeated keys are in order. -/
theorem WellFormed.plain {value : Value} (h : value.MadeOf fun _ => False) :
    WellFormed [value] := by
  refine Value.MadeOf.wellFormed (List.forall_mem_singleton.mpr h) fun sources hsources => ?_
  cases sources with
  | nil => exact .nil
  | cons source rest => exact (hsources source List.mem_cons_self).elim

theorem WellFormed.getElem? {values : List Value} (h : WellFormed values) {i : Nat} {value : Value}
    (hvalue : values[i]? = some value) : WellFormed [value] where
  shared := by
    intro first hfirst second hsecond
    simp only [nodesOfItems, List.append_nil] at hfirst hsecond
    have hmem := List.mem_of_getElem? hvalue
    refine h.shared first ?_ second ?_
    all_goals
      rw [nodesOfItems_eq_flatMap]
      exact List.mem_flatMap.mpr ⟨value, hmem, by assumption⟩
  keyed := by
    intro part hpart
    refine h.keyed part ?_
    rw [partsOfItems_eq_flatMap] at hpart ⊢
    obtain ⟨_, hsingle, hpart⟩ := List.mem_flatMap.mp hpart
    rw [List.mem_singleton.mp hsingle] at hpart
    exact List.mem_flatMap.mpr ⟨value, List.mem_of_getElem? hvalue, hpart⟩

/-! ### Stores -/

/-- Each saved collection is in order. -/
def Store.Sound (store : Store) : Prop :=
  ∀ space (name : String) node,
    (store.table space)[name]? = some node → WellFormed [.collection node]

namespace Store.Sound

variable {store : Store}

theorem withTable (h : store.Sound) {space : Namespace} {table : Std.TreeMap String Collection}
    (htable : ∀ (name : String) node, table[name]? = some node → WellFormed [.collection node]) :
    (store.withTable space table).Sound := by
  intro other name node hnode
  rw [table_withTable] at hnode
  split at hnode
  · exact htable name node hnode
  · exact h other name node hnode

theorem get (h : store.Sound) {name : String} {space : Namespace} {node : Collection}
    (hget : store.get name space = .ok node) : WellFormed [.collection node] := by
  rw [Store.get] at hget
  split at hget
  · next hfound =>
    obtain rfl := Except.ok.inj hget
    obtain ⟨place, -, hplace⟩ := List.exists_of_findSome?_eq_some hfound
    exact h place name _ hplace
  · exact nomatch hget

theorem save (h : store.Sound) {name : String} {space : Namespace} {node : Collection}
    (hnode : WellFormed [.collection node]) {result : Change × Store}
    (hsave : store.save name space node = .ok result) : result.2.Sound := by
  rw [Store.save] at hsave
  split at hsave
  · exact nomatch hsave
  · obtain ⟨_, -, hsave⟩ := exists_of_bind_ok hsave
    obtain rfl := Except.ok.inj hsave
    refine h.withTable fun other found hfound => ?_
    rw [Std.TreeMap.getElem?_insert] at hfound
    split at hfound
    · exact Option.some.inj hfound ▸ hnode
    · exact h space other found hfound

theorem erase (h : store.Sound) (space : Namespace) (name other : String) (node : Collection)
    (hnode : ((store.table space).erase name)[other]? = some node) :
    WellFormed [.collection node] := by
  rw [Std.TreeMap.getElem?_erase] at hnode
  split at hnode
  · exact nomatch hnode
  · exact h space other node hnode

theorem remove (h : store.Sound) {name : String} {space : Namespace} {result : Change × Store}
    (hremove : store.remove name space = .ok result) : result.2.Sound := by
  rw [Store.remove] at hremove
  obtain ⟨_, -, hremove⟩ := exists_of_bind_ok hremove
  dsimp only at hremove
  split at hremove
  · obtain rfl := Except.ok.inj hremove
    exact h.withTable (h.erase space name)
  · exact nomatch hremove

theorem rename (h : store.Sound) {name newName : String} {space : Namespace}
    {result : Change × Store} (hrename : store.rename name newName space = .ok result) :
    result.2.Sound := by
  rw [Store.rename] at hrename
  split at hrename
  · exact nomatch hrename
  · obtain ⟨_, -, hrename⟩ := exists_of_bind_ok hrename
    dsimp only at hrename
    split at hrename
    · exact nomatch hrename
    · split at hrename
      · exact nomatch hrename
      · next node hnode =>
        obtain rfl := Except.ok.inj hrename
        refine h.withTable fun other found hfound => ?_
        rw [Std.TreeMap.getElem?_insert] at hfound
        split at hfound
        · exact Option.some.inj hfound ▸ h space name node hnode
        · exact h.erase space name other found hfound

end Store.Sound

/-! ### Services -/

namespace Service

/-- Library and store are in order. -/
structure Sound (service : Service) : Prop where
  library : service.library.Sound
  store : service.store.Sound

/-- New services are sound. -/
theorem sound_create (settings : ServiceSettings) (files : Playlist.FileTree) :
    (create settings files).Sound where
  library := by
    intro values hvalues
    cases values with
    | nil => exact .nil
    | cons value rest =>
        obtain ⟨id, entry, key, hentry, -⟩ := hvalues value List.mem_cons_self
        simp [create, Library.empty] at hentry
  store := by
    intro space name node hnode
    cases space with
    | _ => simp [create, Store.empty, Store.table] at hnode

/-- A command that succeeded answers something in order and leaves a sound service. -/
structure Done.Sound (done : Done) : Prop where
  value : WellFormed [done.value]
  service : done.service.Sound

/-- A collection among the arguments is in order. -/
theorem wellFormed_collection {args : List Value} (hargs : WellFormed args) {index : Nat}
    {name : String} {node : Collection}
    (hnode : Arguments.collection { args } index name = .ok node) :
    WellFormed [.collection node] := by
  unfold Arguments.collection Arguments.argAs Arguments.arg at hnode
  cases hvalue : args[index]? with
  | none =>
      simp only [hvalue] at hnode
      exact nomatch hnode
  | some value =>
      simp only [hvalue] at hnode
      cases value with
      | collection inner =>
          obtain rfl : inner = node := Except.ok.inj hnode
          exact hargs.getElem? hvalue
      | _ => exact nomatch hnode

namespace Sound

variable {service : Service} (h : service.Sound) {args : List Value} (hargs : WellFormed args)
  {done : Done}
include h

theorem evaluated : service.evaluated.Sound := ⟨h.library, h.store⟩

theorem changed {result : Change × Store} (hresult : result.2.Sound) :
    (service.changed result).Sound :=
  ⟨.plain .none, h.library, hresult⟩

theorem get (hget : service.get { args } = .ok done) : done.Sound := by
  rw [Service.get] at hget
  obtain ⟨name, -, hget⟩ := exists_of_bind_ok hget
  obtain ⟨space, -, hget⟩ := exists_of_bind_ok hget
  obtain ⟨node, hnode, hget⟩ := exists_of_bind_ok hget
  obtain rfl := Except.ok.inj hget
  exact ⟨h.store.get hnode, h⟩

theorem list (hlist : service.list { args } = .ok done) : done.Sound := by
  rw [Service.list] at hlist
  obtain ⟨space, -, hlist⟩ := exists_of_bind_ok hlist
  obtain rfl := Except.ok.inj hlist
  exact ⟨.plain (.ofStrings _), h⟩

include hargs in
theorem save (hsave : service.save { args } = .ok done) : done.Sound := by
  rw [Service.save] at hsave
  obtain ⟨name, -, hsave⟩ := exists_of_bind_ok hsave
  obtain ⟨space, -, hsave⟩ := exists_of_bind_ok hsave
  obtain ⟨node, hnode, hsave⟩ := exists_of_bind_ok hsave
  obtain ⟨result, hresult, hsave⟩ := exists_of_bind_ok hsave
  obtain rfl := Except.ok.inj hsave
  exact h.changed (h.store.save (wellFormed_collection hargs hnode) hresult)

theorem remove (hremove : service.remove { args } = .ok done) : done.Sound := by
  rw [Service.remove] at hremove
  obtain ⟨name, -, hremove⟩ := exists_of_bind_ok hremove
  obtain ⟨space, -, hremove⟩ := exists_of_bind_ok hremove
  obtain ⟨result, hresult, hremove⟩ := exists_of_bind_ok hremove
  obtain rfl := Except.ok.inj hremove
  exact h.changed (h.store.remove hresult)

theorem rename (hrename : service.rename { args } = .ok done) : done.Sound := by
  rw [Service.rename] at hrename
  obtain ⟨name, -, hrename⟩ := exists_of_bind_ok hrename
  obtain ⟨newName, -, hrename⟩ := exists_of_bind_ok hrename
  obtain ⟨space, -, hrename⟩ := exists_of_bind_ok hrename
  obtain ⟨result, hresult, hrename⟩ := exists_of_bind_ok hrename
  obtain rfl := Except.ok.inj hrename
  exact h.changed (h.store.rename hresult)

theorem find (hfind : service.find { args } = .ok done) : done.Sound := by
  rw [Service.find] at hfind
  obtain ⟨id, -, hfind⟩ := exists_of_bind_ok hfind
  obtain ⟨space, -, hfind⟩ := exists_of_bind_ok hfind
  obtain rfl := Except.ok.inj hfind
  exact ⟨.plain (.ofStrings _), h.evaluated⟩

theorem query (hquery : service.query { args } = .ok done) : done.Sound := by
  rw [Service.query] at hquery
  obtain ⟨node, -, hquery⟩ := exists_of_bind_ok hquery
  obtain ⟨spec, -, hquery⟩ := exists_of_bind_ok hquery
  obtain ⟨ids, -, hquery⟩ := exists_of_bind_ok hquery
  obtain ⟨value, hvalue, hquery⟩ := exists_of_bind_ok hquery
  obtain rfl := Except.ok.inj hquery
  refine ⟨h.library.wellFormed ?_, h.evaluated⟩
  exact List.forall_mem_singleton.mpr (service.catalog.fetch_yields _ _ _ hvalue)

theorem queryInfos (hquery : service.queryInfos { args } = .ok done) : done.Sound := by
  rw [Service.queryInfos] at hquery
  obtain ⟨node, -, hquery⟩ := exists_of_bind_ok hquery
  obtain ⟨start, -, hquery⟩ := exists_of_bind_ok hquery
  obtain ⟨length, -, hquery⟩ := exists_of_bind_ok hquery
  obtain ⟨properties, -, hquery⟩ := exists_of_bind_ok hquery
  obtain ⟨group, -, hquery⟩ := exists_of_bind_ok hquery
  dsimp only at hquery
  split at hquery
  · exact nomatch hquery
  · obtain ⟨ids, -, hquery⟩ := exists_of_bind_ok hquery
    obtain rfl := Except.ok.inj hquery
    refine ⟨h.library.wellFormed ?_, h.evaluated⟩
    exact List.forall_mem_singleton.mpr
      (service.catalog.infos_yields ids properties group ⟨start, length⟩)

omit h in
/-- Importing urls adds texts to the library. -/
theorem entriesOfUrls {library : Library} (hlibrary : library.Sound) (urls : List String) :
    (Service.entriesOfUrls library urls).2.Sound := by
  induction urls generalizing library with
  | nil => exact hlibrary
  | cons url rest ih =>
      have hentry : (entryOfUrl library url).2.Sound := by
        rw [entryOfUrl]
        split
        · exact hlibrary
        · exact hlibrary.add (by simp)
      exact ih hentry

theorem importPlaylist {next : NodeId}
    (himport : (service.importPlaylist { args } next).1 = .ok done) : done.Sound := by
  rw [Service.importPlaylist] at himport
  cases hurls : service.playlistUrls { args } with
  | error cause =>
      rw [hurls] at himport
      exact nomatch himport
  | ok urls =>
      rw [hurls] at himport
      obtain rfl := Except.ok.inj himport
      refine ⟨⟨?_, ?_⟩, entriesOfUrls h.library urls, h.store⟩
      · intro first hfirst second hsecond _
        exact (List.mem_singleton.mp hfirst).trans (List.mem_singleton.mp hsecond).symm
      · intro part hpart
        rw [List.mem_singleton.mp hpart]
        exact List.nodup_nil

include hargs

theorem handle {command : CollectionCommand} {next : NodeId}
    (hhandle : (service.handle command { args } next).1 = .ok done) : done.Sound := by
  cases command with
  | get => exact h.get hhandle
  | list => exact h.list hhandle
  | save => exact h.save hargs hhandle
  | remove => exact h.remove hhandle
  | find => exact h.find hhandle
  | rename => exact h.rename hhandle
  | query => exact h.query hhandle
  | queryInfos => exact h.queryInfos hhandle
  | importPlaylist => exact h.importPlaylist hhandle

end Sound

/-- What is answered is in order, and so is the service afterwards. -/
structure Answer.Sound (answer : Answer) : Prop where
  outcome : ∀ value, answer.outcome = .ok value → WellFormed [value]
  service : answer.service.Sound

namespace Sound

variable {service : Service} (h : service.Sound) {args : List Value} (hargs : WellFormed args)
include h hargs

theorem run (handler : CommandHandler) (next : NodeId) :
    Answer.Sound (service.run handler { args } next).1 := by
  have hanswered {value : Value} (hvalue : WellFormed [value]) :
      Answer.Sound { outcome := .ok value, service } :=
    ⟨fun _ hsame => Except.ok.inj hsame ▸ hvalue, h⟩
  cases handler with
  | fixed registration text => exact hanswered (.plain (.string text))
  | sync => exact ⟨(hanswered (.plain .none)).outcome, h.library, h.store⟩
  | collection command =>
      have hhandle (done : Done) (hdone : (service.handle command { args } next).1 = .ok done) :
          done.Sound := h.handle hargs hdone
      simp only [Service.run, bind, StateT.bind]
      generalize service.handle command { args } next = result at hhandle ⊢
      obtain ⟨outcome, after⟩ := result
      cases outcome with
      | error cause => exact ⟨nofun, h⟩
      | ok done =>
          obtain ⟨hvalue, hservice⟩ := hhandle done rfl
          exact ⟨fun _ hsame => Except.ok.inj hsame ▸ hvalue, hservice⟩

/-- Calls keep libraries and stores in order. -/
theorem call (object : ServerObject) (command : UInt32) (next : NodeId) :
    Answer.Sound (service.call object command args next).1 := by
  rw [Service.call]
  cases service.object? object with
  | none => exact ⟨nofun, h⟩
  | some served =>
      dsimp only
      cases served.commands[command]? with
      | none => exact ⟨fun _ hsame => Except.ok.inj hsame ▸ .plain .none, h⟩
      | some handler => exact h.run hargs handler next

end Sound

end Service

end MediaCatalog
