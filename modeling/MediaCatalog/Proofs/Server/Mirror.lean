import MediaCatalog.Proofs.Catalog.Mirror
import MediaCatalog.Server.Call

/-!
Services of copies. One service mirrors another when its store does and everything else that calls
depend on is the same; only who listens may differ. A call with copies of the arguments is
answered by a copy, and the services go on mirroring each other.
-/

namespace MediaCatalog

/-! ### Arguments -/

namespace CopyOf

variable {args copies : List Value} (h : CopyOf args copies)
include h

/-- An argument that is read through a view agrees if the view does. -/
theorem argAs {α β : Type} {related : α → β → Prop} {view? : Value → Option α}
    {view?' : Value → Option β} (hview : ∀ value copy, CopyOf [value] [copy] →
      Option.Rel related (view? value) (view?' copy) ∧ copy.typeName = value.typeName)
    (expected : String) (index : Nat) (name : String) :
    Agree related (Arguments.argAs view? expected { args } index name)
      (Arguments.argAs view?' expected { args := copies } index name) := by
  unfold Arguments.argAs Arguments.arg
  cases hvalue : args[index]? with
  | none =>
      simp only [h.getElem?_eq_none hvalue]
      exact .failed _
  | some value =>
      obtain ⟨copy, hcopy, hcopied⟩ := h.getElem? hvalue
      obtain ⟨hrelated, htype⟩ := hview value copy hcopied
      simp only [hcopy, bind, Except.bind, htype]
      generalize view? value = seen at hrelated
      generalize view?' copy = seen' at hrelated
      cases hrelated with
      | none => exact .failed _
      | some hrelated => exact .done hrelated

/-- A view that does not show identities reads the same from copies. -/
theorem argAs_eq {α : Type} {view? : Value → Option α}
    (hview : ∀ (rename : NodeId → NodeId) value, view? (value.renamed rename) = view? value)
    (expected : String) (index : Nat) (name : String) :
    Arguments.argAs view? expected { args := copies } index name =
      Arguments.argAs view? expected { args } index name := by
  have hsame : Agree Eq (Arguments.argAs view? expected { args } index name)
      (Arguments.argAs view? expected { args := copies } index name) := h.argAs
    (fun value copy hcopy => by
      obtain ⟨rename, -, hcopy⟩ := hcopy
      obtain rfl : copy = value.renamed rename := List.singleton_inj.mp hcopy
      refine ⟨?_, Value.typeName_renamed value⟩
      rw [hview]
      cases view? value with
      | none => exact .none
      | some seen => exact .some rfl) expected index name
  obtain ⟨cause, hfirst, hsecond⟩ | ⟨seen, seen', hfirst, hsecond, rfl⟩ := hsame.failed_or_done
  · rw [hfirst, hsecond]
  · rw [hfirst, hsecond]

theorem string (index : Nat) (name : String) :
    Arguments.string { args := copies } index name = Arguments.string { args } index name :=
  h.argAs_eq (fun _ => Value.string?_renamed) _ index name

theorem int (index : Nat) (name : String) :
    Arguments.int { args := copies } index name = Arguments.int { args } index name :=
  h.argAs_eq (fun _ => Value.int?_renamed) _ index name

theorem strings (index : Nat) (name : String) :
    Arguments.strings { args := copies } index name = Arguments.strings { args } index name :=
  h.argAs_eq (fun _ => Value.strings?_renamed) _ index name

theorem collection (index : Nat) (name : String) :
    Agree Collection.Copied (Arguments.collection { args } index name)
      (Arguments.collection { args := copies } index name) := by
  refine h.argAs (fun value copy hcopy => ?_) _ index name
  have hcopied := hcopy
  obtain ⟨rename, -, hsame⟩ := hcopy
  obtain rfl : copy = value.renamed rename := List.singleton_inj.mp hsame
  refine ⟨?_, Value.typeName_renamed value⟩
  cases value with
  | collection node => exact .some hcopied
  | _ => exact .none

/-- An argument that is taken as it is. -/
theorem arg (index : Nat) (name : String) :
    Agree (fun value copy => CopyOf [value] [copy]) (Arguments.arg { args } index name)
      (Arguments.arg { args := copies } index name) := by
  unfold Arguments.arg
  cases hvalue : args[index]? with
  | none =>
      rw [h.getElem?_eq_none hvalue]
      exact .failed _
  | some value =>
      obtain ⟨copy, hcopy, hcopied⟩ := h.getElem? hvalue
      rw [hcopy]
      exact .done hcopied

end CopyOf

namespace Service

variable {service copy : Service} {args copies : List Value}

theorem spaceArg_copy (hargs : CopyOf args copies) (index : Nat) :
    spaceArg { args := copies } index = spaceArg { args } index := by
  simp only [spaceArg, hargs.string]

theorem countArg_copy (hargs : CopyOf args copies) (index : Nat) (name : String) :
    countArg { args := copies } index name = countArg { args } index name := by
  simp only [countArg, hargs.int]

theorem groupArg_copy (hargs : CopyOf args copies) (index : Nat) :
    groupArg { args := copies } index = groupArg { args } index := by
  unfold groupArg
  cases hvalue : args[index]? with
  | none => rw [hargs.getElem?_eq_none hvalue]
  | some value =>
      obtain ⟨copy, hcopy, rename, -, hsame⟩ := hargs.getElem? hvalue
      obtain rfl : copy = value.renamed rename := List.singleton_inj.mp hsame
      rw [hcopy]
      cases value with
      | none => rfl
      | _ => exact hargs.strings index "group"

/-! ### Services -/

/-- The second service has copies where the first one has collections, and is the same in all
else that calls depend on. -/
structure Mirrors (service copy : Service) : Prop where
  settings : copy.settings = service.settings
  library : copy.library = service.library
  store : service.store.Mirrors copy.store
  syncs : copy.syncs = service.syncs
  evaluations : copy.evaluations = service.evaluations
  commands : copy.collection.commands = service.collection.commands
  sync : copy.sync = service.sync
  files : copy.files = service.files

/-- The value is copied and the services mirror each other. -/
def Done.Mirrors (done copy : Done) : Prop :=
  CopyOf [done.value] [copy.value] ∧ done.service.Mirrors copy.service

namespace Mirrors

theorem refl (service : Service) : service.Mirrors service :=
  ⟨rfl, rfl, .refl _, rfl, rfl, rfl, rfl, rfl⟩

theorem trans {copy' : Service} (h : service.Mirrors copy) (h' : copy.Mirrors copy') :
    service.Mirrors copy' where
  settings := h'.settings.trans h.settings
  library := h'.library.trans h.library
  store := h.store.trans h'.store
  syncs := h'.syncs.trans h.syncs
  evaluations := h'.evaluations.trans h.evaluations
  commands := h'.commands.trans h.commands
  sync := h'.sync.trans h.sync
  files := h'.files.trans h.files

/-- It does not matter who listens. -/
theorem connect (service : Service) (signal : UInt32) (observer : Observer) :
    service.Mirrors (service.connect signal observer) :=
  ⟨rfl, rfl, .refl _, rfl, rfl, rfl, rfl, rfl⟩

section Parts

variable (h : service.Mirrors copy)
include h

theorem catalog : service.catalog.Mirrors copy.catalog where
  library := h.library
  seed := by simp only [Service.catalog, h.settings, h.evaluations]
  store := h.store

theorem evaluated : service.evaluated.Mirrors copy.evaluated :=
  { h with evaluations := by simp only [Service.evaluated, h.evaluations] }

theorem changed {result result' : Change × Store} (hresult : Store.Mirrors.Changed result result') :
    (service.changed result).Mirrors (copy.changed result') :=
  ⟨CopyOf.refl _, { h with store := hresult.2 }⟩

end Parts

section Commands

variable (h : service.Mirrors copy) (hargs : CopyOf args copies)
include h hargs

theorem get : Agree Done.Mirrors (service.get { args }) (copy.get { args := copies }) := by
  unfold Service.get
  simp only [hargs.string, spaceArg_copy hargs]
  refine .bind_same _ fun name => .bind_same _ fun space => ?_
  exact (h.store.get name space).bind fun node node' hcopied => .done ⟨hcopied, h⟩

theorem list : Agree Done.Mirrors (service.list { args }) (copy.list { args := copies }) := by
  unfold Service.list
  simp only [spaceArg_copy hargs, h.store.names_eq]
  exact .bind_same _ fun space => .done ⟨CopyOf.refl _, h⟩

theorem save : Agree Done.Mirrors (service.save { args }) (copy.save { args := copies }) := by
  unfold Service.save
  simp only [hargs.string, spaceArg_copy hargs]
  refine .bind_same _ fun name => .bind_same _ fun space => ?_
  refine (hargs.collection 2 "collection").bind fun node node' hcopied => ?_
  exact (h.store.save name space hcopied).bind fun _ _ hresult => .done (h.changed hresult)

theorem remove : Agree Done.Mirrors (service.remove { args }) (copy.remove { args := copies }) := by
  unfold Service.remove
  simp only [hargs.string, spaceArg_copy hargs]
  refine .bind_same _ fun name => .bind_same _ fun space => ?_
  exact (h.store.remove name space).bind fun _ _ hresult => .done (h.changed hresult)

theorem rename : Agree Done.Mirrors (service.rename { args }) (copy.rename { args := copies }) := by
  unfold Service.rename
  simp only [hargs.string, spaceArg_copy hargs]
  refine .bind_same _ fun name => .bind_same _ fun newName => .bind_same _ fun space => ?_
  exact (h.store.rename name newName space).bind fun _ _ hresult => .done (h.changed hresult)

theorem find : Agree Done.Mirrors (service.find { args }) (copy.find { args := copies }) := by
  unfold Service.find
  simp only [hargs.int, spaceArg_copy hargs]
  refine .bind_same _ fun id => .bind_same _ fun space => .done ⟨?_, h.evaluated⟩
  have hselects {node node' : Collection} (hcopied : node.Copied node') :
      copy.selects node' id = service.selects node id := by
    simp only [selects, h.catalog.evaluate hcopied]
  have hnames {entries entries' : List (Namespace × String × Collection)}
      (hentries : List.Forall₂ (fun entry entry' => entry.2.1 = entry'.2.1 ∧
        entry.2.2.Copied entry'.2.2) entries entries') :
      (entries'.filter fun entry => copy.selects entry.2.2 id).map (fun entry => entry.2.1) =
        (entries.filter fun entry => service.selects entry.2.2 id).map fun entry => entry.2.1 := by
    induction hentries with
    | nil => rfl
    | cons hentry _ ih =>
        rw [List.filter_cons, List.filter_cons]
        simp only [hselects hentry.2]
        split
        · rw [List.map_cons, List.map_cons, ih, hentry.1]
        · exact ih
  have hcopy : CopyOf
      [.ofStrings (((service.store.entries space).filter fun entry =>
        service.selects entry.2.2 id).map fun entry => entry.2.1)]
      [.ofStrings (((copy.store.entries space).filter fun entry =>
        copy.selects entry.2.2 id).map fun entry => entry.2.1)] := by
    rw [hnames (h.store.entries space)]
    exact CopyOf.refl _
  exact hcopy

theorem query : Agree Done.Mirrors (service.query { args }) (copy.query { args := copies }) := by
  rw [Service.query]
  refine (hargs.collection 0 "collection").bind fun node node' hcopied => ?_
  refine (hargs.arg 1 "fetch").bind fun spec spec' hspec => ?_
  obtain ⟨rename, -, hsame⟩ := hspec
  obtain rfl : spec' = spec.renamed rename := List.singleton_inj.mp hsame
  simp only [h.catalog.evaluate hcopied, h.catalog.fetch, h.settings, Plan.ofValue_renamed]
  refine .bind_same _ fun ids => .bind_same _ fun value => ?_
  exact .done ⟨CopyOf.refl _, h.evaluated⟩

theorem queryInfos :
    Agree Done.Mirrors (service.queryInfos { args }) (copy.queryInfos { args := copies }) := by
  rw [Service.queryInfos]
  refine (hargs.collection 0 "collection").bind fun node node' hcopied => ?_
  simp only [countArg_copy hargs, hargs.strings, groupArg_copy hargs, h.catalog.evaluate hcopied,
    h.catalog.infos]
  refine .bind_same _ fun start => .bind_same _ fun length => .bind_same _ fun properties =>
    .bind_same _ fun group => ?_
  split
  · exact .failed _
  · exact .bind_same _ fun ids => .done ⟨CopyOf.refl _, h.evaluated⟩

/-- The collection of imported entries is a new node on either side. -/
theorem importPlaylist (next next' : NodeId) :
    Agree Done.Mirrors (service.importPlaylist { args } next).1
      (copy.importPlaylist { args := copies } next').1 := by
  have hurls : copy.playlistUrls { args := copies } = service.playlistUrls { args } := by
    simp only [playlistUrls, hargs.string, h.files]
  unfold Service.importPlaylist
  rw [hurls]
  cases service.playlistUrls { args } with
  | error cause => exact .failed _
  | ok urls =>
      refine .done ⟨⟨fun _ => next', ?_, by rw [h.library]; rfl⟩,
        { h with library := by rw [h.library] }⟩
      intro first hfirst second hsecond _
      exact (List.mem_singleton.mp hfirst).trans (List.mem_singleton.mp hsecond).symm

theorem handle (command : CollectionCommand) (next next' : NodeId) :
    Agree Done.Mirrors (service.handle command { args } next).1
      (copy.handle command { args := copies } next').1 := by
  cases command with
  | get => exact h.get hargs
  | list => exact h.list hargs
  | save => exact h.save hargs
  | remove => exact h.remove hargs
  | find => exact h.find hargs
  | rename => exact h.rename hargs
  | query => exact h.query hargs
  | queryInfos => exact h.queryInfos hargs
  | importPlaylist => exact h.importPlaylist hargs next next'

end Commands

end Mirrors

/-! ### Calls -/

/-- The outcomes agree up to copies and the services mirror each other. -/
structure Answer.Mirrors (answer copy : Answer) : Prop where
  outcome : Agree (fun value value' => CopyOf [value] [value']) answer.outcome copy.outcome
  service : answer.service.Mirrors copy.service

namespace Mirrors

variable (h : service.Mirrors copy) (hargs : CopyOf args copies)
include h hargs

theorem run (handler : CommandHandler) (next next' : NodeId) :
    Answer.Mirrors (service.run handler { args } next).1
      (copy.run handler { args := copies } next').1 := by
  cases handler with
  | fixed registration text => exact ⟨.done (CopyOf.refl _), h⟩
  | sync => exact ⟨.done (CopyOf.refl _), { h with syncs := congrArg (· + 1) h.syncs }⟩
  | collection command =>
      have hhandle := h.handle hargs command next next'
      simp only [Service.run, bind, StateT.bind]
      generalize service.handle command { args } next = here at hhandle ⊢
      generalize copy.handle command { args := copies } next' = there at hhandle ⊢
      obtain ⟨outcome, after⟩ := here
      obtain ⟨outcome', after'⟩ := there
      obtain ⟨cause, hfirst, hsecond⟩ | ⟨done, done', hfirst, hsecond, hdone⟩ :=
        hhandle.failed_or_done
      · obtain rfl : outcome = .error cause := hfirst
        obtain rfl : outcome' = .error cause := hsecond
        exact ⟨.failed cause, h⟩
      · obtain rfl : outcome = .ok done := hfirst
        obtain rfl : outcome' = .ok done' := hsecond
        exact ⟨.done hdone.1, hdone.2⟩

/-- A call with copies of the arguments is answered by a copy. -/
theorem call (object : ServerObject) (command : UInt32) (next next' : NodeId) :
    Answer.Mirrors (service.call object command args next).1
      (copy.call object command copies next').1 := by
  have hserved (served served' : ServedObject) (hcommands : served'.commands = served.commands)
      (hhere : service.object? object = some served) (hthere : copy.object? object = some served') :
      Answer.Mirrors (service.call object command args next).1
        (copy.call object command copies next').1 := by
    simp only [Service.call, hhere, hthere, hcommands]
    cases served.commands[command]? with
    | none => exact ⟨.done (CopyOf.refl _), h⟩
    | some handler => exact h.run hargs handler next next'
  cases object with
  | signal => exact ⟨.failed _, h⟩
  | collection => exact hserved _ _ h.commands rfl rfl
  | sync => exact hserved _ _ (congrArg _ h.sync) rfl rfl

end Mirrors

end Service

end MediaCatalog
