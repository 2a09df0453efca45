import MediaCatalog.Fetch.Run
import MediaCatalog.Proofs.Value.Entries

/-!
Which specs are refused. A plan fails exactly where one of its failing parts is met. A part outside
of all clusters is always met. A part within clusters is met only if some entry can be clustered by
all the properties on the way to it, so a spec that cannot be read may still be accepted over
other entries, and over no entries at all.
-/

namespace MediaCatalog

/-! ### Failing parts -/

/-- A part of a plan fails. The properties are those of the clusters around it, from outside. -/
inductive Plan.FailsUnder : Plan → List String → Error → Prop where
  | here (cause : Error) : FailsUnder (.fails cause) [] cause
  | clusterList {property : String} {data : Plan} {path : List String} {cause : Error}
      (h : FailsUnder data path cause) :
      FailsUnder (.clusterList property data) (property :: path) cause
  | clusterDict {property : String} {data : Plan} {path : List String} {cause : Error}
      (h : FailsUnder data path cause) :
      FailsUnder (.clusterDict property data) (property :: path) cause
  | organize {entries : List (String × Plan)} {name : String} {plan : Plan} {path : List String}
      {cause : Error} (hentry : (name, plan) ∈ entries) (h : FailsUnder plan path cause) :
      FailsUnder (.organize entries) path cause

/-- An error that only says what is wrong with a spec. -/
def Error.IsRemote (cause : Error) : Prop := ∃ reason, cause = .remote reason

/-- Reading part of a spec fails only with remote errors, and what is read is as expected. -/
structure Plan.Reads {α : Type} (expected : α → Prop) (read : Except Error α) : Prop where
  remote : ∀ cause, read = .error cause → cause.IsRemote
  asExpected : ∀ value, read = .ok value → expected value

namespace Plan.Reads

variable {α β : Type} {expected : α → Prop} {expectedNext : β → Prop}

theorem ok {value : α} (h : expected value) : Reads expected (.ok value) where
  remote := nofun
  asExpected _ hvalue := Except.ok.inj hvalue ▸ h

theorem refuse (reason : String) : Reads expected (Plan.refuse reason) where
  remote _ h := ⟨reason, (Except.error.inj h).symm⟩
  asExpected := nofun

theorem reported (read : Except Error α) : Reads (fun _ => True) (Plan.reported read) := by
  cases read with
  | ok value => exact .ok trivial
  | error error => exact .refuse error.message

theorem bind {read : Except Error α} {next : α → Except Error β} (hread : Reads expected read)
    (hnext : ∀ value, expected value → Reads expectedNext (next value)) :
    Reads expectedNext (read >>= next) := by
  cases read with
  | ok value => exact hnext value (hread.asExpected value rfl)
  | error cause =>
      obtain ⟨reason, rfl⟩ := hread.remote cause rfl
      exact .refuse reason

theorem ite {condition : Prop} [Decidable condition] {yes no : Except Error α}
    (hyes : Reads expected yes) (hno : Reads expected no) :
    Reads expected (if condition then yes else no) := by
  split
  · exact hyes
  · exact hno

/-- Refusing under a condition and going on otherwise. -/
theorem guard {condition : Prop} [Decidable condition] {reason : String}
    {next : Unit → Except Error α} (hnext : Reads expected (next ())) :
    Reads expected (if condition then Plan.refuse reason >>= next else next ()) :=
  .ite (.refuse reason) hnext

end Plan.Reads

namespace Plan

theorem readType_reads (spec : Dict Value) : Reads (fun _ => True) (readType spec) := by
  unfold readType
  split
  · exact .refuse _
  · exact .reported _

theorem checkShape_reads (strict : Bool) (type : FetchType) (spec : Dict Value) :
    Reads (fun _ => True) (checkShape strict type spec) := by
  unfold checkShape
  exact .guard (.guard (.guard (.ite (.refuse _) (.ok trivial))))

theorem readShape_reads (strict : Bool) (spec : Dict Value) :
    Reads (fun _ => True) (readShape strict spec) :=
  .bind (readType_reads spec) fun type _ =>
    .bind (checkShape_reads strict type spec) fun _ _ => .ok trivial

theorem readMetadata_reads (spec : Dict Value) :
    Reads (fun plan => ∃ get aggregate, plan = .metadata get aggregate) (readMetadata spec) := by
  unfold readMetadata
  dsimp only
  split
  · refine .bind (.ok trivial : Reads (fun _ => True) _) fun aggregate _ => ?_
    split
    · exact .refuse _
    · exact .ok ⟨_, aggregate, rfl⟩
  · split
    · exact .refuse _
    · refine .bind (.reported _) fun aggregate _ => ?_
      split
      · exact .refuse _
      · exact .ok ⟨_, aggregate, rfl⟩

theorem readCluster_reads (spec : Dict Value) (data : Option Plan) :
    Reads (fun cluster => data = some cluster.2) (readCluster spec data) := by
  unfold readCluster
  split
  · exact .refuse _
  · exact .refuse _
  · exact .ok rfl

/-- The parts of a plan come from the data of the spec. -/
def PartsFrom (data : Option Plan) (entries : Option (List (String × Plan))) (plan : Plan) :
    Prop :=
  plan = .count ∨ (∃ get aggregate, plan = .metadata get aggregate) ∨
    (∃ property inner, data = some inner ∧
      (plan = .clusterList property inner ∨ plan = .clusterDict property inner)) ∨
    ∃ parts, entries = some parts ∧ plan = .organize parts

theorem assemble_reads (strict : Bool) (spec : Dict Value) (data : Option Plan)
    (entries : Option (List (String × Plan))) :
    Reads (PartsFrom data entries) (assemble strict spec data entries) := by
  refine .bind (readShape_reads strict spec) fun type _ => ?_
  cases type with
  | count => exact .ok (.inl rfl)
  | metadata =>
      have hread := readMetadata_reads spec
      exact ⟨hread.remote, fun plan hplan => .inr (.inl (hread.asExpected plan hplan))⟩
  | clusterList =>
      refine .bind (readCluster_reads spec data) fun cluster hdata => .ok ?_
      exact .inr (.inr (.inl ⟨cluster.1, cluster.2, hdata, .inl rfl⟩))
  | clusterDict =>
      refine .bind (readCluster_reads spec data) fun cluster hdata => .ok ?_
      exact .inr (.inr (.inl ⟨cluster.1, cluster.2, hdata, .inr rfl⟩))
  | organize =>
      dsimp only
      split
      · exact .refuse _
      · next parts => exact .ok (.inr (.inr (.inr ⟨parts, rfl, rfl⟩)))

mutual

/-- Every failing part of a spec fails with a remote error. -/
theorem isRemote_of_failsUnder (strict : Bool) : ∀ (spec : Value) (path : List String)
    (cause : Error), (ofValue strict spec).FailsUnder path cause → cause.IsRemote
  | .dict spec, path, cause, h => by
      rw [ofValue] at h
      have hreads := assemble_reads strict spec (ofData strict spec) (ofDataEntries strict spec)
      cases hread : assemble strict spec (ofData strict spec) (ofDataEntries strict spec) with
      | error refused =>
          rw [hread] at h
          cases h
          exact hreads.remote _ hread
      | ok plan =>
          rw [hread] at h
          rcases hreads.asExpected plan hread with rfl | ⟨get, aggregate, rfl⟩ |
            ⟨property, inner, hinner, rfl | rfl⟩ | ⟨parts, hparts, rfl⟩
          · cases h
          · cases h
          · cases h with
            | clusterList h => exact isRemote_of_ofData strict spec inner hinner _ _ h
          · cases h with
            | clusterDict h => exact isRemote_of_ofData strict spec inner hinner _ _ h
          · cases h with
            | organize hentry h =>
                exact isRemote_of_ofDataEntries strict spec parts hparts _ _ hentry _ _ h
  | .none, path, cause, h | .int _, path, cause, h | .float _, path, cause, h
  | .string _, path, cause, h | .binary _, path, cause, h | .list _, path, cause, h
  | .collection _, path, cause, h | .error _, path, cause, h => by
      cases h
      exact ⟨_, rfl⟩

theorem isRemote_of_ofData (strict : Bool) : ∀ (spec : List (String × Value)) (inner : Plan),
    ofData strict spec = some inner → ∀ path cause, inner.FailsUnder path cause → cause.IsRemote
  | [], inner, hinner, _, _, _ => nomatch hinner
  | (key, value) :: rest, inner, hinner, path, cause, h => by
      rw [ofData] at hinner
      split at hinner
      · obtain rfl := Option.some.inj hinner
        exact isRemote_of_failsUnder strict value path cause h
      · exact isRemote_of_ofData strict rest inner hinner path cause h

theorem isRemote_of_ofDataEntries (strict : Bool) : ∀ (spec : List (String × Value))
    (parts : List (String × Plan)), ofDataEntries strict spec = some parts →
      ∀ name part, (name, part) ∈ parts → ∀ path cause, part.FailsUnder path cause → cause.IsRemote
  | [], _, hparts, _, _, _, _, _, _ => nomatch hparts
  | (key, value) :: rest, parts, hparts, name, part, hpart, path, cause, h => by
      rw [ofDataEntries.eq_def] at hparts
      dsimp only at hparts
      split at hparts
      · cases value with
        | dict entries =>
            obtain rfl := Option.some.inj hparts
            exact isRemote_of_ofEntries strict entries name part hpart path cause h
        | _ => exact nomatch hparts
      · exact isRemote_of_ofDataEntries strict rest parts hparts name part hpart path cause h

theorem isRemote_of_ofEntries (strict : Bool) : ∀ (entries : List (String × Value)) (name : String)
    (part : Plan), (name, part) ∈ ofEntries strict entries →
      ∀ path cause, part.FailsUnder path cause → cause.IsRemote
  | [], _, _, hpart, _, _, _ => nomatch hpart
  | (key, value) :: rest, name, part, hpart, path, cause, h => by
      rw [ofEntries, List.mem_cons] at hpart
      rcases hpart with hpart | hpart
      · obtain ⟨rfl, rfl⟩ := Prod.mk.inj hpart
        exact isRemote_of_failsUnder strict value path cause h
      · exact isRemote_of_ofEntries strict rest name part hpart path cause h

end

end Plan

/-! ### Meeting a part -/

/-- Whatever fails in two steps fails in one of them. -/
theorem bind_error_cases {ε α β : Type} {first : Except ε α} {next : α → Except ε β} {cause : ε}
    (h : (first >>= next) = .error cause) :
    first = .error cause ∨ ∃ value, first = .ok value ∧ next value = .error cause := by
  cases first with
  | error other => exact .inl (congrArg _ (Except.error.inj h))
  | ok value => exact .inr ⟨value, rfl, h⟩

/-- An action on each of some items fails only where it fails on one of them. -/
theorem exists_mem_of_mapM_error {α β : Type} {step : α → Except Error β} {items : List α}
    {cause : Error} (h : items.mapM step = .error cause) :
    ∃ item ∈ items, step item = .error cause := by
  induction items with
  | nil => exact nomatch h
  | cons item rest ih =>
      rw [List.mapM_cons] at h
      rcases bind_error_cases h with hitem | ⟨_, -, h⟩
      · exact ⟨item, List.mem_cons_self, hitem⟩
      rcases bind_error_cases h with hrest | ⟨_, -, h⟩
      · obtain ⟨item', hmem, hitem'⟩ := ih hrest
        exact ⟨item', List.mem_cons_of_mem _ hmem, hitem'⟩
      · exact nomatch h

/-- An action that succeeds on each of some items together succeeded on every one. -/
theorem exists_ok_of_mapM_ok {α β : Type} {step : α → Except Error β} {items : List α}
    {results : List β} (h : items.mapM step = .ok results) :
    ∀ item ∈ items, ∃ result, step item = .ok result := by
  induction items generalizing results with
  | nil => exact List.forall_mem_nil _
  | cons item rest ih =>
      rw [List.mapM_cons] at h
      obtain ⟨result, hresult, h⟩ := exists_of_bind_ok h
      obtain ⟨others, hothers, -⟩ := exists_of_bind_ok h
      exact List.forall_mem_cons.mpr ⟨⟨result, hresult⟩, ih hothers⟩

namespace Catalog

variable {catalog : Catalog} {property : String} {ids : List Int64}

/-- Entries that are in some cluster of a property. -/
def Clusterable (catalog : Catalog) (property : String) (id : Int64) : Prop :=
  property = FetchSpec.byPosition ∨ property = FetchSpec.byId ∨
    (catalog.library.property? id property).isSome

theorem clusterable_iff (position : Nat) (id : Int64) :
    catalog.Clusterable property id ↔ (catalog.clusterKey? property position id).isSome := by
  unfold Clusterable clusterKey?
  split
  · next h => simp [h]
  · split
    · next h => simp [h]
    · next hposition hid => simp [hposition, hid]

/-- Whether some of the ids are left within clusters of all these properties. Outside of all
clusters that does not depend on the ids. -/
def Meets (catalog : Catalog) (path : List String) (ids : List Int64) : Prop :=
  path = [] ∨ ∃ id ∈ ids, ∀ property ∈ path, catalog.Clusterable property id

/-- A cluster has some of the ids, all of which can be clustered. -/
theorem members_of_cluster {key : String} {members : List Int64}
    (h : (key, members) ∈ catalog.clusters property ids) :
    members ≠ [] ∧ ∀ id ∈ members, id ∈ ids ∧ catalog.Clusterable property id := by
  rw [clusters, Groups.ofList_eq] at h
  obtain ⟨key', hkey, hsame⟩ := List.mem_map.mp h
  obtain ⟨rfl, rfl⟩ := Prod.mk.inj hsame
  constructor
  · obtain ⟨item, hitem, rfl⟩ := List.mem_map.mp (List.mem_eraseDups.mp hkey)
    exact List.ne_nil_of_mem (Groups.mem_membersOf.mpr hitem)
  · intro id hid
    obtain ⟨⟨id', position⟩, hplace, hkeyed⟩ :=
      List.mem_filterMap.mp (Groups.mem_membersOf.mp hid)
    obtain ⟨text, htext, hsame⟩ := Option.map_eq_some_iff.mp hkeyed
    obtain ⟨rfl, rfl⟩ := Prod.mk.inj hsame
    refine ⟨List.fst_mem_of_mem_zipIdx hplace, (clusterable_iff position _).mpr ?_⟩
    rw [htext]
    rfl

/-- Whatever can be clustered is in some cluster. -/
theorem exists_cluster {id : Int64} (hid : id ∈ ids) (h : catalog.Clusterable property id) :
    ∃ cluster ∈ catalog.clusters property ids, id ∈ cluster.2 := by
  obtain ⟨position, hplace⟩ : ∃ position, (id, position) ∈ ids.zipIdx := by
    rw [← List.zipIdx_map_fst 0 ids] at hid
    obtain ⟨⟨_, position⟩, hplace, rfl⟩ := List.mem_map.mp hid
    exact ⟨position, hplace⟩
  obtain ⟨key, hkey⟩ := Option.isSome_iff_exists.mp ((clusterable_iff position id).mp h)
  have hitem : (key, id) ∈ ids.zipIdx.filterMap fun item =>
      (catalog.clusterKey? property item.2 item.1).map (·, item.1) :=
    List.mem_filterMap.mpr ⟨(id, position), hplace, by simp [hkey]⟩
  rw [clusters, Groups.ofList_eq]
  exact ⟨_, List.mem_map_of_mem (List.mem_eraseDups.mpr (List.mem_map_of_mem hitem)),
    Groups.mem_membersOf.mpr hitem⟩

theorem meets_cons_iff {path : List String} : catalog.Meets (property :: path) ids ↔
    ∃ cluster ∈ catalog.clusters property ids, catalog.Meets path cluster.2 := by
  constructor
  · rintro (h | ⟨id, hid, hpath⟩)
    · exact nomatch h
    · rw [List.forall_mem_cons] at hpath
      obtain ⟨cluster, hcluster, hmember⟩ := exists_cluster hid hpath.1
      exact ⟨cluster, hcluster, .inr ⟨id, hmember, hpath.2⟩⟩
  · rintro ⟨⟨key, members⟩, hcluster, hmeets⟩
    obtain ⟨hne, hmembers⟩ := members_of_cluster hcluster
    rcases hmeets with rfl | ⟨id, hid, hpath⟩
    · obtain ⟨id, hid⟩ := List.exists_mem_of_ne_nil _ hne
      exact .inr ⟨id, (hmembers id hid).1, by simpa using (hmembers id hid).2⟩
    · exact .inr ⟨id, (hmembers id hid).1, List.forall_mem_cons.mpr ⟨(hmembers id hid).2, hpath⟩⟩

/-! ### Fetching -/

mutual

/-- A fetch fails only by a failing part that it meets. -/
theorem failsUnder_of_fetch (catalog : Catalog) : ∀ (plan : Plan) (ids : List Int64)
    (cause : Error), catalog.fetch plan ids = .error cause →
      ∃ path, plan.FailsUnder path cause ∧ catalog.Meets path ids
  | .fails _, ids, cause, h => ⟨[], Except.error.inj h ▸ .here _, .inl rfl⟩
  | .count, _, _, h => nomatch h
  | .metadata [] aggregate, ids, _, h => by
      rw [fetch] at h
      · exact nomatch h
      · simp
  | .metadata [property] aggregate, ids, _, h => by
      rw [fetch] at h
      exact nomatch h
  | .metadata (property :: other :: rest) aggregate, ids, _, h => by
      rw [fetch] at h
      · exact nomatch h
      · simp
  | .clusterList property data, ids, cause, h => by
      rw [fetch] at h
      rcases bind_error_cases h with h | ⟨_, -, h⟩
      · obtain ⟨cluster, hcluster, h⟩ := exists_mem_of_mapM_error h
        obtain ⟨path, hfails, hmeets⟩ := failsUnder_of_fetch catalog data cluster.2 cause h
        exact ⟨property :: path, .clusterList hfails,
          meets_cons_iff.mpr ⟨cluster, hcluster, hmeets⟩⟩
      · exact nomatch h
  | .clusterDict property data, ids, cause, h => by
      rw [fetch] at h
      rcases bind_error_cases h with h | ⟨_, -, h⟩
      · obtain ⟨cluster, hcluster, h⟩ := exists_mem_of_mapM_error h
        rcases bind_error_cases h with h | ⟨_, -, h⟩
        · obtain ⟨path, hfails, hmeets⟩ := failsUnder_of_fetch catalog data cluster.2 cause h
          exact ⟨property :: path, .clusterDict hfails,
            meets_cons_iff.mpr ⟨cluster, hcluster, hmeets⟩⟩
        · exact nomatch h
      · exact nomatch h
  | .organize entries, ids, cause, h => by
      rw [fetch] at h
      rcases bind_error_cases h with h | ⟨_, -, h⟩
      · obtain ⟨name, plan, path, hentry, hfails, hmeets⟩ :=
          failsUnder_of_fetchEntries catalog entries ids cause h
        exact ⟨path, .organize hentry hfails, hmeets⟩
      · exact nomatch h

theorem failsUnder_of_fetchEntries (catalog : Catalog) : ∀ (entries : List (String × Plan))
    (ids : List Int64) (cause : Error), catalog.fetchEntries entries ids = .error cause →
      ∃ name plan path, (name, plan) ∈ entries ∧ plan.FailsUnder path cause ∧
        catalog.Meets path ids
  | [], _, _, h => nomatch h
  | (name, plan) :: rest, ids, cause, h => by
      rw [fetchEntries] at h
      rcases bind_error_cases h with h | ⟨_, -, h⟩
      · obtain ⟨path, hfails, hmeets⟩ := failsUnder_of_fetch catalog plan ids cause h
        exact ⟨name, plan, path, List.mem_cons_self, hfails, hmeets⟩
      rcases bind_error_cases h with h | ⟨_, -, h⟩
      · obtain ⟨name', plan', path, hentry, hfails, hmeets⟩ :=
          failsUnder_of_fetchEntries catalog rest ids cause h
        exact ⟨name', plan', path, List.mem_cons_of_mem _ hentry, hfails, hmeets⟩
      · exact nomatch h

end

/-- Entries can only be fetched together if each of them can. -/
theorem exists_ok_of_fetchEntries {entries : List (String × Plan)} {results : List (String × Value)}
    (h : catalog.fetchEntries entries ids = .ok results) :
    ∀ entry ∈ entries, ∃ answer, catalog.fetch entry.2 ids = .ok answer := by
  induction entries generalizing results with
  | nil => exact List.forall_mem_nil _
  | cons entry rest ih =>
      rw [fetchEntries] at h
      obtain ⟨answer, hanswer, h⟩ := exists_of_bind_ok h
      obtain ⟨others, hothers, -⟩ := exists_of_bind_ok h
      exact List.forall_mem_cons.mpr ⟨⟨answer, hanswer⟩, ih hothers⟩

/-- A fetch does not succeed if it meets a failing part. -/
theorem fetch_ne_ok_of_failsUnder {plan : Plan} {path : List String} {cause : Error}
    (h : plan.FailsUnder path cause) (hmeets : catalog.Meets path ids) (answer : Value) :
    catalog.fetch plan ids ≠ .ok answer := by
  induction h generalizing ids answer with
  | here cause => exact nofun
  | clusterList h ih =>
      intro hok
      obtain ⟨cluster, hcluster, hmeets⟩ := meets_cons_iff.mp hmeets
      rw [fetch] at hok
      obtain ⟨results, hresults, -⟩ := exists_of_bind_ok hok
      obtain ⟨result, hresult⟩ := exists_ok_of_mapM_ok hresults cluster hcluster
      exact ih hmeets result hresult
  | clusterDict h ih =>
      intro hok
      obtain ⟨cluster, hcluster, hmeets⟩ := meets_cons_iff.mp hmeets
      rw [fetch] at hok
      obtain ⟨results, hresults, -⟩ := exists_of_bind_ok hok
      obtain ⟨result, hresult⟩ := exists_ok_of_mapM_ok hresults cluster hcluster
      obtain ⟨answer', hanswer', -⟩ := exists_of_bind_ok hresult
      exact ih hmeets answer' hanswer'
  | organize hentry h ih =>
      intro hok
      rw [fetch] at hok
      obtain ⟨results, hresults, -⟩ := exists_of_bind_ok hok
      obtain ⟨answer', hanswer'⟩ := exists_ok_of_fetchEntries hresults _ hentry
      exact ih hmeets answer' hanswer'

/-- Any properties can be those of an entry. -/
theorem exists_meets (path : List String) :
    ∃ (catalog : Catalog) (ids : List Int64), catalog.Meets path ids := by
  let entry : Dict Value := Dict.ofEntries (path.map fun property => (property, .int 0))
  let library : Library :=
    { entries := ({} : Std.TreeMap Int64 (Dict Value)).insert 1 entry, nextId := 2 }
  refine ⟨{ library, store := .empty, seed := 0 }, [1], .inr ⟨1, List.mem_singleton_self _, ?_⟩⟩
  intro property hproperty
  have hentry : library.entries[(1 : Int64)]? = some entry := Std.TreeMap.getElem?_insert_self
  have hfound : (Dict.find? entry property).isSome := by
    rw [Dict.isSome_find?_iff, Dict.keys_ofEntries, List.mem_eraseDups, List.map_map]
    exact List.mem_map.mpr ⟨property, hproperty, rfl⟩
  refine .inr (.inr ?_)
  simp only [Library.property?, hentry]
  split
  · rfl
  · exact hfound

/-- A spec is answered for some ids. -/
def Accepts (catalog : Catalog) (strict : Bool) (spec : Value) (ids : List Int64) : Prop :=
  ∃ answer, catalog.fetch (Plan.ofValue strict spec) ids = .ok answer

theorem accepts_iff_meets {strict : Bool} {spec : Value} : catalog.Accepts strict spec ids ↔
    ∀ path cause, (Plan.ofValue strict spec).FailsUnder path cause → ¬ catalog.Meets path ids := by
  constructor
  · rintro ⟨answer, hanswer⟩ path cause hfails hmeets
    exact fetch_ne_ok_of_failsUnder hfails hmeets answer hanswer
  · intro h
    cases hfetch : catalog.fetch (Plan.ofValue strict spec) ids with
    | ok answer => exact ⟨answer, hfetch⟩
    | error cause =>
        obtain ⟨path, hfails, hmeets⟩ := failsUnder_of_fetch catalog _ ids cause hfetch
        exact absurd hmeets (h path cause hfails)

/-- A spec is refused exactly where a failing part of it is met, and always with a remote error.
Whether that depends on the library and the ids is decided by the spec alone: it does not exactly
if, in a spec with a failing part, some part fails outside of all clusters. -/
theorem accepts_iff (strict : Bool) (spec : Value) :
    (∀ (catalog : Catalog) (ids : List Int64),
      (catalog.Accepts strict spec ids ↔ ∀ path cause,
        (Plan.ofValue strict spec).FailsUnder path cause → ¬ catalog.Meets path ids) ∧
      (¬ catalog.Accepts strict spec ids → ∃ reason,
        catalog.fetch (Plan.ofValue strict spec) ids = .error (.remote reason))) ∧
    ((∀ (catalog catalog' : Catalog) (ids ids' : List Int64),
        catalog.Accepts strict spec ids ↔ catalog'.Accepts strict spec ids') ↔
      ∀ path cause, (Plan.ofValue strict spec).FailsUnder path cause →
        ∃ outer, (Plan.ofValue strict spec).FailsUnder [] outer) := by
  refine ⟨fun catalog ids => ⟨accepts_iff_meets, fun hrefused => ?_⟩, ?_, ?_⟩
  · cases hfetch : catalog.fetch (Plan.ofValue strict spec) ids with
    | ok answer => exact absurd ⟨answer, hfetch⟩ hrefused
    | error cause =>
        obtain ⟨path, hfails, -⟩ := failsUnder_of_fetch catalog _ ids cause hfetch
        obtain ⟨reason, rfl⟩ := Plan.isRemote_of_failsUnder strict spec path cause hfails
        exact ⟨reason, rfl⟩
  · intro hsame path cause hfails
    obtain ⟨catalog, ids, hmeets⟩ := exists_meets path
    have hrefused : ¬ catalog.Accepts strict spec [] := fun haccepts =>
      accepts_iff_meets.mp ((hsame _ catalog _ ids).mp haccepts) path cause hfails hmeets
    -- Over no ids only a part outside of all clusters is met.
    simp only [accepts_iff_meets, not_forall, not_not] at hrefused
    obtain ⟨path', outer, houter, rfl | ⟨id, hid, -⟩⟩ := hrefused
    · exact ⟨outer, houter⟩
    · exact nomatch hid
  · intro houtside catalog catalog' ids ids'
    have haccepts (catalog : Catalog) (ids : List Int64) : catalog.Accepts strict spec ids ↔
        ∀ path cause, ¬ (Plan.ofValue strict spec).FailsUnder path cause := by
      rw [accepts_iff_meets]
      constructor
      · intro h path cause hfails
        obtain ⟨outer, houter⟩ := houtside path cause hfails
        exact h [] outer houter (.inl rfl)
      · exact fun h path cause hfails => absurd hfails (h path cause)
    rw [haccepts, haccepts]

/-- For each id a value of no property at all. -/
def blank : Value := (FetchSpec.clusterList FetchSpec.byId (.metadata [] .first)).toValue

/-- A catalog with one entry. -/
def single : Catalog where
  library := (Library.empty.add [("title", .string "a")]).2
  store := .empty
  seed := 0

/-- A failing part within clusters is refused over the entry, and passed over where there are no
ids. -/
theorem accepts_blank :
    single.Accepts true blank [] ∧ ¬ single.Accepts true blank [1] ∧
      single.fetch (Plan.ofValue true blank) [] = .ok (.list []) ∧
      single.fetch (Plan.ofValue true blank) [1] =
        .error (.remote "metadata fetch needs a non-empty get list") := by
  have hnone : single.fetch (Plan.ofValue true blank) [] = .ok (.list []) := rfl
  have hone : single.fetch (Plan.ofValue true blank) [1] =
      .error (.remote "metadata fetch needs a non-empty get list") := rfl
  refine ⟨⟨_, hnone⟩, ?_, hnone, hone⟩
  rintro ⟨answer, hanswer⟩
  exact nomatch hone.symm.trans hanswer

end Catalog

end MediaCatalog
