import MediaCatalog.Proofs.Fetch.Choosing
import Mathlib.Data.List.Forall2
import Mathlib.Data.Option.Defs

/-!
Strict and lenient reading. The two readings of a spec differ only at a key that the type of some
part has no use for: the strict one refuses the part, the lenient one passes the key over. Parts are
reached in the same order either way, so a strict fetch does what the lenient one does, or stops at
the first such key that it reaches.
-/

namespace MediaCatalog

/-- An error that refuses a key which a type has no use for. -/
inductive Error.RefusesKey : Error → Prop where
  | get {type : FetchType} (h : type ≠ .metadata) :
      RefusesKey (.remote ("get is only valid for metadata, not " ++ type.name))
  | clusterBy {type : FetchType} (h : type.isCluster = false) :
      RefusesKey (.remote ("cluster-by is not valid for " ++ type.name))

/-! ### Narrower results -/

/-- A result is the wider one, or it refuses a key. -/
def Narrows {α : Type} (result wider : Except Error α) : Prop :=
  result = wider ∨ ∃ cause, cause.RefusesKey ∧ result = .error cause

namespace Narrows

variable {σ α β : Type}

theorem refl (result : Except Error α) : Narrows result result := .inl rfl

theorem refuses {cause : Error} (h : cause.RefusesKey) (wider : Except Error α) :
    Narrows (.error cause) wider :=
  .inr ⟨cause, h, rfl⟩

theorem bind {result wider : Except Error α} {next widerNext : α → Except Error β}
    (h : Narrows result wider) (hnext : ∀ value, Narrows (next value) (widerNext value)) :
    Narrows (result >>= next) (wider >>= widerNext) := by
  rcases h with rfl | ⟨cause, hcause, rfl⟩
  · cases result with
    | error cause => exact refl _
    | ok value => exact hnext value
  · exact refuses hcause _

theorem ite {condition : Prop} [Decidable condition] {yes widerYes no widerNo : Except Error α}
    (hyes : Narrows yes widerYes) (hno : Narrows no widerNo) :
    Narrows (if condition then yes else no) (if condition then widerYes else widerNo) := by
  split
  · exact hyes
  · exact hno

/-- Actions on some items, one after the other. -/
theorem mapM {step widerStep : α → StateT σ (Except Error) β}
    (h : ∀ item source, Narrows (step item source) (widerStep item source)) (items : List α)
    (source : σ) : Narrows (items.mapM step source) (items.mapM widerStep source) := by
  induction items generalizing source with
  | nil => exact refl _
  | cons item rest ih =>
      rw [List.mapM_cons, List.mapM_cons]
      exact (h item source).bind fun result => (ih result.2).bind fun results => refl _

/-- Where the narrower result is a value it is that of the wider one. -/
theorem eq_ok {result wider : Except Error α} {value : α} (h : Narrows result wider)
    (hok : result = .ok value) : wider = .ok value := by
  rcases h with rfl | ⟨cause, -, rfl⟩
  · exact hok
  · cases hok

end Narrows

/-! ### Narrower plans -/

namespace Plan

/-- With whatever a plan is carried out, the result is that of another one or it refuses a key. -/
def Narrows (plan wider : Plan) : Prop :=
  ∀ (σ : Type) (chooser : Chooser σ) (catalog : Catalog) (ids : List Int64) (source : σ),
    MediaCatalog.Narrows (catalog.gather chooser plan ids source)
      (catalog.gather chooser wider ids source)

/-- Named plans, each narrower than the other one of its name. -/
abbrev NarrowsEntries : List (String × Plan) → List (String × Plan) → Prop :=
  List.Forall₂ fun entry wider => entry.1 = wider.1 ∧ entry.2.Narrows wider.2

namespace Narrows

variable {plan wider : Plan}

theorem refl (plan : Plan) : plan.Narrows plan := fun _ _ _ _ _ => .refl _

theorem fails {cause : Error} (h : cause.RefusesKey) (wider : Plan) :
    (Plan.fails cause).Narrows wider :=
  fun _ _ _ _ _ => .refuses h _

theorem clusterList (property : String) (h : plan.Narrows wider) :
    (Plan.clusterList property plan).Narrows (.clusterList property wider) := by
  intro σ chooser catalog ids source
  rw [Catalog.gather, Catalog.gather]
  refine .bind (.mapM (fun cluster source => ?_) _ source) fun results => .refl _
  exact h σ chooser catalog cluster.2 source

theorem clusterDict (property : String) (h : plan.Narrows wider) :
    (Plan.clusterDict property plan).Narrows (.clusterDict property wider) := by
  intro σ chooser catalog ids source
  rw [Catalog.gather, Catalog.gather]
  refine .bind (.mapM (fun cluster source => ?_) _ source) fun results => .refl _
  exact .bind (h σ chooser catalog cluster.2 source) fun answer => .refl _

theorem organize {entries widerEntries : List (String × Plan)}
    (h : NarrowsEntries entries widerEntries) :
    (Plan.organize entries).Narrows (.organize widerEntries) := by
  intro σ chooser catalog ids source
  rw [Catalog.gather, Catalog.gather]
  refine .bind ?_ fun results => .refl _
  induction h generalizing source with
  | nil => exact .refl _
  | @cons entry widerEntry rest widerRest hentry _ ih =>
      obtain ⟨name, plan⟩ := entry
      obtain ⟨widerName, wider⟩ := widerEntry
      obtain ⟨rfl, hplan⟩ := hentry
      rw [Catalog.gatherEntries, Catalog.gatherEntries]
      exact .bind (hplan σ chooser catalog ids source) fun value =>
        .bind (ih value.2) fun others => .refl _

end Narrows

/-! ### Both readings -/

theorem checkShape_narrows (type : FetchType) (spec : Dict Value) :
    MediaCatalog.Narrows (checkShape true type spec) (checkShape false type spec) := by
  unfold checkShape
  dsimp only
  -- What the type needs is checked in the same way; the other two checks are for strict reading.
  refine .ite (.refl _) (.ite (.refl _) ?_)
  simp only [Bool.false_eq_true, false_and, if_false]
  split
  · next h => exact .refuses (.get h.2.1) _
  · split
    · next h => exact .refuses (.clusterBy (by simpa using h.2.1)) _
    · exact .refl _

theorem readShape_narrows (spec : Dict Value) :
    MediaCatalog.Narrows (readShape true spec) (readShape false spec) :=
  .bind (.refl _) fun type => .bind (checkShape_narrows type spec) fun _ => .refl _

/-- A plan for clusters is narrower if the plan for each cluster is. -/
theorem readCluster_narrows {make : String → Plan → Plan}
    (hmake : ∀ {plan wider : Plan} (property : String), plan.Narrows wider →
      (make property plan).Narrows (make property wider))
    (spec : Dict Value) {data widerData : Option Plan}
    (hdata : Option.Rel Narrows data widerData) :
    (ofExcept (readCluster spec data >>= fun cluster => return make cluster.1 cluster.2)).Narrows
      (ofExcept
        (readCluster spec widerData >>= fun cluster => return make cluster.1 cluster.2)) := by
  unfold readCluster
  cases (Dict.find? spec FetchSpec.Key.clusterBy).bind Value.string? with
  | none => exact .refl _
  | some property =>
      cases hdata with
      | none => exact .refl _
      | some hdata => exact hmake property hdata

theorem assemble_narrows (spec : Dict Value) {data widerData : Option Plan}
    {entries widerEntries : Option (List (String × Plan))}
    (hdata : Option.Rel Narrows data widerData)
    (hentries : Option.Rel NarrowsEntries entries widerEntries) :
    (ofExcept (assemble true spec data entries)).Narrows
      (ofExcept (assemble false spec widerData widerEntries)) := by
  simp only [assemble]
  rcases readShape_narrows spec with hsame | ⟨cause, hcause, hrefused⟩
  · rw [hsame]
    cases readShape false spec with
    | error cause => exact .refl _
    | ok type =>
        cases type with
        | count => exact .refl _
        | metadata => exact .refl _
        | clusterList => exact readCluster_narrows .clusterList spec hdata
        | clusterDict => exact readCluster_narrows .clusterDict spec hdata
        | organize =>
            cases hentries with
            | none => exact .refl _
            | some hentries => exact .organize hentries
  · rw [hrefused]
    exact .fails hcause _

mutual

/-- A spec read strictly is narrower than the same spec read leniently. -/
theorem ofValue_narrows : ∀ spec : Value, (ofValue true spec).Narrows (ofValue false spec)
  | .dict spec => by
      rw [ofValue, ofValue]
      exact assemble_narrows spec (ofData_narrows spec) (ofDataEntries_narrows spec)
  | .none | .int _ | .float _ | .string _ | .binary _ | .list _ | .collection _ | .error _ =>
      .refl _

theorem ofData_narrows : ∀ spec : List (String × Value),
    Option.Rel Narrows (ofData true spec) (ofData false spec)
  | [] => .none
  | (key, value) :: rest => by
      rw [ofData, ofData]
      split
      · exact .some (ofValue_narrows value)
      · exact ofData_narrows rest

theorem ofDataEntries_narrows : ∀ spec : List (String × Value),
    Option.Rel NarrowsEntries (ofDataEntries true spec) (ofDataEntries false spec)
  | [] => .none
  | (key, value) :: rest => by
      rw [ofDataEntries.eq_def, ofDataEntries.eq_def]
      dsimp only
      split
      · cases value with
        | dict entries => exact .some (ofEntries_narrows entries)
        | _ => exact .none
      · exact ofDataEntries_narrows rest

theorem ofEntries_narrows : ∀ entries : List (String × Value),
    NarrowsEntries (ofEntries true entries) (ofEntries false entries)
  | [] => .nil
  | (_, value) :: rest => .cons ⟨rfl, ofValue_narrows value⟩ (ofEntries_narrows rest)

end

end Plan

/-! ### Fetching in both readings -/

namespace Catalog

theorem fetch_narrows (catalog : Catalog) (ids : List Int64) (spec : Value) :
    Narrows (catalog.fetch (.ofValue true spec) ids) (catalog.fetch (.ofValue false spec) ids) := by
  have hseeded := Plan.ofValue_narrows spec UInt64 .seeded catalog ids catalog.seed
  rw [gather_seeded, gather_seeded] at hseeded
  -- The source does not change, so nothing is lost by leaving it out.
  have hanswer := hseeded.bind fun result => .refl (.ok result.1)
  have hfirst (result : Except Error Value) :
      (result.map (·, catalog.seed) >>= fun result => .ok result.1) = result := by
    cases result <;> rfl
  rwa [hfirst, hfirst] at hanswer

/-- Lenient fetching only extends strict fetching. What a spec is answered strictly it is answered
leniently too, and where it fails leniently it fails strictly, by the same error or sooner. Where
only the strict fetch fails, it refuses a key that some type has no use for. The same holds of
fetches that take random values from one source of choice. -/
theorem lenient_extends_strict (catalog : Catalog) (ids : List Int64) (spec : Value) :
    (∀ answer, catalog.fetch (.ofValue true spec) ids = .ok answer →
      catalog.fetch (.ofValue false spec) ids = .ok answer) ∧
    (∀ cause, catalog.fetch (.ofValue false spec) ids = .error cause →
      ∃ cause', catalog.fetch (.ofValue true spec) ids = .error cause' ∧
        (cause' = cause ∨ cause'.RefusesKey)) ∧
    (∀ cause answer, catalog.fetch (.ofValue true spec) ids = .error cause →
      catalog.fetch (.ofValue false spec) ids = .ok answer → cause.RefusesKey) ∧
    ∀ (σ : Type) (chooser : Chooser σ) (source : σ),
      Narrows (catalog.gather chooser (.ofValue true spec) ids source)
        (catalog.gather chooser (.ofValue false spec) ids source) := by
  have hnarrows := fetch_narrows catalog ids spec
  refine ⟨fun answer => hnarrows.eq_ok, ?_, ?_, fun σ chooser source =>
    Plan.ofValue_narrows spec σ chooser catalog ids source⟩
  · intro cause hcause
    rcases hnarrows with hsame | ⟨refused, hrefused, hstrict⟩
    · exact ⟨cause, hsame.trans hcause, .inl rfl⟩
    · exact ⟨refused, hstrict, .inr hrefused⟩
  · intro cause answer hcause hanswer
    rcases hnarrows with hsame | ⟨refused, hrefused, hstrict⟩
    · cases (hsame.symm.trans hcause).symm.trans hanswer
    · cases hstrict.symm.trans hcause
      exact hrefused

/-- How often each id comes, with properties that nobody asked for. -/
def spare : Value := .dict [("type", .string "cluster-dict"), ("cluster-by", .string "id"),
  ("data", .dict [("type", .string "count"), ("get", .list [.string "title"])])]

/-- The key is refused only where some id leads to it. -/
theorem lenient_extends_strict_spare :
    let catalog : Catalog := default
    catalog.fetch (.ofValue true spare) [] = .ok (.dict []) ∧
      catalog.fetch (.ofValue false spare) [] = .ok (.dict []) ∧
      catalog.fetch (.ofValue true spare) [7, 5, 7] =
        .error (.remote "get is only valid for metadata, not count") ∧
      catalog.fetch (.ofValue false spare) [7, 5, 7] =
        .ok (.dict [("7", .int 2), ("5", .int 1)]) ∧
      (Error.remote "get is only valid for metadata, not count").RefusesKey := by
  have hnone : Catalog.fetch default (.ofValue true spare) [] = .ok (.dict []) := rfl
  have hstrict : Catalog.fetch default (.ofValue true spare) [7, 5, 7] =
      .error (.remote "get is only valid for metadata, not count") := rfl
  have hlenient : Catalog.fetch default (.ofValue false spare) [7, 5, 7] =
      .ok (.dict [("7", .int 2), ("5", .int 1)]) := rfl
  exact ⟨hnone, (lenient_extends_strict default [] spare).1 _ hnone, hstrict, hlenient,
    (lenient_extends_strict default [7, 5, 7] spare).2.2.1 _ _ hstrict hlenient⟩

end Catalog

end MediaCatalog
