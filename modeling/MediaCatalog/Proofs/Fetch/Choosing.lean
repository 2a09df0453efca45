import MediaCatalog.Fetch.Run

/-!
Fetching with a source of choice. Where a random value is asked for, a source takes one of the
values and goes on to the next choice from what it has become. Of the source only this is known:
it takes a value that is there. Fetching as it is defined is the case of a source that is fixed by
the seed, and a plan that asks for no random value is the same for every source.
-/

namespace MediaCatalog

/-- A source of choice: the value that it takes, and what becomes of itself. -/
structure Chooser (σ : Type) where
  choose : List Value → StateM σ Value
  mem {values : List Value} (hvalues : values ≠ []) (source : σ) :
    (choose values source).1 ∈ values

/-- The source that a seed stands for. It never changes. -/
def Chooser.seeded : Chooser UInt64 where
  choose values seed := ((Chance.pick? seed values).getD .none, seed)
  mem {values} hvalues seed := by
    have hlt : (Chance.draw seed values.length).toNat % values.length < values.length :=
      Nat.mod_lt _ (List.length_pos_iff.mpr hvalues)
    simp [Chance.pick?, List.getElem?_eq_getElem hlt]

/-- An aggregate that some part of a plan asks for. -/
inductive Plan.Asks : Plan → Aggregate → Prop where
  | metadata (get : List String) (aggregate : Aggregate) : Asks (.metadata get aggregate) aggregate
  | clusterList {property : String} {data : Plan} {aggregate : Aggregate}
      (h : Asks data aggregate) : Asks (.clusterList property data) aggregate
  | clusterDict {property : String} {data : Plan} {aggregate : Aggregate}
      (h : Asks data aggregate) : Asks (.clusterDict property data) aggregate
  | organize {entries : List (String × Plan)} {name : String} {plan : Plan}
      {aggregate : Aggregate} (hentry : (name, plan) ∈ entries) (h : Asks plan aggregate) :
      Asks (.organize entries) aggregate

namespace Catalog

variable {σ : Type}

/-- An aggregate of a property over ids, a random one by choice. -/
def gatherOne (chooser : Chooser σ) (catalog : Catalog) (ids : List Int64) (property : String)
    (aggregate : Aggregate) : StateM σ Value :=
  let values := ids.filterMap (catalog.library.property? · property)
  if aggregate = .random ∧ !values.isEmpty then chooser.choose values
  else return catalog.aggregate ids property aggregate

/-- Properties by name, without those whose aggregate is none. -/
def gatherRecord (chooser : Chooser σ) (catalog : Catalog) (ids : List Int64)
    (properties : List String) (aggregate : Aggregate) : StateM σ (Dict Value) :=
  properties.foldlM
    (fun row property => do
      let value ← catalog.gatherOne chooser ids property aggregate
      return if value.isNone then row else Dict.insert row property value)
    []

mutual

/-- What a plan retrieves for ids. Its parts choose one after the other. -/
def gather (chooser : Chooser σ) (catalog : Catalog) :
    Plan → List Int64 → StateT σ (Except Error) Value
  | .fails cause, _ => fun _ => .error cause
  | .count, ids => return .int (Int64.ofNat ids.length)
  | .metadata [property] aggregate, ids => fun source =>
    .ok (catalog.gatherOne chooser ids property aggregate source)
  | .metadata properties aggregate, ids => do
    let row ← fun source => .ok (catalog.gatherRecord chooser ids properties aggregate source)
    return .dict row
  | .clusterList property data, ids => do
    let results ← (catalog.clusters property ids).mapM fun (_, members) =>
      gather chooser catalog data members
    return .list results
  | .clusterDict property data, ids => do
    let results ← (catalog.clusters property ids).mapM fun (key, members) =>
      return (key, ← gather chooser catalog data members)
    return .dict (Dict.ofEntries results)
  | .organize entries, ids => do
    return .dict (Dict.ofEntries (← gatherEntries chooser catalog entries ids))

/-- What each of several named plans retrieves. -/
def gatherEntries (chooser : Chooser σ) (catalog : Catalog) :
    List (String × Plan) → List Int64 → StateT σ (Except Error) (List (String × Value))
  | [], _ => return []
  | (name, plan) :: rest, ids => do
    let value ← gather chooser catalog plan ids
    return (name, value) :: (← gatherEntries chooser catalog rest ids)

end

/-! ### Without choice -/

/-- Nothing is chosen for an aggregate: it is the one that is defined, and the source stays. -/
def Still (chooser : Chooser σ) (catalog : Catalog) (source : σ) (aggregate : Aggregate) : Prop :=
  ∀ ids property, catalog.gatherOne chooser ids property aggregate source =
    (catalog.aggregate ids property aggregate, source)

variable {chooser : Chooser σ} {catalog : Catalog} {source : σ} {aggregate : Aggregate}

theorem still_of_ne_random (h : aggregate ≠ .random) : catalog.Still chooser source aggregate := by
  intro ids property
  simp only [gatherOne, h, false_and, if_false]
  rfl

theorem still_seeded (catalog : Catalog) (aggregate : Aggregate) :
    catalog.Still .seeded catalog.seed aggregate := by
  by_cases hrandom : aggregate = .random
  · subst hrandom
    intro ids property
    simp only [gatherOne, Catalog.aggregate]
    cases ids.filterMap (catalog.library.property? · property) <;> rfl
  · exact still_of_ne_random hrandom

theorem gatherRecord_of_still (h : catalog.Still chooser source aggregate) (ids : List Int64)
    (properties : List String) :
    catalog.gatherRecord chooser ids properties aggregate source =
      (catalog.record ids properties aggregate, source) := by
  unfold gatherRecord record
  generalize ([] : Dict Value) = row
  induction properties generalizing row with
  | nil => rfl
  | cons property rest ih =>
      rw [List.foldlM_cons, List.foldl_cons, ← ih]
      simp only [bind, StateT.bind, h ids property]
      rfl

end Catalog

/-- An action leaves the source as it is and comes to what a plain one does. -/
def Undrawn {σ α : Type} (source : σ) (action : StateT σ (Except Error) α)
    (plain : Except Error α) : Prop :=
  action source = plain.map (·, source)

namespace Undrawn

variable {σ α β : Type} {source : σ}

/-- If the action succeeds, so does the plain one. -/
theorem plain_eq {action : StateT σ (Except Error) α} {plain : Except Error α} {value : α}
    {rest : σ} (h : Undrawn source action plain) (hrun : action source = .ok (value, rest)) :
    plain = .ok value := by
  rw [h] at hrun
  cases plain with
  | error cause => exact nomatch hrun
  | ok result => exact congrArg _ (Prod.mk.inj (Except.ok.inj hrun)).1

theorem pure (value : α) : Undrawn source (return value) (return value) := rfl

theorem bind {action : StateT σ (Except Error) α} {plain : Except Error α}
    {next : α → StateT σ (Except Error) β} {plainNext : α → Except Error β}
    (h : Undrawn source action plain)
    (hnext : ∀ value, Undrawn source (next value) (plainNext value)) :
    Undrawn source (action >>= next) (plain >>= plainNext) := by
  unfold Undrawn at *
  simp only [Bind.bind, StateT.bind, h]
  cases plain with
  | error cause => rfl
  | ok value => exact hnext value

theorem mapM {action : α → StateT σ (Except Error) β} {plain : α → Except Error β}
    (h : ∀ item, Undrawn source (action item) (plain item)) (items : List α) :
    Undrawn source (items.mapM action) (items.mapM plain) := by
  induction items with
  | nil => exact pure []
  | cons item rest ih =>
      rw [List.mapM_cons, List.mapM_cons]
      exact (h item).bind fun result => ih.bind fun results => pure (result :: results)

end Undrawn

namespace Catalog

variable {σ : Type}

mutual

/-- Where nothing is chosen, fetching is all that happens. -/
theorem gather_undrawn (chooser : Chooser σ) (catalog : Catalog) (source : σ) :
    ∀ (plan : Plan) (ids : List Int64),
      (∀ aggregate, plan.Asks aggregate → catalog.Still chooser source aggregate) →
        Undrawn source (catalog.gather chooser plan ids) (catalog.fetch plan ids)
  | .fails _, _, _ => rfl
  | .count, _, _ => rfl
  | .metadata [] aggregate, ids, h => by
      have hrecord := gatherRecord_of_still (h aggregate (.metadata _ _)) ids []
      rw [gather, fetch]
      · exact congrArg (fun drawn => Except.ok (Value.dict drawn.1, drawn.2)) hrecord
      · simp
      · simp
  | .metadata [property] aggregate, ids, h => by
      rw [gather, fetch]
      exact congrArg _ (h aggregate (.metadata _ _) ids property)
  | .metadata (property :: other :: rest) aggregate, ids, h => by
      have hrecord := gatherRecord_of_still (h aggregate (.metadata _ _)) ids
        (property :: other :: rest)
      rw [gather, fetch]
      · exact congrArg (fun drawn => Except.ok (Value.dict drawn.1, drawn.2)) hrecord
      · simp
      · simp
  | .clusterList property data, ids, h => by
      rw [gather, fetch]
      refine .bind (.mapM (fun cluster => ?_) _) fun results => .pure _
      exact gather_undrawn chooser catalog source data cluster.2
        fun aggregate hasks => h aggregate (.clusterList hasks)
  | .clusterDict property data, ids, h => by
      rw [gather, fetch]
      refine .bind (.mapM (fun cluster => .bind ?_ fun answer => .pure _) _) fun results => .pure _
      exact gather_undrawn chooser catalog source data cluster.2
        fun aggregate hasks => h aggregate (.clusterDict hasks)
  | .organize entries, ids, h => by
      rw [gather, fetch]
      refine .bind ?_ fun results => .pure _
      exact gatherEntries_undrawn chooser catalog source entries ids
        fun name plan hentry aggregate hasks => h aggregate (.organize hentry hasks)

theorem gatherEntries_undrawn (chooser : Chooser σ) (catalog : Catalog) (source : σ) :
    ∀ (entries : List (String × Plan)) (ids : List Int64),
      (∀ name plan, (name, plan) ∈ entries → ∀ aggregate, plan.Asks aggregate →
        catalog.Still chooser source aggregate) →
        Undrawn source (catalog.gatherEntries chooser entries ids)
          (catalog.fetchEntries entries ids)
  | [], _, _ => rfl
  | (name, plan) :: rest, ids, h => by
      rw [gatherEntries, fetchEntries]
      refine .bind ?_ fun value => .bind ?_ fun others => .pure _
      · exact gather_undrawn chooser catalog source plan ids (h name plan List.mem_cons_self)
      · exact gatherEntries_undrawn chooser catalog source rest ids
          fun name plan hentry => h name plan (List.mem_cons_of_mem _ hentry)

end

/-- Choosing from the seeded source is fetching. -/
theorem gather_seeded (catalog : Catalog) (plan : Plan) (ids : List Int64) :
    Undrawn catalog.seed (catalog.gather .seeded plan ids) (catalog.fetch plan ids) :=
  gather_undrawn .seeded catalog catalog.seed plan ids fun aggregate _ =>
    still_seeded catalog aggregate

/-- A plan that asks for no random value retrieves the same with every source. -/
theorem gather_of_not_asks {plan : Plan} (h : ¬ plan.Asks .random) (chooser : Chooser σ)
    (catalog : Catalog) (ids : List Int64) (source : σ) :
    Undrawn source (catalog.gather chooser plan ids) (catalog.fetch plan ids) :=
  gather_undrawn chooser catalog source plan ids fun _ hasks =>
    still_of_ne_random fun hrandom => h (hrandom ▸ hasks)

end Catalog

end MediaCatalog
