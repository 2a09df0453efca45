import Mathlib.Algebra.GroupWithZero.Nat
import MediaCatalog.Proofs.Server.Queries

/-!
Pages of ids. A client pages through an ordered collection by asking for equally long pages one
after another. Each request is answered by the service as it is then, so nothing random may take
part; evaluations and strictness may differ from one page to the next. The pages together hold
every match of the ordered collection as often as it is matched, in its order.
-/

namespace MediaCatalog

/-- The stretches of length `size` that a list is cut into, the first `count` of them. -/
def stretches {α : Type} (size count : Nat) (items : List α) : List (List α) :=
  (List.range count).map fun page => (items.drop (page * size)).take size

section Stretches

variable {α : Type} (size : Nat) (items : List α)

@[simp] theorem length_stretches (count : Nat) : (stretches size count items).length = count := by
  simp [stretches]

theorem getElem?_stretches {count page : Nat} (h : page < count) :
    (stretches size count items)[page]? = some ((items.drop (page * size)).take size) := by
  simp [stretches, h]

/-- Stretches put together again are the list as far as they go. -/
theorem flatten_stretches (count : Nat) :
    (stretches size count items).flatten = items.take (count * size) := by
  induction count with
  | zero => simp [stretches]
  | succ count ih =>
      have hlast : stretches size (count + 1) items =
          stretches size count items ++ [(items.drop (count * size)).take size] := by
        simp [stretches, List.range_succ]
      rw [hlast, List.flatten_append, ih, List.flatten_singleton, Nat.succ_mul, List.take_add]

theorem length_stretch {count page : Nat} {stretch : List α}
    (h : (stretches size count items)[page]? = some stretch) :
    stretch.length = min size (items.length - page * size) := by
  have hpage : page < count := by
    have hlt := (List.getElem?_eq_some_iff.mp h).1
    rwa [length_stretches] at hlt
  rw [getElem?_stretches size items hpage, Option.some_inj] at h
  rw [← h, List.length_take, List.length_drop]

end Stretches

/-- A page of ids is a stretch of the matches. -/
theorem Window.cut_page {α : Type} {size : Nat} (hsize : 0 < size) (page : Nat) (items : List α) :
    Window.cut ⟨page * size, size⟩ items = (items.drop (page * size)).take size := by
  rw [cut]
  exact if_neg (Nat.ne_of_gt hsize)

namespace Service

/-- The answers to requests for the first `count` pages of `size` ids. Every page is asked of the
service as it is by then. -/
def idPages (services : Nat → Service) (collection : Collection) (order : List String)
    (size : UInt32) (count : Nat) (next : Nat → NodeId) : List (Except Error Value) :=
  (List.range count).map fun page =>
    ((services page).ask
      (.queryIds collection order (UInt32.ofNat (page * size.toNat)) size) (next page)).1

/-- What the answer to a request for ids comes to on any service over the same library and
store. -/
theorem ask_queryIds_of_evaluate {catalog : Catalog} {service : Service} (h : service.Offers .query)
    (hlibrary : service.library = catalog.library) (hstore : service.store = catalog.store)
    {collection : Collection} (hrandom : RandomFree catalog.store collection) {order : List String}
    (horder : ∀ property ∈ order, SortKey.parse property ≠ .random) {ids : List Int64}
    (hids : catalog.evaluate collection = .ok ids) (start length : UInt32) (next : NodeId) :
    (service.ask (.queryIds collection order start length) next).1 = .ok (.list
      ((Window.cut ⟨start.toNat, length.toNat⟩ (catalog.sorted order ids)).map .int)) := by
  have hevaluate : service.catalog.evaluate collection = .ok ids := by
    rw [← hids]
    exact (Catalog.select_of_randomFree hlibrary.symm hstore.symm [] collection hrandom).symm
  have hsorted : service.catalog.sorted order ids = catalog.sorted order ids :=
    Catalog.sorted_of_library hlibrary horder ids
  rw [ask_queryIds h, hevaluate, ← hsorted]
  rfl

/-- Paging loses nothing and repeats nothing, whatever the strictness of the services that are
asked. The pages hold the ids of the ordered collection one after another, as far as they go: all
but the last that holds any are full, and those after it are empty. A request without a window is
answered with all of the ids. -/
theorem queryIds_pages {catalog : Catalog} {services : Nat → Service}
    (hoffers : ∀ page, (services page).Offers .query)
    (hsame : ∀ page, (services page).library = catalog.library ∧
      (services page).store = catalog.store)
    {collection : Collection} (hrandom : RandomFree catalog.store collection) {order : List String}
    (horder : ∀ property ∈ order, SortKey.parse property ≠ .random) {ids : List Int64}
    (hids : catalog.evaluate collection = .ok ids) {size : UInt32} (hsize : 1 ≤ size) {count : Nat}
    (hoffsets : ∀ page < count, page * size.toNat < 2 ^ 32) (next : Nat → NodeId) :
    ∃ (matched : List Int64) (pages : List (List Int64)),
      (∀ first, catalog.evaluate (collection.ordered order first).1 = .ok matched) ∧
      idPages services collection order size count next =
        pages.map (fun page => .ok (.list (page.map .int))) ∧
      pages.flatten = matched.take (count * size.toNat) ∧
      (matched.length ≤ count * size.toNat → pages.flatten = matched) ∧
      (∀ (number : Nat) (page : List Int64), pages[number]? = some page →
        ((number + 1) * size.toNat ≤ matched.length → page.length = size.toNat) ∧
        (matched.length ≤ number * size.toNat → page = []) ∧
        ∀ later following, number < later → pages[later]? = some following → following ≠ [] →
          page.length = size.toNat) ∧
      ∀ page first, ((services page).ask (.queryIds collection order 0 0) first).1 =
        .ok (.list (matched.map .int)) := by
  have hpositive : 0 < size.toNat := hsize
  have hanswer (page : Nat) := ask_queryIds_of_evaluate (hoffers page) (hsame page).1 (hsame page).2
    hrandom horder hids
  refine ⟨catalog.sorted order ids, stretches size.toNat count (catalog.sorted order ids),
    fun first => ?_, ?_, flatten_stretches _ _ _, fun hcover => ?_, fun number page hpage => ?_,
    fun page first => hanswer page 0 0 first⟩
  · rw [Catalog.evaluate, Catalog.select_ordered]
    rw [Catalog.evaluate] at hids
    rw [hids]
    rfl
  · rw [idPages, stretches, List.map_map]
    refine List.map_congr_left fun page hpage => ?_
    have hstart : (UInt32.ofNat (page * size.toNat)).toNat = page * size.toNat :=
      UInt32.toNat_ofNat_of_lt' (hoffsets page (List.mem_range.mp hpage))
    rw [hanswer page, hstart, Window.cut_page hpositive]
    rfl
  · rw [flatten_stretches, List.take_of_length_le hcover]
  · have hlength := length_stretch _ _ hpage
    refine ⟨fun hfull => ?_, fun hpast => ?_, fun later following hlater hfollowing hsome => ?_⟩
    · rw [Nat.succ_mul] at hfull
      omega
    · exact List.length_eq_zero_iff.mp (by omega)
    · -- Whatever the later page holds stands behind the end of this one.
      have hrest := length_stretch _ _ hfollowing
      have hheld := List.length_pos_iff.mpr hsome
      have hbefore : (number + 1) * size.toNat ≤ later * size.toNat :=
        Nat.mul_le_mul_right _ hlater
      rw [Nat.succ_mul] at hbefore
      omega

/-- The service with two entries, and the same one later on: it has evaluated once more and reads
fetch specs leniently. -/
def titledTurns (page : Nat) : Service :=
  if page = 0 then titled else { titled.evaluated with settings := titled.settings.lenient }

theorem titledTurns_offers (page : Nat) : (titledTurns page).Offers .query := by
  unfold titledTurns
  split <;> exact titled_offers _

theorem titledTurns_same (page : Nat) : (titledTurns page).library = titled.catalog.library ∧
    (titledTurns page).store = titled.catalog.store := by
  unfold titledTurns
  split <;> exact ⟨rfl, rfl⟩

/-- The list that comes back to its first id, in two pages of two ids at most. -/
theorem queryIds_pages_returning :
    RandomFree titled.store returning ∧ titled.catalog.evaluate returning = .ok [2, 1, 2] ∧
      (∀ page < 2, page * (2 : UInt32).toNat < 2 ^ 32) ∧
      ∃ pages : List (List Int64), idPages titledTurns returning [] 2 2 id =
        pages.map (fun page => .ok (.list (page.map .int))) ∧ pages.flatten = [2, 1, 2] := by
  have hoffsets : ∀ page < 2, page * (2 : UInt32).toNat < 2 ^ 32 := by decide
  refine ⟨randomFree_returning, evaluate_returning, hoffsets, ?_⟩
  obtain ⟨matched, pages, hmatched, hanswers, -, hwhole, -⟩ := queryIds_pages titledTurns_offers
    titledTurns_same randomFree_returning (List.forall_mem_nil _) evaluate_returning
    (show (1 : UInt32) ≤ 2 by decide) hoffsets id
  obtain rfl : [2, 1, 2] = matched := Except.ok.inj (evaluate_returning.symm.trans (hmatched 0))
  exact ⟨pages, hanswers, hwhole (by decide)⟩

end Service

end MediaCatalog
