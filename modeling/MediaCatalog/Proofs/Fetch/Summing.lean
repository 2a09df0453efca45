import Mathlib.Algebra.Ring.Int.Defs
import Mathlib.Data.List.Basic
import MediaCatalog.Fetch.Run

/-!
Sums of integers. The total is taken from the left, and it is an integer as long as no partial sum
leaves the range of integers. So a sum that fits may be missed in one order and found in another:
there is an order that finds it, and all orders do exactly if neither what is added nor what is
taken away leaves the range by itself. A sum that does not fit is a float in every order.
-/

namespace MediaCatalog

/-- Whether a number is an integer of 64 bits. -/
def FitsInteger (number : Int) : Prop :=
  Int64.minValue.toInt ≤ number ∧ number ≤ Int64.maxValue.toInt

theorem fitsInteger_iff {number : Int} :
    FitsInteger number ↔ -2 ^ 63 ≤ number ∧ number ≤ 2 ^ 63 - 1 := by
  rw [FitsInteger, Int64.toInt_minValue, Int64.toInt_maxValue]

theorem fitsInteger_toInt (number : Int64) : FitsInteger number.toInt := by
  have hlow := number.le_toInt
  have hhigh := number.toInt_lt
  rw [fitsInteger_iff]
  omega

theorem toInt_ofInt_of_fits {number : Int} (h : FitsInteger number) :
    (Int64.ofInt number).toInt = number := by
  rw [fitsInteger_iff] at h
  exact Int64.toInt_ofInt_of_le h.1 (by omega)

namespace Integers

/-- The mathematical total of integers. -/
def total (numbers : List Int64) : Int := (numbers.map Int64.toInt).sum

/-- The total of the positive ones. -/
def gains (numbers : List Int64) : Int := total (numbers.filter (0 < ·))

/-- The total of the negative ones. -/
def losses (numbers : List Int64) : Int := total (numbers.filter (· < 0))

/-- From a start on, every partial sum fits. -/
def StaysFrom (start : Int) (numbers : List Int64) : Prop :=
  ∀ front, front <+: numbers → FitsInteger (start + total front)

@[simp] theorem total_nil : total [] = 0 := rfl

@[simp] theorem total_cons (number : Int64) (numbers : List Int64) :
    total (number :: numbers) = number.toInt + total numbers := rfl

theorem total_perm {numbers numbers' : List Int64} (h : numbers.Perm numbers') :
    total numbers = total numbers' := by
  induction h with
  | nil => rfl
  | cons number _ ih => rw [total_cons, total_cons, ih]
  | swap first second rest =>
      simp only [total_cons]
      omega
  | trans _ _ ih ih' => exact ih.trans ih'

theorem staysFrom_cons_iff {start : Int} {number : Int64} {numbers : List Int64} :
    StaysFrom start (number :: numbers) ↔
      FitsInteger start ∧ StaysFrom (start + number.toInt) numbers := by
  constructor
  · intro h
    refine ⟨?_, fun front hfront => ?_⟩
    · have hnil := h [] List.nil_prefix
      rwa [total_nil, Int.add_zero] at hnil
    · have hcons := h (number :: front) (List.cons_prefix_cons.mpr ⟨rfl, hfront⟩)
      rwa [total_cons, ← Int.add_assoc] at hcons
  · rintro ⟨hstart, h⟩ front hfront
    rcases List.prefix_cons_iff.mp hfront with rfl | ⟨rest, rfl, hrest⟩
    · rwa [total_nil, Int.add_zero]
    · rw [total_cons, ← Int.add_assoc]
      exact h rest hrest

theorem StaysFrom.fits_total {start : Int} {numbers : List Int64} (h : StaysFrom start numbers) :
    FitsInteger (start + total numbers) :=
  h numbers List.prefix_rfl

/-! ### The running total -/

/-- Add one more value to the running total. -/
def addExact? (sum : Int64) (value : Value) : Option Int64 := do
  let next := sum.toInt + (← value.int?).toInt
  if Int64.minValue.toInt ≤ next ∧ next ≤ Int64.maxValue.toInt then some (Int64.ofInt next)
  else none

theorem exactSum?_eq_foldlM (values : List Value) :
    Aggregate.exactSum? values = values.foldlM addExact? 0 := rfl

/-- The running total comes to the end exactly if every partial sum fits. -/
theorem foldlM_addExact?_eq_some_iff {numbers : List Int64} {start sum : Int64} :
    (numbers.map Value.int).foldlM addExact? start = some sum ↔
      StaysFrom start.toInt numbers ∧ sum.toInt = start.toInt + total numbers := by
  induction numbers generalizing start with
  | nil =>
      rw [List.map_nil, List.foldlM_nil, total_nil, Int.add_zero, Int64.toInt_inj]
      constructor
      · intro h
        refine ⟨fun front hfront => ?_, (Option.some_inj.mp h).symm⟩
        rw [List.prefix_nil.mp hfront, total_nil, Int.add_zero]
        exact fitsInteger_toInt start
      · rintro ⟨-, rfl⟩
        rfl
  | cons number numbers ih =>
      rw [List.map_cons, List.foldlM_cons, staysFrom_cons_iff,
        and_iff_right (fitsInteger_toInt start), total_cons, ← Int.add_assoc]
      by_cases hfits : FitsInteger (start.toInt + number.toInt)
      · have hnext : addExact? start (.int number) =
            some (Int64.ofInt (start.toInt + number.toInt)) := if_pos hfits
        rw [hnext, Option.bind_eq_bind, Option.bind_some, ih, toInt_ofInt_of_fits hfits]
      · have hnext : addExact? start (.int number) = none := if_neg hfits
        rw [hnext]
        refine ⟨fun h => (nomatch h), fun h => absurd ?_ hfits⟩
        have hnil := h.1 [] List.nil_prefix
        rwa [total_nil, Int.add_zero] at hnil

/-! ### Orders -/

theorem gains_cons (number : Int64) (numbers : List Int64) :
    gains (number :: numbers) = max number.toInt 0 + gains numbers := by
  rw [gains, gains, List.filter_cons]
  simp only [decide_eq_true_eq, Int64.lt_iff_toInt_lt, Int64.toInt_zero]
  split
  · rw [total_cons]
    omega
  · omega

theorem losses_cons (number : Int64) (numbers : List Int64) :
    losses (number :: numbers) = min number.toInt 0 + losses numbers := by
  rw [losses, losses, List.filter_cons]
  simp only [decide_eq_true_eq, Int64.lt_iff_toInt_lt, Int64.toInt_zero]
  split
  · rw [total_cons]
    omega
  · omega

theorem gains_add_losses (numbers : List Int64) :
    gains numbers + losses numbers = total numbers := by
  induction numbers with
  | nil => rfl
  | cons number numbers ih =>
      rw [gains_cons, losses_cons, total_cons]
      omega

/-- What some of the integers come to lies between the losses and the gains of all. -/
theorem total_of_sublist {numbers part : List Int64} (h : part.Sublist numbers) :
    losses numbers ≤ total part ∧ total part ≤ gains numbers := by
  induction h with
  | slnil => exact ⟨Int.le_refl 0, Int.le_refl 0⟩
  | cons number _ ih =>
      rw [gains_cons, losses_cons]
      omega
  | cons_cons number _ ih =>
      rw [gains_cons, losses_cons, total_cons]
      omega

/-- From where gains and losses alone lead nowhere out of range, no order does. -/
theorem staysFrom_of_bounds {start : Int} {numbers : List Int64}
    (hgains : FitsInteger (start + gains numbers))
    (hlosses : FitsInteger (start + losses numbers)) : StaysFrom start numbers := by
  intro front hfront
  have hbounds := total_of_sublist hfront.sublist
  rw [fitsInteger_iff] at hgains hlosses ⊢
  omega

/-- One of the integers brings a sum back towards zero, or none of them does. -/
theorem exists_towards_zero (start : Int) (numbers : List Int64) :
    (∃ number ∈ numbers, (0 ≤ start ∧ number < 0) ∨ (start < 0 ∧ 0 < number)) ∨
      (0 ≤ start ∧ losses numbers = 0) ∨ (start < 0 ∧ gains numbers = 0) := by
  by_cases hstart : 0 ≤ start
  · by_cases hall : numbers.filter (· < 0) = []
    · exact .inr (.inl ⟨hstart, by rw [losses, hall, total_nil]⟩)
    · obtain ⟨number, hnumber⟩ := List.exists_mem_of_ne_nil _ hall
      rw [List.mem_filter, decide_eq_true_eq] at hnumber
      exact .inl ⟨number, hnumber.1, .inl ⟨hstart, hnumber.2⟩⟩
  · by_cases hall : numbers.filter (0 < ·) = []
    · exact .inr (.inr ⟨by omega, by rw [gains, hall, total_nil]⟩)
    · obtain ⟨number, hnumber⟩ := List.exists_mem_of_ne_nil _ hall
      rw [List.mem_filter, decide_eq_true_eq] at hnumber
      exact .inl ⟨number, hnumber.1, .inr ⟨by omega, hnumber.2⟩⟩

/-- If the total fits, so do all partial sums in some order: always take next what brings the sum
back towards zero, and everything else at the end. -/
theorem exists_perm_staysFrom {start : Int} {numbers : List Int64} (hstart : FitsInteger start)
    (h : FitsInteger (start + total numbers)) :
    ∃ ordered : List Int64, ordered.Perm numbers ∧ StaysFrom start ordered := by
  induction hlength : numbers.length generalizing start numbers with
  | zero =>
      rw [List.length_eq_zero_iff.mp hlength] at h ⊢
      refine ⟨[], .refl [], staysFrom_of_bounds ?_ ?_⟩ <;> exact h
  | succ length ih =>
      rcases exists_towards_zero start numbers with ⟨number, hmem, htowards⟩ | hnone
      · obtain ⟨front, back, rfl⟩ := List.append_of_mem hmem
        have hperm : (front ++ number :: back).Perm (number :: (front ++ back)) := List.perm_middle
        rw [total_perm hperm, total_cons, ← Int.add_assoc] at h
        -- A sum and a summand of opposite signs cannot leave the range together.
        have hnext : FitsInteger (start + number.toInt) := by
          have hrange := fitsInteger_toInt number
          simp only [Int64.lt_iff_toInt_lt, Int64.toInt_zero] at htowards
          rw [fitsInteger_iff] at hstart hrange ⊢
          omega
        have hrest : (front ++ back).length = length := by
          simp only [List.length_append, List.length_cons] at hlength ⊢
          omega
        obtain ⟨ordered, hordered, hstays⟩ := ih hnext h hrest
        exact ⟨number :: ordered, (hordered.cons number).trans hperm.symm,
          staysFrom_cons_iff.mpr ⟨hstart, hstays⟩⟩
      · -- Nothing is left that leads back, so the rest leads straight to the total.
        have hsplit := gains_add_losses numbers
        refine ⟨numbers, .refl numbers, ?_⟩
        rcases hnone with ⟨hsign, hzero⟩ | ⟨hsign, hzero⟩
        · refine staysFrom_of_bounds ?_ ?_
          · rwa [show gains numbers = total numbers by omega]
          · rwa [hzero, Int.add_zero]
        · refine staysFrom_of_bounds ?_ ?_
          · rwa [hzero, Int.add_zero]
          · rwa [show losses numbers = total numbers by omega]

/-- All orders keep every partial sum in range exactly if gains and losses alone do. -/
theorem forall_perm_staysFrom_iff (numbers : List Int64) :
    (∀ ordered : List Int64, ordered.Perm numbers → StaysFrom 0 ordered) ↔
      FitsInteger (gains numbers) ∧ FitsInteger (losses numbers) := by
  constructor
  · -- In an order with all gains in front, they are a partial sum; and so are the losses.
    intro h
    have hpart (keep : Int64 → Bool) : FitsInteger (total (numbers.filter keep)) := by
      have hstays := h _ (List.filter_append_perm keep numbers)
      have hfits := hstays _ (List.prefix_append _ _)
      rwa [Int.zero_add] at hfits
    exact ⟨hpart (0 < ·), hpart (· < 0)⟩
  · rintro ⟨hgains, hlosses⟩ ordered hordered
    have hgains' : gains ordered = gains numbers := total_perm (hordered.filter _)
    have hlosses' : losses ordered = losses numbers := total_perm (hordered.filter _)
    refine staysFrom_of_bounds ?_ ?_
    · rwa [Int.zero_add, hgains']
    · rwa [Int.zero_add, hlosses']

end Integers

/-- Items can be put in an order that gives what they yield in any order that is asked for. -/
theorem exists_perm_filterMap {α β : Type} {f : α → Option β} {items : List α} {ordered : List β}
    (h : ordered.Perm (items.filterMap f)) :
    ∃ items' : List α, items'.Perm items ∧ items'.filterMap f = ordered := by
  induction ordered generalizing items with
  | nil => exact ⟨items, .refl items, h.nil_eq.symm⟩
  | cons result ordered ih =>
      obtain ⟨item, hitem, hresult⟩ := List.mem_filterMap.mp (h.subset List.mem_cons_self)
      obtain ⟨front, back, rfl⟩ := List.append_of_mem hitem
      have hperm : (front ++ item :: back).Perm (item :: (front ++ back)) := List.perm_middle
      have hrest : (result :: ordered).Perm (result :: (front ++ back).filterMap f) := by
        rw [← List.filterMap_cons_some hresult]
        exact h.trans (hperm.filterMap f)
      obtain ⟨items', hitems', hordered⟩ := ih hrest.cons_inv
      refine ⟨item :: items', (hitems'.cons item).trans hperm.symm, ?_⟩
      rw [List.filterMap_cons_some hresult, hordered]

theorem Aggregate.numbers_map_int (numbers : List Int64) :
    Aggregate.numbers (numbers.map Value.int) =
      numbers.map fun number => Double.ofInt number.toInt := by
  rw [Aggregate.numbers, List.filterMap_map]
  exact congrFun
    (List.filterMap_eq_map (f := fun number : Int64 => Double.ofInt number.toInt)) numbers

namespace Catalog

variable {catalog : Catalog} {ids ids' : List Int64} {property : String}

/-- The integers that entries have as a property. -/
def integers (catalog : Catalog) (ids : List Int64) (property : String) : List Int64 :=
  ids.filterMap fun id => (catalog.library.property? id property).bind Value.int?

/-- Whoever of the entries has the property has an integer there. -/
def AllIntegers (catalog : Catalog) (ids : List Int64) (property : String) : Prop :=
  ∀ id ∈ ids, ∀ value, catalog.library.property? id property = some value →
    ∃ number, value = .int number

theorem AllIntegers.values_eq (h : catalog.AllIntegers ids property) :
    ids.filterMap (catalog.library.property? · property) =
      (catalog.integers ids property).map Value.int := by
  rw [integers, List.map_filterMap]
  refine List.filterMap_congr fun id hid => ?_
  cases hvalue : catalog.library.property? id property with
  | none => rfl
  | some value =>
      obtain ⟨number, rfl⟩ := h id hid value hvalue
      rfl

theorem AllIntegers.perm (h : catalog.AllIntegers ids property) (hperm : ids'.Perm ids) :
    catalog.AllIntegers ids' property :=
  fun id hid => h id (hperm.subset hid)

theorem integers_perm (hperm : ids'.Perm ids) :
    (catalog.integers ids' property).Perm (catalog.integers ids property) :=
  hperm.filterMap _

/-- The sum over the entries is the integer that their total is. -/
def SumsExactly (catalog : Catalog) (ids : List Int64) (property : String) : Prop :=
  ∃ sum : Int64, sum.toInt = Integers.total (catalog.integers ids property) ∧
    catalog.aggregate ids property .sum = .int sum

/-- The sum over the entries is the sum of their floats. -/
def SumsRoughly (catalog : Catalog) (ids : List Int64) (property : String) : Prop :=
  catalog.aggregate ids property .sum = .float (Aggregate.floatSum
    ((catalog.integers ids property).map fun number => Double.ofInt number.toInt))

theorem not_sumsExactly (h : catalog.SumsRoughly ids property) :
    ¬ catalog.SumsExactly ids property := by
  rintro ⟨sum, -, hsum⟩
  cases hsum.symm.trans h

/-- A sum of integers, of which there is one at least, is exact as long as every partial sum
fits. -/
theorem AllIntegers.sums (h : catalog.AllIntegers ids property)
    (hsome : catalog.integers ids property ≠ []) :
    (Integers.StaysFrom 0 (catalog.integers ids property) → catalog.SumsExactly ids property) ∧
    (¬ Integers.StaysFrom 0 (catalog.integers ids property) →
      catalog.SumsRoughly ids property) := by
  have hsum : catalog.aggregate ids property .sum =
      (Aggregate.exactSum? ((catalog.integers ids property).map Value.int)).elim
        (.float (Aggregate.floatSum
          ((catalog.integers ids property).map fun number => Double.ofInt number.toInt)))
        .int := by
    rw [aggregate, h.values_eq]
    cases hnumbers : catalog.integers ids property with
    | nil => exact absurd hnumbers hsome
    | cons number numbers =>
        rw [List.map_cons, Aggregate.fold, ← List.map_cons, Aggregate.numbers_map_int]
        cases Aggregate.exactSum? ((number :: numbers).map Value.int) <;> rfl
  have hexact (sum : Int64) :
      Aggregate.exactSum? ((catalog.integers ids property).map Value.int) = some sum ↔
        Integers.StaysFrom 0 (catalog.integers ids property) ∧
          sum.toInt = Integers.total (catalog.integers ids property) := by
    rw [Integers.exactSum?_eq_foldlM, Integers.foldlM_addExact?_eq_some_iff, Int64.toInt_zero,
      Int.zero_add]
  constructor
  · intro hstays
    have hfits := hstays.fits_total
    rw [Int.zero_add] at hfits
    refine ⟨_, toInt_ofInt_of_fits hfits, ?_⟩
    rw [hsum, (hexact _).mpr ⟨hstays, toInt_ofInt_of_fits hfits⟩, Option.elim_some]
  · intro hleaves
    rw [SumsRoughly, hsum]
    cases hsum' : Aggregate.exactSum? ((catalog.integers ids property).map Value.int) with
    | none => rfl
    | some sum => exact absurd ((hexact sum).mp hsum').1 hleaves

theorem AllIntegers.sumsExactly_iff (h : catalog.AllIntegers ids property)
    (hsome : catalog.integers ids property ≠ []) :
    catalog.SumsExactly ids property ↔
      Integers.StaysFrom 0 (catalog.integers ids property) := by
  refine ⟨fun hexact => ?_, (h.sums hsome).1⟩
  by_contra hleaves
  exact not_sumsExactly ((h.sums hsome).2 hleaves) hexact

theorem integers_ne_nil (hperm : ids'.Perm ids) (hsome : catalog.integers ids property ≠ []) :
    catalog.integers ids' property ≠ [] := by
  intro hnil
  have hintegers : (catalog.integers ids' property).Perm (catalog.integers ids property) :=
    integers_perm hperm
  rw [hnil] at hintegers
  exact hsome hintegers.nil_eq.symm

/-- A property of which all values are integers has no sum if no entry has it. Otherwise its sum is
the exact integer if every partial sum, in the order of the entries, fits into 64 bits, and a float
if one does not. So a total that does not fit is a float in every order, a total that fits is found
in some order, and it is found in every order exactly if the positive integers and the negative
ones fit each by themselves. -/
theorem sum_of_integers (h : catalog.AllIntegers ids property) :
    (catalog.integers ids property = [] → catalog.aggregate ids property .sum = .none) ∧
    (catalog.integers ids property ≠ [] →
      (Integers.StaysFrom 0 (catalog.integers ids property) → catalog.SumsExactly ids property) ∧
      (¬ Integers.StaysFrom 0 (catalog.integers ids property) →
        catalog.SumsRoughly ids property) ∧
      (¬ FitsInteger (Integers.total (catalog.integers ids property)) →
        ∀ ids' : List Int64, ids'.Perm ids → catalog.SumsRoughly ids' property) ∧
      (FitsInteger (Integers.total (catalog.integers ids property)) →
        ∃ ids' : List Int64, ids'.Perm ids ∧ catalog.SumsExactly ids' property) ∧
      ((∀ ids' : List Int64, ids'.Perm ids → catalog.SumsExactly ids' property) ↔
        FitsInteger (Integers.gains (catalog.integers ids property)) ∧
          FitsInteger (Integers.losses (catalog.integers ids property)))) := by
  refine ⟨fun hnone => ?_, fun hsome => ⟨(h.sums hsome).1, (h.sums hsome).2, ?_, ?_, ?_⟩⟩
  · rw [aggregate, h.values_eq, hnone]
    rfl
  · intro hfits ids' hperm
    refine ((h.perm hperm).sums (integers_ne_nil hperm hsome)).2 fun hstays => hfits ?_
    have htotal := hstays.fits_total
    rwa [Int.zero_add, Integers.total_perm (integers_perm hperm)] at htotal
  · intro hfits
    have hzero : FitsInteger 0 := fitsInteger_toInt 0
    obtain ⟨ordered, hordered, hstays⟩ :=
      Integers.exists_perm_staysFrom hzero (by rwa [Int.zero_add])
    obtain ⟨ids', hperm, rfl⟩ := exists_perm_filterMap hordered
    exact ⟨ids', hperm, ((h.perm hperm).sumsExactly_iff (integers_ne_nil hperm hsome)).mpr hstays⟩
  · rw [← Integers.forall_perm_staysFrom_iff]
    constructor
    · intro hall ordered hordered
      obtain ⟨ids', hperm, rfl⟩ := exists_perm_filterMap hordered
      exact ((h.perm hperm).sumsExactly_iff (integers_ne_nil hperm hsome)).mp (hall ids' hperm)
    · intro hall ids' hperm
      exact ((h.perm hperm).sumsExactly_iff (integers_ne_nil hperm hsome)).mpr
        (hall _ (integers_perm hperm))

/-- The largest integer, one more, and one less again. -/
def balances : Catalog where
  library := (((Library.empty.add [("size", .int Int64.maxValue)]).2.add [("size", .int 1)]).2.add
    [("size", .int (-1))]).2
  store := .empty

theorem allIntegers_balances : balances.AllIntegers [1, 2, 3] "size" := by
  intro id hid value hvalue
  simp only [List.mem_cons, List.not_mem_nil, or_false] at hid
  rcases hid with rfl | rfl | rfl <;> exact ⟨_, (Option.some_inj.mp hvalue).symm⟩

theorem integers_balances :
    balances.integers [1, 2, 3] "size" = [Int64.maxValue, 1, -1] ∧
      balances.integers [2, 3, 1] "size" = [1, -1, Int64.maxValue] := by
  decide

theorem total_balances :
    Integers.total (balances.integers [1, 2, 3] "size") = Int64.maxValue.toInt := by
  decide

theorem not_staysFrom_balances :
    ¬ Integers.StaysFrom 0 (balances.integers [1, 2, 3] "size") := by
  intro h
  have hfits := h [Int64.maxValue, 1] (by rw [integers_balances.1]; exact ⟨[-1], rfl⟩)
  rw [fitsInteger_iff] at hfits
  exact absurd hfits (by decide)

/-- The total fits, but in the order of the entries a partial sum does not. Another order finds
it. -/
theorem sum_of_integers_balances :
    balances.AllIntegers [1, 2, 3] "size" ∧ balances.SumsRoughly [1, 2, 3] "size" ∧
      ∃ ids' : List Int64, ids'.Perm [1, 2, 3] ∧ balances.SumsExactly ids' "size" := by
  have hsome : balances.integers [1, 2, 3] "size" ≠ [] := by decide
  have hsums := (sum_of_integers allIntegers_balances).2 hsome
  refine ⟨allIntegers_balances, hsums.2.1 not_staysFrom_balances, hsums.2.2.2.1 ?_⟩
  rw [total_balances]
  exact fitsInteger_toInt Int64.maxValue

/-- A total that fits need not be found, and which kind of answer there is depends on the order. -/
theorem sum_misses_total :
    balances.AllIntegers [1, 2, 3] "size" ∧
      FitsInteger (Integers.total (balances.integers [1, 2, 3] "size")) ∧
      ¬ balances.SumsExactly [1, 2, 3] "size" ∧
      ([2, 3, 1] : List Int64).Perm [1, 2, 3] ∧ balances.SumsExactly [2, 3, 1] "size" := by
  have hsome : balances.integers [1, 2, 3] "size" ≠ [] := by decide
  have hperm : ([2, 3, 1] : List Int64).Perm [1, 2, 3] := by decide
  refine ⟨allIntegers_balances, ?_, ?_, hperm, ⟨Int64.maxValue, by decide, rfl⟩⟩
  · rw [total_balances]
    exact fitsInteger_toInt Int64.maxValue
  · rw [allIntegers_balances.sumsExactly_iff hsome]
    exact not_staysFrom_balances

end Catalog

end MediaCatalog
