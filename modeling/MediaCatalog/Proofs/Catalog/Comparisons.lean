import MediaCatalog.Proofs.Catalog.CompositeOrder

/-!
What sorting and picking extremes ask of a comparison: that changing places reverses its answer and
that answers chain. Every comparison of properties keeps to that, whatever kinds of values meet, in
both directions and with values missing. It tells apart what a sort has to tell apart, numbers that
differ in any bit and texts that differ in any character. Only the values that are neither are all
the same to it.
-/

namespace MediaCatalog

/-- Any two items compare, the other way round if they change places, and an item that does not
come after another one does not come after what that one does not come after. -/
structure TotalPreorder {α : Type} (order : α → α → Ordering) : Prop where
  reverses : ∀ first second, order second first = (order first second).swap
  chains : ∀ first second third,
    order first second ≠ .gt → order second third ≠ .gt → order first third ≠ .gt

theorem TotalPreorder.of_transCmp {α : Type} (order : α → α → Ordering) [Std.TransCmp order] :
    TotalPreorder order where
  reverses _ _ := Std.OrientedCmp.eq_swap
  chains _ _ _ hfirst hsecond := Ordering.isLE_iff_ne_gt.mp <|
    Std.TransCmp.isLE_trans (Ordering.isLE_iff_ne_gt.mpr hfirst)
      (Ordering.isLE_iff_ne_gt.mpr hsecond)

/-- Doubles that differ in any bit have different places in the total order. -/
theorem totalRank_inj {first second : Double} :
    totalRank first = totalRank second ↔ first.toBits = second.toBits := by
  have hfirst := first.toBits.toNat_lt
  have hsecond := second.toBits.toNat_lt
  rw [← UInt64.toNat_inj]
  simp only [totalRank]
  split <;> split <;> omega

namespace Value

/-! ### Which values tie -/

theorem compareTexts_eq_eq {first second : String} :
    compareTexts first second = .eq ↔ first = second := by
  rw [compareTexts, compareLex_eq_eq, Std.LawfulEqOrd.compare_eq_iff_eq]
  refine ⟨And.right, ?_⟩
  rintro rfl
  exact ⟨Std.ReflCmp.compare_self, rfl⟩

namespace Place

instance : Std.LawfulEqOrd Place where
  eq_of_compare {left right} h := by
    cases left with
    | number left =>
        cases right with
        | number right => exact congrArg number (Std.LawfulEqOrd.eq_of_compare h)
        | text right | rest => exact nomatch h
    | text left =>
        cases right with
        | text right => exact congrArg text (compareTexts_eq_eq.mp h)
        | number right | rest => exact nomatch h
    | rest =>
        cases right with
        | rest => rfl
        | number right | text right => exact nomatch h

def rank? : Place → Option Nat
  | .number rank => some rank
  | _ => Option.none

def text? : Place → Option String
  | .text letters => some letters
  | _ => Option.none

theorem eq_iff {left right : Place} :
    left = right ↔ left.rank? = right.rank? ∧ left.text? = right.text? := by
  cases left <;> cases right <;> simp [rank?, text?]

end Place

theorem rank?_place (value : Value) : value.place.rank? = value.float?.map totalRank := by
  cases value <;> rfl

theorem text?_place (value : Value) : value.place.text? = value.string? := by
  cases value <;> rfl

/-- Values tie that are the same number, the same text, or neither of both. -/
theorem compare_eq_eq {first second : Value} :
    first.compare second = .eq ↔
      first.float?.map Double.toBits = second.float?.map Double.toBits ∧
        first.string? = second.string? := by
  have hranks : first.float?.map totalRank = second.float?.map totalRank ↔
      first.float?.map Double.toBits = second.float?.map Double.toBits := by
    cases first.float? <;> cases second.float? <;> simp [totalRank_inj]
  rw [compare_eq_place, compareOn, Std.LawfulEqOrd.compare_eq_iff_eq, Place.eq_iff, rank?_place,
    rank?_place, text?_place, text?_place, hranks]

end Value

/-! ### Comparisons -/

/-- All comparisons that entries are sorted by and extremes are picked by are total preorders: that
of values of any kinds, that of values some of which are missing, upwards and downwards, and that of
entries by any key. Values tie only as the same number, the same text, or neither of both. Turning
the direction round reverses the order of the values that are there, and leaves those that are not
at the end. -/
theorem comparisons_are_total_preorders :
    TotalPreorder Value.compare ∧
    (∀ descending, TotalPreorder (SortKey.compareProperties descending)) ∧
    (∀ (key : SortKey) (library : Library), TotalPreorder (key.compare library)) ∧
    (∀ first second : Value, first.compare second = .eq ↔
      first.float?.map Double.toBits = second.float?.map Double.toBits ∧
        first.string? = second.string?) ∧
    ∀ first second : Value,
      SortKey.compareProperties false (some first) (some second) = first.compare second ∧
      SortKey.compareProperties true (some first) (some second) = second.compare first ∧
      ∀ descending, SortKey.compareProperties descending (some first) none = .lt :=
  ⟨.of_transCmp _, fun _ => .of_transCmp _, fun _ _ => .of_transCmp _,
    fun _ _ => Value.compare_eq_eq,
    fun _ _ => ⟨rfl, Std.OrientedCmp.eq_swap.symm, fun _ => rfl⟩⟩

end MediaCatalog
