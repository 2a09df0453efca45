import MediaCatalog.Value.Order

/-!
The order of values is a total preorder. What it sees of a value is its place: numbers come first
by their rank, then texts, and then everything else, all in one place.
-/

namespace MediaCatalog

namespace Value

/-- What the order of values sees of a value. -/
inductive Place where
  | number (rank : Nat)
  | text (text : String)
  | rest

def place : Value → Place
  | int number => .number (totalRank (.ofInt number.toInt))
  | float number => .number (totalRank number)
  | string text => .text text
  | _ => .rest

/-- Texts without regard to case; those that differ in case alone go by their characters. -/
abbrev compareTexts : String → String → Ordering :=
  compareLex (compareOn Text.lowercase) Ord.compare

instance : Ord Place where
  compare
    | .number left, .number right => Ord.compare left right
    | .number _, _ => .lt
    | .text _, .number _ => .gt
    | .text left, .text right => compareTexts left right
    | .text _, .rest => .lt
    | .rest, .rest => .eq
    | .rest, _ => .gt

theorem compare_eq_place : Value.compare = compareOn place := by
  funext left right
  cases left <;> cases right <;> rfl

instance : Std.TransOrd Place where
  eq_swap {left right} := by
    cases left with
    | number left =>
        cases right with
        | number right => exact Std.OrientedOrd.eq_swap (α := Nat)
        | text right | rest => rfl
    | text left =>
        cases right with
        | text right => exact (inferInstance : Std.OrientedCmp compareTexts).eq_swap
        | number right | rest => rfl
    | rest => cases right <;> rfl
  isLE_trans {first second third} hfirst hsecond := by
    cases first with
    | number first =>
        cases third with
        | number third =>
            cases second with
            | number second => exact Std.TransOrd.isLE_trans (α := Nat) hfirst hsecond
            | text second | rest => exact nomatch hsecond
        | text third | rest => rfl
    | text first =>
        cases third with
        | number third =>
            cases second with
            | number second => exact nomatch hfirst
            | text second | rest => exact nomatch hsecond
        | text third =>
            cases second with
            | number second => exact nomatch hfirst
            | text second =>
                exact (inferInstance : Std.TransCmp compareTexts).isLE_trans hfirst hsecond
            | rest => exact nomatch hsecond
        | rest => rfl
    | rest =>
        cases second with
        | number second | text second => exact nomatch hfirst
        | rest => exact hsecond

/-- Any two values compare, and comparisons chain. -/
instance : Std.TransCmp Value.compare := compare_eq_place ▸ inferInstance

end Value

end MediaCatalog
