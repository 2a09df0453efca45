/-!
Random order and choice. Both follow from a seed alone: an item's place in a
shuffled list is decided by a number mixed from the seed and the item's position.
-/

namespace MediaCatalog.Chance

/-- Scatter the bits of a number over the whole word. -/
def scatter (number : UInt64) : UInt64 :=
  let number := (number ^^^ (number >>> 30)) * 0xBF58476D1CE4E5B9
  let number := (number ^^^ (number >>> 27)) * 0x94D049BB133111EB
  number ^^^ (number >>> 31)

/-- The number drawn at a position under a seed. -/
def draw (seed : UInt64) (position : Nat) : UInt64 :=
  scatter (seed + 0x9E3779B97F4A7C15 * UInt64.ofNat (position + 1))

/-- The items in an order that depends on the seed. -/
def shuffle {α : Type} (seed : UInt64) (items : List α) : List α :=
  (items.zipIdx.mergeSort fun left right => draw seed left.2 ≤ draw seed right.2).map Prod.fst

/-- One of the items. -/
def pick? {α : Type} (seed : UInt64) (items : List α) : Option α :=
  items[(draw seed items.length).toNat % items.length]?

/-- A shuffled list holds the same items as often. -/
theorem shuffle_perm {α : Type} (seed : UInt64) (items : List α) :
    (shuffle seed items).Perm items := by
  have same := (List.mergeSort_perm items.zipIdx
    fun left right => draw seed left.2 ≤ draw seed right.2).map Prod.fst
  rwa [List.zipIdx_map_fst] at same

end MediaCatalog.Chance
