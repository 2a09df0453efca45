/-!
Grouping: items with one key come together, the groups in the order in which
their keys first appear and each group in the order of its items.
-/

namespace MediaCatalog

/-- Groups by key, in order of first appearance. -/
abbrev Groups (κ α : Type) := List (κ × List α)

namespace Groups

variable {κ α : Type} [DecidableEq κ]

/-- Put an item at the end of its group, or open a group for it. -/
def insert (groups : Groups κ α) (key : κ) (item : α) : Groups κ α :=
  match groups with
  | [] => [(key, [item])]
  | (name, members) :: rest =>
    if name = key then (name, members ++ [item]) :: rest
    else (name, members) :: insert rest key item

/-- Group keyed items. -/
def ofList (items : List (κ × α)) : Groups κ α :=
  items.foldl (fun groups item => insert groups item.1 item.2) []

end Groups

end MediaCatalog
