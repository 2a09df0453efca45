import MediaCatalog.Proofs.Fetch.Rows

/-!
Rows of groups. Entries that have the same texts under the properties to group by share a row, and
the row shows of each property the first value that one of them has. The rows come in the order in
which their groups first appear, and it is rows and not matches that a window cuts out.
-/

namespace MediaCatalog

/-- The texts of an entry under some properties; it has the empty text for one that it lacks. -/
def Library.textsOf (library : Library) (properties : List String) (id : Int64) : List String :=
  properties.map fun property =>
    match library.property? id property with
    | some value => value.text
    | none => ""

/-- What a window shows at a place. -/
theorem Window.getElem?_cut {α : Type} (window : Window) (items : List α) (place : Nat) :
    (window.cut items)[place]? =
      if window.length = 0 ∨ place < window.length then items[window.start + place]? else none := by
  unfold cut
  by_cases hall : window.length = 0
  · simp [hall]
  · simp [hall, List.getElem?_take]

namespace Catalog

variable {catalog : Catalog} {group : List String}

theorem rowKey_eq_textsOf (h : group ≠ []) (id : Int64) :
    catalog.rowKey group id = catalog.library.textsOf group id := by
  rw [rowKey, if_neg (by simpa using h), Library.textsOf]
  refine List.map_congr_left fun property _ => ?_
  cases catalog.library.property? id property <;> rfl

/-- The groups that share rows are those of entries with the same texts. -/
theorem partitions_rowKey (catalog : Catalog) (h : group ≠ []) (ids : List Int64) :
    Groups.Partitions (fun id => some (catalog.library.textsOf group id)) ids
      (Groups.ofList (ids.map fun id => (catalog.rowKey group id, id))) := by
  have hkeyed : (ids.map fun id => (catalog.rowKey group id, id)) =
      ids.filterMap fun id => (some (catalog.library.textsOf group id)).map (·, id) := by
    simp only [rowKey_eq_textsOf h, Option.map_some, List.filterMap_eq_map']
  rw [hkeyed]
  exact Groups.partitions_ofList _ ids

/-- Before the window there is one row for each list of texts that the entries have under the
properties to group by, in the order in which they first appear, and every entry belongs to exactly
one row. A row holds the first value that its members have of each property, unless that is none.
The answer is the stretch of the rows that the window cuts out. -/
theorem infos_grouped (catalog : Catalog) (ids : List Int64) (properties : List String)
    {group : List String} (h : group ≠ []) :
    ∃ (groups : Groups (List String) Int64) (rows : List (Dict Value)),
      Groups.Partitions (fun id => some (catalog.library.textsOf group id)) ids groups ∧
      (∀ id ∈ ids, ∃! place : Nat, ∃ members : List String × List Int64,
        groups[place]? = some members ∧ id ∈ members.2) ∧
      List.Forall₂ (fun members row => catalog.library.FirstRow properties members.2 row)
        groups rows ∧
      catalog.rows ids properties group = rows.map .dict ∧
      ∀ (window : Window) (place : Nat), (catalog.infos ids properties group window)[place]? =
        if window.length = 0 ∨ place < window.length then
          (rows[window.start + place]?).map .dict
        else none := by
  have hpartitions := partitions_rowKey catalog h ids
  refine ⟨_, (Groups.ofList (ids.map fun id => (catalog.rowKey group id, id))).map fun members =>
      catalog.record members.2 properties .first, hpartitions,
    fun id hid => hpartitions.existsUnique_group hid rfl, ?_, ?_, fun window place => ?_⟩
  · rw [List.forall₂_map_right_iff, List.forall₂_same]
    exact fun members _ => catalog.firstRow_record properties members.2
  · rw [rows, List.map_map]
    rfl
  · rw [infos, Window.getElem?_cut, rows, List.getElem?_map, List.getElem?_map, Option.map_map]
    rfl

/-- Two entries of one artist, the first with a title of none, and one without an artist. -/
def untitled : Catalog where
  library := (((Library.empty.add [("artist", .string "Air"), ("title", .none)]).2.add
    [("artist", .string "Air"), ("title", .string "b"), ("year", .int 1998)]).2.add
    [("title", .string "c")]).2
  store := .empty
  seed := 0

/-- The rows of artists, of which the second is asked for. Its title is that of the first member,
which is none, and its year that of the second. -/
theorem infos_grouped_untitled :
    ["artist"] ≠ [] ∧ ∃ (groups : Groups (List String) Int64) (rows : List (Dict Value)),
      Groups.Partitions (fun id => some (untitled.library.textsOf ["artist"] id)) [3, 1, 2, 3]
        groups ∧
      List.Forall₂ (fun members row =>
        untitled.library.FirstRow ["title", "year"] members.2 row) groups rows ∧
      rows.map Value.dict = [.dict [("title", .string "c")], .dict [("year", .int 1998)]] ∧
      (untitled.infos [3, 1, 2, 3] ["title", "year"] ["artist"] ⟨1, 5⟩)[0]? =
        some (.dict [("year", .int 1998)]) := by
  obtain ⟨groups, rows, hpartitions, -, hrows, hall, hwindow⟩ :=
    infos_grouped untitled [3, 1, 2, 3] ["title", "year"] (List.cons_ne_nil "artist" [])
  have hanswer : rows.map Value.dict =
      [.dict [("title", .string "c")], .dict [("year", .int 1998)]] := hall.symm.trans rfl
  refine ⟨List.cons_ne_nil _ _, groups, rows, hpartitions, hrows, hanswer, ?_⟩
  rw [hwindow, if_pos (.inr (by decide)), ← List.getElem?_map, hanswer]
  rfl

end Catalog

end MediaCatalog
