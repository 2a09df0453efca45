import Mathlib.Data.List.Perm.Basic

/-!
Stable sorting. A list is another one sorted stably if it has the same items, ascending, and the
items that compare as equal in the order in which they stood. There is only one such list, and
sorting by one key after another, the last one first, gives the list sorted by all of them. It
begins with the first of the least items and ends with the last of the greatest.
-/

namespace MediaCatalog

variable {α : Type} {order first second : α → α → Ordering} {items sorted resorted : List α}

/-- The items in ascending order; those that compare as equal keep the order they had. -/
structure StableSort (order : α → α → Ordering) (items sorted : List α) : Prop where
  perm : sorted.Perm items
  ascending : sorted.Pairwise fun left right => (order left right).isLE
  stable : ∀ item, sorted.filter (order item · = .eq) = items.filter (order item · = .eq)

/-- The first of the items that no item comes before. -/
structure FirstLeast (order : α → α → Ordering) (items : List α) (item : α) : Prop where
  least : ∀ other ∈ items, (order item other).isLE
  first : (items.filter (order item · = .eq)).head? = some item

/-- The last of the items that come before no item. -/
structure LastGreatest (order : α → α → Ordering) (items : List α) (item : α) : Prop where
  greatest : ∀ other ∈ items, (order other item).isLE
  last : (items.filter (order item · = .eq)).getLast? = some item

namespace StableSort

/-- Where all items compare as equal nothing moves. -/
theorem of_eq (items : List α) : StableSort (fun _ _ => .eq) items items where
  perm := .refl items
  ascending := List.pairwise_of_forall fun _ _ => rfl
  stable _ := rfl

theorem of_mergeSort [Std.TransCmp order] (items : List α) :
    StableSort order items (items.mergeSort fun left right => (order left right).isLE) := by
  have htrans (a b c : α) : (order a b).isLE → (order b c).isLE → (order a c).isLE :=
    Std.TransCmp.isLE_trans
  have htotal (a b : α) : ((order a b).isLE || (order b a).isLE) = true := by
    have hswap : order b a = (order a b).swap := Std.OrientedCmp.eq_swap
    rw [hswap]
    cases order a b <;> rfl
  have hperm := items.mergeSort_perm fun left right => (order left right).isLE
  refine ⟨hperm, List.pairwise_mergeSort htrans htotal items, fun item => ?_⟩
  -- Items that are equal to one ascend before anything is sorted, so they stay as they are.
  have hequal : (items.filter (order item · = .eq)).Pairwise fun a b => (order a b).isLE := by
    refine List.pairwise_filter.mpr (List.pairwise_of_forall fun a b ha hb => ?_)
    rw [decide_eq_true_eq] at ha hb
    rw [← Std.TransCmp.congr_left ha, hb]
    rfl
  have hsublist := (List.sublist_mergeSort htrans htotal hequal List.filter_sublist).filter
    (order item · = .eq)
  simp only [List.filter_filter, Bool.and_self] at hsublist
  exact (hsublist.eq_of_length (hperm.filter _).length_eq.symm).symm

/-- An item that is equal to another one is the first of those equal to it in front of any list. -/
theorem filter_cons_equal {item head : α} (h : order item head = .eq) (rest : List α) :
    (head :: rest).filter (order item · = .eq) = head :: rest.filter (order item · = .eq) :=
  List.filter_cons_of_pos (decide_eq_true h)

/-! ### One sorted list -/

/-- The first item of an ascending list is the least one. -/
theorem isLE_of_mem [Std.TransCmp order] {head item : α} {rest : List α}
    (hascending : (head :: rest).Pairwise fun left right => (order left right).isLE)
    (hmem : item ∈ head :: rest) : (order head item).isLE := by
  rcases List.mem_cons.mp hmem with rfl | hmem
  · exact Std.ReflCmp.isLE_rfl
  · exact List.rel_of_pairwise_cons hascending hmem

/-- Ascending lists of the same items are one list if equal items come in one order. -/
theorem eq_of_perm [Std.TransCmp order] {left right : List α} (hperm : left.Perm right)
    (hleft : left.Pairwise fun a b => (order a b).isLE)
    (hright : right.Pairwise fun a b => (order a b).isLE)
    (hstable : ∀ item, left.filter (order item · = .eq) = right.filter (order item · = .eq)) :
    left = right := by
  induction left generalizing right with
  | nil => exact hperm.nil_eq
  | cons head rest ih =>
      cases right with
      | nil => exact absurd hperm.symm (List.not_perm_nil_cons _ _)
      | cons head' rest' =>
          have hsame : order head head' = .eq :=
            Std.OrientedCmp.isLE_antisymm
              (isLE_of_mem hleft (hperm.mem_iff.mpr List.mem_cons_self))
              (isLE_of_mem hright (hperm.mem_iff.mp List.mem_cons_self))
          -- Both heads are the first of the items equal to them.
          have hheads := hstable head
          rw [filter_cons_equal Std.ReflCmp.compare_self, filter_cons_equal hsame] at hheads
          obtain ⟨rfl, -⟩ := List.cons.inj hheads
          have hrests (item : α) :
              rest.filter (order item · = .eq) = rest'.filter (order item · = .eq) := by
            have hitem := hstable item
            rw [List.filter_cons, List.filter_cons] at hitem
            split at hitem
            · exact (List.cons.inj hitem).2
            · exact hitem
          rw [ih hperm.cons_inv hleft.of_cons hright.of_cons hrests]

/-- Items are sorted stably in one way only. -/
theorem unique [Std.TransCmp order] {other : List α} (h : StableSort order items sorted)
    (h' : StableSort order items other) : sorted = other :=
  eq_of_perm (h.perm.trans h'.perm.symm) h.ascending h'.ascending
    fun item => (h.stable item).trans (h'.stable item).symm

/-! ### One key after another -/

/-- What ascends by a first key, and by a second one wherever the first does not tell items apart,
ascends by both. -/
theorem pairwise_compareLex [Std.TransCmp first]
    (hfirst : items.Pairwise fun a b => (first a b).isLE)
    (hsecond : ∀ item, (items.filter (first item · = .eq)).Pairwise
      fun a b => (second a b).isLE) :
    items.Pairwise fun a b => (compareLex first second a b).isLE := by
  induction items with
  | nil => exact .nil
  | cons head rest ih =>
      have htail (item : α) : (rest.filter (first item · = .eq)).Pairwise
          fun a b => (second a b).isLE :=
        (hsecond item).sublist ((List.sublist_cons_self head rest).filter _)
      refine List.pairwise_cons.mpr ⟨fun other hother => ?_, ih hfirst.of_cons htail⟩
      rw [compareLex, Ordering.isLE_then_iff_or]
      cases hcompare : first head other with
      | lt => exact .inl rfl
      | gt =>
          have hle := List.rel_of_pairwise_cons hfirst hother
          rw [hcompare] at hle
          cases hle
      | eq =>
          have hequal := hsecond head
          rw [filter_cons_equal Std.ReflCmp.compare_self] at hequal
          exact .inr ⟨rfl, List.rel_of_pairwise_cons hequal
            (List.mem_filter.mpr ⟨hother, decide_eq_true hcompare⟩)⟩

/-- Sorting by a second key and then by a first one is sorting by the first key, with the second
one for ties. -/
theorem then_by [Std.TransCmp first] (h : StableSort second items sorted)
    (h' : StableSort first sorted resorted) :
    StableSort (compareLex first second) items resorted where
  perm := h'.perm.trans h.perm
  ascending := by
    refine pairwise_compareLex h'.ascending fun item => ?_
    rw [h'.stable item]
    exact h.ascending.filter _
  stable item := by
    -- Equal by both keys means equal by the one and by the other.
    have hboth (list : List α) : list.filter (compareLex first second item · = .eq) =
        (list.filter (first item · = .eq)).filter (second item · = .eq) := by
      rw [List.filter_filter]
      refine List.filter_congr fun other _ => ?_
      simp only [compareLex, Ordering.then_eq_eq, Bool.decide_and, Bool.and_comm]
    rw [hboth, hboth, h'.stable, List.filter_comm, h.stable, List.filter_comm]

/-! ### The ends of a sorted list -/

theorem head?_eq [Std.TransCmp order] (h : StableSort order items sorted) {item : α}
    (hitem : FirstLeast order items item) : sorted.head? = some item := by
  have hmem : item ∈ sorted :=
    h.perm.mem_iff.mpr (List.mem_of_mem_filter (List.mem_of_mem_head? hitem.first))
  cases sorted with
  | nil => exact absurd hmem List.not_mem_nil
  | cons head rest =>
      have hequal : order item head = .eq :=
        Std.OrientedCmp.isLE_antisymm
          (hitem.least head (h.perm.mem_iff.mp List.mem_cons_self)) (isLE_of_mem h.ascending hmem)
      rw [← hitem.first, ← h.stable item, filter_cons_equal hequal]
      rfl

theorem getLast?_eq [Std.TransCmp order] (h : StableSort order items sorted) {item : α}
    (hitem : LastGreatest order items item) : sorted.getLast? = some item := by
  have hmem : item ∈ sorted :=
    h.perm.mem_iff.mpr (List.mem_of_mem_filter (List.mem_of_getLast? hitem.last))
  rcases sorted.eq_nil_or_concat' with rfl | ⟨front, last, rfl⟩
  · exact absurd hmem List.not_mem_nil
  · have hle : (order item last).isLE := by
      rcases List.mem_append.mp hmem with hfront | hlast
      · exact (List.pairwise_append.mp h.ascending).2.2 item hfront last (List.mem_singleton_self _)
      · rw [List.mem_singleton.mp hlast]
        exact Std.ReflCmp.isLE_rfl
    have hequal : order item last = .eq :=
      Std.OrientedCmp.isLE_antisymm hle (hitem.greatest last (h.perm.mem_iff.mp (by simp)))
    have hfilter : (front ++ [last]).filter (order item · = .eq) =
        front.filter (order item · = .eq) ++ [last] := by
      simp [hequal]
    rw [← hitem.last, ← h.stable item, hfilter, List.getLast?_concat, List.getLast?_concat]

/-! ### Views of the items -/

/-- Views that compare as the items do are sorted as the items are. Not every item has to have
one. -/
theorem filterMap {β : Type} {viewOrder : β → β → Ordering} [Std.TransCmp viewOrder]
    (h : StableSort order items sorted) (view : α → Option β)
    (hview : ∀ {a b : α} {x y : β}, view a = some x → view b = some y →
      order a b = viewOrder x y) :
    StableSort viewOrder (items.filterMap view) (sorted.filterMap view) where
  perm := h.perm.filterMap view
  ascending := by
    refine List.pairwise_filterMap.mpr (h.ascending.imp fun {a b} hle x hx y hy => ?_)
    rwa [← hview hx hy]
  stable x := by
    by_cases hsome : ∃ a ∈ items, ∃ y, view a = some y ∧ viewOrder x y = .eq
    · obtain ⟨a, -, y, hy, hequal⟩ := hsome
      -- The equals of a view are the views of the equals of its item.
      have hitems (list : List α) : (list.filterMap view).filter (viewOrder x · = .eq) =
          (list.filter (order a · = .eq)).filterMap view := by
        rw [List.filter_filterMap, List.filterMap_filter]
        refine List.filterMap_congr fun b _ => ?_
        cases hb : view b with
        | none => simp
        | some z =>
            have hsame : order a b = viewOrder x z := by
              rw [hview hy hb, Std.TransCmp.congr_left hequal]
            simp [hsame, Option.filter]
      rw [hitems, hitems, h.stable]
    · have hempty : (items.filterMap view).filter (viewOrder x · = .eq) = [] := by
        refine List.filter_eq_nil_iff.mpr fun y hy hequal => hsome ?_
        obtain ⟨a, ha, hy⟩ := List.mem_filterMap.mp hy
        exact ⟨a, ha, y, hy, of_decide_eq_true hequal⟩
      rw [hempty]
      exact (((h.perm.filterMap view).filter _).trans (.of_eq hempty)).eq_nil

end StableSort

end MediaCatalog
