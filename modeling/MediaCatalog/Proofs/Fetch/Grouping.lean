import Mathlib.Data.List.Induction
import Mathlib.Data.List.Nodup
import MediaCatalog.Fetch.Grouping

/-!
What grouping comes to: one group for each key, in the order in which the keys first appear, and
in it the items of that key. When no two items have one key every item is a group of its own. Items
without a key are left out, and the groups share out all others.
-/

namespace MediaCatalog

/-! ### First appearances -/

section FirstAppearances

variable {α : Type} [DecidableEq α]

theorem eraseDups_append_of_mem {items : List α} {item : α} (h : item ∈ items) :
    (items ++ [item]).eraseDups = items.eraseDups := by
  simp [List.eraseDups_append, List.removeAll, h]

theorem eraseDups_append_of_notMem {items : List α} {item : α} (h : item ∉ items) :
    (items ++ [item]).eraseDups = items.eraseDups ++ [item] := by
  simp [List.eraseDups_append, List.removeAll, h, List.eraseDups_cons]

theorem nodup_eraseDups (items : List α) : items.eraseDups.Nodup := by
  induction items using List.reverseRecOn with
  | nil => exact List.nodup_nil
  | append_singleton items item ih =>
      by_cases h : item ∈ items
      · rwa [eraseDups_append_of_mem h]
      · rw [eraseDups_append_of_notMem h, List.nodup_append]
        refine ⟨ih, List.nodup_singleton item, fun other hother next hnext hsame => h ?_⟩
        rwa [← List.mem_singleton.mp hnext, ← hsame, ← List.mem_eraseDups]

/-- Items of which none comes twice all appear for the first time. -/
theorem eraseDups_of_nodup {items : List α} (h : items.Nodup) : items.eraseDups = items := by
  induction items using List.reverseRecOn with
  | nil => rfl
  | append_singleton items item ih =>
      rw [List.nodup_append] at h
      have hnew : item ∉ items := fun hitem => h.2.2 item hitem item (List.mem_singleton_self _) rfl
      rw [eraseDups_append_of_notMem hnew, ih h.1]

theorem length_eraseDups_le (items : List α) : items.eraseDups.length ≤ items.length := by
  induction items using List.reverseRecOn with
  | nil => exact Nat.le_refl 0
  | append_singleton items item ih =>
      by_cases h : item ∈ items
      · rw [eraseDups_append_of_mem h, List.length_append]
        omega
      · rw [eraseDups_append_of_notMem h, List.length_append, List.length_append]
        omega

/-- Some item came before if there are fewer first appearances than items. -/
theorem length_eraseDups_lt {items : List α} (h : ¬ items.Nodup) :
    items.eraseDups.length < items.length := by
  induction items using List.reverseRecOn with
  | nil => exact absurd List.nodup_nil h
  | append_singleton items item ih =>
      have hle := length_eraseDups_le items
      by_cases hitem : item ∈ items
      · rw [eraseDups_append_of_mem hitem, List.length_append, List.length_singleton]
        omega
      · have hdup : ¬ items.Nodup := fun hnodup => h <| by
          rw [List.nodup_append]
          exact ⟨hnodup, List.nodup_singleton item, fun other hother next hnext hsame =>
            hitem (by rwa [← List.mem_singleton.mp hnext, ← hsame])⟩
        have := ih hdup
        rw [eraseDups_append_of_notMem hitem, List.length_append, List.length_append]
        omega

/-- Renaming items one to one does not change which appear for the first time. -/
theorem eraseDups_map {β : Type} [DecidableEq β] {f : α → β} (hf : Function.Injective f)
    (items : List α) : (items.map f).eraseDups = items.eraseDups.map f := by
  induction items using List.reverseRecOn with
  | nil => rfl
  | append_singleton items item ih =>
      rw [List.map_append, List.map_singleton]
      by_cases h : item ∈ items
      · rw [eraseDups_append_of_mem h, eraseDups_append_of_mem (List.mem_map_of_mem h), ih]
      · have hnew : f item ∉ items.map f := by simpa [hf.eq_iff] using h
        rw [eraseDups_append_of_notMem h, eraseDups_append_of_notMem hnew, ih, List.map_append,
          List.map_singleton]

end FirstAppearances

/-! ### Groups -/

namespace Groups

variable {κ α : Type} [DecidableEq κ]

/-- The items of one key. -/
def membersOf (items : List (κ × α)) (key : κ) : List α :=
  (items.filter fun item => item.1 = key).map Prod.snd

theorem mem_membersOf {items : List (κ × α)} {key : κ} {item : α} :
    item ∈ membersOf items key ↔ (key, item) ∈ items := by
  simp [membersOf]

theorem ofList_append_singleton (items : List (κ × α)) (item : κ × α) :
    ofList (items ++ [item]) = insert (ofList items) item.1 item.2 := by
  simp [ofList]

theorem insert_of_notMem {groups : Groups κ α} {key : κ} (h : key ∉ groups.map Prod.fst)
    (item : α) : insert groups key item = groups ++ [(key, [item])] := by
  induction groups with
  | nil => rfl
  | cons group rest ih =>
      simp only [List.map_cons, List.mem_cons, not_or] at h
      simp [insert, Ne.symm h.1, ih h.2]

theorem insert_map_of_mem {keys : List κ} {key : κ} (h : key ∈ keys) (hnodup : keys.Nodup)
    (members : κ → List α) (item : α) :
    insert (keys.map fun other => (other, members other)) key item =
      keys.map fun other =>
        (other, if other = key then members other ++ [item] else members other) := by
  induction keys with
  | nil => cases h
  | cons other rest ih =>
      rw [List.nodup_cons] at hnodup
      by_cases hsame : other = key
      · subst hsame
        have hrest : (rest.map fun name => (name, members name)) =
            rest.map fun name =>
              (name, if name = other then members name ++ [item] else members name) := by
          refine List.map_congr_left fun name hname => ?_
          have hother : name ≠ other := fun h => hnodup.1 (h ▸ hname)
          rw [if_neg hother]
        simp [insert, hrest]
      · have hmem : key ∈ rest := (List.mem_cons.mp h).resolve_left (Ne.symm hsame)
        simp [insert, hsame, ih hmem hnodup.2]

/-- One group for each key, in order of first appearance, with the items of the key. -/
theorem ofList_eq (items : List (κ × α)) :
    ofList items =
      (items.map Prod.fst).eraseDups.map fun key => (key, membersOf items key) := by
  induction items using List.reverseRecOn with
  | nil => rfl
  | append_singleton items item ih =>
      rw [ofList_append_singleton, ih, List.map_append, List.map_singleton]
      by_cases h : item.1 ∈ items.map Prod.fst
      · rw [insert_map_of_mem (List.mem_eraseDups.mpr h) (nodup_eraseDups _),
          eraseDups_append_of_mem h]
        refine List.map_congr_left fun key _ => ?_
        by_cases hkey : key = item.1
        · simp [membersOf, hkey]
        · simp [membersOf, hkey, Ne.symm hkey]
      · rw [insert_of_notMem (by simpa using h), eraseDups_append_of_notMem h, List.map_append,
          List.map_singleton]
        congr 1
        · refine List.map_congr_left fun key hkey => ?_
          have hother : item.1 ≠ key := fun hsame => h (hsame ▸ List.mem_eraseDups.mp hkey)
          simp [membersOf, hother]
        · have hnone : items.filter (fun other => other.1 = item.1) = [] := by
            rw [List.filter_eq_nil_iff]
            intro other hother hsame
            exact h (of_decide_eq_true hsame ▸ List.mem_map_of_mem hother)
          simp [membersOf, hnone]

/-- Under keys of their own items stay apart. -/
theorem ofList_of_nodup {items : List (κ × α)} (h : (items.map Prod.fst).Nodup) :
    ofList items = items.map fun item => (item.1, [item.2]) := by
  induction items using List.reverseRecOn with
  | nil => rfl
  | append_singleton items item ih =>
      rw [List.map_append, List.nodup_append] at h
      have hnew : item.1 ∉ items.map Prod.fst := fun hmem =>
        h.2.2 _ hmem item.1 (List.mem_singleton_self _) rfl
      rw [ofList_append_singleton, ih h.1, insert_of_notMem, List.map_append, List.map_singleton]
      rw [List.map_map]
      exact hnew

/-! ### Items with and without a key -/

/-- The groups of the items that have a key. -/
structure Partitions (key? : α → Option κ) (items : List α) (groups : Groups κ α) : Prop where
  /-- One group for each key, in the order in which the keys first appear. -/
  keys : groups.map Prod.fst = (items.filterMap key?).eraseDups
  distinct : (groups.map Prod.fst).Nodup
  nonempty : ∀ group ∈ groups, group.2 ≠ []
  /-- A group holds the items of its key, in their order. -/
  members : ∀ group ∈ groups, group.2 = items.filter fun item => key? item = some group.1
  together : (groups.flatMap Prod.snd).Perm (items.filter fun item => (key? item).isSome)

/-- The items of some keys, key after key, are the items that have one of these keys. -/
theorem flatMap_filter_perm (key? : α → Option κ) (items : List α) {keys : List κ}
    (h : keys.Nodup) :
    (keys.flatMap fun key => items.filter fun item => key? item = some key).Perm
      (items.filter fun item => (key? item).any (· ∈ keys)) := by
  induction keys with
  | nil =>
      rw [List.flatMap_nil, List.filter_eq_nil_iff.mpr]
      intro item _
      cases key? item <;> simp
  | cons key rest ih =>
      rw [List.nodup_cons] at h
      -- the items of the first key and those of the rest are what one test divides the whole into
      have hkey : items.filter (fun item => key? item = some key) =
          (items.filter fun item => (key? item).any (· ∈ key :: rest)).filter
            fun item => key? item = some key := by
        rw [List.filter_filter]
        refine List.filter_congr fun item _ => ?_
        cases key? item <;> simp_all
      have hrest : items.filter (fun item => (key? item).any (· ∈ rest)) =
          (items.filter fun item => (key? item).any (· ∈ key :: rest)).filter
            fun item => !decide (key? item = some key) := by
        rw [List.filter_filter]
        refine List.filter_congr fun item _ => ?_
        cases hitem : key? item with
        | none => simp
        | some other =>
            by_cases hsame : other = key
            · simp [hsame, h.1]
            · simp [hsame]
      rw [List.flatMap_cons]
      refine ((ih h.2).append_left _).trans ?_
      rw [hkey, hrest]
      exact List.filter_append_perm _ _

theorem membersOf_filterMap (key? : α → Option κ) (items : List α) (key : κ) :
    membersOf (items.filterMap fun item => (key? item).map (·, item)) key =
      items.filter fun item => key? item = some key := by
  induction items with
  | nil => rfl
  | cons item rest ih =>
      rw [membersOf] at ih ⊢
      cases hitem : key? item with
      | none => simp [hitem, ih]
      | some other => by_cases hsame : other = key <;> simp [hitem, hsame, ih]

/-- Grouping keyed items partitions those that have a key. -/
theorem partitions_ofList (key? : α → Option κ) (items : List α) :
    Partitions key? items (ofList (items.filterMap fun item => (key? item).map (·, item))) := by
  have hkeys : (items.filterMap fun item => (key? item).map (·, item)).map Prod.fst =
      items.filterMap key? := by
    rw [List.map_filterMap]
    congr
    funext item
    cases key? item <;> rfl
  have hgroups : ofList (items.filterMap fun item => (key? item).map (·, item)) =
      (items.filterMap key?).eraseDups.map fun key =>
        (key, items.filter fun item => key? item = some key) := by
    rw [ofList_eq, hkeys]
    simp only [membersOf_filterMap]
  have hfirst : (ofList (items.filterMap fun item => (key? item).map (·, item))).map Prod.fst =
      (items.filterMap key?).eraseDups := by
    rw [hgroups, List.map_map]
    exact List.map_id _
  refine ⟨hfirst, hfirst ▸ nodup_eraseDups _, ?_, ?_, ?_⟩
  · rw [hgroups]
    intro group hgroup
    obtain ⟨key, hkey, rfl⟩ := List.mem_map.mp hgroup
    obtain ⟨item, hitem, hsome⟩ := List.mem_filterMap.mp (List.mem_eraseDups.mp hkey)
    exact List.ne_nil_of_mem (List.mem_filter.mpr ⟨hitem, decide_eq_true hsome⟩)
  · rw [hgroups]
    intro group hgroup
    obtain ⟨key, -, rfl⟩ := List.mem_map.mp hgroup
    rfl
  · rw [hgroups, List.flatMap_map]
    refine (flatMap_filter_perm key? items (nodup_eraseDups _)).trans (.of_eq ?_)
    refine List.filter_congr fun item hitem => ?_
    cases hkey : key? item with
    | none => rfl
    | some key => simpa using ⟨item, hitem, hkey⟩

namespace Partitions

variable {key? : α → Option κ} {items : List α} {groups : Groups κ α}

/-- An item with a key is in exactly one group. -/
theorem existsUnique_group (h : Partitions key? items groups) {item : α} (hitem : item ∈ items)
    (hkey : (key? item).isSome) :
    ∃! place : Nat, ∃ group : κ × List α, groups[place]? = some group ∧ item ∈ group.2 := by
  obtain ⟨key, hkey⟩ := Option.isSome_iff_exists.mp hkey
  have hmem : key ∈ groups.map Prod.fst := by
    rw [h.keys, List.mem_eraseDups]
    exact List.mem_filterMap.mpr ⟨item, hitem, hkey⟩
  obtain ⟨group, hgroup, rfl⟩ := List.mem_map.mp hmem
  obtain ⟨place, hplace⟩ := List.mem_iff_getElem?.mp hgroup
  refine ⟨place, ⟨group, hplace, ?_⟩, ?_⟩
  · rw [h.members group hgroup]
    exact List.mem_filter.mpr ⟨hitem, decide_eq_true hkey⟩
  · rintro other ⟨group', hother, hitem'⟩
    rw [h.members group' (List.mem_of_getElem? hother)] at hitem'
    have hsame : key? item = some group'.1 := of_decide_eq_true (List.mem_filter.mp hitem').2
    rw [hkey, Option.some_inj] at hsame
    have hfirst : (groups.map Prod.fst)[other]? = (groups.map Prod.fst)[place]? := by
      rw [List.getElem?_map, List.getElem?_map, hplace, hother]
      exact congrArg some hsame.symm
    have hlt := (List.getElem?_eq_some_iff.mp hother).1
    exact (List.getElem?_inj (by simpa using hlt) h.distinct).mp hfirst

end Partitions

end Groups

end MediaCatalog
