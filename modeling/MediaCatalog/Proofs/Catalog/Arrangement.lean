import Mathlib.Data.List.Permutation
import MediaCatalog.Proofs.Catalog.Drawing
import MediaCatalog.Proofs.Catalog.Paging

/-!
Which ids a collection selects and in what order, kind by kind. Each kind arranges what its
operands select, and none of them makes up an id; only a list of ids can name one twice. All of it
holds with any source of random order.
-/

namespace MediaCatalog

namespace Library

/-- The ids of a library ascend. -/
theorem ids_pairwise_lt (library : Library) : library.ids.Pairwise (· < ·) :=
  library.entries.ordered_keys.imp compareOfLessAndEq_eq_lt.mp

end Library

/-- Ascending ids differ from each other. -/
theorem nodup_of_pairwise_lt {ids : List Int64} (h : ids.Pairwise (· < ·)) : ids.Nodup :=
  h.imp Int64.ne_of_lt

/-- What a node of a kind selects, given the ids that it lists and those that the operands which
it reads select. -/
inductive Arranges (library : Library) (listed : List Int64) :
    CollectionKind → (parts : List (List Int64)) → (ids : List Int64) → Prop where
  | everything {ids : List Int64} (hascending : ids.Pairwise (· < ·))
      (hids : ∀ id, id ∈ ids ↔ library.contains id) : Arranges library listed .everything [] ids
  | idlist : Arranges library listed .idlist [] (listed.filter library.contains)
  | union {parts : List (List Int64)} {ids : List Int64} (hascending : ids.Pairwise (· < ·))
      (hids : ∀ id, id ∈ ids ↔ ∃ part ∈ parts, id ∈ part) :
      Arranges library listed .union parts ids
  | nothing : Arranges library listed .intersection [] []
  | intersection (first : List Int64) (others : List (List Int64)) :
      Arranges library listed .intersection (first :: others)
        (first.filter fun id => others.all (·.contains id))
  | complement {part ids : List Int64} (hascending : ids.Pairwise (· < ·))
      (hids : ∀ id, id ∈ ids ↔ library.contains id ∧ id ∉ part) :
      Arranges library listed .complement [part] ids
  | filterAll {ids : List Int64} (h : ids.Sublist library.ids) :
      Arranges library listed .filter [] ids
  | filter {part ids : List Int64} (h : ids.Sublist part) :
      Arranges library listed .filter [part] ids
  | order {part ids : List Int64} (h : ids.Perm part) : Arranges library listed .order [part] ids
  | limit {part ids : List Int64} (h : ids <:+: part) : Arranges library listed .limit [part] ids

namespace Arranges

variable {library : Library} {listed : List Int64} {kind : CollectionKind}
  {parts : List (List Int64)} {ids : List Int64}

/-- No id is made up. -/
theorem stored (h : Arranges library listed kind parts ids)
    (hparts : ∀ part ∈ parts, ∀ id ∈ part, library.contains id) :
    ∀ id ∈ ids, library.contains id := by
  intro id hid
  cases h with
  | everything _ hids => exact (hids id).mp hid
  | idlist => exact (List.mem_filter.mp hid).2
  | union _ hids =>
      obtain ⟨part, hpart, hid⟩ := (hids id).mp hid
      exact hparts part hpart id hid
  | nothing => cases hid
  | intersection first => exact hparts first List.mem_cons_self id (List.mem_filter.mp hid).1
  | complement _ hids => exact ((hids id).mp hid).1
  | filterAll h => exact Library.mem_ids.mp (h.subset hid)
  | filter h | order h | limit h => exact hparts _ List.mem_cons_self id (h.subset hid)

/-- An id that comes twice was listed twice, here or before. -/
theorem nodup (h : Arranges library listed kind parts ids) (hkind : kind ≠ .idlist)
    (hparts : ∀ part ∈ parts, part.Nodup) : ids.Nodup := by
  cases h with
  | everything hascending _ | union hascending _ | complement hascending _ =>
      exact nodup_of_pairwise_lt hascending
  | idlist => exact absurd rfl hkind
  | nothing => exact List.nodup_nil
  | intersection first => exact (hparts first List.mem_cons_self).filter _
  | filterAll h => exact h.nodup (nodup_of_pairwise_lt library.ids_pairwise_lt)
  | filter h => exact h.nodup (hparts _ List.mem_cons_self)
  | order h => exact h.nodup_iff.mpr (hparts _ List.mem_cons_self)
  | limit h => exact h.sublist.nodup (hparts _ List.mem_cons_self)

end Arranges

/-! ### One level -/

theorem Selection.eq_of_all_ok {results : List Selection} {parts : List (List Int64)}
    (h : all results = .ok parts) : results = parts.map .ok := by
  induction results generalizing parts with
  | nil =>
      cases h
      rfl
  | cons result rest ih =>
      obtain ⟨first, hfirst, h⟩ := exists_of_bind_ok h
      obtain ⟨others, hothers, h⟩ := exists_of_bind_ok h
      cases h
      rw [hfirst, ih hothers]
      rfl

/-- A first result that is also the only one. -/
theorem Selection.eq_of_first_ok {kind : CollectionKind} {results : List Selection}
    {part : List Int64} (h : first kind results = .ok part) (hlength : results.length ≤ 1) :
    results = [.ok part] := by
  match results, hlength with
  | [result], _ => exact congrArg (fun result => [result]) h

theorem Window.cut_infix {α : Type} (window : Window) (items : List α) :
    window.cut items <:+: items := by
  have hrest : items.drop window.start <:+: items := (List.drop_suffix _ _).isInfix
  unfold Window.cut
  simp only
  split
  · exact hrest
  · exact (List.take_prefix _ _).isInfix.trans hrest

theorem pairwise_lt_toList (ids : Std.TreeSet Int64) : ids.toList.Pairwise (· < ·) :=
  ids.ordered_toList.imp compareOfLessAndEq_eq_lt.mp

/-! ### Draws -/

namespace Catalog

variable {σ : Type} {shuffler : Shuffler σ} {catalog : Catalog} {resolving : List ReferenceKey}
  {node : Collection}

/-- No more results than the node reads operands. -/
theorem length_inputs_le (node : Collection) :
    node.inputs.length ≤ node.kind.reads node.operands.length := by
  rw [Collection.inputs, List.length_take]
  exact Nat.min_le_left _ _

theorem arranges_of_layer {results : List Selection} {follow : Namespace → String → Selection}
    {ids : List Int64} (hkind : node.kind ≠ .reference)
    (hlength : results.length = node.inputs.length)
    (h : catalog.layer node results follow = .ok ids) :
    ∃ parts, results = parts.map .ok ∧
      Arranges catalog.library node.ids node.kind parts ids := by
  have hreads := hlength ▸ length_inputs_le node
  obtain ⟨id, kind, attributes, operands, listed⟩ := node
  cases kind with
  | reference => exact absurd rfl hkind
  | everything =>
      cases h
      exact ⟨[], List.length_eq_zero_iff.mp (Nat.le_zero.mp hreads),
        .everything catalog.library.ids_pairwise_lt fun _ => Library.mem_ids⟩
  | idlist =>
      cases h
      exact ⟨[], List.length_eq_zero_iff.mp (Nat.le_zero.mp hreads), .idlist⟩
  | union =>
      obtain ⟨parts, hall, h⟩ := exists_of_bind_ok h
      cases h
      refine ⟨parts, Selection.eq_of_all_ok hall,
        .union (pairwise_lt_toList _) fun id => ?_⟩
      rw [Std.TreeSet.mem_toList, Std.TreeSet.mem_ofList, List.contains_iff_mem, List.mem_flatten]
  | intersection =>
      obtain ⟨parts, hall, h⟩ := exists_of_bind_ok h
      refine ⟨parts, Selection.eq_of_all_ok hall, ?_⟩
      cases parts with
      | nil =>
          cases h
          exact .nothing
      | cons first others =>
          cases h
          exact .intersection first others
  | complement =>
      obtain ⟨part, hfirst, h⟩ := exists_of_bind_ok h
      cases h
      refine ⟨[part], Selection.eq_of_first_ok hfirst hreads,
        .complement (catalog.library.ids_pairwise_lt.filter _) fun id => ?_⟩
      simp [Library.mem_ids]
  | filter =>
      obtain ⟨filter, -, h⟩ := exists_of_bind_ok h
      cases results with
      | nil =>
          cases h
          exact ⟨[], rfl, .filterAll List.filter_sublist⟩
      | cons result rest =>
          obtain ⟨part, hpart, h⟩ := exists_of_bind_ok h
          have hfirst : Selection.first .filter (result :: rest) = .ok part := hpart
          cases h
          exact ⟨[part], Selection.eq_of_first_ok hfirst hreads, .filter List.filter_sublist⟩
  | order =>
      obtain ⟨part, hfirst, h⟩ := exists_of_bind_ok h
      obtain ⟨key, -, h⟩ := exists_of_bind_ok h
      cases h
      exact ⟨[part], Selection.eq_of_first_ok hfirst hreads, .order (key.sort_perm catalog part)⟩
  | limit =>
      obtain ⟨part, hfirst, h⟩ := exists_of_bind_ok h
      obtain ⟨window, -, h⟩ := exists_of_bind_ok h
      cases h
      exact ⟨[part], Selection.eq_of_first_ok hfirst hreads, .limit (window.cut_infix part)⟩

theorem arranges_of_drawLayer {results : List Selection} {source : σ} {ids : List Int64}
    (hkind : node.kind ≠ .reference) (hlength : results.length = node.inputs.length)
    (h : (catalog.drawLayer shuffler node results source).1 = .ok ids) :
    ∃ parts, results = parts.map .ok ∧
      Arranges catalog.library node.ids node.kind parts ids := by
  have hreads := hlength ▸ length_inputs_le node
  unfold drawLayer at h
  split at h
  · next hrandom =>
    rw [hrandom.1] at hreads ⊢
    cases hfirst : Selection.first .order results with
    | error cause =>
        rw [hfirst] at h
        cases h
    | ok part =>
        -- What the source makes of the ids is a rearrangement of them.
        rw [hfirst] at h
        cases h
        exact ⟨[part], Selection.eq_of_first_ok hfirst hreads, .order (shuffler.perm part source)⟩
  · exact arranges_of_layer hkind hlength h

theorem drawAll_cons (operand : Collection) (rest : List Collection) (source : σ) :
    catalog.drawAll shuffler resolving (operand :: rest) source =
      let first := catalog.draw shuffler resolving operand source
      let others := catalog.drawAll shuffler resolving rest first.2
      (first.1 :: others.1, others.2) := by
  rw [drawAll, List.mapM_cons]
  rfl

theorem length_drawAll (operands : List Collection) (source : σ) :
    (catalog.drawAll shuffler resolving operands source).1.length = operands.length := by
  induction operands generalizing source with
  | nil => rfl
  | cons operand rest ih => simp only [drawAll_cons, List.length_cons, ih]

/-- What holds of all that the operands can select holds of what they do select. -/
theorem of_mem_drawAll {P : List Int64 → Prop} {operands : List Collection}
    (h : ∀ operand ∈ operands, ∀ source ids,
      (catalog.draw shuffler resolving operand source).1 = .ok ids → P ids)
    {source : σ} {part : List Int64}
    (hpart : .ok part ∈ (catalog.drawAll shuffler resolving operands source).1) : P part := by
  induction operands generalizing source with
  | nil => cases hpart
  | cons operand rest ih =>
      rw [List.forall_mem_cons] at h
      rw [drawAll_cons] at hpart
      cases List.mem_cons.mp hpart with
      | inl hfirst => exact h.1 source part hfirst.symm
      | inr hrest => exact ih h.2 hrest

variable {source : σ} {ids : List Int64}

theorem arranges_of_draw (hkind : node.kind ≠ .reference)
    (h : (catalog.draw shuffler resolving node source).1 = .ok ids) :
    ∃ parts, (catalog.drawAll shuffler resolving node.inputs source).1 = parts.map .ok ∧
      Arranges catalog.library node.ids node.kind parts ids := by
  rw [draw_of_ne_reference hkind] at h
  exact arranges_of_drawLayer hkind (length_drawAll _ _) h

/-- A reference stands for the library, or for something saved that is not under way. -/
theorem target_of_draw (hkind : node.kind = .reference)
    (h : (catalog.draw shuffler resolving node source).1 = .ok ids) :
    Target.ofNode node = .ok .everything ∧ ids = catalog.library.ids ∨
      ∃ space name target, Target.ofNode node = .ok (.saved space name) ∧
        (space, name) ∉ resolving ∧ catalog.store.get name space = .ok target ∧
        catalog.draw shuffler ((space, name) :: resolving) target source =
          catalog.draw shuffler resolving node source := by
  rw [draw_reference hkind] at h ⊢
  cases htarget : Target.ofNode node with
  | error cause =>
      rw [htarget] at h
      cases h
  | ok target =>
      rw [htarget] at h
      cases target with
      | everything =>
          cases h
          exact .inl ⟨rfl, rfl⟩
      | saved space name =>
          by_cases hmem : (space, name) ∈ resolving
          · simp only [hmem, if_true] at h
            cases h
          · simp only [hmem, if_false] at h ⊢
            cases hget : catalog.store.get name space with
            | error cause =>
                rw [hget] at h
                cases h
            | ok target => exact .inr ⟨space, name, target, rfl, hmem, hget, rfl⟩

/-- Whatever a collection selects is in the library, and it is there once if no list of ids can
have named it. -/
theorem draw_sound (shuffler : Shuffler σ) (catalog : Catalog) (resolving : List ReferenceKey)
    (node : Collection) : ∀ source ids, (catalog.draw shuffler resolving node source).1 = .ok ids →
      (∀ id ∈ ids, catalog.library.contains id) ∧
        ((∀ reached, Reaches catalog.store node reached → reached.kind ≠ .idlist) → ids.Nodup) := by
  induction resolving, node using catalog.select_induction with
  | step resolving node hinputs htargets =>
      intro source ids h
      by_cases hkind : node.kind = .reference
      · rcases target_of_draw hkind h with
          ⟨-, rfl⟩ | ⟨space, name, target, htarget, hnew, hget, hsame⟩
        · exact ⟨fun id => Library.mem_ids.mp,
            fun _ => nodup_of_pairwise_lt catalog.library.ids_pairwise_lt⟩
        · rw [← hsame] at h
          obtain ⟨hstored, hnodup⟩ := htargets space name target hnew hget source ids h
          exact ⟨hstored, fun hfree => hnodup fun reached hreached =>
            hfree reached (.target hkind htarget hget hreached)⟩
      · obtain ⟨parts, hparts, harranges⟩ := arranges_of_draw hkind h
        have hdrawn : ∀ part ∈ parts,
            .ok part ∈ (catalog.drawAll shuffler resolving node.inputs source).1 :=
          fun part hpart => hparts ▸ List.mem_map_of_mem hpart
        constructor
        · refine harranges.stored fun part hpart =>
            of_mem_drawAll (P := fun ids => ∀ id ∈ ids, catalog.library.contains id) ?_
              (hdrawn part hpart)
          exact fun operand hoperand source ids h => (hinputs operand hoperand source ids h).1
        · intro hfree
          refine harranges.nodup (hfree node (.here node)) fun part hpart =>
            of_mem_drawAll ?_ (hdrawn part hpart)
          exact fun operand hoperand source ids h => (hinputs operand hoperand source ids h).2
            fun reached hreached => hfree reached (.input hoperand hreached)

/-! ### References under way -/

theorem drawAll_of_subset {fewer : List ReferenceKey} {operands : List Collection}
    (h : ∀ operand ∈ operands, ∀ source ids,
      (catalog.draw shuffler resolving operand source).1 = .ok ids →
        catalog.draw shuffler fewer operand source = catalog.draw shuffler resolving operand source)
    {source : σ} {parts : List (List Int64)}
    (hparts : (catalog.drawAll shuffler resolving operands source).1 = parts.map .ok) :
    catalog.drawAll shuffler fewer operands source =
      catalog.drawAll shuffler resolving operands source := by
  induction operands generalizing source parts with
  | nil => rfl
  | cons operand rest ih =>
      rw [List.forall_mem_cons] at h
      rw [drawAll_cons] at hparts
      cases parts with
      | nil => cases hparts
      | cons part others =>
          obtain ⟨hpart, hothers⟩ := List.cons.inj hparts
          rw [drawAll_cons, drawAll_cons, h.1 source part hpart]
          simp only [ih h.2 hothers]

/-- What a collection selects does not change when fewer references are under way. -/
theorem draw_of_subset (shuffler : Shuffler σ) (catalog : Catalog) (resolving : List ReferenceKey)
    (node : Collection) : ∀ fewer ⊆ resolving, ∀ source ids,
      (catalog.draw shuffler resolving node source).1 = .ok ids →
        catalog.draw shuffler fewer node source = catalog.draw shuffler resolving node source := by
  induction resolving, node using catalog.select_induction with
  | step resolving node hinputs htargets =>
      intro fewer hfewer source ids h
      by_cases hkind : node.kind = .reference
      · rcases target_of_draw hkind h with
          ⟨htarget, -⟩ | ⟨space, name, target, htarget, hnew, hget, hsame⟩
        · rw [draw_reference hkind, draw_reference hkind, htarget]
        · have hnew' : (space, name) ∉ fewer := fun hmem => hnew (hfewer hmem)
          rw [← hsame] at h ⊢
          rw [draw_reference hkind, htarget]
          simp only [hnew', if_false, hget]
          exact htargets space name target hnew hget _ (List.cons_subset_cons _ hfewer) source ids h
      · obtain ⟨parts, hparts, -⟩ := arranges_of_draw hkind h
        have hsame := drawAll_of_subset (fun operand hoperand =>
          hinputs operand hoperand fewer hfewer) hparts
        rw [draw_of_ne_reference hkind, draw_of_ne_reference hkind]
        simp only [bind, StateT.bind, hsame]

/-! ### Whole evaluations -/

/-- Evaluation draws from the source that the seed stands for. From any source, and so from this
one, whatever a collection selects is in the library. Each kind arranges what the operands that it
reads select: ascending, or in the order of the first operand, or as a part or a rearrangement of
it. A reference selects what the saved collection does. Nothing is selected twice if no list of ids
can be reached. -/
theorem evaluate_arranged (catalog : Catalog) (node : Collection) :
    catalog.evaluate node = (catalog.draw .seeded [] node catalog.seed).1 ∧
    ∀ {σ : Type} (shuffler : Shuffler σ) (source : σ) (ids : List Int64),
      (catalog.draw shuffler [] node source).1 = .ok ids →
      (∀ id ∈ ids, catalog.library.contains id) ∧
      (if node.kind = .reference then
        Target.ofNode node = .ok .everything ∧ ids = catalog.library.ids ∨
          ∃ space name target, Target.ofNode node = .ok (.saved space name) ∧
            catalog.store.get name space = .ok target ∧
            (catalog.draw shuffler [] target source).1 = .ok ids
      else
        ∃ parts, (catalog.drawAll shuffler [] node.inputs source).1 = parts.map .ok ∧
          Arranges catalog.library node.ids node.kind parts ids) ∧
      ((∀ reached, Reaches catalog.store node reached → reached.kind ≠ .idlist) → ids.Nodup) := by
  refine ⟨by rw [draw_seeded, evaluate], fun shuffler source ids h => ?_⟩
  obtain ⟨hstored, hnodup⟩ := draw_sound shuffler catalog [] node source ids h
  refine ⟨hstored, ?_, hnodup⟩
  split
  · next hkind =>
    rcases target_of_draw hkind h with hall | ⟨space, name, target, htarget, hnew, hget, hsame⟩
    · exact .inl hall
    · rw [← hsame] at h
      refine .inr ⟨space, name, target, htarget, hget, ?_⟩
      rw [draw_of_subset shuffler catalog _ target [] (List.nil_subset _) source ids h, h]
  · next hkind => exact arranges_of_draw hkind h

/-- A source that turns everything round, and counts. -/
def turning : Shuffler Nat where
  shuffle ids count := (ids.reverse, count + 1)
  perm ids _ := ids.reverse_perm

/-- All entries but the first. -/
def late : Collection :=
  .node 1 .limit [(Attribute.start, .int 1)] [.node 0 .everything [] [] []] []

/-- Three entries, of which a saved collection leaves out the first. -/
def lateCatalog : Catalog where
  library := (((Library.empty.add []).2.add []).2.add []).2
  store := { collections := ({} : Std.TreeMap String Collection).insert "Late" late }

/-- All entries downwards, those among them that are saved as late ones, in random order. -/
def shuffledLate : Collection :=
  .node 2 .order [(Attribute.type, .string "random")]
    [.node 3 .intersection []
      [.node 4 .order [(Attribute.type, .string "id"),
          (Attribute.direction, .string Attribute.descending)] [.node 5 .everything [] [] []] [],
        .node 6 .reference [(Attribute.reference, .string "Late")] [] []] []] []

theorem get_late : lateCatalog.store.get "Late" .collections = .ok late := rfl

theorem draw_shuffledLate :
    (lateCatalog.draw turning [] shuffledLate 0).1 = .ok [2, 3] := by
  have heverything (id : NodeId) :
      lateCatalog.drawLayer turning (.node id .everything [] [] []) [] =
        pure (.ok lateCatalog.library.ids) := rfl
  have hdescending : lateCatalog.drawLayer turning
      (.node 4 .order [(Attribute.type, .string "id"),
        (Attribute.direction, .string Attribute.descending)] [.node 5 .everything [] [] []] [])
      [.ok lateCatalog.library.ids] = pure (.ok [3, 2, 1]) := by
    have hsorted : (SortKey.id true).sort lateCatalog lateCatalog.library.ids = [3, 2, 1] := by cbv
    rw [drawLayer, if_neg (by decide)]
    exact congrArg (fun ids => (pure (.ok ids) : StateM Nat Selection)) hsorted
  have hsaved : lateCatalog.draw turning []
      (.node 6 .reference [(Attribute.reference, .string "Late")] [] []) =
        lateCatalog.draw turning [(.collections, "Late")] late := by
    rw [draw_reference rfl]
    show (if (Namespace.collections, "Late") ∈ [] then _ else _) = _
    rw [if_neg List.not_mem_nil, get_late]
  -- Below the random order nothing is drawn, so its operand has one result.
  simp (disch := decide) only [shuffledLate, late, hsaved, draw_of_ne_reference,
    Collection.inputs_node, CollectionKind.reads, List.length_cons, List.length_nil,
    List.take_succ_cons, List.take_nil, drawAll, List.mapM_cons, List.mapM_nil,
    pure_bind, heverything, hdescending]
  rfl

/-- A node that is no list and no reference comes to a list only through its operands. -/
theorem listFree_of_inputs {store : Store} {node : Collection} (hlist : node.kind ≠ .idlist)
    (hreference : node.kind ≠ .reference)
    (hinputs : ∀ operand ∈ node.inputs, ∀ reached, Reaches store operand reached →
      reached.kind ≠ .idlist) :
    ∀ reached, Reaches store node reached → reached.kind ≠ .idlist :=
  Reaches.forall_of_parts hlist hinputs fun _ _ _ h => absurd h hreference

theorem listFree_late :
    ∀ reached, Reaches lateCatalog.store late reached → reached.kind ≠ .idlist := by
  refine listFree_of_inputs (by decide) (by decide) ?_
  rintro _ (_ | ⟨_, ⟨⟩⟩)
  exact listFree_of_inputs (by decide) (by decide) (List.forall_mem_nil _)

theorem listFree_shuffledLate :
    ∀ reached, Reaches lateCatalog.store shuffledLate reached → reached.kind ≠ .idlist := by
  refine listFree_of_inputs (by decide) (by decide) ?_
  rintro _ (_ | ⟨_, ⟨⟩⟩)
  refine listFree_of_inputs (by decide) (by decide) ?_
  rintro _ (_ | ⟨_, _ | ⟨_, ⟨⟩⟩⟩)
  · refine listFree_of_inputs (by decide) (by decide) ?_
    rintro _ (_ | ⟨_, ⟨⟩⟩)
    exact listFree_of_inputs (by decide) (by decide) (List.forall_mem_nil _)
  · refine Reaches.forall_of_parts (by decide) (List.forall_mem_nil _) ?_
    intro space name target _ htarget hget
    cases htarget
    obtain rfl : late = target := Except.ok.inj (get_late.symm.trans hget)
    exact listFree_late

theorem evaluate_arranged_shuffledLate :
    (lateCatalog.draw turning [] shuffledLate 0).1 = .ok [2, 3] ∧
      (∀ reached, Reaches lateCatalog.store shuffledLate reached → reached.kind ≠ .idlist) ∧
      (∀ id ∈ [2, 3], lateCatalog.library.contains id) ∧
      (∃ parts, (lateCatalog.drawAll turning [] shuffledLate.inputs 0).1 = parts.map .ok ∧
        Arranges lateCatalog.library shuffledLate.ids shuffledLate.kind parts [2, 3]) ∧
      [(2 : Int64), 3].Nodup := by
  obtain ⟨-, harranged⟩ := evaluate_arranged lateCatalog shuffledLate
  obtain ⟨hstored, hparts, hnodup⟩ := harranged turning 0 [2, 3] draw_shuffledLate
  rw [if_neg (by decide)] at hparts
  exact ⟨draw_shuffledLate, listFree_shuffledLate, hstored, hparts, hnodup listFree_shuffledLate⟩

end Catalog

end MediaCatalog
