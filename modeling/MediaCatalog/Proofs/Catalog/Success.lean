import MediaCatalog.Proofs.Catalog.Resolving

/-!
When evaluation succeeds. What a node asks of its operands and attributes is said here apart from
the order in which evaluation looks at them. A collection selects something exactly if every node
that it leads to has what its kind asks for, and every reference among them leads to something
saved that is not under way there. Any other collection is refused with a lookup miss or with a
message for the client.
-/

namespace MediaCatalog

/-! ### What nodes ask for -/

namespace Collection

/-- A filter names its test and its property, and has a value unless it tests for presence. -/
def TellsFilter (node : Collection) : Prop :=
  ∃ predicate : Predicate, node.attributeString? Attribute.type = some predicate.name ∧
    (node.attributeString? Attribute.field).isSome ∧
    (predicate = .has ∨ (node.attribute? Attribute.value).isSome)

/-- An order is random, by id, or by a property that it names; the last unless it says which. -/
def TellsOrder (node : Collection) : Prop :=
  node.attributeString? Attribute.type = some "random" ∨
    node.attributeString? Attribute.type = some "id" ∨
    (node.attributeString? Attribute.type = none ∨
        node.attributeString? Attribute.type = some "value") ∧
      (node.attributeString? Attribute.field).isSome

/-- A count is missing, or it is a number that is not negative. -/
def TellsCount (node : Collection) (key : String) : Prop :=
  ∀ value, node.attribute? key = some value → ∃ number, value = .int number ∧ 0 ≤ number

/-- The namespace that a reference looks into. -/
inductive LooksInto (node : Collection) : Namespace → Prop where
  | unsaid (h : node.attributeString? Attribute.space = none) : LooksInto node .collections
  | named (space : Namespace) (h : node.attributeString? Attribute.space = some space.name) :
      LooksInto node space

/-- A reference has a name, and looks into a namespace unless it stands for the whole library. -/
def TellsTarget (node : Collection) : Prop :=
  ∃ name, node.attributeString? Attribute.reference = some name ∧
    (name = Target.allMedia ∨ ∃ space, node.LooksInto space)

/-- A node has the operand and the attributes that its kind asks for. -/
def Complete (node : Collection) : Prop :=
  match node.kind with
  | .everything | .idlist | .union | .intersection => True
  | .complement => node.operands ≠ []
  | .filter => node.TellsFilter
  | .order => node.operands ≠ [] ∧ node.TellsOrder
  | .limit =>
    node.operands ≠ [] ∧ node.TellsCount Attribute.start ∧ node.TellsCount Attribute.length
  | .reference => node.TellsTarget

/-- The node refers to what is saved under a name; nothing is saved as the whole library. -/
structure RefersTo (node : Collection) (space : Namespace) (name : String) : Prop where
  reference : node.kind = .reference
  named : node.attributeString? Attribute.reference = some name
  saved : name ≠ Target.allMedia
  looks : node.LooksInto space

end Collection

/-- A collection comes to another one by way of references, the latest of them first. -/
inductive Visits (store : Store) : Collection → List ReferenceKey → Collection → Prop where
  | here (node : Collection) : Visits store node [] node
  | input {node operand reached : Collection} {keys : List ReferenceKey}
      (hinput : operand ∈ node.inputs) (h : Visits store operand keys reached) :
      Visits store node keys reached
  | target {node target reached : Collection} {keys : List ReferenceKey} {space : Namespace}
      {name : String} (hrefers : node.RefersTo space name)
      (hget : store.get name space = .ok target) (h : Visits store target keys reached) :
      Visits store node (keys ++ [(space, name)]) reached

/-- Everything that a collection comes to is complete, and every reference in it has a target
and leads to none of those that are being resolved there. -/
def Resolvable (store : Store) (resolving : List ReferenceKey) (node : Collection) : Prop :=
  ∀ keys reached, Visits store node keys reached → reached.Complete ∧
    ∀ space name, reached.RefersTo space name →
      (∃ target, store.get name space = .ok target) ∧ (space, name) ∉ keys ++ resolving

/-- Whether everything can be resolved is decided at the node, at its operands and behind its
reference. -/
theorem resolvable_iff {store : Store} {resolving : List ReferenceKey} {node : Collection} :
    Resolvable store resolving node ↔ node.Complete ∧
      (∀ operand ∈ node.inputs, Resolvable store resolving operand) ∧
      ∀ space name, node.RefersTo space name → (space, name) ∉ resolving ∧
        ∃ target, store.get name space = .ok target ∧
          Resolvable store ((space, name) :: resolving) target := by
  constructor
  · intro h
    obtain ⟨hcomplete, hreferences⟩ := h [] node (.here node)
    refine ⟨hcomplete, fun operand hoperand keys reached hreached =>
      h keys reached (.input hoperand hreached), fun space name hrefers => ?_⟩
    obtain ⟨⟨target, hget⟩, hnew⟩ := hreferences space name hrefers
    refine ⟨hnew, target, hget, fun keys reached hreached => ?_⟩
    have hbehind := h _ reached (.target hrefers hget hreached)
    rwa [List.append_assoc] at hbehind
  · rintro ⟨hcomplete, hinputs, htargets⟩ keys reached hreached
    cases hreached with
    | here =>
        refine ⟨hcomplete, fun space name hrefers => ?_⟩
        obtain ⟨hnew, target, hget, -⟩ := htargets space name hrefers
        exact ⟨⟨target, hget⟩, hnew⟩
    | input hinput h => exact hinputs _ hinput keys reached h
    | @target _ target _ keys space name hrefers hget h =>
        obtain ⟨-, target', hget', hbehind⟩ := htargets space name hrefers
        obtain rfl : target = target' := Except.ok.inj (hget.symm.trans hget')
        have hreached := hbehind keys reached h
        rwa [List.append_assoc]

/-! ### Results that are settled by a condition -/

/-- The failures of evaluation: a lookup miss, or a message for the client. -/
def Error.Reported (cause : Error) : Prop :=
  (∃ what, cause = .notFound what) ∨ ∃ reason, cause = .remote reason

/-- There is a result exactly if the condition holds; a failure is one of evaluation. -/
structure Settles {α : Type} (result : Except Error α) (condition : Prop) : Prop where
  succeeds : (∃ value, result = .ok value) ↔ condition
  reports : ∀ cause, result = .error cause → cause.Reported

namespace Settles

variable {α β : Type} {result : Except Error α} {condition condition' : Prop}

theorem ok (value : α) (h : condition) : Settles (.ok value) condition :=
  ⟨⟨fun _ => h, fun _ => ⟨value, rfl⟩⟩, fun _ hcause => nomatch hcause⟩

theorem error {cause : Error} (hcause : cause.Reported) (h : ¬ condition) :
    Settles (.error cause : Except Error α) condition :=
  ⟨⟨fun ⟨_, hvalue⟩ => (nomatch hvalue), fun hcondition => absurd hcondition h⟩,
    fun _ hsame => Except.error.inj hsame ▸ hcause⟩

theorem remote (reason : String) (h : ¬ condition) :
    Settles (.error (.remote reason) : Except Error α) condition :=
  .error (.inr ⟨reason, rfl⟩) h

theorem congr (h : Settles result condition) (hiff : condition ↔ condition') :
    Settles result condition' :=
  ⟨h.succeeds.trans hiff, h.reports⟩

theorem bind {next : α → Except Error β} (h : Settles result condition)
    (hnext : ∀ value, result = .ok value → Settles (next value) condition') :
    Settles (result >>= next) (condition ∧ condition') := by
  cases result with
  | error cause =>
      refine .error (h.reports cause rfl) fun hboth => ?_
      obtain ⟨value, hvalue⟩ := h.succeeds.mpr hboth.1
      cases hvalue
  | ok value =>
      have hcondition := h.succeeds.mp ⟨value, rfl⟩
      exact (hnext value rfl).congr ⟨fun h' => ⟨hcondition, h'⟩, fun h' => h'.2⟩

/-- What is made of a result without further questions succeeds with it. -/
theorem map {next : α → Except Error β} (h : Settles result condition)
    (hnext : ∀ value, ∃ answer, next value = .ok answer) :
    Settles (result >>= next) condition := by
  have hanswered : Settles (result >>= next) (condition ∧ True) := by
    refine h.bind fun value _ => ?_
    obtain ⟨answer, hanswer⟩ := hnext value
    rw [hanswer]
    exact .ok answer trivial
  exact hanswered.congr (and_iff_left trivial)

end Settles

/-! ### Reading nodes -/

theorem Predicate.name_of_ofName? {name : String} {predicate : Predicate}
    (h : ofName? name = some predicate) : name = predicate.name := by
  unfold ofName? at h
  split at h <;> cases h <;> rfl

theorem Namespace.name_of_ofName? {name : String} {space : Namespace}
    (h : ofName? name = some space) : name = space.name := by
  unfold ofName? at h
  split at h <;> cases h <;> rfl

theorem Namespace.ofName?_name (space : Namespace) : ofName? space.name = some space := by
  cases space <;> rfl

theorem Predicate.name_injective {first second : Predicate} (h : first.name = second.name) :
    first = second := by
  have hread := congrArg ofName? h
  rw [ofName?_name, ofName?_name] at hread
  exact Option.some.inj hread

theorem Namespace.name_injective {first second : Namespace} (h : first.name = second.name) :
    first = second := by
  have hread := congrArg ofName? h
  rw [ofName?_name, ofName?_name] at hread
  exact Option.some.inj hread

theorem Filter.ofNode_settles (node : Collection) :
    Settles (Filter.ofNode node) node.TellsFilter := by
  unfold Filter.ofNode Collection.TellsFilter
  cases htype : node.attributeString? Attribute.type with
  | none => exact .remote _ (by simp)
  | some type =>
      cases hpredicate : Predicate.ofName? type with
      | none =>
          simp only [Option.bind_some, hpredicate]
          refine .remote _ ?_
          rintro ⟨predicate, hname, -⟩
          rw [Option.some.inj hname, Predicate.ofName?_name] at hpredicate
          cases hpredicate
      | some predicate =>
          obtain rfl := Predicate.name_of_ofName? hpredicate
          simp only [Option.bind_some, hpredicate]
          cases hfield : node.attributeString? Attribute.field with
          | none => exact .remote _ (by simp)
          | some field =>
              dsimp only
              by_cases hvalue : (node.attribute? Attribute.value).isNone ∧ predicate ≠ .has
              · rw [if_pos hvalue]
                refine .remote _ ?_
                rintro ⟨other, hname, -, hhas⟩
                rw [Option.some_inj] at hname
                obtain rfl := Predicate.name_injective hname
                rcases hhas with rfl | hsome
                · exact hvalue.2 rfl
                · simp [Option.isNone_iff_eq_none.mp hvalue.1] at hsome
              · rw [if_neg hvalue]
                refine .ok _ ⟨predicate, rfl, rfl, ?_⟩
                by_cases hhas : predicate = .has
                · exact .inl hhas
                · refine .inr (Option.isSome_iff_ne_none.mpr fun hnone => hvalue ⟨?_, hhas⟩)
                  rw [hnone]
                  rfl

theorem SortKey.ofNode_settles (node : Collection) :
    Settles (SortKey.ofNode node) node.TellsOrder := by
  unfold SortKey.ofNode Collection.TellsOrder
  cases htype : node.attributeString? Attribute.type with
  | none =>
      cases hfield : node.attributeString? Attribute.field with
      | none => exact .remote _ (by simp)
      | some field => exact .ok _ (by simp)
  | some type =>
      simp only [Option.getD_some]
      split
      · exact .ok _ (by simp)
      · exact .ok _ (by simp)
      · cases hfield : node.attributeString? Attribute.field with
        | none => exact .remote _ (by simp)
        | some field => exact .ok _ (by simp)
      · next hrandom hid hvalue =>
        exact .remote _ (by simpa using ⟨hrandom, hid, fun h => absurd h hvalue⟩)

theorem Window.count_settles (node : Collection) (key : String) :
    Settles (Window.count node key) (node.TellsCount key) := by
  unfold Window.count Collection.TellsCount
  cases node.attribute? key with
  | none => exact .ok _ (by simp)
  | some value =>
      simp only [Option.some.injEq, forall_eq']
      cases value with
      | int number =>
          simp only [Value.int?, Value.int.injEq, exists_eq_left']
          by_cases hnumber : 0 ≤ number
          · rw [if_pos hnumber]
            exact .ok _ hnumber
          · rw [if_neg hnumber]
            exact .remote _ hnumber
      | _ => exact .remote _ (by simp)

theorem Window.ofNode_settles (node : Collection) :
    Settles (Window.ofNode node)
      (node.TellsCount Attribute.start ∧ node.TellsCount Attribute.length) :=
  (count_settles node Attribute.start).bind fun _ _ =>
    (count_settles node Attribute.length).map fun _ => ⟨_, rfl⟩

/-- What a reference stands for, and what it refers to. -/
inductive Target.Read (node : Collection) : Except Error Target → Prop where
  | untold {reason : String} (h : ¬ node.TellsTarget) : Read node (.error (.remote reason))
  | everything (h : node.TellsTarget) (hnone : ∀ space name, ¬ node.RefersTo space name) :
      Read node (.ok .everything)
  | saved {space : Namespace} {name : String} (h : node.TellsTarget)
      (honly : ∀ space' name', node.RefersTo space' name' ↔ space' = space ∧ name' = name) :
      Read node (.ok (.saved space name))

theorem Collection.LooksInto.unique {node : Collection} {first second : Namespace}
    (hfirst : node.LooksInto first) (hsecond : node.LooksInto second) : first = second := by
  cases hfirst with
  | unsaid hnone =>
      cases hsecond with
      | unsaid _ => rfl
      | named _ hsome => rw [hnone] at hsome; cases hsome
  | named _ hsome =>
      cases hsecond with
      | unsaid hnone => rw [hnone] at hsome; cases hsome
      | named _ hsome' => exact Namespace.name_injective (Option.some.inj (hsome.symm.trans hsome'))

/-- The namespace is read from the attribute, which may be missing. -/
theorem Collection.looksInto_iff {node : Collection} {space : Namespace} :
    node.LooksInto space ↔ Namespace.ofName? ((node.attributeString? Attribute.space).getD
      Namespace.collections.name) = some space := by
  constructor
  · rintro (hnone | ⟨_, hsome⟩)
    · rw [hnone]
      rfl
    · rw [hsome]
      exact Namespace.ofName?_name space
  · intro h
    cases hspace : node.attributeString? Attribute.space with
    | none =>
        rw [hspace] at h
        obtain rfl : Namespace.collections = space := Option.some.inj h
        exact .unsaid hspace
    | some name =>
        rw [hspace] at h
        exact .named space (hspace.trans (congrArg some (Namespace.name_of_ofName? h)))

theorem Target.ofNode_read {node : Collection} (hkind : node.kind = .reference) :
    Target.Read node (Target.ofNode node) := by
  unfold Target.ofNode
  cases hname : node.attributeString? Attribute.reference with
  | none => exact .untold fun ⟨name, hsome, _⟩ => by rw [hname] at hsome; cases hsome
  | some name =>
      dsimp only
      by_cases hall : name = Target.allMedia
      · rw [if_pos hall]
        refine .everything ⟨name, hname, .inl hall⟩ fun space other hrefers => ?_
        rw [Option.some.inj (hrefers.named.symm.trans hname)] at hrefers
        exact hrefers.saved hall
      · rw [if_neg hall]
        cases hspace : Namespace.ofName? ((node.attributeString? Attribute.space).getD
            Namespace.collections.name) with
        | none =>
            refine .untold ?_
            rintro ⟨other, hother, hmedia | ⟨space, hlooks⟩⟩
            · exact hall (Option.some.inj (hname.symm.trans hother) ▸ hmedia)
            · rw [Collection.looksInto_iff, hspace] at hlooks
              cases hlooks
        | some space =>
            have hlooks : node.LooksInto space := Collection.looksInto_iff.mpr hspace
            refine .saved ⟨name, hname, .inr ⟨space, hlooks⟩⟩ fun space' name' => ⟨?_, ?_⟩
            · intro hrefers
              exact ⟨hrefers.looks.unique hlooks,
                Option.some.inj (hrefers.named.symm.trans hname)⟩
            · rintro ⟨rfl, rfl⟩
              exact ⟨hkind, hname, hall, hlooks⟩

theorem Store.get_settles (store : Store) (name : String) (space : Namespace) :
    Settles (store.get name space) (∃ target, store.get name space = .ok target) := by
  refine ⟨Iff.rfl, fun cause hcause => ?_⟩
  unfold Store.get at hcause
  split at hcause
  · cases hcause
  · exact .inl ⟨_, (Except.error.inj hcause).symm⟩

/-! ### Levels -/

namespace Selection

variable {ask : Collection → Selection} {good : Collection → Prop}

theorem all_settles {operands : List Collection}
    (h : ∀ operand ∈ operands, Settles (ask operand) (good operand)) :
    Settles (all (operands.map ask)) (∀ operand ∈ operands, good operand) := by
  induction operands with
  | nil => exact .ok _ (List.forall_mem_nil _)
  | cons operand rest ih =>
      rw [List.forall_mem_cons] at h
      exact (h.1.bind fun _ _ => (ih h.2).map fun _ => ⟨_, rfl⟩).congr List.forall_mem_cons.symm

theorem first_settles (kind : CollectionKind) {operands : List Collection}
    (h : ∀ operand ∈ operands.take 1, Settles (ask operand) (good operand)) :
    Settles (first kind ((operands.take 1).map ask))
      (operands ≠ [] ∧ ∀ operand ∈ operands.take 1, good operand) := by
  cases operands with
  | nil => exact .remote _ (by simp)
  | cons operand rest => exact (h operand List.mem_cons_self).congr (by simp)

end Selection

namespace Catalog

variable {catalog : Catalog} {ask : Collection → Selection} {good : Collection → Prop}
  {follow : Namespace → String → Selection} {leads : Namespace → String → Prop}

/-- A level succeeds if the node has what its kind asks for, and everything below and behind the
node succeeds. -/
theorem layer_settles {node : Collection}
    (hinputs : ∀ operand ∈ node.inputs, Settles (ask operand) (good operand))
    (hfollow : ∀ space name, Settles (follow space name) (leads space name)) :
    Settles (catalog.layer node (node.inputs.map ask) follow)
      (node.Complete ∧ (∀ operand ∈ node.inputs, good operand) ∧
        ∀ space name, node.RefersTo space name → leads space name) := by
  obtain ⟨id, kind, attributes, operands, ids⟩ := node
  have hplain (hkind : kind ≠ .reference) : ∀ space name,
      (Collection.node id kind attributes operands ids).RefersTo space name → leads space name :=
    fun _ _ hrefers => absurd hrefers.reference hkind
  cases kind with
  | everything | idlist =>
      refine .ok _ ⟨trivial, ?_, hplain (by decide)⟩
      simp [Collection.inputs, Collection.kind, CollectionKind.reads]
  | union =>
      refine Settles.congr (Settles.map (Selection.all_settles hinputs) fun parts => ?_)
        ⟨fun h => ⟨trivial, h, hplain (by decide)⟩, fun h => h.2.1⟩
      exact ⟨_, rfl⟩
  | intersection =>
      refine Settles.congr (Settles.map (Selection.all_settles hinputs) fun parts => ?_)
        ⟨fun h => ⟨trivial, h, hplain (by decide)⟩, fun h => h.2.1⟩
      cases parts <;> exact ⟨_, rfl⟩
  | complement =>
      refine Settles.congr (Settles.map (Selection.first_settles .complement hinputs)
        fun excluded => ⟨_, rfl⟩) ⟨fun h => ⟨h.1, h.2, hplain (by decide)⟩, fun h => ⟨h.1, h.2.1⟩⟩
  | filter =>
      refine Settles.congr (Settles.bind (Filter.ofNode_settles _) fun filter _ => ?_)
        ⟨fun h => ⟨h.1, h.2, hplain (by decide)⟩, fun h => ⟨h.1, h.2.1⟩⟩
      -- Without an operand it is the whole library that is filtered.
      cases operands with
      | nil => exact .ok _ (List.forall_mem_nil _)
      | cons operand rest =>
          refine Settles.congr (Settles.map (hinputs operand List.mem_cons_self)
            fun ids => ⟨_, rfl⟩) ?_
          simp [Collection.inputs, Collection.operands, Collection.kind, CollectionKind.reads]
  | order =>
      refine Settles.congr (Settles.bind (Selection.first_settles .order hinputs) fun selected _ =>
        Settles.map (SortKey.ofNode_settles _) fun key => ⟨_, rfl⟩) ?_
      exact ⟨fun h => ⟨⟨h.1.1, h.2⟩, h.1.2, hplain (by decide)⟩, fun h => ⟨⟨h.1.1, h.2.1⟩, h.1.2⟩⟩
  | limit =>
      refine Settles.congr (Settles.bind (Selection.first_settles .limit hinputs) fun selected _ =>
        Settles.map (Window.ofNode_settles _) fun window => ⟨_, rfl⟩) ?_
      exact ⟨fun h => ⟨⟨h.1.1, h.2⟩, h.1.2, hplain (by decide)⟩, fun h => ⟨⟨h.1.1, h.2.1⟩, h.1.2⟩⟩
  | reference =>
      have hread : Target.Read (.node id .reference attributes operands ids) _ :=
        Target.ofNode_read rfl
      rw [layer_reference rfl]
      generalize Target.ofNode (.node id .reference attributes operands ids) = read at hread ⊢
      have hnone : ∀ operand ∈ (Collection.node id .reference attributes operands ids).inputs,
          good operand := List.forall_mem_nil _
      cases hread with
      | untold h => exact .remote _ fun hall => h hall.1
      | everything h hnowhere =>
          exact .ok _ ⟨h, hnone, fun space name hrefers => absurd hrefers (hnowhere space name)⟩
      | @saved space name h honly =>
          refine (hfollow space name).congr
            ⟨fun hleads => ⟨h, hnone, fun space' name' hrefers => ?_⟩,
            fun hall => hall.2.2 space name ((honly space name).mpr ⟨rfl, rfl⟩)⟩
          obtain ⟨rfl, rfl⟩ := (honly space' name').mp hrefers
          exact hleads

/-- Following a reference succeeds if there is a target that is not under way and succeeds. -/
theorem follow_settles {resolving : List ReferenceKey} {space : Namespace} {name : String}
    {good : Collection → Prop}
    (h : ∀ target, (space, name) ∉ resolving → catalog.store.get name space = .ok target →
      Settles (catalog.select ((space, name) :: resolving) target) (good target)) :
    Settles (catalog.follow resolving space name) ((space, name) ∉ resolving ∧
      ∃ target, catalog.store.get name space = .ok target ∧ good target) := by
  by_cases hmem : (space, name) ∈ resolving
  · rw [follow_of_mem hmem]
    exact .remote _ fun hboth => hboth.1 hmem
  · rw [follow_of_notMem hmem]
    have hget := catalog.store.get_settles name space
    cases hsaved : catalog.store.get name space with
    | error cause =>
        refine .error (hget.reports cause hsaved) ?_
        rintro ⟨-, target, htarget, -⟩
        cases htarget
    | ok target =>
        refine (h target hmem hsaved).congr ⟨fun hgood => ⟨hmem, target, rfl, hgood⟩, ?_⟩
        rintro ⟨-, target', htarget, hgood⟩
        exact Except.ok.inj htarget ▸ hgood

/-- A collection selects something exactly if everything it comes to can be resolved. -/
theorem select_settles (catalog : Catalog) (resolving : List ReferenceKey) (node : Collection) :
    Settles (catalog.select resolving node) (Resolvable catalog.store resolving node) := by
  induction resolving, node using catalog.select_induction with
  | step resolving node hinputs htargets =>
      rw [select_eq_layer, resolvable_iff]
      exact layer_settles hinputs fun space name => follow_settles (htargets space name)

/-- Evaluation ends, on any stack of references under way and from some allowance on, with ids, a
lookup miss or a message for the client, and leaves the stack as it was. It ends with ids exactly if
everything that the collection comes to is complete, each reference there has a target, and none
leads back to one that is being resolved. -/
theorem evaluate_ends (catalog : Catalog) (collection : Collection) :
    (∀ resolving, ∃ result enough,
      (∀ allowance ≥ enough,
        catalog.resolve allowance collection resolving = some (result, resolving)) ∧
      ∀ cause, result = .error cause →
        (∃ what, cause = .notFound what) ∨ ∃ reason, cause = .remote reason) ∧
    (∃ enough, ∀ allowance ≥ enough,
      catalog.resolve allowance collection [] = some (catalog.evaluate collection, [])) ∧
    ((∃ ids, catalog.evaluate collection = .ok ids) ↔
      ∀ keys reached, Visits catalog.store collection keys reached → reached.Complete ∧
        ∀ space name, reached.RefersTo space name →
          (∃ target, catalog.store.get name space = .ok target) ∧ (space, name) ∉ keys) := by
  refine ⟨fun resolving => ?_, catalog.resolve_restores [] collection, ?_⟩
  · obtain ⟨enough, hresolve⟩ := catalog.resolve_restores resolving collection
    exact ⟨catalog.select resolving collection, enough, hresolve,
      (catalog.select_settles resolving collection).reports⟩
  · have hevaluate := (catalog.select_settles [] collection).succeeds
    simp only [Resolvable, List.append_nil] at hevaluate
    exact hevaluate

end Catalog

end MediaCatalog
