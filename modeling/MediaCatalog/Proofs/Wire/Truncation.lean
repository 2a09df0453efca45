import MediaCatalog.Proofs.Wire.Acceptance
import MediaCatalog.Proofs.Wire.Spelling

/-!
Cut messages. A reader makes no use of what follows the bytes that it takes, and it asks for each of
them before it makes any other check of them. So if some of them are missing, it runs into the end
of the input, wherever the cut falls. No encoding is then the beginning of another one.
-/

namespace MediaCatalog

namespace Wire

/-- The reader takes the same bytes whatever follows them, and runs into the end of the input if
some of them are missing. -/
def NoticesEnd {α : Type} (read : Reader α) : Prop :=
  ∀ (input : List UInt8) (nodes : List Collection) (next : NodeId) (result : α)
    (after : ReadState), read ⟨input, nodes, next⟩ = .ok result after →
    ∃ front, input = front ++ after.input ∧
      (∀ rest, read ⟨front ++ rest, nodes, next⟩ = .ok result { after with input := rest }) ∧
      ∀ cut, cut <+: front → cut ≠ front →
        ∃ state, read ⟨cut, nodes, next⟩ = .error .unexpectedEnd state

/-- What is cut off from two pieces ends in the first one or in the second one. -/
theorem cut_append {α : Type} {cut front back : List α} (h : cut <+: front ++ back)
    (hne : cut ≠ front ++ back) :
    (cut <+: front ∧ cut ≠ front) ∨
      ∃ inner, cut = front ++ inner ∧ inner <+: back ∧ inner ≠ back := by
  rcases List.prefix_or_prefix_of_prefix h (List.prefix_append front back) with hshort | hlong
  · by_cases hsame : cut = front
    · subst hsame
      refine .inr ⟨[], (List.append_nil cut).symm, List.nil_prefix, fun hback => hne ?_⟩
      rw [← hback, List.append_nil]
    · exact .inl ⟨hshort, hsame⟩
  · obtain ⟨inner, rfl⟩ := hlong
    refine .inr ⟨inner, rfl, (List.prefix_append_right_inj front).mp h, fun hinner => hne ?_⟩
    rw [hinner]

namespace NoticesEnd

variable {α β : Type}

/-! ### One reader after another -/

/-- A reader that takes nothing. -/
theorem of_frame {read : Reader α}
    (h : ∀ {input nodes next result after}, read ⟨input, nodes, next⟩ = .ok result after →
      input = after.input ∧
        ∀ rest, read ⟨rest, nodes, next⟩ = .ok result { after with input := rest }) :
    NoticesEnd read := by
  intro input nodes next result after hread
  obtain ⟨hinput, hframe⟩ := h hread
  exact ⟨[], hinput, hframe, fun cut hcut hne => absurd (List.prefix_nil.mp hcut) hne⟩

theorem pure (result : α) : NoticesEnd (Pure.pure result : Reader α) :=
  of_frame fun hread => by
    obtain ⟨rfl, rfl⟩ := EStateM.Result.ok.inj hread
    exact ⟨rfl, fun _ => rfl⟩

/-- A reader that never succeeds. -/
theorem throw (cause : WireError) : NoticesEnd (MonadExcept.throw cause : Reader α) :=
  fun _ _ _ _ _ hread => nomatch hread

/-- The cut falls into what the first reader takes, or the first one takes all of it. -/
theorem bind {read : Reader α} {next : α → Reader β} (h : NoticesEnd read)
    (h' : ∀ result, NoticesEnd (next result)) : NoticesEnd (read >>= next) := by
  intro input nodes fresh result after hread
  obtain ⟨first, middle, hfirst, hlast⟩ := Reader.exists_of_bind_ok hread
  obtain ⟨front, hfront, htakes, hcut⟩ := h _ _ _ _ _ hfirst
  obtain ⟨back, hback, htakes', hcut'⟩ := h' first _ _ _ _ _ hlast
  refine ⟨front ++ back, ?_, fun rest => ?_, fun cut hbegins hne => ?_⟩
  · rw [hfront, hback, List.append_assoc]
  · rw [List.append_assoc, Reader.bind_ok (htakes _), htakes']
  · rcases cut_append hbegins hne with ⟨hshort, hne⟩ | ⟨inner, rfl, hinner, hne⟩
    · obtain ⟨state, hstate⟩ := hcut cut hshort hne
      exact ⟨state, Reader.bind_error hstate⟩
    · obtain ⟨state, hstate⟩ := hcut' inner hinner hne
      exact ⟨state, by rw [Reader.bind_ok (htakes inner), hstate]⟩

theorem many {item : Reader α} (h : NoticesEnd item) :
    ∀ count, NoticesEnd (Reader.many item count)
  | 0 => .pure []
  | count + 1 => h.bind fun _ => (many h count).bind fun _ => .pure _

/-! ### Fields -/

theorem bytes (count : Nat) : NoticesEnd (Reader.bytes count) := by
  intro input nodes next front after hread
  obtain ⟨hsize, hstate⟩ := Reader.bytes_ok hread
  obtain ⟨rfl, rfl, rfl⟩ := ReadState.mk.inj hstate
  refine ⟨front, rfl, fun rest => Reader.bytes_append hsize, fun cut hcut hne => ?_⟩
  have hshort : cut.length < front.length :=
    hcut.length_le.lt_of_ne fun hlength => hne (hcut.eq_of_length hlength)
  have hnone : splitAt? count cut = none := by
    rw [splitAt?, List.length_take]
    exact if_neg (by omega)
  refine ⟨⟨cut, after.nodes, after.next⟩, ?_⟩
  simp only [Reader.bytes, hnone]

theorem byte : NoticesEnd Reader.byte := by
  intro input nodes next first after hread
  cases input with
  | nil => cases hread
  | cons head rest =>
      obtain ⟨rfl, rfl⟩ := EStateM.Result.ok.inj hread
      refine ⟨[head], rfl, fun rest => rfl, fun cut hcut hne => ?_⟩
      cases cut with
      | nil => exact ⟨_, rfl⟩
      | cons =>
          obtain ⟨rfl, hrest⟩ := List.cons_prefix_cons.mp hcut
          exact absurd (congrArg _ (List.prefix_nil.mp hrest)) hne

theorem kept : Reader.Kept NoticesEnd := ⟨pure, throw, bind, bytes⟩

/-! ### Parts of values -/

variable {value : Reader Value} (h : NoticesEnd value)
include h

theorem entry : NoticesEnd (Reader.entry value) :=
  kept.text.bind fun _ => h.bind fun _ => .pure _

theorem dict : NoticesEnd (Reader.dict value) :=
  kept.word.bind fun _ => (h.entry.many _).bind fun _ => .pure _

theorem operand : NoticesEnd (Reader.operand value) := by
  refine h.bind fun item => ?_
  split
  · exact .pure _
  · exact .throw _

theorem collection : NoticesEnd (Reader.collection value) := by
  refine byte.bind fun code => ?_
  split
  · exact .throw _
  · refine h.dict.bind fun attributes => kept.ids.bind fun ids => kept.word.bind fun count =>
      (h.operand.many count).bind fun operands => of_frame fun hread => ?_
    obtain ⟨rfl, rfl⟩ := EStateM.Result.ok.inj hread
    exact ⟨rfl, fun _ => rfl⟩

end NoticesEnd

/-! ### Values -/

theorem noticesEnd_reference : NoticesEnd Reader.reference := by
  refine NoticesEnd.kept.word.bind fun number =>
    .of_frame fun {input nodes next node after} hread => ?_
  rw [Reader.bind_get] at hread
  cases hnode : nodes[number]? with
  | none =>
      rw [hnode] at hread
      cases hread
  | some found =>
      rw [hnode] at hread
      obtain ⟨rfl, rfl⟩ := EStateM.Result.ok.inj hread
      refine ⟨rfl, fun rest => ?_⟩
      rw [Reader.bind_get, hnode]
      rfl

theorem noticesEnd_value (depth : Nat) : NoticesEnd (Reader.value depth) := by
  induction depth with
  | zero =>
      intro input nodes next result after hread
      cases input <;> cases hread
  | succ depth ih =>
      rw [Reader.value_succ]
      refine NoticesEnd.byte.bind fun code => ?_
      cases Marker.ofCode? code with
      | none => exact .throw _
      | some marker =>
          cases marker with
          | list => exact NoticesEnd.kept.word.bind fun _ => (ih.many _).bind fun _ => .pure _
          | dict => exact ih.dict.bind fun _ => .pure _
          | collection => exact ih.collection.bind fun _ => .pure _
          | reference => exact noticesEnd_reference.bind fun _ => .pure _
          | _ => exact NoticesEnd.kept.scalar depth (by decide)

end Wire

open Wire

/-! ### Encodings -/

/-- All lengths of a value and of what is inside it fit into four bytes. -/
def Value.FitsLengths (value : Value) : Prop := ∀ part ∈ value.parts, part.Sized

namespace Value.FitsLengths

variable {value : Value} (h : value.FitsLengths) {depth : Nat}
include h

theorem accepts (hdepth : depthOf [value] ≤ depth) :
    Accepts (Reader.value depth) [] (value.write []) :=
  (acceptsWithin depth).value value [] h (by
    simpa [depthOf, levelsOfItems] using hdepth)

/-- A reader with enough levels takes no less than the encoding. -/
theorem read_cut (hdepth : depthOf [value] ≤ depth) {cut : List UInt8}
    (hcut : cut <+: value.encode) (hne : cut ≠ value.encode) (nodes : List Collection)
    (next : NodeId) :
    ∃ state, Reader.value depth ⟨cut, nodes, next⟩ = .error .unexpectedEnd state := by
  obtain ⟨result, nodes', next', hread, -⟩ := h.accepts hdepth [] nodes next (Nat.zero_le _)
  obtain ⟨front, hfront, -, hend⟩ := noticesEnd_value depth _ _ _ _ _ hread
  rw [List.append_nil, List.append_nil] at hfront
  exact hend cut (hfront ▸ hcut) (hfront ▸ hne)

/-- No encoding is the beginning of another one. -/
theorem encode_eq_of_prefix {other : Value} (hother : other.FitsLengths)
    (hbegins : other.encode <+: value.encode) : other.encode = value.encode := by
  by_contra hne
  have hvalue := le_max_left (depthOf [value]) (depthOf [other])
  obtain ⟨state, hcut⟩ := h.read_cut hvalue hbegins hne [] 0
  obtain ⟨result, nodes, next, hread, -⟩ := hother.accepts (le_max_right (depthOf [value]) _) []
    [] 0 (Nat.zero_le _)
  rw [List.append_nil, ← Value.encode, hcut] at hread
  cases hread

end Value.FitsLengths

/-- A cut is always noticed, and for what it is. The whole encoding of a value is taken, whatever
follows it, but each beginning of it, the empty one included, comes to the end of the input. So the
encoding of a value never starts with that of another one. -/
theorem decode_prefix_encode {value : Value} (h : value.FitsLengths)
    (hdepth : depthOf [value] ≤ maxDepth) :
    (∀ decoder rest next, ∃ result,
      (Decoder.decode decoder (value.encode ++ rest) next).1.1 = .ok (result, rest)) ∧
    (∀ cut, cut <+: value.encode → cut ≠ value.encode →
      (∀ next, (MediaCatalog.decode cut next).1 = .error .unexpectedEnd) ∧
        ∀ decoder next, (Decoder.decode decoder cut next).1.1 = .error .unexpectedEnd) ∧
    ∀ other : Value, other.FitsLengths → other.encode <+: value.encode →
      other.encode = value.encode := by
  have hcut (decoder : Decoder) (next : NodeId) (cut : List UInt8) (hcut : cut <+: value.encode)
      (hne : cut ≠ value.encode) : (decoder.decode cut next).1.1 = .error .unexpectedEnd := by
    obtain ⟨state, hstate⟩ := h.read_cut hdepth hcut hne decoder.nodes next
    rw [Decoder.decode, hstate]
  refine ⟨fun decoder rest next => ?_, fun cut hbegins hne => ⟨fun next => ?_,
    fun decoder next => hcut decoder next cut hbegins hne⟩, fun other => h.encode_eq_of_prefix⟩
  · obtain ⟨result, nodes, next', hread, -⟩ :=
      h.accepts hdepth rest decoder.nodes next (Nat.zero_le _)
    exact ⟨result, by rw [Value.encode, Decoder.decode, hread]⟩
  · exact congrArg (Except.map Prod.fst) (hcut {} next cut hbegins hne)

/-- A node with an attribute, twice below another one. -/
def sharingUnion : Value :=
  let shared : Collection := .node 4 .idlist [("name", .string "a")] [] [1, 2]
  .collection (.node 9 .union [] [shared, shared] [])

theorem fitsLengths_sharingUnion : sharingUnion.FitsLengths := by
  simp [Value.FitsLengths, sharingUnion, partsOfEntries, partsOfOperands, Value.parts,
    Collection.parts, Value.Sized, Collection.attributes, Collection.ids, Collection.operands]
  decide

/-- Cut in the number that stands for the second occurrence, and in front of everything. -/
theorem decode_prefix_encode_sharingUnion :
    depthOf [sharingUnion] ≤ maxDepth ∧
      sharingUnion.encode.dropLast <+: sharingUnion.encode ∧
      (MediaCatalog.decode sharingUnion.encode.dropLast 30).1 = .error .unexpectedEnd ∧
      (MediaCatalog.decode [] 30).1 = .error .unexpectedEnd := by
  have hdepth : depthOf [sharingUnion] ≤ maxDepth := by decide
  obtain ⟨-, hcut, -⟩ := decode_prefix_encode fitsLengths_sharingUnion hdepth
  have hne : sharingUnion.encode ≠ [] := by decide
  have hshort : sharingUnion.encode.dropLast ≠ sharingUnion.encode := fun hsame => by
    have hlength := congrArg List.length hsame
    have hpos := List.length_pos_iff.mpr hne
    rw [List.length_dropLast] at hlength
    omega
  have hbegins := List.dropLast_prefix sharingUnion.encode
  exact ⟨hdepth, hbegins, (hcut _ hbegins hshort).1 30, (hcut [] List.nil_prefix hne.symm).1 30⟩

end MediaCatalog
