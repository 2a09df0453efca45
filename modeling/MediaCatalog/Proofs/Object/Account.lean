import MediaCatalog.Proofs.Object.Quiet

/-!
The account of a watcher. It is right if each emission calls what the tables had for it when it
began, in their order, and if the calls in the trace are those of the account. Beginning an
emission, making its next call and ending it when all calls were made keep it right.
-/

namespace MediaCatalog

/-- The calls that the tables have for an emission when it begins. -/
def Emission.calls (emission : Emission) (number : Nat) : List Invocation :=
  match emission.space.objects[emission.object]? with
  | none => []
  | some live => (live.tables.listeners emission.signal).map fun listener =>
      { emission := number, object := live.tables.name, listener, value := emission.value }

/-- They come in the order in which they were connected. -/
theorem Emission.calls_inOrder {emission : Emission} (h : emission.space.InOrder) (number : Nat) :
    (emission.calls number).Pairwise fun sooner later =>
      sooner.listener.token < later.listener.token := by
  rw [calls]
  split
  · exact .nil
  · next live hlive =>
    exact List.pairwise_map.mpr ((h emission.object live hlive).listeners emission.signal)

namespace Watch

/-- The calls that were made for an emission. -/
def callsOf (watch : Watch) (number : Nat) : List Invocation :=
  watch.invocations.filter fun invocation => invocation.emission = number

/-- All emissions from a number on came to their end. -/
def EndedFrom (watch : Watch) (start : Nat) : Prop :=
  ∀ number, start ≤ number → number < watch.emissions.length → number ∈ watch.ended

/-- The account is right: every call is that of an emission, which calls what it found when it
began, and the calls in the trace are those of the account. If the run found all connections in
order, so does each emission. -/
structure Faithful (origin space : ObjectSpace) (watch : Watch) : Prop where
  numbered : ∀ invocation ∈ watch.invocations, invocation.emission < watch.emissions.length
  ended_lt : ∀ number ∈ watch.ended, number < watch.emissions.length
  callsOf_prefix : ∀ (number : Nat) emission, watch.emissions[number]? = some emission →
    watch.callsOf number <+: emission.calls number
  callsOf_ended : ∀ (number : Nat) emission, watch.emissions[number]? = some emission →
    number ∈ watch.ended → watch.callsOf number = emission.calls number
  traced : space.calls = origin.calls ++ watch.invocations.map Invocation.event
  inOrder : origin.InOrder →
    space.InOrder ∧ ∀ emission ∈ watch.emissions, emission.space.InOrder

/-- What happens later adds to the account, and leaves the emissions below a number as they are. -/
structure Frames (bound : Nat) (before after : Watch) : Prop where
  emissions : before.emissions <+: after.emissions
  callsOf : ∀ number < bound, after.callsOf number = before.callsOf number
  ended : ∀ number < bound, (number ∈ after.ended ↔ number ∈ before.ended)

/-- All that began in between also ended. -/
def Completes (before after : Watch) : Prop :=
  Frames before.emissions.length before after ∧ after.EndedFrom before.emissions.length

variable {origin space : ObjectSpace} {watch before middle after : Watch}
  {bound : Nat}

theorem Frames.refl (bound : Nat) (watch : Watch) : Frames bound watch watch :=
  ⟨List.prefix_refl _, fun _ _ => rfl, fun _ _ => Iff.rfl⟩

theorem Frames.trans {bound' : Nat} (h : Frames bound before middle)
    (h' : Frames bound' middle after) (hbound : bound ≤ bound') : Frames bound before after :=
  ⟨h.emissions.trans h'.emissions,
    fun number hlt => (h'.callsOf number (by omega)).trans (h.callsOf number hlt),
    fun number hlt => (h'.ended number (by omega)).trans (h.ended number hlt)⟩

theorem Frames.length_le (h : Frames bound before after) :
    before.emissions.length ≤ after.emissions.length := h.emissions.length_le

theorem Completes.refl (watch : Watch) : Completes watch watch :=
  ⟨.refl _ watch, fun _ hle hlt => absurd hlt (Nat.not_lt.mpr hle)⟩

/-- What ended stays so. -/
theorem Completes.endedFrom (h : Completes middle after) {start : Nat}
    (hmiddle : middle.EndedFrom start) : after.EndedFrom start := by
  intro number hle hlt
  by_cases hnew : number < middle.emissions.length
  · exact (h.1.ended number hnew).mpr (hmiddle number hle hnew)
  · exact h.2 number (by omega) hlt

theorem Completes.trans (h : Completes before middle) (h' : Completes middle after) :
    Completes before after :=
  ⟨h.1.trans h'.1 h.1.length_le, h'.endedFrom h.2⟩

/-- While no signal handler is called there is nothing to note. -/
theorem Faithful.of_quietTo (h : watch.Faithful origin space) {space' : ObjectSpace}
    (hquiet : space.QuietTo space') : watch.Faithful origin space' :=
  ⟨h.numbered, h.ended_lt, h.callsOf_prefix, h.callsOf_ended, hquiet.calls.trans h.traced,
    fun horigin => ⟨hquiet.inOrder (h.inOrder horigin).1, (h.inOrder horigin).2⟩⟩

theorem Faithful.empty (space : ObjectSpace) : Faithful space space {} where
  numbered _ hinvocation := nomatch hinvocation
  ended_lt _ hended := nomatch hended
  callsOf_prefix _ _ hemission := nomatch hemission
  callsOf_ended _ _ hemission := nomatch hemission
  traced := (List.append_nil space.calls).symm
  inOrder hspace := ⟨hspace, fun _ hemission => nomatch hemission⟩

/-- No calls were made for an emission that has not begun. -/
theorem Faithful.callsOf_eq_nil (h : watch.Faithful origin space) {number : Nat}
    (hle : watch.emissions.length ≤ number) : watch.callsOf number = [] := by
  apply List.filter_eq_nil_iff.mpr
  intro invocation hinvocation
  have hlt := h.numbered invocation hinvocation
  simp only [decide_eq_true_eq]
  omega

/-! ### One emission -/

theorem callsOf_called (watch : Watch) (invocation : Invocation) (number : Nat) :
    (watch.called invocation).callsOf number =
      watch.callsOf number ++ if number = invocation.emission then [invocation] else [] := by
  by_cases hsame : number = invocation.emission
  · simp [callsOf, called, hsame]
  · simp [callsOf, called, hsame, Ne.symm hsame]

theorem Faithful.opened (h : watch.Faithful origin space) {emission : Emission}
    (hspace : emission.space = space) : (watch.opened emission).Faithful origin space := by
  have hlength : (watch.opened emission).emissions.length = watch.emissions.length + 1 :=
    List.length_append
  have hsame {number : Nat} (hlt : number < watch.emissions.length) :
      (watch.opened emission).emissions[number]? = watch.emissions[number]? :=
    List.getElem?_append_left hlt
  refine ⟨?_, ?_, ?_, ?_, h.traced, ?_⟩
  · intro invocation hinvocation
    have hlt := h.numbered invocation hinvocation
    omega
  · intro number hended
    have hlt := h.ended_lt number hended
    omega
  · intro number found hfound
    by_cases hlt : number < watch.emissions.length
    · rw [hsame hlt] at hfound
      exact h.callsOf_prefix number found hfound
    · show watch.callsOf number <+: _
      rw [h.callsOf_eq_nil (Nat.not_lt.mp hlt)]
      exact List.nil_prefix
  · intro number found hfound hended
    rw [hsame (h.ended_lt number hended)] at hfound
    exact h.callsOf_ended number found hfound hended
  · intro horigin
    obtain ⟨hnow, hthen⟩ := h.inOrder horigin
    refine ⟨hnow, fun found hfound => ?_⟩
    rcases List.mem_append.mp hfound with hold | hnew
    · exact hthen found hold
    · rw [List.mem_singleton.mp hnew, hspace]
      exact hnow

/-- The next call that the tables had for an emission is made, and noted. -/
theorem Faithful.called (h : watch.Faithful origin space) {invocation : Invocation}
    {emission : Emission} (hemission : watch.emissions[invocation.emission]? = some emission)
    (hopen : invocation.emission ∉ watch.ended)
    (hnext : watch.callsOf invocation.emission ++ [invocation] <+:
      emission.calls invocation.emission) :
    (watch.called invocation).Faithful origin (space.note invocation.event) := by
  refine ⟨?_, h.ended_lt, ?_, ?_, ?_, h.inOrder⟩
  · intro found hfound
    rcases List.mem_append.mp hfound with hold | hnew
    · exact h.numbered found hold
    · obtain rfl := List.mem_singleton.mp hnew
      exact (List.getElem?_eq_some_iff.mp hemission).1
  · intro number found hfound
    rw [callsOf_called]
    split
    · next hsame =>
      subst hsame
      obtain rfl := Option.some.inj (hemission.symm.trans hfound)
      exact hnext
    · rw [List.append_nil]
      exact h.callsOf_prefix number found hfound
  · intro number found hfound hended
    have hother : number ≠ invocation.emission := by
      rintro rfl
      exact hopen hended
    rw [callsOf_called, if_neg hother, List.append_nil]
    exact h.callsOf_ended number found hfound hended
  · rw [ObjectSpace.calls_note, List.filter_cons_of_pos invocation.isCall_event, h.traced,
      List.append_assoc, Watch.called, List.map_append]
    rfl

/-- An emission may end when all its calls were made. -/
theorem Faithful.closed (h : watch.Faithful origin space) {number : Nat} {emission : Emission}
    (hemission : watch.emissions[number]? = some emission)
    (hcalls : watch.callsOf number = emission.calls number) :
    (watch.closed number).Faithful origin space := by
  refine ⟨h.numbered, ?_, h.callsOf_prefix, ?_, h.traced, h.inOrder⟩
  · intro other hother
    rcases List.mem_append.mp hother with hold | hnew
    · exact h.ended_lt other hold
    · obtain rfl := List.mem_singleton.mp hnew
      exact (List.getElem?_eq_some_iff.mp hemission).1
  · intro other found hfound hother
    rcases List.mem_append.mp hother with hold | hnew
    · exact h.callsOf_ended other found hfound hold
    · obtain rfl := List.mem_singleton.mp hnew
      obtain rfl := Option.some.inj (hemission.symm.trans hfound)
      exact hcalls

/-- Some calls were made for an emission, and all that began in between also ended. -/
structure Delivers (number : Nat) (calls : List Invocation) (before after : Watch) : Prop where
  emissions : before.emissions <+: after.emissions
  callsOf : ∀ other < before.emissions.length,
    after.callsOf other = before.callsOf other ++ if other = number then calls else []
  ended : ∀ other < before.emissions.length, (other ∈ after.ended ↔ other ∈ before.ended)
  endedFrom : after.EndedFrom before.emissions.length

variable {number : Nat} {calls calls' : List Invocation}

theorem Delivers.nil (number : Nat) (watch : Watch) : Delivers number [] watch watch :=
  ⟨List.prefix_refl _, fun _ _ => by rw [ite_self, List.append_nil], fun _ _ => Iff.rfl,
    (Completes.refl watch).2⟩

theorem Delivers.append (h : Delivers number calls before middle)
    (h' : Delivers number calls' middle after) :
    Delivers number (calls ++ calls') before after := by
  have hlength := h.emissions.length_le
  refine ⟨h.emissions.trans h'.emissions, ?_, ?_, ?_⟩
  · intro other hlt
    rw [h'.callsOf other (by omega), h.callsOf other hlt, List.append_assoc]
    split <;> rfl
  · intro other hlt
    exact (h'.ended other (by omega)).trans (h.ended other hlt)
  · intro other hle hlt
    by_cases hnew : other < middle.emissions.length
    · exact (h'.ended other hnew).mpr (h.endedFrom other hle hnew)
    · exact h'.endedFrom other (by omega) hlt

/-- An emission that began and was left is later than all that went before it. -/
theorem Frames.of_opened {emission : Emission}
    (h : Frames watch.emissions.length (watch.opened emission) after) :
    Frames watch.emissions.length watch after :=
  ⟨(List.prefix_append _ _).trans h.emissions, h.callsOf, h.ended⟩

/-- A call for an emission concerns none that went before it. -/
theorem Frames.of_called {invocation : Invocation}
    (h : Frames watch.emissions.length (watch.called invocation) after)
    (hlt : invocation.emission < watch.emissions.length) :
    Frames invocation.emission watch after := by
  refine ⟨h.emissions, ?_, ?_⟩
  · intro number hnumber
    rw [h.callsOf number (by omega), callsOf_called, if_neg (Nat.ne_of_lt hnumber),
      List.append_nil]
  · intro number hnumber
    exact h.ended number (by omega)

/-- An emission that began and came to its end is the first that was completed. -/
theorem Delivers.closed {emission : Emission}
    (h : Delivers watch.emissions.length calls (watch.opened emission) after) :
    Completes watch (after.closed watch.emissions.length) := by
  have hlength : (watch.opened emission).emissions.length = watch.emissions.length + 1 :=
    List.length_append
  refine ⟨⟨(List.prefix_append _ _).trans h.emissions, ?_, ?_⟩, ?_⟩
  · intro other hlt
    have hcallsOf := h.callsOf other (by omega)
    rwa [if_neg (Nat.ne_of_lt hlt), List.append_nil] at hcallsOf
  · intro other hlt
    have hother : other ≠ watch.emissions.length := Nat.ne_of_lt hlt
    simp only [Watch.closed, List.mem_append, List.mem_singleton, hother, or_false]
    exact h.ended other (by omega)
  · intro other hle hlt
    rcases Nat.eq_or_lt_of_le hle with rfl | hlater
    · exact List.mem_append_right _ (List.mem_singleton.mpr rfl)
    · exact List.mem_append_left _ (h.endedFrom other (by omega) hlt)

/-- A handler is called, and reacts. -/
theorem Delivers.called {invocation : Invocation}
    (h : Completes (watch.called invocation) after) :
    Delivers invocation.emission [invocation] watch after :=
  ⟨h.1.emissions, fun other hlt => (h.1.callsOf other hlt).trans (callsOf_called _ _ _),
    h.1.ended, h.2⟩

theorem Delivers.getElem? (h : Delivers number calls before after) {emission : Emission}
    (hemission : before.emissions[number]? = some emission) :
    after.emissions[number]? = some emission := by
  obtain ⟨later, hlater⟩ := h.emissions
  rw [← hlater, List.getElem?_append_left (List.getElem?_eq_some_iff.mp hemission).1, hemission]

theorem Delivers.frames (h : Delivers number calls before after)
    (hlt : number < before.emissions.length) : Frames number before after := by
  refine ⟨h.emissions, ?_, ?_⟩
  · intro other hother
    rw [h.callsOf other (by omega), if_neg (Nat.ne_of_lt hother), List.append_nil]
  · intro other hother
    exact h.ended other (by omega)

end Watch

end MediaCatalog
