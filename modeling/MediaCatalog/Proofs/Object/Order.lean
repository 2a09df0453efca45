import MediaCatalog.Object.Run

/-!
The order of connections. A connection gets the next number of its object, and numbers are never
given twice: whatever was connected and taken off, the numbers tell in which order the connections
of a signal were made. The tables keep them in that order.
-/

namespace MediaCatalog

/-! ### The tables of an object -/

namespace Registry

variable {κ η γ : Type} {registry : Registry κ η γ}

/-- The connections of each signal stand in the order in which they were made, the newest first. -/
structure InOrder (registry : Registry κ η γ) : Prop where
  newest_first : ∀ signal, (registry.connections signal).Pairwise
    fun newer older => older.token < newer.token
  token_lt : ∀ signal, ∀ listener ∈ registry.connections signal,
    listener.token < registry.nextToken

theorem connections_connect (registry : Registry κ η γ) (signal : UInt32) (handler : η)
    (context : Option γ) (other : UInt32) :
    (registry.connect signal handler context).2.connections other =
      if signal = other then
        ⟨registry.nextToken, handler, context⟩ :: registry.connections signal
      else registry.connections other := by
  simp only [connect, connections, Std.TreeMap.getElem?_insert,
    Std.LawfulEqCmp.compare_eq_iff_eq]
  split <;> rfl

theorem connections_withConnections (registry : Registry κ η γ) (signal : UInt32)
    (listeners : List (Listener η γ)) (other : UInt32) :
    (registry.withConnections signal listeners).connections other =
      if signal = other then listeners else registry.connections other := by
  rw [withConnections, connections]
  dsimp only
  split
  · next hempty =>
    rw [Std.TreeMap.getElem?_erase, List.isEmpty_iff.mp hempty]
    simp only [Std.LawfulEqCmp.compare_eq_iff_eq]
    split <;> rfl
  · rw [Std.TreeMap.getElem?_insert]
    simp only [Std.LawfulEqCmp.compare_eq_iff_eq]
    split <;> rfl

section Removal

variable {signal : UInt32} {registry' : Registry κ η γ}

/-- Taking a connection off leaves the others in their order. -/
theorem connections_removeFirst? {test : Listener η γ → Bool}
    (h : registry.removeFirst? signal test = some registry') (other : UInt32) :
    registry'.connections other =
      if signal = other then (registry.connections signal).eraseP test
      else registry.connections other := by
  rw [removeFirst?] at h
  split at h
  · obtain rfl := Option.some.inj h
    exact connections_withConnections ..
  · cases h

theorem sublist_of_removeFirst? {test : Listener η γ → Bool}
    (h : registry.removeFirst? signal test = some registry') (other : UInt32) :
    (registry'.connections other).Sublist (registry.connections other) := by
  rw [connections_removeFirst? h]
  split
  · next hsame =>
    subst hsame
    exact List.eraseP_sublist
  · exact .refl _

theorem sublist_of_disconnect [DecidableEq η] [DecidableEq γ] {handler : η} {context : Option γ}
    (h : registry.disconnect signal handler context = .ok registry') (other : UInt32) :
    (registry'.connections other).Sublist (registry.connections other) := by
  rw [disconnect] at h
  split at h
  · next hremove =>
    obtain rfl := Except.ok.inj h
    exact sublist_of_removeFirst? hremove other
  · cases h

theorem sublist_of_unsubscribe {subscription : Subscription}
    (h : registry.unsubscribe subscription = .ok registry') (other : UInt32) :
    (registry'.connections other).Sublist (registry.connections other) := by
  rw [unsubscribe] at h
  split at h
  · next hremove =>
    obtain rfl := Except.ok.inj h
    exact sublist_of_removeFirst? hremove other
  · cases h

theorem connections_disconnectAll (registry : Registry κ η γ) (signal other : UInt32) :
    (registry.disconnectAll signal).2.connections other =
      if signal = other then [] else registry.connections other :=
  connections_withConnections ..

end Removal

namespace InOrder

theorem empty (name : String) : ({ name } : Registry κ η γ).InOrder where
  newest_first _ := .nil
  token_lt _ _ hlistener := nomatch hlistener

/-- An emission goes through the connections in the order in which they were made. -/
theorem listeners (h : registry.InOrder) (signal : UInt32) :
    (registry.listeners signal).Pairwise fun older newer => older.token < newer.token :=
  List.pairwise_reverse.mpr (h.newest_first signal)

theorem connect (h : registry.InOrder) (signal : UInt32) (handler : η) (context : Option γ) :
    (registry.connect signal handler context).2.InOrder := by
  refine ⟨fun other => ?_, fun other listener hlistener => ?_⟩
  · rw [connections_connect]
    split
    · exact .cons (h.token_lt signal) (h.newest_first signal)
    · exact h.newest_first other
  · show listener.token < registry.nextToken + 1
    rw [connections_connect] at hlistener
    split at hlistener
    · rcases List.mem_cons.mp hlistener with rfl | hold
      · exact Nat.lt_succ_self _
      · exact Nat.lt_succ_of_lt (h.token_lt signal listener hold)
    · exact Nat.lt_succ_of_lt (h.token_lt other listener hlistener)

/-- Taking connections off leaves the others in their order. -/
theorem withConnections (h : registry.InOrder) {signal : UInt32} {listeners : List (Listener η γ)}
    (hsublist : listeners.Sublist (registry.connections signal)) :
    (registry.withConnections signal listeners).InOrder := by
  refine ⟨fun other => ?_, fun other listener hlistener => ?_⟩
  · rw [connections_withConnections]
    split
    · exact (h.newest_first signal).sublist hsublist
    · exact h.newest_first other
  · show listener.token < registry.nextToken
    rw [connections_withConnections] at hlistener
    split at hlistener
    · exact h.token_lt signal listener (hsublist.subset hlistener)
    · exact h.token_lt other listener hlistener

theorem removeFirst? (h : registry.InOrder) {signal : UInt32} {test : Listener η γ → Bool}
    {registry' : Registry κ η γ} (hremove : registry.removeFirst? signal test = some registry') :
    registry'.InOrder := by
  rw [Registry.removeFirst?] at hremove
  split at hremove
  · obtain rfl := Option.some.inj hremove
    exact h.withConnections (List.eraseP_sublist ..)
  · cases hremove

theorem disconnect [DecidableEq η] [DecidableEq γ] (h : registry.InOrder) {signal : UInt32}
    {handler : η} {context : Option γ} {registry' : Registry κ η γ}
    (hdisconnect : registry.disconnect signal handler context = .ok registry') :
    registry'.InOrder := by
  rw [Registry.disconnect] at hdisconnect
  split at hdisconnect
  · next hremove =>
    obtain rfl := Except.ok.inj hdisconnect
    exact h.removeFirst? hremove
  · cases hdisconnect

theorem unsubscribe (h : registry.InOrder) {subscription : Subscription}
    {registry' : Registry κ η γ}
    (hunsubscribe : registry.unsubscribe subscription = .ok registry') :
    registry'.InOrder := by
  rw [Registry.unsubscribe] at hunsubscribe
  split at hunsubscribe
  · next hremove =>
    obtain rfl := Except.ok.inj hunsubscribe
    exact h.removeFirst? hremove
  · cases hunsubscribe

theorem disconnectAll (h : registry.InOrder) (signal : UInt32) :
    (registry.disconnectAll signal).2.InOrder :=
  h.withConnections (List.nil_sublist _)

/-- The handlers of commands have nothing to do with it. -/
theorem register [DecidableEq κ] (h : registry.InOrder) {command : UInt32} {handler : κ}
    {registry' : Registry κ η γ} (hregister : registry.register command handler = .ok registry') :
    registry'.InOrder := by
  rw [Registry.register] at hregister
  split at hregister
  · obtain rfl := Except.ok.inj hregister
    exact ⟨h.newest_first, h.token_lt⟩
  · split at hregister
    · obtain rfl := Except.ok.inj hregister
      exact h
    · cases hregister

end InOrder

end Registry

/-! ### All objects -/

namespace ObjectSpace

/-- The connections of all objects stand in the order in which they were made. -/
def InOrder (space : ObjectSpace) : Prop :=
  ∀ (object : ObjectId) live, space.objects[object]? = some live → live.tables.InOrder

namespace InOrder

variable {space space' : ObjectSpace}

theorem empty : ({} : ObjectSpace).InOrder := fun _ _ hlive => nomatch hlive

theorem of_insert (h : space.InOrder) {object : ObjectId} {live : LiveObject}
    (hobjects : space'.objects = space.objects.insert object live) (hlive : live.tables.InOrder) :
    space'.InOrder := by
  intro found other hfound
  rw [hobjects, Std.TreeMap.getElem?_insert] at hfound
  split at hfound
  · obtain rfl := Option.some.inj hfound
    exact hlive
  · exact h found other hfound

theorem of_erase (h : space.InOrder) {object : ObjectId}
    (hobjects : space'.objects = space.objects.erase object) : space'.InOrder := by
  intro found other hfound
  rw [hobjects, Std.TreeMap.getElem?_erase] at hfound
  split at hfound
  · cases hfound
  · exact h found other hfound

theorem of_modify (h : space.InOrder) {object : ObjectId} {change : LiveObject → LiveObject}
    (hobjects : space'.objects = space.objects.modify object change)
    (hchange : ∀ live, live.tables.InOrder → (change live).tables.InOrder) : space'.InOrder := by
  intro found other hfound
  rw [hobjects, Std.TreeMap.getElem?_modify] at hfound
  split at hfound
  · obtain ⟨live, hlive, rfl⟩ := Option.map_eq_some_iff.mp hfound
    exact hchange live (h object live hlive)
  · exact h found other hfound

theorem retain (h : space.InOrder) (object : ObjectId) : (space.retain object).InOrder :=
  h.of_modify rfl fun _ hlive => hlive

theorem setTables (h : space.InOrder) (object : ObjectId) {tables : ObjectTables}
    (htables : tables.InOrder) : (space.setTables object tables).InOrder :=
  h.of_modify rfl fun _ _ => htables

theorem release (h : space.InOrder) (object : ObjectId) : (space.release object).InOrder := by
  rw [ObjectSpace.release]
  split
  · exact h
  · next live hlive =>
    split
    · exact h.of_insert rfl (h object live hlive)
    · dsimp only
      split
      · exact h.of_erase rfl
      · exact h.of_erase rfl

theorem setHandle (h : space.InOrder) (handle : String) (object : ObjectId) :
    (space.setHandle handle object).InOrder := by
  -- Handles have nothing to do with it.
  have hnamed : { space with handles := space.handles.insert handle object }.InOrder := h
  rw [ObjectSpace.setHandle]
  split
  · exact hnamed
  · exact hnamed.release _

theorem create (h : space.InOrder) (handle name : String) (noted : Bool) :
    (space.create handle name noted).InOrder :=
  setHandle (h.of_insert rfl (.empty name)) handle _

end InOrder

end ObjectSpace

end MediaCatalog
