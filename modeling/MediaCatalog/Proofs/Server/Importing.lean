import MediaCatalog.Proofs.Catalog.Lookup
import MediaCatalog.Proofs.Server.Served

/-!
Imports of playlists. Whatever an import finds or adds for a url is what that url finds from then
on, however much is added later. So the ids that it answers with are those that the urls find when
it is over, and a second import of the same urls finds all of them and adds nothing.
-/

namespace MediaCatalog

namespace Service

/-! ### One url -/

section Urls

variable {library : Library} {url : String} {urls : List String} {key : String} {value : Value}
  {id : Int64}

theorem entryOfUrl_of_found
    (h : library.findBy? Library.urlProperty (.string url) = some id) :
    entryOfUrl library url = (id, library) := by
  rw [entryOfUrl, h]

/-- A url finds the entry that it got. -/
theorem findBy?_entryOfUrl (library : Library) (url : String) :
    (entryOfUrl library url).2.findBy? Library.urlProperty (.string url) =
      some (entryOfUrl library url).1 := by
  cases hfound : library.findBy? Library.urlProperty (.string url) with
  | some id => rw [entryOfUrl_of_found hfound, hfound]
  | none =>
      rw [entryOfUrl, hfound]
      exact Library.findBy?_add_of_none hfound rfl (Value.beq_string_iff.mpr rfl)

/-- What was found before a url got its entry is found after it. -/
theorem findBy?_entryOfUrl_of_some (h : library.Fresh) (url : String)
    (hfound : library.findBy? key value = some id) :
    (entryOfUrl library url).2.findBy? key value = some id := by
  rw [entryOfUrl]
  split
  · exact hfound
  · exact h.findBy?_add_of_some hfound

/-- An entry that a url brought along, which found none before and finds this one now. -/
structure Brought (before after : Library) (url : String) (id : Int64) : Prop where
  entry : after.entries[id]? = some (Dict.ofEntries [(Library.urlProperty, .string url)])
  absent : before.findBy? Library.urlProperty (.string url) = none
  found : after.findBy? Library.urlProperty (.string url) = some id

theorem brought_entryOfUrl {entry : Dict Value} (hnew : library.entries[id]? = none)
    (hentry : (entryOfUrl library url).2.entries[id]? = some entry) :
    Brought library (entryOfUrl library url).2 url id := by
  have hurl := findBy?_entryOfUrl library url
  cases hfound : library.findBy? Library.urlProperty (.string url) with
  | some known =>
      rw [entryOfUrl_of_found hfound, hnew] at hentry
      cases hentry
  | none =>
      rw [entryOfUrl, hfound] at hentry hurl ⊢
      dsimp only at hentry hurl ⊢
      have hid : (library.add [(Library.urlProperty, .string url)]).1 = id := by
        by_contra hne
        rw [Library.getElem?_add, if_neg hne, hnew] at hentry
        cases hentry
      subst hid
      exact ⟨by rw [Library.getElem?_add, if_pos rfl], hfound, hurl⟩

/-! ### A list of urls -/

theorem entriesOfUrls_cons (library : Library) (url : String) (rest : List String) :
    entriesOfUrls library (url :: rest) =
      ((entryOfUrl library url).1 :: (entriesOfUrls (entryOfUrl library url).2 rest).1,
        (entriesOfUrls (entryOfUrl library url).2 rest).2) := rfl

/-- As many ids as urls are enough. -/
theorem entriesFit_of_le
    (h : (max library.nextId 1).toInt + urls.length ≤ Int64.maxValue.toInt) :
    EntriesFit library urls := by
  induction urls generalizing library with
  | nil => trivial
  | cons url rest ih =>
      rw [List.length_cons] at h
      have hlast : max library.nextId 1 < Int64.maxValue := Int64.lt_iff_toInt_lt.mpr (by omega)
      have hroom : library.HasRoom := Int64.lt_of_le_of_lt (library.nextId_le_add []) hlast
      refine ⟨fun _ => hroom, ih ?_⟩
      rw [entryOfUrl]
      split
      · dsimp only
        omega
      · have hnext := Library.toInt_succ hlast
        have hone : ¬ max library.nextId 1 + 1 ≤ 1 := by
          have hpos : 1 ≤ max library.nextId 1 := library.one_le_add []
          rw [Int64.le_iff_toInt_le] at hpos ⊢
          omega
        show (if max library.nextId 1 + 1 ≤ 1 then 1 else max library.nextId 1 + 1).toInt + _ ≤ _
        rw [if_neg hone, hnext]
        omega

theorem findBy?_entriesOfUrls_of_some (h : library.Fresh) (hfit : EntriesFit library urls)
    (hfound : library.findBy? key value = some id) :
    (entriesOfUrls library urls).2.findBy? key value = some id := by
  induction urls generalizing library with
  | nil => exact hfound
  | cons url rest ih =>
      rw [entriesOfUrls_cons]
      exact ih (grown_entryOfUrl h url hfit.1).2 hfit.2 (findBy?_entryOfUrl_of_some h url hfound)

/-- Each url finds the id that stands in its place. -/
theorem found_entriesOfUrls (h : library.Fresh) (hfit : EntriesFit library urls) :
    List.Forall₂
      (fun url id => (entriesOfUrls library urls).2.findBy? Library.urlProperty (.string url) =
        some id) urls (entriesOfUrls library urls).1 := by
  induction urls generalizing library with
  | nil => exact .nil
  | cons url rest ih =>
      have hfresh := (grown_entryOfUrl h url hfit.1).2
      rw [entriesOfUrls_cons]
      exact .cons (findBy?_entriesOfUrls_of_some hfresh hfit.2 (findBy?_entryOfUrl library url))
        (ih hfresh hfit.2)

/-- Where every url finds an entry there is nothing to add. -/
theorem entriesOfUrls_of_found {ids : List Int64}
    (h : List.Forall₂
      (fun url id => library.findBy? Library.urlProperty (.string url) = some id) urls ids) :
    entriesOfUrls library urls = (ids, library) := by
  induction h with
  | nil => rfl
  | cons hfound _ ih => rw [entriesOfUrls_cons, entryOfUrl_of_found hfound, ih]

/-- A new entry is one that some url brought along. -/
theorem brought_entriesOfUrls (h : library.Fresh) (hfit : EntriesFit library urls)
    {entry : Dict Value} (hnew : library.entries[id]? = none)
    (hentry : (entriesOfUrls library urls).2.entries[id]? = some entry) :
    ∃ url ∈ urls, Brought library (entriesOfUrls library urls).2 url id := by
  induction urls generalizing library with
  | nil =>
      rw [entriesOfUrls, hnew] at hentry
      cases hentry
  | cons url rest ih =>
      have hfresh := (grown_entryOfUrl h url hfit.1).2
      have hkept := (grown_entriesOfUrls hfresh hfit.2).1.kept
      rw [entriesOfUrls_cons] at hentry ⊢
      cases hfirst : (entryOfUrl library url).2.entries[id]? with
      | some _ =>
          have hbrought := brought_entryOfUrl hnew hfirst
          exact ⟨url, List.mem_cons_self, hkept id _ hbrought.entry, hbrought.absent,
            findBy?_entriesOfUrls_of_some hfresh hfit.2 hbrought.found⟩
      | none =>
          obtain ⟨other, hother, hbrought⟩ := ih hfresh hfit.2 hfirst hentry
          refine ⟨other, List.mem_cons_of_mem _ hother, hbrought.entry, ?_, hbrought.found⟩
          -- what a url found at the start it would have found after the first one too
          by_contra hfound
          obtain ⟨known, hfound⟩ := Option.ne_none_iff_exists'.mp hfound
          have hafter := findBy?_entryOfUrl_of_some h url hfound
          rw [hbrought.absent] at hafter
          cases hafter

/-- A new entry is found by the url that it has. -/
theorem findBy?_of_property? (h : library.Fresh) (hfit : EntriesFit library urls)
    (hnew : library.entries[id]? = none)
    (hurl : (entriesOfUrls library urls).2.property? id Library.urlProperty =
      some (.string url)) :
    (entriesOfUrls library urls).2.findBy? Library.urlProperty (.string url) = some id := by
  cases hentry : (entriesOfUrls library urls).2.entries[id]? with
  | none =>
      rw [Library.property?, hentry] at hurl
      cases hurl
  | some entry =>
      obtain ⟨other, -, hbrought⟩ := brought_entriesOfUrls h hfit hnew hentry
      have hother := ((Library.findBy?_string_eq_some_iff
        Library.urlProperty_ne_idProperty).mp hbrought.found).1
      obtain rfl := Value.string.inj (Option.some.inj (hurl.symm.trans hother))
      exact hbrought.found

/-- What an import of urls makes of a library. -/
structure Imported (before after : Library) (urls : List String) (ids : List Int64) : Prop where
  /-- The ids are those of the first entries that have the urls, in the order of the urls. -/
  named : List.Forall₂
    (fun url id => after.property? id Library.urlProperty = some (.string url) ∧
      ∀ other, after.property? other Library.urlProperty = some (.string url) → id ≤ other)
    urls ids
  kept : ∀ (id : Int64) (entry : Dict Value), before.entries[id]? = some entry →
    after.entries[id]? = some entry
  /-- A new entry has one of the urls and nothing else, and no entry had this url before. -/
  added : ∀ (id : Int64) (entry : Dict Value), before.entries[id]? = none →
    after.entries[id]? = some entry → ∃ url ∈ urls,
      entry = Dict.ofEntries [(Library.urlProperty, .string url)] ∧
        ∀ old, before.property? old Library.urlProperty ≠ some (.string url)
  /-- No two new entries have the same url. -/
  once : ∀ (id other : Int64) (url : String), before.entries[id]? = none →
    before.entries[other]? = none →
    after.property? id Library.urlProperty = some (.string url) →
    after.property? other Library.urlProperty = some (.string url) → id = other

theorem imported_entriesOfUrls (h : library.Fresh) (hfit : EntriesFit library urls) :
    Imported library (entriesOfUrls library urls).2 urls (entriesOfUrls library urls).1 where
  named := (found_entriesOfUrls h hfit).imp fun _ _ =>
    (Library.findBy?_string_eq_some_iff Library.urlProperty_ne_idProperty).mp
  kept := (grown_entriesOfUrls h hfit).1.kept
  added := by
    intro id entry hnew hentry
    obtain ⟨url, hurl, hbrought⟩ := brought_entriesOfUrls h hfit hnew hentry
    exact ⟨url, hurl, Option.some.inj (hentry.symm.trans hbrought.entry),
      (Library.findBy?_string_eq_none_iff Library.urlProperty_ne_idProperty).mp hbrought.absent⟩
  once := by
    intro id other url hid hother hurl hurl'
    have hfound := findBy?_of_property? h hfit hid hurl
    have hfound' := findBy?_of_property? h hfit hother hurl'
    exact Option.some.inj (hfound.symm.trans hfound')

/-- Importing the same urls again changes nothing. -/
theorem entriesOfUrls_again (h : library.Fresh) (hfit : EntriesFit library urls) :
    entriesOfUrls (entriesOfUrls library urls).2 urls = entriesOfUrls library urls :=
  entriesOfUrls_of_found (found_entriesOfUrls h hfit)

end Urls

/-! ### Calls -/

section Calls

variable {service : Service} {url path text : String}

/-- The urls that a call names by the url of the playlist. -/
theorem playlistUrls_of_path (hpath : Playlist.pathOfUrl url = .ok path)
    (htext : service.files.readText path = .ok text) (rest : List Value) :
    service.playlistUrls { args := .string url :: rest } =
      .ok (Playlist.urls (Playlist.parent path) text) := by
  rw [playlistUrls, string_eq rfl]
  simp only [bind, Except.bind, hpath, Playlist.read, htext]

theorem call_importPlaylist (h : service.Offers .importPlaylist) {args : List Value}
    {urls : List String} (hurls : service.playlistUrls { args } = .ok urls) (next : NodeId) :
    (service.call .collection CollectionCommand.importPlaylist.number args next).1 =
      { outcome := .ok (.collection
          (.node next .idlist [] [] (entriesOfUrls service.library urls).1))
        service := { service with library := (entriesOfUrls service.library urls).2 } } := by
  rw [call_eq_answerOf h, handle, importPlaylist, hurls]
  rfl

/-- Importing a playlist that can be read, with ids left for its new entries: the answer is an
idlist, for each url in the order of the file of the first entry that has it now. The entries that
were there are as they were; a new one has a url that none had, and no other new one has it; and
nothing but the library changes. A second import of the file, by whatever url that leads there,
answers with the same ids and changes nothing. -/
theorem importPlaylist_reuses (h : service.Reachable) (hpath : Playlist.pathOfUrl url = .ok path)
    (htext : service.files.readText path = .ok text)
    (hfit : EntriesFit service.library (Playlist.urls (Playlist.parent path) text))
    (rest : List Value) (next : NodeId) :
    let importing := CollectionCommand.importPlaylist.number
    let first := (service.call .collection importing (.string url :: rest) next).1
    ∃ ids,
      first.outcome = .ok (.collection (.node next .idlist [] [] ids)) ∧
      Imported service.library first.service.library
        (Playlist.urls (Playlist.parent path) text) ids ∧
      first.service = { service with library := first.service.library } ∧
      ∀ (again : String) (more : List Value) (later : NodeId),
        Playlist.pathOfUrl again = .ok path →
        let second := (first.service.call .collection importing (.string again :: more) later).1
        second.outcome = .ok (.collection (.node later .idlist [] [] ids)) ∧
          second.service = first.service := by
  intro importing first
  have hintact := h.intact
  have hoffers := hintact.offers .importPlaylist
  have hfirst : first = _ := call_importPlaylist hoffers
    (playlistUrls_of_path hpath htext rest) next
  rw [hfirst]
  refine ⟨_, rfl, imported_entriesOfUrls hintact.fresh hfit, rfl, fun again more later hagain => ?_⟩
  intro second
  let urls := Playlist.urls (Playlist.parent path) text
  let after : Service := { service with library := (entriesOfUrls service.library urls).2 }
  have hoffers : after.Offers .importPlaylist := hoffers
  have hurls : after.playlistUrls { args := .string again :: more } = .ok urls :=
    playlistUrls_of_path hagain htext more
  have hsecond : second = _ := call_importPlaylist hoffers hurls later
  rw [hsecond, entriesOfUrls_again hintact.fresh hfit]
  exact ⟨rfl, rfl⟩

/-- A service with the entry of one url, and a playlist that names another one around it. -/
def listed : Service :=
  { stocked with files := { working := [], files := [(["l"], "b\na\n#c\nb".toUTF8.toList)] } }

/-- The url that is there keeps its entry, and the other one gets one for its two lines. -/
theorem importPlaylist_reuses_listed :
    let importing := CollectionCommand.importPlaylist.number
    let first := (listed.call .collection importing [.string "file:///l"] 1).1
    listed.Reachable ∧
      Playlist.pathOfUrl "file:///l" = .ok "/l" ∧ Playlist.pathOfUrl "file:///%6c" = .ok "/l" ∧
      listed.files.readText "/l" = .ok "b\na\n#c\nb" ∧
      EntriesFit listed.library (Playlist.urls (Playlist.parent "/l") "b\na\n#c\nb") ∧
      first.outcome = .ok (.collection (.node 1 .idlist [] [] [2, 1, 2])) ∧
      Imported listed.library first.service.library ["file:///b", "file:///a", "file:///b"]
        [2, 1, 2] ∧
      (first.service.call .collection importing [.string "file:///%6c"] 2).1.outcome =
        .ok (.collection (.node 2 .idlist [] [] [2, 1, 2])) := by
  have hreachable : listed.Reachable := reachable_stocked.files _
  have hpath : Playlist.pathOfUrl "file:///l" = .ok "/l" := by decide +kernel
  have hagain : Playlist.pathOfUrl "file:///%6c" = .ok "/l" := by decide +kernel
  have htext : listed.files.readText "/l" = .ok "b\na\n#c\nb" := by decide +kernel
  have hurls : Playlist.urls (Playlist.parent "/l") "b\na\n#c\nb" =
      ["file:///b", "file:///a", "file:///b"] := by decide +kernel
  have hfit : EntriesFit listed.library
      (Playlist.urls (Playlist.parent "/l") "b\na\n#c\nb") := by
    rw [hurls]
    exact entriesFit_of_le (by decide)
  have houtcome : (listed.call .collection CollectionCommand.importPlaylist.number
      [.string "file:///l"] 1).1.outcome =
        .ok (.collection (.node 1 .idlist [] [] [2, 1, 2])) := by with_unfolding_all rfl
  obtain ⟨ids, hids, himported, -, hsecond⟩ :=
    importPlaylist_reuses hreachable hpath htext hfit [] 1
  obtain ⟨-, -, -, -, rfl⟩ := Collection.node.inj
    (Value.collection.inj (Except.ok.inj (houtcome.symm.trans hids)))
  exact ⟨hreachable, hpath, hagain, htext, hfit, houtcome, hurls ▸ himported,
    (hsecond "file:///%6c" [] 2 hagain).1⟩

end Calls

end Service

end MediaCatalog
