import Gatehouse.Proofs.Route.Ordering
import Gatehouse.Proofs.Text.Trimming
import Mathlib.Data.Finset.Max

/-!
# A table written down

Each route of a table has a written form, so that the table can be written down as entries and read
again.  A route is always read from its written form.  A host is read as it was if it is in canonical
form and no blanks are around it; the hosts of a table are in canonical form, but a blank may have
come to light when the points at the end were taken off.  A table is read as it was, in any order of
the entries, exactly if there are no such hosts.

    Route.parse_text        : the written form of a route
    Routes.Canonical        : every host is as it would be read
    Routes.exists_longer    : where a host with blanks around it is read from
    Routes.reread_iff       : which tables are read as they were
-/

namespace Gatehouse

open Text

/-! ## The written form of a route -/

namespace Route

/-- The mark of a redirect can be read as it was written, unless there are blanks after it. -/
theorem redirectsTo_text {destination : String} (nonempty : destination ≠ "")
    (htrimmed : IsTrimmed destination) :
    RedirectsTo (redirect destination nonempty).text destination := by
  have hends := (trimChars_eq_self_iff _).mp ((isTrimmed_iff destination).mp htrimmed)
  have hne : destination.toList ≠ [] := fun hnil => nonempty (String.toList_eq_nil_iff.mp hnil)
  refine ⟨destination.toList, ?_, by rw [String.ofList_toList, htrimmed]⟩
  -- no blanks are around the mark and the destination, so that the text is read as it stands
  rw [toList_trim, text, String.toList_ofList]
  refine (trimChars_eq_self_iff _).mpr ⟨?_, ?_⟩
  · intro c hc
    obtain rfl : redirectMark = c := Option.some.inj hc
    rfl
  · intro c hc
    rw [List.getLast?_cons_of_ne_nil hne] at hc
    exact hends.2 c hc

theorem writes_text {target : String} {route : Route} (h : Writes target route) :
    Writes route.text route := by
  cases route with
  | home =>
    show trim homeTarget = homeTarget
    decide +kernel
  | redirect destination nonempty =>
    obtain ⟨cs, -, hdestination⟩ := h
    exact redirectsTo_text nonempty (hdestination ▸ isTrimmed_trim _)
  | proxy destination nonempty =>
    obtain ⟨hbackend, rfl⟩ := h
    have htrim : trim (trim target) = trim target := isTrimmed_trim target
    have hbackend' : NamesBackend (trim target) := by
      unfold NamesBackend
      rwa [htrim]
    exact ⟨hbackend', htrim.symm⟩

/-- **A route is read from its written form.** -/
theorem parse_text {host host' target : String} {route : Route}
    (h : parse host target = .ok route) : parse host' route.text = .ok route :=
  parse_eq_ok_iff.mpr (writes_text (parse_eq_ok_iff.mp h))

end Route

/-! ## The written form of a table -/

namespace Routes

def written (rs : Routes) : List (String × String) := rs.entries.map fun e => (e.1, e.2.text)

def Canonical (rs : Routes) : Prop :=
  ∀ host route, rs.get? host = some route → host ≠ "" ∧ Host.canonicalTrimmed host = host

theorem nodup_insert {rs : Routes} (h : (rs.entries.map (·.1)).Nodup) (host : String)
    (route : Route) : ((rs.insert host route).entries.map (·.1)).Nodup := by
  have hkept : ((rs.entries.filter (·.1 ≠ host)).map (·.1)).Nodup :=
    h.sublist (List.filter_sublist.map _)
  have hfresh : host ∉ (rs.entries.filter (·.1 ≠ host)).map (·.1) := by
    intro hmem
    obtain ⟨e, he, hown⟩ := List.mem_map.mp hmem
    exact of_decide_eq_true (List.mem_filter.mp he).2 hown
  simpa [insert] using hkept.concat hfresh

theorem nodup_insertAll {α : Type} {read : α → Except RouteError (String × Route)}
    {as : List α} {rs rs' : Routes} (h : insertAll read rs as = .ok rs')
    (hnodup : (rs.entries.map (·.1)).Nodup) : (rs'.entries.map (·.1)).Nodup := by
  induction as generalizing rs with
  | nil =>
    cases h
    exact hnodup
  | cons a as ih =>
    rw [insertAll] at h
    split at h
    · cases h
    · next host route _ => exact ih h (nodup_insert hnodup host route)

section

variable {entries : List (String × String)} {rs : Routes} (h : parse entries = .ok rs)

include h

/-- A table has a host once, so that its entries are what it has for the hosts. -/
theorem mem_entries_iff (host : String) (route : Route) :
    (host, route) ∈ rs.entries ↔ rs.get? host = some route :=
  mem_iff_lookup (nodup_insertAll h List.nodup_nil) host route

theorem mem_written_iff (e : String × String) :
    e ∈ rs.written ↔ ∃ route, rs.get? e.1 = some route ∧ e.2 = route.text := by
  rw [written, List.mem_map]
  constructor
  · rintro ⟨⟨host, route⟩, hmem, rfl⟩
    exact ⟨route, (mem_entries_iff h host route).mp hmem, rfl⟩
  · rintro ⟨route, hget, htext⟩
    exact ⟨(e.1, route), (mem_entries_iff h e.1 route).mpr hget, Prod.ext rfl htext.symm⟩

theorem ne_empty_of_get? {host : String} {route : Route} (hget : rs.get? host = some route) :
    host ≠ "" ∧ Host.canonical host = host := by
  obtain ⟨e, -, hentry⟩ := exists_entry_of_get? h hget
  obtain ⟨rfl, hne, -⟩ := parseEntry_eq_ok_iff.mp hentry
  exact ⟨hne, Host.canonical_canonical _⟩

/-- The hosts are canonical unless a blank came to light in an entry. -/
theorem canonical_iff : rs.Canonical ↔ ∀ e ∈ entries, ¬Host.BlankBeforePoints e.1 := by
  constructor
  · intro hcanonical e he
    obtain ⟨route, hget⟩ := exists_get?_of_mem h he
    rw [← Host.isTrimmed_canonicalTrimmed_iff]
    exact ((Host.canonicalTrimmed_eq_self_iff _).mp (hcanonical _ route hget).2).1
  · intro hblanks host route hget
    obtain ⟨e, he, hentry⟩ := exists_entry_of_get? h hget
    obtain ⟨rfl, hne, -⟩ := parseEntry_eq_ok_iff.mp hentry
    refine ⟨hne, (Host.canonicalTrimmed_eq_self_iff _).mpr ⟨?_, Host.canonical_canonical _⟩⟩
    exact (Host.isTrimmed_canonicalTrimmed_iff e.1).mpr (hblanks e he)

/-- A host of a table that is canonical is read from its written entry, with its route. -/
theorem parseEntry_text (hcanonical : rs.Canonical) {host : String} {route : Route}
    (hget : rs.get? host = some route) : parseEntry host route.text = .ok (host, route) := by
  obtain ⟨e, -, hentry⟩ := exists_entry_of_get? h hget
  obtain ⟨-, -, hroute⟩ := parseEntry_eq_ok_iff.mp hentry
  obtain ⟨hne, hhost⟩ := hcanonical host route hget
  exact parseEntry_eq_ok_iff.mpr ⟨hhost, hne, Route.parse_text hroute⟩

/-- Of the hosts of a table that have a property, one is the longest. -/
theorem exists_longest (p : String → Prop)
    (hsome : ∃ host route, rs.get? host = some route ∧ p host) :
    ∃ host route, rs.get? host = some route ∧ p host ∧
      ∀ own route', rs.get? own = some route' → p own → own.length ≤ host.length := by
  classical
  have hmem (host : String) : host ∈ (rs.entries.map (·.1)).toFinset.filter p ↔
      (∃ route, rs.get? host = some route) ∧ p host := by
    simp [mem_entries_iff h]
  obtain ⟨host, route, hget, hp⟩ := hsome
  obtain ⟨longest, hlongest, hmax⟩ :=
    Finset.exists_max_image _ String.length ⟨host, (hmem host).mpr ⟨⟨route, hget⟩, hp⟩⟩
  obtain ⟨⟨route', hget'⟩, hp'⟩ := (hmem longest).mp hlongest
  refine ⟨longest, route', hget', hp', fun own route'' hown hpown => ?_⟩
  exact hmax own ((hmem own).mpr ⟨⟨route'', hown⟩, hpown⟩)

section

variable {pairs : List (String × String)} (hperm : pairs.Perm rs.written)

include hperm

theorem mem_pairs_iff (e : String × String) :
    e ∈ pairs ↔ ∃ route, rs.get? e.1 = some route ∧ e.2 = route.text :=
  hperm.mem_iff.trans (mem_written_iff h e)

/-- If all hosts are canonical, the written form gives the table. -/
theorem exists_reread (hcanonical : rs.Canonical) :
    ∃ rs', parse pairs = .ok rs' ∧ rs'.Same rs := by
  have hpairs (e : String × String) (he : e ∈ pairs) :
      ∃ route, rs.get? e.1 = some route ∧ parseEntry e.1 e.2 = .ok (e.1, route) := by
    obtain ⟨route, hget, htext⟩ := (mem_pairs_iff h hperm e).mp he
    exact ⟨route, hget, htext ▸ parseEntry_text h hcanonical hget⟩
  have hreads : ∃ rs', parse pairs = .ok rs' := by
    rw [exists_parse_iff]
    intro e he
    obtain ⟨route, -, hentry⟩ := hpairs e he
    exact ⟨_, hentry⟩
  obtain ⟨rs', hparse⟩ := hreads
  refine ⟨rs', hparse, fun host => Option.ext fun route => ?_⟩
  -- what the table read again has, the written one has
  have hback (route : Route) (hget : rs'.get? host = some route) : rs.get? host = some route := by
    obtain ⟨e, he, hentry⟩ := exists_entry_of_get? hparse hget
    obtain ⟨route', hget', hentry'⟩ := hpairs e he
    rw [hentry'] at hentry
    cases hentry
    exact hget'
  refine ⟨hback route, fun hget => ?_⟩
  have hmem := (mem_pairs_iff h hperm (host, route.text)).mpr ⟨route, hget, rfl⟩
  obtain ⟨route', hget'⟩ := exists_get?_of_mem hparse hmem
  rw [(hcanonical host route hget).2] at hget'
  rw [hget', ← hback route' hget', hget]

/-- In a table that is read as it was, a host with blanks around it is read from a longer one. -/
theorem exists_longer {rs' : Routes} (hparse : parse pairs = .ok rs') (hsame : rs'.Same rs)
    {host : String} {route : Route} (hget : rs.get? host = some route)
    (hblanks : ¬IsTrimmed host) :
    ∃ own route', rs.get? own = some route' ∧ ¬IsTrimmed own ∧ host.length < own.length := by
  rw [← hsame] at hget
  obtain ⟨e, he, hentry⟩ := exists_entry_of_get? hparse hget
  obtain ⟨hread, -, -⟩ := parseEntry_eq_ok_iff.mp hentry
  obtain ⟨route', hown, -⟩ := (mem_pairs_iff h hperm e).mp he
  have hspaced : ¬IsTrimmed e.1 := by
    intro htrimmed
    have hself := (Host.canonicalTrimmed_eq_self_iff e.1).mpr
      ⟨htrimmed, (ne_empty_of_get? h hown).2⟩
    rw [hself] at hread
    exact hblanks (hread ▸ htrimmed)
  refine ⟨e.1, route', hown, hspaced, ?_⟩
  calc host.length = (Host.canonicalTrimmed e.1).length := by rw [hread]
    _ ≤ (trim e.1).length := Host.length_canonical_le _
    _ < e.1.length := length_trim_lt hspaced

/-- Only a table whose hosts are canonical is read as it was. -/
theorem canonical_of_reread {rs' : Routes} (hparse : parse pairs = .ok rs')
    (hsame : rs'.Same rs) : rs.Canonical := by
  intro host route hget
  obtain ⟨hne, hcanonical⟩ := ne_empty_of_get? h hget
  refine ⟨hne, (Host.canonicalTrimmed_eq_self_iff host).mpr ⟨?_, hcanonical⟩⟩
  by_contra hblanks
  obtain ⟨longest, route', hget', hblanks', hmax⟩ :=
    exists_longest h (¬IsTrimmed ·) ⟨host, route, hget, hblanks⟩
  obtain ⟨own, route'', hown, hspaced, hlonger⟩ :=
    exists_longer h hperm hparse hsame hget' hblanks'
  have hle := hmax own route'' hown hspaced
  omega

end

end

/-- **Which tables are read as they were.**  The hosts of a table are not empty and in canonical form.
Trimming leaves them as they are unless the host of an entry, once trimmed, ended in points with a
blank right before them; and exactly then the table is the one that its written form gives, in
whatever order its entries come. -/
theorem reread_iff {entries : List (String × String)} {rs : Routes} (h : parse entries = .ok rs) :
    (∀ host route, rs.get? host = some route → host ≠ "" ∧ Host.canonical host = host) ∧
    (rs.Canonical ↔ ∀ e ∈ entries, ¬Host.BlankBeforePoints e.1) ∧
    ∀ pairs, pairs.Perm rs.written →
      ((∃ rs', parse pairs = .ok rs' ∧ rs'.Same rs) ↔
        ∀ e ∈ entries, ¬Host.BlankBeforePoints e.1) := by
  refine ⟨fun host route => ne_empty_of_get? h, canonical_iff h, fun pairs hperm => ?_⟩
  rw [← canonical_iff h]
  constructor
  · rintro ⟨rs', hparse, hsame⟩
    exact canonical_of_reread h hperm hparse hsame
  · exact exists_reread h hperm

/-- Entries with blanks around a host, and around the mark of a redirect. -/
def spacedEntries : List (String × String) :=
  [(" A.example. ", "home"), ("b.example", " ! c.example ")]

theorem spacedEntries_reread :
    ∃ rs, parse spacedEntries = .ok rs ∧ rs.Canonical ∧
      rs.written = [("a.example", "home"), ("b.example", "!c.example")] ∧
      ∃ rs', parse [("b.example", "!c.example"), ("a.example", "home")] = .ok rs' ∧
        rs'.Same rs := by
  let rs : Routes := ⟨[("a.example", .home), ("b.example", .redirect "c.example" (by decide))]⟩
  have hparse : parse spacedEntries = .ok rs := rfl
  have hwritten : rs.written = [("a.example", "home"), ("b.example", "!c.example")] := rfl
  have hblanks : ∀ e ∈ spacedEntries, ¬Host.BlankBeforePoints e.1 := by
    simp only [← Host.isTrimmed_canonicalTrimmed_iff]
    decide +kernel
  obtain ⟨-, hcanonical, hreread⟩ := reread_iff hparse
  refine ⟨rs, hparse, hcanonical.mpr hblanks, hwritten, (hreread _ ?_).mpr hblanks⟩
  rw [hwritten]
  exact List.Perm.swap _ _ []

/-- A blank before a point stays with the host.  The host is another one when it is read again, or
none at all. -/
theorem spacedPoint_not_reread :
    (∃ rs rs', parse [("a .", "home")] = .ok rs ∧ ¬rs.Canonical ∧ parse rs.written = .ok rs' ∧
      rs.get? "a " = some .home ∧ rs'.get? "a " = none ∧ rs'.get? "a" = some .home) ∧
    ∃ rs, parse [(". .", "home")] = .ok rs ∧ parse rs.written = .error .emptyHost := by
  let rs : Routes := ⟨[("a ", .home)]⟩
  have hcanonical : ¬rs.Canonical := by
    intro h
    have hself := (h "a " .home rfl).2
    exact absurd hself (by decide +kernel)
  exact ⟨⟨rs, ⟨[("a", .home)]⟩, rfl, hcanonical, rfl, rfl, rfl, rfl⟩, ⟨[(". ", .home)]⟩, rfl, rfl⟩

end Routes

end Gatehouse
