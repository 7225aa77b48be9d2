import Gatehouse.Proofs.Tables
import Gatehouse.Route.Table

/-!
# What the entries of a table stand for

A table that was read from entries gives a host the route of the last entry for it.  Entries and
look-ups bring hosts into the same form, so that each entry that is the last for its host is found.

    Routes.lastTarget?      : the target of the last entry for a host
    Routes.get?_of_parse    : a host has the route that this target stands for
    Routes.exists_parse_iff : entries give a table iff each of them can be read
    Route.kinds             : the three kinds of targets
    Route.parse_eq_ok_iff   : the targets a route is read from
-/

namespace Gatehouse

open Text

namespace Route

/-- A target that stands for a redirect to the given text. -/
def RedirectsTo (target destination : String) : Prop :=
  ∃ cs, (trim target).toList = redirectMark :: cs ∧ destination = trim (String.ofList cs)

def NamesBackend (target : String) : Prop :=
  trim target ≠ homeTarget ∧ (trim target).toList.head? ≠ some redirectMark

/-- There are no other targets. -/
theorem kinds (target : String) :
    trim target = homeTarget ∨ (∃ destination, RedirectsTo target destination) ∨
      NamesBackend target := by
  by_cases hhome : trim target = homeTarget
  · exact .inl hhome
  · by_cases hhead : (trim target).toList.head? = some redirectMark
    · obtain ⟨cs, hcs⟩ := List.head?_eq_some_iff.mp hhead
      exact .inr (.inl ⟨_, cs, hcs, rfl⟩)
    · exact .inr (.inr ⟨hhome, hhead⟩)

section

variable {host target destination : String} {route : Route}

theorem eq_home_of_parse (h : parse host target = .ok route) (hhome : trim target = homeTarget) :
    route = .home := by
  rw [parse, if_pos hhome] at h
  exact (Except.ok.inj h).symm

theorem parse_of_redirectsTo (hto : RedirectsTo target destination) :
    parse host target = (redirect? destination).elim (.error (.emptyDestination host)) .ok := by
  obtain ⟨cs, hcs, rfl⟩ := hto
  have hhome : trim target ≠ homeTarget := by
    intro hhome
    rw [hhome] at hcs
    cases hcs
  rw [parse, if_neg hhome, hcs]
  dsimp only
  rw [if_pos rfl]
  cases redirect? (trim (String.ofList cs)) <;> rfl

theorem parse_of_namesBackend (hbackend : NamesBackend target) :
    parse host target = (proxy? (trim target)).elim (.error (.emptyDestination host)) .ok := by
  obtain ⟨hhome, hhead⟩ := hbackend
  rw [parse, if_neg hhome]
  cases hcs : (trim target).toList with
  | nil =>
    have hempty : trim target = "" := String.toList_eq_nil_iff.mp hcs
    rw [hempty]
    rfl
  | cons c cs =>
    rw [hcs] at hhead
    have hmark : c ≠ redirectMark := fun hc => hhead (congrArg some hc)
    dsimp only
    rw [if_neg hmark]
    cases proxy? (trim target) <;> rfl

theorem eq_redirect_of_parse (h : parse host target = .ok route)
    (hto : RedirectsTo target destination) :
    ∃ nonempty, route = .redirect destination nonempty := by
  rw [parse_of_redirectsTo hto, redirect?] at h
  by_cases nonempty : destination ≠ ""
  · rw [dif_pos nonempty] at h
    exact ⟨nonempty, (Except.ok.inj h).symm⟩
  · rw [dif_neg nonempty] at h
    cases h

theorem eq_proxy_of_parse (h : parse host target = .ok route) (hbackend : NamesBackend target) :
    ∃ nonempty, route = .proxy (trim target) nonempty := by
  rw [parse_of_namesBackend hbackend, proxy?] at h
  by_cases nonempty : trim target ≠ ""
  · rw [dif_pos nonempty] at h
    exact ⟨nonempty, (Except.ok.inj h).symm⟩
  · rw [dif_neg nonempty] at h
    cases h

/-- The target is a way to write the route. -/
def Writes (target : String) : Route → Prop
  | .home => trim target = homeTarget
  | .redirect destination _ => RedirectsTo target destination
  | .proxy destination _ => NamesBackend target ∧ destination = trim target

/-- A route is read from the targets that write it, whatever the host. -/
theorem parse_eq_ok_iff : parse host target = .ok route ↔ Writes target route := by
  constructor
  · intro h
    obtain hhome | ⟨destination, hto⟩ | hbackend := kinds target
    · obtain rfl := eq_home_of_parse h hhome
      exact hhome
    · obtain ⟨nonempty, rfl⟩ := eq_redirect_of_parse h hto
      exact hto
    · obtain ⟨nonempty, rfl⟩ := eq_proxy_of_parse h hbackend
      exact ⟨hbackend, rfl⟩
  · intro h
    cases route with
    | home => exact if_pos h
    | redirect destination nonempty =>
      rw [parse_of_redirectsTo h, redirect?, dif_pos nonempty, Option.elim_some]
    | proxy destination nonempty =>
      obtain ⟨hbackend, rfl⟩ := h
      rw [parse_of_namesBackend hbackend, proxy?, dif_pos nonempty, Option.elim_some]

end

end Route

namespace Routes

/-- The target of the last entry for a host, which is given in canonical form. -/
def lastTarget? (entries : List (String × String)) (host : String) : Option String :=
  (entries.reverse.find? fun e => Host.canonicalTrimmed e.1 == host).map (·.2)

theorem lastTarget?_cons (e : String × String) (entries : List (String × String))
    (host : String) :
    lastTarget? (e :: entries) host =
      (lastTarget? entries host).or
        (if Host.canonicalTrimmed e.1 = host then some e.2 else none) := by
  unfold lastTarget?
  rw [List.reverse_cons, List.find?_append, Option.map_or, List.find?_singleton]
  generalize Host.canonicalTrimmed e.1 = own
  by_cases h : own = host <;> simp [h]

theorem get?_insert (rs : Routes) (host : String) (route : Route) (host' : String) :
    (rs.insert host route).get? host' = if host' = host then some route else rs.get? host' := by
  unfold insert get?
  rw [List.lookup_append, List.lookup_cons]
  by_cases h : host' = host
  · subst h
    have hnone : (rs.entries.filter (·.1 ≠ host')).lookup host' = none := by
      refine List.lookup_eq_none_iff.mpr fun e he => ?_
      have hother : e.1 ≠ host' := of_decide_eq_true (List.mem_filter.mp he).2
      exact bne_iff_ne.mpr hother.symm
    rw [hnone, if_pos rfl, beq_self_eq_true]
    rfl
  · rw [lookup_filter_ne h, if_neg h, beq_false_of_ne h]
    exact Option.or_none

theorem lastTarget?_eq_none_iff (entries : List (String × String)) (host : String) :
    lastTarget? entries host = none ↔ ∀ e ∈ entries, Host.canonicalTrimmed e.1 ≠ host := by
  simp [lastTarget?]

theorem mem_of_lastTarget? {entries : List (String × String)} {host target : String}
    (h : lastTarget? entries host = some target) :
    ∃ e ∈ entries, Host.canonicalTrimmed e.1 = host ∧ e.2 = target := by
  obtain ⟨e, hfind, rfl⟩ := Option.map_eq_some_iff.mp h
  have hmem := List.mem_reverse.mp (List.mem_of_find?_eq_some hfind)
  have hhost := List.find?_some hfind
  exact ⟨e, hmem, beq_iff_eq.mp hhost, rfl⟩

/-- The last entry is the last one for its host. -/
theorem lastTarget?_concat (entries : List (String × String)) (e : String × String) :
    lastTarget? (entries ++ [e]) (Host.canonicalTrimmed e.1) = some e.2 := by
  simp [lastTarget?]

/-- What an entry has to be for a route of a host. -/
theorem parseEntry_eq_ok_iff {host target host' : String} {route : Route} :
    parseEntry host target = .ok (host', route) ↔
      Host.canonicalTrimmed host = host' ∧ host' ≠ "" ∧ Route.parse host' target = .ok route := by
  unfold parseEntry
  generalize Host.canonicalTrimmed host = own
  dsimp only
  by_cases hempty : own = ""
  · subst hempty
    rw [if_pos rfl]
    constructor
    · nofun
    · rintro ⟨rfl, hne, -⟩
      exact absurd rfl hne
  · rw [if_neg hempty]
    constructor
    · intro h
      cases hroute : Route.parse own target with
      | error e =>
        rw [hroute] at h
        cases h
      | ok route' =>
        rw [hroute] at h
        cases h
        exact ⟨rfl, hempty, hroute⟩
    · rintro ⟨rfl, -, hroute⟩
      rw [hroute]
      rfl

theorem of_parseEntry {host target host' : String} {route : Route}
    (h : parseEntry host target = .ok (host', route)) :
    host' = Host.canonicalTrimmed host ∧ Route.parse host' target = .ok route := by
  obtain ⟨rfl, -, hroute⟩ := parseEntry_eq_ok_iff.mp h
  exact ⟨rfl, hroute⟩

/-- Adding entries to a table gives a host the route of the last of them for it, if there is one. -/
theorem get?_of_insertAll {entries : List (String × String)} {rs rs' : Routes}
    (h : insertAll (fun e => parseEntry e.1 e.2) rs entries = .ok rs') (host : String) :
    match lastTarget? entries host with
    | none => rs'.get? host = rs.get? host
    | some target => ∃ route, Route.parse host target = .ok route ∧ rs'.get? host = some route := by
  induction entries generalizing rs with
  | nil =>
    cases h
    rfl
  | cons e entries ih =>
    rw [insertAll] at h
    split at h
    · cases h
    · next host' route hread =>
      obtain ⟨hown, hroute⟩ := of_parseEntry hread
      have hrest := ih h
      rw [lastTarget?_cons, ← hown]
      cases hlast : lastTarget? entries host with
      | some target =>
        rw [hlast] at hrest
        exact hrest
      | none =>
        rw [hlast] at hrest
        dsimp only at hrest
        rw [get?_insert] at hrest
        rw [Option.none_or]
        by_cases he : host' = host
        · subst he
          rw [if_pos rfl] at hrest ⊢
          exact ⟨route, hroute, hrest⟩
        · rw [if_neg he]
          rwa [if_neg (Ne.symm he)] at hrest

/-- **The last entry wins.** -/
theorem get?_of_parse {entries : List (String × String)} {rs : Routes}
    (h : parse entries = .ok rs) (host : String) :
    match lastTarget? entries host with
    | none => rs.get? host = none
    | some target => ∃ route, Route.parse host target = .ok route ∧ rs.get? host = some route :=
  get?_of_insertAll h host

/-! ## When entries give a table -/

/-- Nothing but an entry that cannot be read keeps entries from being added. -/
theorem exists_insertAll_iff {α : Type} (read : α → Except RouteError (String × Route))
    (rs : Routes) (as : List α) :
    (∃ rs', insertAll read rs as = .ok rs') ↔ ∀ a ∈ as, ∃ entry, read a = .ok entry := by
  induction as generalizing rs with
  | nil => exact ⟨fun _ _ => nofun, fun _ => ⟨rs, rfl⟩⟩
  | cons a as ih =>
    rw [insertAll, List.forall_mem_cons]
    cases hread : read a with
    | error e => simp
    | ok entry =>
      obtain ⟨host, route⟩ := entry
      show (∃ rs', insertAll read (rs.insert host route) as = .ok rs') ↔ _
      rw [ih]
      simp

theorem exists_parse_iff (entries : List (String × String)) :
    (∃ rs, parse entries = .ok rs) ↔ ∀ e ∈ entries, ∃ entry, parseEntry e.1 e.2 = .ok entry :=
  exists_insertAll_iff _ _ _

section

variable {entries : List (String × String)} {rs : Routes} (h : parse entries = .ok rs)

include h

/-- A route of the table is that of an entry. -/
theorem exists_entry_of_get? {host : String} {route : Route} (hget : rs.get? host = some route) :
    ∃ e ∈ entries, parseEntry e.1 e.2 = .ok (host, route) := by
  have hlast := get?_of_parse h host
  cases htarget : lastTarget? entries host with
  | none =>
    rw [htarget] at hlast
    exact absurd (hget.symm.trans hlast) nofun
  | some target =>
    rw [htarget] at hlast
    obtain ⟨route', hparse, hget'⟩ := hlast
    obtain rfl : route' = route := Option.some.inj (hget'.symm.trans hget)
    obtain ⟨e, hmem, hhost, rfl⟩ := mem_of_lastTarget? htarget
    obtain ⟨⟨own, route'⟩, hentry⟩ := (exists_parse_iff entries).mp ⟨rs, h⟩ e hmem
    obtain ⟨hown, hne, -⟩ := parseEntry_eq_ok_iff.mp hentry
    obtain rfl : own = host := hown.symm.trans hhost
    exact ⟨e, hmem, parseEntry_eq_ok_iff.mpr ⟨hhost, hne, hparse⟩⟩

/-- An entry gives its host some route. -/
theorem exists_get?_of_mem {e : String × String} (he : e ∈ entries) :
    ∃ route, rs.get? (Host.canonicalTrimmed e.1) = some route := by
  have hlast := get?_of_parse h (Host.canonicalTrimmed e.1)
  cases htarget : lastTarget? entries (Host.canonicalTrimmed e.1) with
  | none => exact absurd rfl ((lastTarget?_eq_none_iff _ _).mp htarget e he)
  | some target =>
    rw [htarget] at hlast
    obtain ⟨route, -, hget⟩ := hlast
    exact ⟨route, hget⟩

end

end Routes

end Gatehouse
