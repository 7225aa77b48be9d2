import Gatehouse.Proofs.Route.Parsing
import Gatehouse.Route.File
import Mathlib.Data.List.Nodup

/-!
# Entries in another order

The entries of a routes file come in no order: its keys are pairwise distinct, and any of them may
come last.  Whether they can all be read does not depend on the order.  But different keys may be
spellings of one host, and then the table depends on which of them comes last.

    RoutesFile.nodup_entries? : the keys of a file are pairwise distinct
    Routes.Loads              : what a file gives, its entries taken in some order
    Routes.Same               : the same route for every host
    Routes.Clash              : two spellings of a host with different routes
    Routes.oneMeaning_iff     : when a file stands for the same table in any order
-/

namespace Gatehouse

open Text

/-! ## Keys of a file -/

namespace RoutesFile

theorem keys_setKey (key value : String) (entries : List (String × String)) :
    (setKey key value entries).map (·.1) =
      if key ∈ entries.map (·.1) then entries.map (·.1) else entries.map (·.1) ++ [key] := by
  induction entries with
  | nil => rfl
  | cons e entries ih =>
    obtain ⟨own, target⟩ := e
    by_cases hown : own = key
    · simp [setKey, hown]
    · have hne : key ≠ own := Ne.symm hown
      rw [setKey, if_neg hown, List.map_cons, ih]
      by_cases hmem : key ∈ entries.map (·.1)
      · simp [hmem]
      · simp [hmem, hne]

theorem nodup_setKey {entries : List (String × String)} (h : (entries.map (·.1)).Nodup)
    (key value : String) : ((setKey key value entries).map (·.1)).Nodup := by
  rw [keys_setKey]
  split
  · exact h
  · next hnew => simpa using h.concat hnew

theorem nodup_foldl_setKey (members : List (String × String)) {entries : List (String × String)}
    (h : (entries.map (·.1)).Nodup) :
    ((members.foldl (fun es m => setKey m.1 m.2 es) entries).map (·.1)).Nodup := by
  induction members generalizing entries with
  | nil => exact h
  | cons m members ih => exact ih (nodup_setKey h m.1 m.2)

theorem nodup_entries? {content : String} {entries : List (String × String)}
    (h : entries? content = some entries) : (entries.map (·.1)).Nodup := by
  unfold entries? at h
  split at h
  · dsimp only at h
    split at h
    · split at h
      · cases h
        exact nodup_foldl_setKey _ List.nodup_nil
      · cases h
    · cases h
  · cases h

end RoutesFile

/-! ## Orders of entries -/

namespace Routes

/-- The same route for every host. -/
def Same (rs rs' : Routes) : Prop := ∀ host, rs.get? host = rs'.get? host

/-- Both fail, or both give the same table. -/
def Agree : Except RouteError Routes → Except RouteError Routes → Prop
  | .ok rs, .ok rs' => rs.Same rs'
  | .error _, .error _ => True
  | _, _ => False

/-- The entries stand for the same in every order. -/
def OneMeaning (entries : List (String × String)) : Prop :=
  ∀ a b, a.Perm entries → b.Perm entries → Agree (parse a) (parse b)

/-- Two spellings of a host have different routes. -/
def Clash (entries : List (String × String)) : Prop :=
  ∃ e ∈ entries, ∃ e' ∈ entries, Host.canonicalTrimmed e.1 = Host.canonicalTrimmed e'.1 ∧
    Route.parse (Host.canonicalTrimmed e.1) e.2 ≠ Route.parse (Host.canonicalTrimmed e.1) e'.2

instance (entries : List (String × String)) : Decidable (Clash entries) :=
  inferInstanceAs (Decidable (∃ e ∈ entries, ∃ e' ∈ entries, _ ∧ _))

section

variable {a b entries : List (String × String)} {rs rs' : Routes}

theorem exists_parse_of_perm (hperm : a.Perm b) (h : ∃ rs, parse a = .ok rs) :
    ∃ rs, parse b = .ok rs := by
  rw [exists_parse_iff] at h ⊢
  intro e he
  exact h e (hperm.mem_iff.mpr he)

theorem clash_of_perm (hperm : a.Perm b) (h : Clash a) : Clash b := by
  obtain ⟨e, he, e', he', hclash⟩ := h
  exact ⟨e, hperm.mem_iff.mp he, e', hperm.mem_iff.mp he', hclash⟩

/-- Without a clash it does not matter which spelling of a host comes last. -/
theorem get?_of_perm (hperm : a.Perm b) (hclash : ¬Clash a) (ha : parse a = .ok rs)
    (hb : parse b = .ok rs') {host : String} {route : Route} (hget : rs.get? host = some route) :
    rs'.get? host = some route := by
  obtain ⟨e, he, hentry⟩ := exists_entry_of_get? ha hget
  obtain ⟨rfl, -, hroute⟩ := parseEntry_eq_ok_iff.mp hentry
  obtain ⟨route', hget'⟩ := exists_get?_of_mem hb (hperm.mem_iff.mp he)
  obtain ⟨e', he', hentry'⟩ := exists_entry_of_get? hb hget'
  obtain ⟨hhost, -, hroute'⟩ := parseEntry_eq_ok_iff.mp hentry'
  have hsame : route = route' := by
    by_contra hne
    refine hclash ⟨e, he, e', hperm.mem_iff.mpr he', hhost.symm, ?_⟩
    rw [hroute, hroute']
    exact fun heq => hne (Except.ok.inj heq)
  rw [hget', hsame]

theorem same_of_perm (hperm : a.Perm b) (hclash : ¬Clash a) (ha : parse a = .ok rs)
    (hb : parse b = .ok rs') : rs.Same rs' := by
  have hclash' : ¬Clash b := fun h => hclash (clash_of_perm hperm.symm h)
  intro host
  refine Option.ext fun route => ⟨fun hget => ?_, fun hget => ?_⟩
  · exact get?_of_perm hperm hclash ha hb hget
  · exact get?_of_perm hperm.symm hclash' hb ha hget

/-- Whether entries can be read does not depend on their order. -/
theorem agree_of_perm (hperm : a.Perm b) (hclash : ¬Clash a) : Agree (parse a) (parse b) := by
  cases ha : parse a with
  | error e =>
    cases hb : parse b with
    | error e' => trivial
    | ok rs' =>
      obtain ⟨rs, hrs⟩ := exists_parse_of_perm hperm.symm ⟨rs', hb⟩
      rw [ha] at hrs
      cases hrs
  | ok rs =>
    obtain ⟨rs', hb⟩ := exists_parse_of_perm hperm ⟨rs, ha⟩
    rw [hb]
    exact same_of_perm hperm hclash ha hb

/-- Each entry that can be read comes last in some order, and then its host has its route. -/
theorem exists_order (h : ∃ rs, parse entries = .ok rs) {e : String × String} (he : e ∈ entries) :
    ∃ a rs route, a.Perm entries ∧ parse a = .ok rs ∧
      Route.parse (Host.canonicalTrimmed e.1) e.2 = .ok route ∧
      rs.get? (Host.canonicalTrimmed e.1) = some route := by
  -- the entry is moved to the end, where no other one can take its place
  obtain ⟨front, rear, rfl⟩ := List.append_of_mem he
  have hperm : (front ++ rear ++ [e]).Perm (front ++ e :: rear) :=
    (List.perm_append_singleton e (front ++ rear)).trans List.perm_middle.symm
  obtain ⟨rs, hrs⟩ := exists_parse_of_perm hperm.symm h
  have hlast := get?_of_parse hrs (Host.canonicalTrimmed e.1)
  rw [lastTarget?_concat] at hlast
  obtain ⟨route, hroute, hget⟩ := hlast
  exact ⟨_, rs, route, hperm, hrs, hroute, hget⟩

theorem not_clash_of_oneMeaning (h : ∃ rs, parse entries = .ok rs) (hone : OneMeaning entries) :
    ¬Clash entries := by
  rintro ⟨e, he, e', he', hhost, hne⟩
  obtain ⟨a, rs, route, haperm, ha, hroute, hget⟩ := exists_order h he
  obtain ⟨b, rs', route', hbperm, hb, hroute', hget'⟩ := exists_order h he'
  have hagree := hone a b haperm hbperm
  rw [ha, hb] at hagree
  rw [← hhost] at hroute' hget'
  have hsame : route = route' := Option.some.inj (hget.symm.trans ((hagree _).trans hget'))
  exact hne (by rw [hroute, hroute', hsame])

/-- Entries that cannot all be read fail in every order. -/
theorem oneMeaning_of_not_parsed (h : ∀ rs, parse entries ≠ .ok rs) : OneMeaning entries := by
  have hfails (c : List (String × String)) (hc : c.Perm entries) :
      ∃ e, parse c = .error e := by
    cases hparse : parse c with
    | error e => exact ⟨e, rfl⟩
    | ok rs =>
      obtain ⟨rs', hrs'⟩ := exists_parse_of_perm hc ⟨rs, hparse⟩
      exact absurd hrs' (h rs')
  intro a b ha hb
  obtain ⟨e, hea⟩ := hfails a ha
  obtain ⟨e', heb⟩ := hfails b hb
  rw [hea, heb]
  trivial

/-- The routes that a host may have are those of its spellings. -/
theorem exists_order_iff (h : ∃ rs, parse entries = .ok rs) (host : String) (route : Route) :
    (∃ a rs, a.Perm entries ∧ parse a = .ok rs ∧ rs.get? host = some route) ↔
      ∃ e ∈ entries, parseEntry e.1 e.2 = .ok (host, route) := by
  constructor
  · rintro ⟨a, rs, hperm, hrs, hget⟩
    obtain ⟨e, he, hentry⟩ := exists_entry_of_get? hrs hget
    exact ⟨e, hperm.mem_iff.mp he, hentry⟩
  · rintro ⟨e, he, hentry⟩
    obtain ⟨rfl, -, hroute⟩ := parseEntry_eq_ok_iff.mp hentry
    obtain ⟨a, rs, route', hperm, hrs, hroute', hget⟩ := exists_order h he
    obtain rfl : route' = route := Except.ok.inj (hroute'.symm.trans hroute)
    exact ⟨a, rs, hperm, hrs, hget⟩

end

/-! ## What a file gives -/

/-- In which orders the entries of a file may be taken: in its own, and in others perhaps. -/
structure Orders where
  allows : List (String × String) → List (String × String) → Prop
  refl : ∀ entries, allows entries entries
  perm : ∀ {entries order}, allows entries order → order.Perm entries

def Orders.any : Orders := ⟨fun entries order => order.Perm entries, fun _ => .refl _, id⟩

/-- The content of a file gives these routes, its entries taken in one of the orders. -/
def Loads (orders : Orders) (content : Option Octets) (rs : Routes) : Prop :=
  ∃ text entries order, content.bind Octets.text? = some text ∧
    RoutesFile.entries? text = some entries ∧ orders.allows entries order ∧ parse order = .ok rs

section

variable {path : String} {content : Option Octets} {rs : Routes} {orders : Orders}

theorem load_eq_ok_iff :
    load path content = .ok rs ↔ ∃ text entries, content.bind Octets.text? = some text ∧
      RoutesFile.entries? text = some entries ∧ parse entries = .ok rs := by
  unfold load
  cases htext : content.bind Octets.text? with
  | none => simp
  | some text =>
    cases hentries : RoutesFile.entries? text with
    | none => simp [hentries]
    | some entries =>
      dsimp only
      rw [hentries]
      cases hparse : parse entries <;> simp [hentries, hparse]

theorem loads_of_load (h : load path content = .ok rs) : Loads orders content rs := by
  obtain ⟨text, entries, htext, hentries, hparse⟩ := load_eq_ok_iff.mp h
  exact ⟨text, entries, entries, htext, hentries, orders.refl entries, hparse⟩

/-- Whether a file loads does not depend on the order. -/
theorem exists_load_of_loads (path : String) (h : Loads orders content rs) :
    ∃ rs', load path content = .ok rs' := by
  obtain ⟨text, entries, order, htext, hentries, hallowed, hparse⟩ := h
  obtain ⟨rs', hrs'⟩ := exists_parse_of_perm (orders.perm hallowed) ⟨rs, hparse⟩
  exact ⟨rs', load_eq_ok_iff.mpr ⟨text, entries, htext, hentries, hrs'⟩⟩

end

/-! ## One meaning -/

/-- **When a routes file has one meaning.**  Its keys are distinct.  In whatever order they come, it
stands for the same table, or for none, unless two keys are spellings of one host that have different
routes.  Then the host has the route of any of its spellings, in some order. -/
theorem oneMeaning_iff {content : String} {entries : List (String × String)}
    (h : RoutesFile.entries? content = some entries) :
    (entries.map (·.1)).Nodup ∧
    (OneMeaning entries ↔ (∀ rs, parse entries ≠ .ok rs) ∨ ¬Clash entries) ∧
    ((∃ rs, parse entries = .ok rs) → ∀ host route,
      (∃ a rs, a.Perm entries ∧ parse a = .ok rs ∧ rs.get? host = some route) ↔
        ∃ e ∈ entries, parseEntry e.1 e.2 = .ok (host, route)) := by
  refine ⟨RoutesFile.nodup_entries? h, ⟨?_, ?_⟩, exists_order_iff⟩
  · intro hone
    by_cases hparse : ∃ rs, parse entries = .ok rs
    · exact .inr (not_clash_of_oneMeaning hparse hone)
    · exact .inl (not_exists.mp hparse)
  · rintro (hfails | hclash)
    · exact oneMeaning_of_not_parsed hfails
    · intro a b ha hb
      exact agree_of_perm (ha.trans hb.symm) fun h => hclash (clash_of_perm ha h)

/-- Entries for two hosts, one of which is written in capitals. -/
def twoHosts : List (String × String) := [("a.example", "home"), ("B.Example.", "10.0.0.7:80")]

theorem twoHosts_one_meaning :
    RoutesFile.entries? "\x7b\"a.example\": \"home\", \"B.Example.\": \"10.0.0.7:80\"\x7d" =
      some twoHosts ∧ OneMeaning twoHosts := by
  have hentries : RoutesFile.entries?
      "\x7b\"a.example\": \"home\", \"B.Example.\": \"10.0.0.7:80\"\x7d" = some twoHosts := by
    decide +kernel
  have hclash : ¬Clash twoHosts := by decide +kernel
  exact ⟨hentries, (oneMeaning_iff hentries).2.1.mpr (.inr hclash)⟩

/-- Two spellings of a host, of which only one leads to a backend. -/
def twoSpellings : List (String × String) := [("a.example", "home"), ("A.example", "b.example")]

/-- A file with two spellings of a host stands for two tables. -/
theorem twoSpellings_two_meanings :
    RoutesFile.entries? "\x7b\"a.example\": \"home\", \"A.example\": \"b.example\"\x7d" =
      some twoSpellings ∧
    (parse twoSpellings).toOption.bind (·.get? "a.example") =
      some (.proxy "b.example" (by decide)) ∧
    (parse twoSpellings.reverse).toOption.bind (·.get? "a.example") = some .home ∧
    ¬OneMeaning twoSpellings := by
  refine ⟨by decide +kernel, by decide +kernel, by decide +kernel, fun hone => ?_⟩
  have hparse : ∃ rs, parse twoSpellings = .ok rs := by
    rw [exists_parse_iff]
    intro e he
    simp only [twoSpellings, List.mem_cons, List.not_mem_nil, or_false] at he
    rcases he with rfl | rfl
    · exact ⟨("a.example", .home), by decide +kernel⟩
    · exact ⟨("a.example", .proxy "b.example" (by decide)), by decide +kernel⟩
  have hclash : Clash twoSpellings := by decide +kernel
  exact not_clash_of_oneMeaning hparse hone hclash

end Routes

end Gatehouse
