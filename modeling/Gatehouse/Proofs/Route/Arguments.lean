import Gatehouse.Launch.Startup
import Gatehouse.Proofs.Route.Parsing
import Mathlib.Logic.ExistsUnique

/-!
# Arguments and entries

Routes are given as arguments `HOST=TARGET`, or as entries of a host and a target.  An argument is
cut at its first `=`, so that every entry whose host has none can be written as an argument and
every argument with one is such an entry.  A list of routes then gives the same in both ways: the
table in which the last entry for a host wins, or the error of the first entry that cannot be read.

    Routes.argument               : an entry written as an argument
    Routes.parseArgument_argument : it is read as the entry is
    Routes.insertAll_eq_error_iff : which error is told
    Routes.arguments_same_as_entries : all that comes of a list of them
-/

namespace Gatehouse

open Text

namespace Routes

def argument (e : String × String) : String := e.1 ++ "=" ++ e.2

/-! ## One argument -/

/-- An argument is read as its entry is; further `=` belong to the target. -/
theorem parseArgument_argument {e : String × String} (h : '=' ∉ e.1.toList) :
    parseArgument (argument e) = parseEntry e.1 e.2 := by
  have hcut : cut '=' (argument e) = some (e.1, e.2) := (cut_eq_some_iff _ _ _ _).mpr ⟨h, rfl⟩
  rw [parseArgument, hcut]

/-- A value with a `=` is an argument of just one entry whose host has none. -/
theorem existsUnique_entry {value : String} (h : '=' ∈ value.toList) :
    ∃! e : String × String, '=' ∉ e.1.toList ∧ value = argument e := by
  cases hcut : cut '=' value with
  | none => exact absurd h ((cut_eq_none_iff _ _).mp hcut)
  | some e =>
    refine ⟨e, (cut_eq_some_iff _ _ _ _).mp hcut, fun e' he' => ?_⟩
    have hcut' : cut '=' value = some (e'.1, e'.2) := (cut_eq_some_iff _ _ _ _).mpr he'
    exact Option.some.inj (hcut'.symm.trans hcut)

/-! ## Many of them -/

section

variable {α β : Type} {read : α → Except RouteError (String × Route)}

/-- Adding to a table reads what is written as it reads what was written down. -/
theorem insertAll_map {read' : β → Except RouteError (String × Route)} {f : α → β} {as : List α}
    (h : ∀ a ∈ as, read' (f a) = read a) (rs : Routes) :
    insertAll read' rs (as.map f) = insertAll read rs as := by
  induction as generalizing rs with
  | nil => rfl
  | cons a as ih =>
    rw [List.map_cons, insertAll, insertAll, h a List.mem_cons_self]
    cases read a with
    | error e => rfl
    | ok entry => exact ih (fun b hb => h b (List.mem_cons_of_mem a hb)) _

theorem insertAll_append (rs : Routes) (front rear : List α) :
    insertAll read rs (front ++ rear) =
      (insertAll read rs front).bind fun rs' => insertAll read rs' rear := by
  induction front generalizing rs with
  | nil => rfl
  | cons a front ih =>
    rw [List.cons_append, insertAll, insertAll]
    cases read a with
    | error e => rfl
    | ok entry => exact ih _

/-- The error is that of the first that cannot be read. -/
theorem insertAll_eq_error_iff {rs : Routes} {as : List α} {error : RouteError} :
    insertAll read rs as = .error error ↔ ∃ front a rear, as = front ++ a :: rear ∧
      (∀ b ∈ front, ∃ entry, read b = .ok entry) ∧ read a = .error error := by
  constructor
  · intro h
    induction as generalizing rs with
    | nil => cases h
    | cons b as ih =>
      rw [insertAll] at h
      cases hb : read b with
      | error e =>
        rw [hb] at h
        cases h
        exact ⟨[], b, as, rfl, List.forall_mem_nil _, hb⟩
      | ok entry =>
        rw [hb] at h
        obtain ⟨front, a, rear, rfl, hfront, ha⟩ := ih h
        exact ⟨b :: front, a, rear, rfl, List.forall_mem_cons.mpr ⟨⟨entry, hb⟩, hfront⟩, ha⟩
  · rintro ⟨front, a, rear, rfl, hfront, ha⟩
    obtain ⟨rs', hrs'⟩ := (exists_insertAll_iff read rs front).mpr hfront
    rw [insertAll_append, hrs']
    show insertAll read rs' (a :: rear) = _
    rw [insertAll, ha]

end

section

variable {entries : List (String × String)}

/-- Both ways to give routes lead to the same. -/
theorem parseArguments_map (h : ∀ e ∈ entries, '=' ∉ e.1.toList) :
    parseArguments (entries.map argument) = parse entries :=
  insertAll_map (fun e he => parseArgument_argument (h e he)) empty

/-- The gateway takes the table of its arguments for the base of its routes, and is not started
without one. -/
theorem routesOf_arguments (h : ∀ e ∈ entries, '=' ∉ e.1.toList) {o : Cli.Options}
    (ho : o.routes = entries.map argument) (w : Launch.Surroundings) :
    (∀ error, parse entries = .error error → Launch.routesOf o w = .error (.route error)) ∧
    ∀ base routes, Launch.routesOf o w = .ok (base, routes) → parse entries = .ok base := by
  unfold Launch.routesOf
  rw [ho, parseArguments_map h]
  constructor
  · intro error herror
    rw [herror]
    rfl
  · intro base routes hroutes
    obtain ⟨own, hown, hroutes⟩ := Launch.exists_of_bind hroutes
    have hbase : own = base := by
      split at hroutes
      · cases hroutes
        rfl
      · obtain ⟨upper, -, hroutes⟩ := Launch.exists_of_bind hroutes
        cases hroutes
        rfl
    cases hparse : parse entries with
    | error e =>
      rw [hparse] at hown
      cases hown
    | ok rs =>
      rw [hparse] at hown
      cases hown
      rw [hbase]

/-- **Arguments and entries give the same routes.**  For a list of entries whose hosts have no `=`,

* the arguments give what the entries give, and so does a gateway that is started with them;
* if that is a table, the last entry for a host gives its route;
* it is an error exactly if it is that of the first entry that cannot be read;
* any value with a `=` is the argument of just one such entry, so that all further `=` belong to the
  target, and is read as this entry is. -/
theorem arguments_same_as_entries (h : ∀ e ∈ entries, '=' ∉ e.1.toList) :
    parseArguments (entries.map argument) = parse entries ∧
    (∀ o w, o.routes = entries.map argument →
      (∀ error, parse entries = .error error → Launch.routesOf o w = .error (.route error)) ∧
      ∀ base routes, Launch.routesOf o w = .ok (base, routes) → parse entries = .ok base) ∧
    (∀ rs, parse entries = .ok rs → ∀ host, match lastTarget? entries host with
      | none => rs.get? host = none
      | some target => ∃ route,
        Route.parse host target = .ok route ∧ rs.get? host = some route) ∧
    (∀ error, parse entries = .error error ↔ ∃ front e rear, entries = front ++ e :: rear ∧
      (∀ before ∈ front, ∃ entry, parseEntry before.1 before.2 = .ok entry) ∧
      parseEntry e.1 e.2 = .error error) ∧
    (∀ value, '=' ∈ value.toList →
      ∃! e : String × String, '=' ∉ e.1.toList ∧ value = argument e ∧
        parseArgument value = parseEntry e.1 e.2) := by
  refine ⟨parseArguments_map h, fun _ w ho => routesOf_arguments h ho w,
    fun _ hparse host => get?_of_parse hparse host, fun _ => insertAll_eq_error_iff, ?_⟩
  intro value hvalue
  obtain ⟨e, ⟨hhost, rfl⟩, hunique⟩ := existsUnique_entry hvalue
  exact ⟨e, ⟨hhost, rfl, parseArgument_argument hhost⟩, fun e' he' =>
    hunique e' ⟨he'.1, he'.2.1⟩⟩

end

/-- Entries of which two are for one host, and a target with a `=`. -/
def repeatedHost : List (String × String) :=
  [("a.example", "home"), ("B.example", "!c.example/?x=1"), (" A.example. ", "10.0.0.7:80")]

theorem repeatedHost_by_arguments : ∃ rs,
    parseArguments ["a.example=home", "B.example=!c.example/?x=1", " A.example. =10.0.0.7:80"] =
      .ok rs ∧
    rs.get? "a.example" = some (.proxy "10.0.0.7:80" (by decide)) ∧
    rs.get? "b.example" = some (.redirect "c.example/?x=1" (by decide)) ∧
    ∃! e : String × String, '=' ∉ e.1.toList ∧ "B.example=!c.example/?x=1" = argument e ∧
      parseArgument "B.example=!c.example/?x=1" = parseEntry e.1 e.2 := by
  let rs : Routes := ⟨[("b.example", .redirect "c.example/?x=1" (by decide)),
    ("a.example", .proxy "10.0.0.7:80" (by decide))]⟩
  have hparse : parse repeatedHost = .ok rs := rfl
  have hhosts : ∀ e ∈ repeatedHost, '=' ∉ e.1.toList := by decide +kernel
  obtain ⟨hsame, -, -, -, hvalue⟩ := arguments_same_as_entries hhosts
  exact ⟨rs, hsame.trans hparse, rfl, rfl, hvalue _ (by decide +kernel)⟩

end Routes

end Gatehouse
