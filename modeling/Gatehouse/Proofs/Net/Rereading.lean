import Gatehouse.Net.Target
import Mathlib.Data.List.TakeWhile

/-!
# URIs that are read again

What is read of a URI can be written down and is read again, also behind another authority: the path
and query of a target begin with a character that ends an authority.  The asterisk is the exception;
behind an authority it becomes a part of it.

    Authority.scan_append          : where an authority ends
    PathQuery.ofChars?_text        : path and query as they are read again
    Target.ofText?_absolute        : how an absolute URI is read
    Target.cases_of_ofText?        : what path and query are read from
-/

namespace Gatehouse.Net

open Text

namespace Authority

/-! ## Where an authority ends -/

/-- What may follow an authority. -/
def EndsBefore (rest : List Char) : Prop := ∀ c, rest.head? = some c → endsAuthority c = true

theorem endsBefore_nil : EndsBefore [] := nofun

theorem endsBefore_cons {c : Char} {rest : List Char} :
    EndsBefore (c :: rest) ↔ endsAuthority c = true :=
  ⟨fun h => h c rfl, fun h _ hd => Option.some.inj hd ▸ h⟩

theorem endsAuthority_iff (c : Char) : endsAuthority c = true ↔ c = '/' ∨ c = '?' ∨ c = '#' := by
  simp [endsAuthority, or_assoc]

theorem endsAuthority_of_isAllowed {c : Char} (h : isAllowed c = true) :
    endsAuthority c = false := by
  by_contra hends
  rw [Bool.not_eq_false, endsAuthority_iff] at hends
  rcases hends with rfl | rfl | rfl <;> exact absurd h (by decide)

theorem go_of_endsBefore {s : Scan} (hs : s.complete = true) {rest : List Char}
    (hrest : EndsBefore rest) (n : Nat) : scan.go s n rest = some n := by
  cases rest with
  | nil => rw [scan.go, if_pos hs]
  | cons c rest => rw [scan.go, if_pos (hrest c rfl), if_pos hs]

section

variable {cs rest : List Char} (hcs : ∀ c ∈ cs, endsAuthority c = false)

include hcs

/-- A scan does not look beyond the end of the authority. -/
theorem go_append_endsBefore (hrest : EndsBefore rest) (s : Scan) (n : Nat) :
    scan.go s n (cs ++ rest) = scan.go s n cs := by
  induction cs generalizing s n with
  | nil =>
    cases rest with
    | nil => rfl
    | cons c rest => rw [List.nil_append, scan.go, scan.go, if_pos (hrest c rfl)]
  | cons c cs ih =>
    have hc : ¬endsAuthority c = true := Bool.eq_false_iff.mp (hcs c List.mem_cons_self)
    rw [List.cons_append, scan.go, scan.go, if_neg hc, if_neg hc]
    cases s.step c with
    | none => rfl
    | some t => exact ih (fun d hd => hcs d (List.mem_cons_of_mem c hd)) t (n + 1)

/-- A scan that nothing ends goes to the end of the text. -/
theorem eq_of_go {s : Scan} {n m : Nat} (h : scan.go s n cs = some m) : m = n + cs.length := by
  induction cs generalizing s n with
  | nil =>
    rw [scan.go] at h
    split at h
    · exact (Option.some.inj h).symm
    · cases h
  | cons c cs ih =>
    have hc : ¬endsAuthority c = true := Bool.eq_false_iff.mp (hcs c List.mem_cons_self)
    rw [scan.go, if_neg hc] at h
    cases hstep : s.step c with
    | none =>
      rw [hstep] at h
      cases h
    | some t =>
      rw [hstep] at h
      have hm := ih (fun d hd => hcs d (List.mem_cons_of_mem c hd)) h
      rw [List.length_cons]
      omega

theorem scan_append (hrest : EndsBefore rest) : scan (cs ++ rest) = scan cs :=
  go_append_endsBefore hcs hrest {} 0

theorem eq_length_of_scan {n : Nat} (h : scan cs = some n) : n = cs.length := by
  have hn := eq_of_go hcs h
  rwa [Nat.zero_add] at hn

end

theorem endsBefore_of_go {s : Scan} {n m : Nat} {cs : List Char} (h : scan.go s n cs = some m) :
    EndsBefore (cs.drop (m - n)) := by
  induction cs generalizing s n with
  | nil =>
    rw [List.drop_nil]
    exact endsBefore_nil
  | cons c cs ih =>
    have hle := (isAllowed_of_go h).1
    rw [scan.go] at h
    split at h
    · next hends =>
      split at h
      · obtain rfl := Option.some.inj h
        rw [Nat.sub_self, List.drop_zero]
        exact endsBefore_cons.mpr hends
      · cases h
    · cases hstep : s.step c with
      | none =>
        rw [hstep] at h
        cases h
      | some t =>
        rw [hstep] at h
        have hle := (isAllowed_of_go h).1
        rw [show m - n = m - (n + 1) + 1 by omega, List.drop_succ_cons]
        exact ih h

theorem endsBefore_of_scan {n : Nat} {cs : List Char} (h : scan cs = some n) :
    EndsBefore (cs.drop n) := by
  have hrest := endsBefore_of_go h
  rwa [Nat.sub_zero] at hrest

theorem ofText?_of_scan {s : String} (hne : s ≠ "") (h : scan s.toList = some s.toList.length) :
    ofText? s = some ⟨s⟩ := by
  have hempty : ¬s.isEmpty = true := by simpa using hne
  rw [ofText?, if_neg hempty, if_pos h]

/-- An authority is what a scan goes over. -/
theorem isSome_ofText?_iff (s : String) :
    (ofText? s).isSome = true ↔ s ≠ "" ∧ scan s.toList = some s.toList.length := by
  constructor
  · intro h
    unfold ofText? at h
    split at h
    · cases h
    · next hempty =>
      split at h
      · next hscan => exact ⟨by simpa using hempty, hscan⟩
      · cases h
  · rintro ⟨hne, hscan⟩
    rw [ofText?_of_scan hne hscan]
    rfl

end Authority

namespace PathQuery

open Authority

/-! ## Path and query -/

/-- The characters of an accepted path and query. -/
structure IsProper (p : PathQuery) : Prop where
  path : ∀ c ∈ p.path.toList, isPathChar c = true
  query : ∀ query, p.query = some query → ∀ c ∈ query.toList, isQueryChar c = true

/-- The path is empty or begins at the root. -/
def IsRooted (p : PathQuery) : Prop := p.path = "" ∨ p.path.toList.head? = some '/'

theorem ne_of_isPathChar {c : Char} (h : isPathChar c = true) : c ≠ '?' ∧ c ≠ '#' := by
  constructor <;> rintro rfl <;> exact absurd h (by decide)

theorem ne_of_isQueryChar {c : Char} (h : isQueryChar c = true) : c ≠ '#' := by
  rintro rfl
  exact absurd h (by decide)

theorem isProper_of_ofChars? {cs : List Char} {p : PathQuery} (h : ofChars? cs = some p) :
    p.IsProper := by
  unfold ofChars? at h
  dsimp only at h
  split at h
  · cases h
  · next hpath =>
    rw [Bool.not_eq_true, Bool.not_eq_false', List.all_eq_true] at hpath
    split at h
    · split at h
      · next hquery =>
        cases h
        rw [List.all_eq_true] at hquery
        refine ⟨by simpa using hpath, fun query hq => ?_⟩
        obtain rfl := Option.some.inj hq
        simpa using hquery
      · cases h
    · cases h
      exact ⟨by simpa using hpath, nofun⟩

theorem path_of_ofChars? {cs : List Char} {p : PathQuery} (h : ofChars? cs = some p) :
    p.path.toList = cs.takeWhile fun c => c != '?' && c != '#' := by
  unfold ofChars? at h
  dsimp only at h
  split at h
  · cases h
  · split at h
    · split at h
      · cases h
        exact String.toList_ofList
      · cases h
    · cases h
      exact String.toList_ofList

/-- What follows an authority is rooted. -/
theorem isRooted_of_ofChars? {cs : List Char} {p : PathQuery} (h : ofChars? cs = some p)
    (hcs : EndsBefore cs) : p.IsRooted := by
  have hpath := path_of_ofChars? h
  cases cs with
  | nil => exact .inl (String.toList_inj.mp hpath)
  | cons c cs =>
    rcases (endsAuthority_iff c).mp (endsBefore_cons.mp hcs) with rfl | rfl | rfl
    · exact .inr (by rw [hpath]; rfl)
    · exact .inl (String.toList_inj.mp hpath)
    · exact .inl (String.toList_inj.mp hpath)

/-- The path and query as they are written, unless this is nothing at all. -/
theorem toList_text {p : PathQuery} (h : p.path ≠ "" ∨ p.query ≠ none) :
    p.text.toList = p.path.toList ++ ((p.query.map fun q => '?' :: q.toList).getD []) := by
  have hwritten : (p.path ++ (p.query.map ("?" ++ ·)).getD "").toList =
      p.path.toList ++ ((p.query.map fun q => '?' :: q.toList).getD []) := by
    cases p.query <;> simp
  have hempty : ¬(p.path ++ (p.query.map ("?" ++ ·)).getD "").isEmpty = true := by
    rw [String.isEmpty_iff, ← String.toList_inj, hwritten]
    cases hq : p.query with
    | none =>
      rw [hq] at h
      simpa using h
    | some q => simp
  unfold text
  dsimp only
  rw [if_neg hempty, hwritten]

theorem text_of_empty {p : PathQuery} (hpath : p.path = "") (hquery : p.query = none) :
    p.text = "/" := by
  unfold text
  rw [hpath, hquery]
  rfl

theorem endsBefore_text {p : PathQuery} (h : p.IsRooted) : EndsBefore p.text.toList := by
  intro c hc
  by_cases hempty : p.path ≠ "" ∨ p.query ≠ none
  · rw [toList_text hempty] at hc
    obtain hpath | hpath := h
    · have hquery : p.query ≠ none := hempty.resolve_left (not_not.mpr hpath)
      obtain ⟨query, hquery⟩ := Option.ne_none_iff_exists'.mp hquery
      rw [hpath, hquery] at hc
      obtain rfl : '?' = c := Option.some.inj hc
      rfl
    · obtain ⟨rest, hrest⟩ := List.head?_eq_some_iff.mp hpath
      rw [hrest] at hc
      obtain rfl : '/' = c := Option.some.inj hc
      rfl
  · rw [not_or, not_not, not_not] at hempty
    rw [text_of_empty hempty.1 hempty.2] at hc
    obtain rfl : '/' = c := Option.some.inj hc
    rfl

section

variable {path : List Char} (hpath : ∀ c ∈ path, isPathChar c = true)

include hpath

theorem takeWhile_path (rest : List Char) :
    (path ++ rest).takeWhile (fun c => c != '?' && c != '#') =
      path ++ rest.takeWhile fun c => c != '?' && c != '#' := by
  refine List.takeWhile_append_of_pos fun c hc => ?_
  obtain ⟨hquestion, hhash⟩ := ne_of_isPathChar (hpath c hc)
  rw [bne_iff_ne.mpr hquestion, bne_iff_ne.mpr hhash]
  rfl

theorem ofChars?_path : ofChars? path = some ⟨String.ofList path, none⟩ := by
  have htake := takeWhile_path hpath []
  rw [List.append_nil, List.takeWhile_nil, List.append_nil] at htake
  have hall : path.all isPathChar = true := List.all_eq_true.mpr hpath
  unfold ofChars?
  dsimp only
  rw [htake, hall, List.drop_length]
  rfl

theorem ofChars?_query {query : List Char} (hquery : ∀ c ∈ query, isQueryChar c = true) :
    ofChars? (path ++ '?' :: query) = some ⟨String.ofList path, some (String.ofList query)⟩ := by
  have htake : (path ++ '?' :: query).takeWhile (fun c => c != '?' && c != '#') = path := by
    rw [takeWhile_path hpath]
    exact List.append_nil path
  have hall : path.all isPathChar = true := List.all_eq_true.mpr hpath
  have hwhole : query.takeWhile (· != '#') = query :=
    List.takeWhile_eq_self_iff.mpr fun c hc => bne_iff_ne.mpr (ne_of_isQueryChar (hquery c hc))
  have hchars : query.all isQueryChar = true := List.all_eq_true.mpr hquery
  simp [ofChars?, htake, hall, hwhole, hchars]

end

/-- **Path and query are read again** as they were written; an empty path becomes the root. -/
theorem ofChars?_text {p : PathQuery} (h : p.IsProper) :
    ∃ p', ofChars? p.text.toList = some p' ∧ p'.text = p.text := by
  by_cases hempty : p.path ≠ "" ∨ p.query ≠ none
  · refine ⟨p, ?_, rfl⟩
    rw [toList_text hempty]
    cases hquery : p.query with
    | none =>
      have hp : p = ⟨p.path, none⟩ := by rw [← hquery]
      rw [Option.map_none, Option.getD_none, List.append_nil, ofChars?_path h.path,
        String.ofList_toList, ← hp]
    | some query =>
      have hp : p = ⟨p.path, some query⟩ := by rw [← hquery]
      rw [Option.map_some, Option.getD_some, ofChars?_query h.path (h.query query hquery),
        String.ofList_toList, String.ofList_toList, ← hp]
  · rw [not_or, not_not, not_not] at hempty
    rw [text_of_empty hempty.1 hempty.2]
    exact ⟨root, rfl, rfl⟩

end PathQuery

/-! ## Targets -/

namespace Target

open Authority

theorem readScheme_append {scheme : List Char} (hne : scheme ≠ [])
    (hscheme : ∀ c ∈ scheme, isSchemeChar c = true) (cs : List Char) :
    readScheme (scheme ++ "://".toList ++ cs) = some (String.ofList scheme, cs) := by
  have htake : (scheme ++ "://".toList ++ cs).takeWhile isSchemeChar = scheme := by
    rw [List.append_assoc, List.takeWhile_append_of_pos hscheme]
    exact List.append_nil _
  have hempty : ¬scheme.isEmpty = true := by simpa using hne
  unfold readScheme
  dsimp only
  rw [htake, List.append_assoc, List.drop_left]
  exact if_neg hempty

theorem ofText?_absolute (scheme : List Char) (hne : scheme ≠ [])
    (hall : scheme.all isSchemeChar = true)
    (hlength : (String.ofList scheme).length ≤ maxScheme) (cs : List Char) :
    ofText? (String.ofList (scheme ++ "://".toList ++ cs)) =
      if maxLength < (String.ofList (scheme ++ "://".toList ++ cs)).utf8ByteSize then none
      else (scan cs).bind fun n =>
        if n = 0 then none
        else (PathQuery.ofChars? (cs.drop n)).map
          (absolute (String.ofList scheme) ⟨String.ofList (cs.take n)⟩) := by
  have hscheme : ∀ c ∈ scheme, isSchemeChar c = true := List.all_eq_true.mp hall
  have hread := readScheme_append hne hscheme cs
  have hfirst : ∀ c rest, scheme ++ "://".toList ++ cs = c :: rest → isSchemeChar c = true := by
    intro c rest hcs
    obtain ⟨d, scheme, rfl⟩ := List.exists_cons_of_ne_nil hne
    obtain rfl : d = c := (List.cons.inj hcs).1
    exact hscheme d List.mem_cons_self
  unfold ofText?
  split
  · rfl
  · rw [String.toList_ofList]
    generalize scheme ++ "://".toList ++ cs = text at hread hfirst
    split
    · cases hread
    · exact absurd (hfirst _ _ rfl) (by decide)
    · exact absurd (hfirst _ _ rfl) (by decide)
    · rw [hread]
      dsimp only
      rw [if_neg (Nat.not_lt.mpr hlength)]
      refine congrArg (Option.bind (scan cs)) (funext fun n => ?_)
      cases PathQuery.ofChars? (cs.drop n) <;> rfl

/-- What path and query of a target are read from, in all forms that have them. -/
theorem cases_of_ofText? {uri : String} {t : Target} (h : ofText? uri = some t) :
    t = asterisk ∨ (∃ a, t = authority a) ∨
      ∃ p cs, t.pathQuery? = some p ∧ t ≠ asterisk ∧ PathQuery.ofChars? cs = some p ∧
        EndsBefore cs := by
  unfold ofText? at h
  split at h
  · cases h
  · split at h
    · cases h
    · exact .inl (Option.some.inj h).symm
    · obtain ⟨p, hp, rfl⟩ := Option.map_eq_some_iff.mp h
      exact .inr (.inr ⟨p, _, rfl, nofun, hp, endsBefore_cons.mpr rfl⟩)
    · split at h
      · obtain ⟨a, -, rfl⟩ := Option.map_eq_some_iff.mp h
        exact .inr (.inl ⟨a, rfl⟩)
      · split at h
        · cases h
        · simp only [Option.bind_eq_bind, Option.bind_eq_some_iff] at h
          obtain ⟨n, hn, h⟩ := h
          split at h
          · cases h
          · obtain ⟨p, hp, htarget⟩ := Option.bind_eq_some_iff.mp h
            obtain rfl := Option.some.inj htarget
            exact .inr (.inr ⟨p, _, rfl, nofun, hp, endsBefore_of_scan hn⟩)

end Target

end Gatehouse.Net
