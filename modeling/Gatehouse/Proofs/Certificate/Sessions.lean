import Gatehouse.Certificate.Acme
import Mathlib.Data.List.Induction
import Mathlib.Data.List.Sort
import Mathlib.Data.String.Basic

/-!
# Sessions follow the set of domains

Whatever lists of domains are given one after the other, what counts of each is the set of its
members: as a list in ascending order, each once, it is the same for all lists with these members.
A session is there for the set that was given last, if that is not empty.  It was started when this
set was first given in place of another, and goes on while the set stays the same.

    domainSet_eq_iff             : lists with the same members give the same set
    Acme.Orders                  : the session is the one for a list of domains
    Acme.Orders.update_cases     : what comes of the next list
    Acme.sessions_follow_domains : the session after any lists, and after one more
-/

namespace Gatehouse.Certificate

/-! ## The set of a list -/

theorem mem_dropRepeats {a : String} {l : List String} : a ∈ dropRepeats l ↔ a ∈ l := by
  fun_induction dropRepeats l with
  | case1 => rfl
  | case2 => rfl
  | case3 b r ih => simp [ih]
  | case4 b c r _ ih => rw [List.mem_cons, List.mem_cons, ih]

/-- In ascending order, elements that are equal come one after the other. -/
theorem pairwise_dropRepeats {l : List String} (h : l.Pairwise (· ≤ ·)) :
    (dropRepeats l).Pairwise (· < ·) := by
  fun_induction dropRepeats l with
  | case1 => exact .nil
  | case2 a => exact List.pairwise_singleton _ a
  | case3 b r ih => exact ih h.of_cons
  | case4 a b r hne ih =>
    refine List.pairwise_cons.mpr ⟨fun c hc => ?_, ih h.of_cons⟩
    obtain ⟨hfirst, hrest⟩ := List.pairwise_cons.mp h
    have hab : a < b := lt_of_le_of_ne (hfirst b List.mem_cons_self) hne
    rcases List.mem_cons.mp (mem_dropRepeats.mp hc) with rfl | hc
    · exact hab
    · exact lt_of_lt_of_le hab ((List.pairwise_cons.mp hrest).1 c hc)

theorem mem_domainSet {a : String} {domains : List String} :
    a ∈ domainSet domains ↔ a ∈ domains :=
  mem_dropRepeats.trans List.mem_mergeSort

theorem pairwise_domainSet (domains : List String) : (domainSet domains).Pairwise (· < ·) := by
  have htrans (a b c : String) (hab : decide (a ≤ b) = true) (hbc : decide (b ≤ c) = true) :
      decide (a ≤ c) = true :=
    decide_eq_true (String.le_trans (of_decide_eq_true hab) (of_decide_eq_true hbc))
  have htotal (a b : String) : (decide (a ≤ b) || decide (b ≤ a)) = true := by
    simp [String.le_total]
  have hsorted := List.pairwise_mergeSort htrans htotal domains
  exact pairwise_dropRepeats (hsorted.imp of_decide_eq_true)

/-- There is just one list of these members that ascends. -/
theorem domainSet_eq {domains l : List String} (hascends : l.Pairwise (· < ·))
    (hmem : ∀ d, d ∈ l ↔ d ∈ domains) : domainSet domains = l :=
  (pairwise_domainSet domains).eq_of_mem_iff hascends fun d => mem_domainSet.trans (hmem d).symm

theorem domainSet_eq_iff {domains domains' : List String} :
    domainSet domains = domainSet domains' ↔ ∀ d, d ∈ domains ↔ d ∈ domains' := by
  constructor
  · intro h d
    rw [← mem_domainSet, h, mem_domainSet]
  · intro h
    exact domainSet_eq (pairwise_domainSet domains') fun d => mem_domainSet.trans (h d).symm

theorem domainSet_eq_nil_iff {domains : List String} : domainSet domains = [] ↔ domains = [] := by
  rw [List.eq_nil_iff_forall_not_mem, List.eq_nil_iff_forall_not_mem]
  exact forall_congr' fun d => not_congr mem_domainSet

namespace Acme

/-! ## One more list -/

/-- The session is the one for a list of domains: for their set, and none if there are none. -/
def Orders (a : Acme) (domains : List String) : Prop :=
  match a.session with
  | none => domains = []
  | some s => domains ≠ [] ∧ s.domains = domainSet domains

theorem orders_of_session_eq_none {a : Acme} (h : a.session = none) {domains : List String} :
    a.Orders domains ↔ domains = [] := by
  rw [Orders, h]

theorem orders_of_session_eq_some {a : Acme} {s : AcmeSession} (h : a.session = some s)
    {domains : List String} :
    a.Orders domains ↔ domains ≠ [] ∧ s.domains = domainSet domains := by
  rw [Orders, h]

/-- Only the members of the list matter. -/
theorem orders_congr {a : Acme} {domains domains' : List String}
    (hsame : ∀ d, d ∈ domains ↔ d ∈ domains') : a.Orders domains ↔ a.Orders domains' := by
  have hset : domainSet domains = domainSet domains' := domainSet_eq_iff.mpr hsame
  have hempty : domains = [] ↔ domains' = [] := by
    rw [← domainSet_eq_nil_iff, hset, domainSet_eq_nil_iff]
  simp only [Orders, hset, hempty, ne_eq]

section

variable {a : Acme} {domains next : List String} (h : a.Orders domains)

include h

theorem Orders.isSome_iff : a.session.isSome = true ↔ domains ≠ [] := by
  cases hs : a.session with
  | none =>
    have hempty := (orders_of_session_eq_none hs).mp h
    exact iff_of_false nofun (not_not.mpr hempty)
  | some s => exact iff_of_true rfl ((orders_of_session_eq_some hs).mp h).1

/-- What comes of the next list depends on its set, and on that of the list before. -/
theorem Orders.update_eq : a.update next =
    if domainSet next = domainSet domains then a
    else if next = [] then { a with session := none }
    else ⟨some ⟨domainSet next, a.started⟩, a.started + 1⟩ := by
  have hempty : (domainSet next).isEmpty = true ↔ next = [] :=
    List.isEmpty_iff.trans domainSet_eq_nil_iff
  unfold Acme.update
  cases hs : a.session with
  | none =>
    obtain rfl := (orders_of_session_eq_none hs).mp h
    have hunchanged : domainSet next = domainSet [] ↔ next = [] := by
      rw [domainSet_eq_nil_iff.mpr rfl, domainSet_eq_nil_iff]
    simp only [hempty, hunchanged]
  | some s =>
    have hdomains := ((orders_of_session_eq_some hs).mp h).2
    have hunchanged : domainSet domains = domainSet next ↔ domainSet next = domainSet domains :=
      eq_comm
    simp only [hempty, hdomains, beq_iff_eq, hunchanged]

/-- The session stays if the list has the same members as the one before. -/
theorem Orders.update_of_same (hsame : ∀ d, d ∈ next ↔ d ∈ domains) : a.update next = a := by
  rw [h.update_eq, if_pos (domainSet_eq_iff.mpr hsame)]

/-- There is no session for no domains, and none is started. -/
theorem Orders.update_nil : a.update [] = { a with session := none } := by
  rw [h.update_eq]
  split
  · next hset =>
    -- there was none before either
    have hempty : domains = [] :=
      domainSet_eq_nil_iff.mp (hset.symm.trans (domainSet_eq_nil_iff.mpr rfl))
    have hnone : a.session = none := by
      rw [← Option.not_isSome_iff_eq_none, h.isSome_iff]
      exact not_not.mpr hempty
    rw [← hnone]
  · rw [if_pos rfl]

/-- A session is started if the list has other members than the one before. -/
theorem Orders.update_of_other (hne : next ≠ []) (hother : ¬∀ d, d ∈ next ↔ d ∈ domains) :
    a.update next = ⟨some ⟨domainSet next, a.started⟩, a.started + 1⟩ := by
  rw [h.update_eq, if_neg fun hset => hother (domainSet_eq_iff.mp hset), if_neg hne]

/-- One more list leaves everything as it is, ends the session, or starts one. -/
theorem Orders.update_cases (next : List String) :
    ((∀ d, d ∈ next ↔ d ∈ domains) ∧ a.update next = a) ∨
    ((¬∀ d, d ∈ next ↔ d ∈ domains) ∧ next = [] ∧ a.update next = { a with session := none }) ∨
    ((¬∀ d, d ∈ next ↔ d ∈ domains) ∧ next ≠ [] ∧
      a.update next = ⟨some ⟨domainSet next, a.started⟩, a.started + 1⟩) := by
  rw [h.update_eq, ← domainSet_eq_iff]
  split_ifs with hset hempty
  · exact .inl ⟨hset, rfl⟩
  · exact .inr (.inl ⟨hset, hempty, rfl⟩)
  · exact .inr (.inr ⟨hset, hempty, rfl⟩)

/-- A session is started by no other lists. -/
theorem Orders.started_update_iff :
    (a.update next).started ≠ a.started ↔ next ≠ [] ∧ ¬∀ d, d ∈ next ↔ d ∈ domains := by
  obtain ⟨hsame, hupdate⟩ | ⟨-, hempty, hupdate⟩ | ⟨hother, hne, hupdate⟩ := h.update_cases next
  · rw [hupdate]
    exact iff_of_false (not_not.mpr rfl) fun hboth => hboth.2 hsame
  · rw [hupdate]
    exact iff_of_false (not_not.mpr rfl) fun hboth => hboth.1 hempty
  · rw [hupdate]
    exact iff_of_true (Nat.succ_ne_self _) ⟨hne, hother⟩

/-- After a list the session is the one for it. -/
theorem Orders.update : (a.update next).Orders next := by
  obtain ⟨hsame, hupdate⟩ | ⟨-, hempty, hupdate⟩ | ⟨-, hne, hupdate⟩ := h.update_cases next
  · rw [hupdate]
    exact (orders_congr hsame).mpr h
  · rw [hupdate]
    exact hempty
  · rw [hupdate]
    exact ⟨hne, rfl⟩

end

/-! ## Any lists -/

/-- What comes of lists of domains that are given one after the other. -/
def after (given : List (List String)) : Acme := given.foldl update {}

/-- The list that was given last; before the first there are no domains. -/
def lastGiven (given : List (List String)) : List String := given.getLast?.getD []

theorem orders_after (given : List (List String)) : (after given).Orders (lastGiven given) := by
  induction given using List.reverseRecOn with
  | nil => rfl
  | append_singleton given next ih =>
    rw [after, List.foldl_concat, ← after, lastGiven, List.getLast?_concat, Option.getD_some]
    exact ih.update

/-- **Sessions follow the set of domains, and nothing else.**  After any lists of domains,

* there is a session, and challenges are answered, exactly if the list given last is not empty;
* the session orders for the members of this list, in ascending order and each once;
* one more list leaves everything as it is if it has the same members, in whatever order and however
  often; a session is started exactly if it has other members, and any at all, and the session then
  is the one that was started; an empty list ends the session. -/
theorem sessions_follow_domains (given : List (List String)) :
    ((after given).session.isSome = true ↔ lastGiven given ≠ []) ∧
    ((after given).answersChallenges = true ↔ lastGiven given ≠ []) ∧
    (∀ s, (after given).session = some s → s.domains = domainSet (lastGiven given) ∧
      s.domains.Pairwise (· < ·) ∧ ∀ d, d ∈ s.domains ↔ d ∈ lastGiven given) ∧
    ∀ next,
      ((∀ d, d ∈ next ↔ d ∈ lastGiven given) → (after given).update next = after given) ∧
      (((after given).update next).started ≠ (after given).started ↔
        next ≠ [] ∧ ¬∀ d, d ∈ next ↔ d ∈ lastGiven given) ∧
      (next ≠ [] → (¬∀ d, d ∈ next ↔ d ∈ lastGiven given) → (after given).update next =
        ⟨some ⟨domainSet next, (after given).started⟩, (after given).started + 1⟩) ∧
      (next = [] → (after given).update next = { after given with session := none }) := by
  have h := orders_after given
  refine ⟨h.isSome_iff, h.isSome_iff, fun s hs => ?_, fun next => ⟨h.update_of_same,
    h.started_update_iff, h.update_of_other, fun hnil => hnil ▸ h.update_nil⟩⟩
  obtain ⟨-, hdomains⟩ := (orders_of_session_eq_some hs).mp h
  exact ⟨hdomains, hdomains ▸ pairwise_domainSet _, fun d => hdomains ▸ mem_domainSet⟩

/-- Two domains stay when they come in another order and one of them twice, and not when another one
comes. -/
theorem repeatedDomains_keep_session : ∃ s,
    (after [["b.example", "a.example"]]).session = some s ∧
    s.domains = ["a.example", "b.example"] ∧
    (after [["b.example", "a.example"]]).update ["a.example", "b.example", "a.example"] =
      after [["b.example", "a.example"]] ∧
    ((after [["b.example", "a.example"]]).update ["c.example"]).session =
      some ⟨["c.example"], (after [["b.example", "a.example"]]).started⟩ := by
  obtain ⟨hsome, -, hsession, hnext⟩ := sessions_follow_domains [["b.example", "a.example"]]
  obtain ⟨s, hs⟩ := Option.isSome_iff_exists.mp (hsome.mpr (by decide))
  obtain ⟨hdomains, -, -⟩ := hsession s hs
  have htwo : domainSet ["b.example", "a.example"] = ["a.example", "b.example"] :=
    domainSet_eq (by decide +kernel) (by simp [or_comm])
  have hone : domainSet ["c.example"] = ["c.example"] := domainSet_eq (by simp) (by simp)
  have hsame (d : String) :
      d ∈ ["a.example", "b.example", "a.example"] ↔ d ∈ ["b.example", "a.example"] := by
    simp [or_comm]
  have hother : ¬∀ d, d ∈ ["c.example"] ↔ d ∈ ["b.example", "a.example"] := by
    intro h
    exact absurd ((h "c.example").mp List.mem_cons_self) (by decide)
  refine ⟨s, hs, hdomains.trans htwo, (hnext _).1 hsame, ?_⟩
  rw [(hnext _).2.2.1 (by decide) hother, hone]

end Acme

end Gatehouse.Certificate
