/-!
# Cutting text at a separator

`splitFirst` cuts at the first occurrence of a character, `splitAll` at each.

    splitFirst_eq_some_iff : the cut is at the first separator and loses nothing else
    cut_eq_some_iff        : the same for a text
    splitAll_map           : the parts of a text that is spelt in other characters
-/

namespace Gatehouse.Text

/-- The parts before and after the first element that satisfies `p`. -/
def splitFirst {α : Type} (p : α → Bool) : List α → Option (List α × List α)
  | [] => none
  | a :: r => if p a then some ([], r) else (splitFirst p r).map fun (u, v) => (a :: u, v)

/-- All parts between elements that satisfy `p`; there is always at least one. -/
def splitAll {α : Type} (p : α → Bool) : List α → List (List α)
  | [] => [[]]
  | a :: r =>
    if p a then [] :: splitAll p r
    else match splitAll p r with
      | [] => [[a]]
      | u :: us => (a :: u) :: us

/-- The text before and after the first occurrence of a character. -/
def cut (c : Char) (s : String) : Option (String × String) :=
  (splitFirst (· == c) s.toList).map fun (u, v) => (String.ofList u, String.ofList v)

/-! ## Lemmas -/

theorem splitFirst_eq_some_iff {α : Type} (p : α → Bool) (l u v : List α) :
    splitFirst p l = some (u, v) ↔ (∀ a ∈ u, p a = false) ∧ ∃ s, p s = true ∧ l = u ++ s :: v := by
  induction l generalizing u with
  | nil => simp [splitFirst]
  | cons a r ih =>
    unfold splitFirst
    by_cases h : p a
    · simp only [h, if_true, Option.some.injEq, Prod.mk.injEq]
      constructor
      · rintro ⟨rfl, rfl⟩
        exact ⟨by simp, a, h, by simp⟩
      · rintro ⟨hu, s, _, e⟩
        cases u with
        | nil => simp at e; exact ⟨rfl, e.2⟩
        | cons b u =>
          have hb : a = b := by simp at e; exact e.1
          have := hu b (by simp)
          rw [← hb, h] at this; cases this
    · simp only [h, Bool.false_eq_true, if_false, Option.map_eq_some_iff, Prod.exists,
        Prod.mk.injEq]
      constructor
      · rintro ⟨u', v', hs, rfl, rfl⟩
        obtain ⟨hu, s, hp, e⟩ := (ih u').1 hs
        refine ⟨?_, s, hp, by simp [e]⟩
        intro x hx
        rcases List.mem_cons.1 hx with rfl | hx
        · simpa using h
        · exact hu x hx
      · rintro ⟨hu, s, hp, e⟩
        cases u with
        | nil => simp at e; rw [e.1] at h; exact absurd hp h
        | cons b u =>
          simp only [List.cons_append, List.cons.injEq] at e
          refine ⟨u, v, (ih u).2 ⟨fun x hx => hu x (by simp [hx]), s, hp, e.2⟩, by simp [e.1]⟩

theorem splitFirst_eq_none_iff {α : Type} (p : α → Bool) (l : List α) :
    splitFirst p l = none ↔ ∀ a ∈ l, p a = false := by
  induction l with
  | nil => simp [splitFirst]
  | cons a r ih =>
    unfold splitFirst
    by_cases h : p a <;> simp [h, ih]

theorem cut_eq_some_iff (c : Char) (s u v : String) :
    cut c s = some (u, v) ↔ c ∉ u.toList ∧ s = u ++ String.singleton c ++ v := by
  have hwhole : s = u ++ String.singleton c ++ v ↔ s.toList = u.toList ++ c :: v.toList := by
    rw [← String.toList_inj]
    simp
  rw [hwhole]
  unfold cut
  constructor
  · intro h
    obtain ⟨⟨front, rear⟩, hsplit, hparts⟩ := Option.map_eq_some_iff.mp h
    cases hparts
    obtain ⟨hfront, a, ha, hall⟩ := (splitFirst_eq_some_iff _ _ _ _).mp hsplit
    obtain rfl : a = c := beq_iff_eq.mp ha
    rw [String.toList_ofList, String.toList_ofList]
    exact ⟨fun hmem => absurd (hfront a hmem) (by simp), hall⟩
  · rintro ⟨hfront, hall⟩
    refine Option.map_eq_some_iff.mpr ⟨(u.toList, v.toList), ?_, by simp⟩
    refine (splitFirst_eq_some_iff _ _ _ _).mpr ⟨fun a ha => ?_, c, beq_self_eq_true c, hall⟩
    exact beq_false_of_ne fun hac => hfront (hac ▸ ha)

theorem cut_eq_none_iff (c : Char) (s : String) : cut c s = none ↔ c ∉ s.toList := by
  rw [cut, Option.map_eq_none_iff, splitFirst_eq_none_iff]
  constructor
  · intro h hmem
    exact absurd (h c hmem) (by simp)
  · intro h a ha
    exact beq_false_of_ne fun hac => h (hac ▸ ha)

theorem mem_of_mem_splitAll {α : Type} {p : α → Bool} {l part : List α}
    (h : part ∈ splitAll p l) {a : α} (ha : a ∈ part) : a ∈ l := by
  induction l generalizing part with
  | nil =>
    obtain rfl : part = [] := by simpa [splitAll] using h
    exact ha
  | cons b r ih =>
    unfold splitAll at h
    split at h
    · rcases List.mem_cons.mp h with rfl | h
      · cases ha
      · exact List.mem_cons_of_mem b (ih h ha)
    · split at h
      · obtain rfl := List.mem_singleton.mp h
        exact List.mem_singleton.mp ha ▸ List.mem_cons_self
      · next u us hsplit =>
        rcases List.mem_cons.mp h with rfl | h
        · rcases List.mem_cons.mp ha with rfl | ha
          · exact List.mem_cons_self
          · exact List.mem_cons_of_mem b (ih (hsplit ▸ List.mem_cons_self) ha)
        · exact List.mem_cons_of_mem b (ih (hsplit ▸ List.mem_cons_of_mem u h) ha)

theorem splitAll_map {α β : Type} {p : α → Bool} {q : β → Bool} (f : α → β)
    (hf : ∀ a, q (f a) = p a) (l : List α) :
    splitAll q (l.map f) = (splitAll p l).map (·.map f) := by
  induction l with
  | nil => rfl
  | cons a l ih =>
    rw [List.map_cons, splitAll, splitAll, hf, ih]
    by_cases ha : p a = true
    · simp [ha]
    · cases splitAll p l <;> simp [ha]

end Gatehouse.Text
