/-!
# Lists as tables

A list of pairs gives each key the value that stands first for it.

    lookup_filter_ne : a key keeps its value when another key is taken out
    mem_iff_lookup   : what a table holds when its keys are distinct
    lookup_congr     : tables in which the entries for a key are the same in turn
-/

namespace Gatehouse

variable {α β : Type}

theorem lookup_cons_of_ne {entries : List (String × α)} {key other : String} {a : α}
    (h : key ≠ other) : ((other, a) :: entries).lookup key = entries.lookup key := by
  rw [List.lookup_cons, beq_false_of_ne h]

/-- What a table holds for a key does not depend on the entries for others. -/
theorem lookup_filter_ne {entries : List (String × α)} {key other : String} (h : key ≠ other) :
    (entries.filter (·.1 ≠ other)).lookup key = entries.lookup key := by
  induction entries with
  | nil => rfl
  | cons entry entries ih =>
    obtain ⟨own, a⟩ := entry
    by_cases hown : own = other
    · have hne : key ≠ own := hown ▸ h
      rw [List.filter_cons_of_neg (by simpa using hown), ih, lookup_cons_of_ne hne]
    · rw [List.filter_cons_of_pos (by simpa using hown), List.lookup_cons, List.lookup_cons, ih]

/-- If each key stands once in the list, it has the value that stands next to it. -/
theorem mem_iff_lookup {entries : List (String × α)} (h : (entries.map (·.1)).Nodup)
    (key : String) (a : α) : (key, a) ∈ entries ↔ entries.lookup key = some a := by
  constructor
  · intro hmem
    obtain ⟨front, rear, rfl⟩ := List.append_of_mem hmem
    rw [List.map_append, List.map_cons] at h
    have hapart := (List.nodup_append.mp h).2.2
    have hfresh : front.lookup key = none := by
      refine List.lookup_eq_none_iff.mpr fun e he => bne_iff_ne.mpr ?_
      exact (hapart e.1 (List.mem_map_of_mem he) key List.mem_cons_self).symm
    rw [List.lookup_append, hfresh, Option.none_or, List.lookup_cons, beq_self_eq_true]
  · intro hlookup
    obtain ⟨front, rear, rfl, -⟩ := List.lookup_eq_some_iff.mp hlookup
    exact List.mem_append_right _ List.mem_cons_self

/-- Two ways to read entries give a key the same value if they find it in the same entries. -/
theorem lookup_congr {l : List β} {keep : β → Bool} {f g : β → String × α} {key : String}
    (hkey : ∀ b ∈ l, (f b).1 = key ↔ keep b = true ∧ (g b).1 = key)
    (hvalue : ∀ b ∈ l, (f b).2 = (g b).2) :
    (l.map f).lookup key = ((l.filter keep).map g).lookup key := by
  induction l with
  | nil => rfl
  | cons b l ih =>
    have ih := ih (fun b' h => hkey b' (List.mem_cons_of_mem _ h))
      fun b' h => hvalue b' (List.mem_cons_of_mem _ h)
    have hb := hkey b List.mem_cons_self
    by_cases hown : (f b).1 = key
    · obtain ⟨hkeep, hg⟩ := hb.mp hown
      rw [List.filter_cons_of_pos hkeep, List.map_cons, List.map_cons, List.lookup_cons,
        List.lookup_cons, hown, hg, hvalue b List.mem_cons_self]
      simp
    · rw [List.map_cons, List.lookup_cons, beq_false_of_ne (Ne.symm hown)]
      by_cases hkeep : keep b = true
      · have hg : (g b).1 ≠ key := fun hg => hown (hb.mpr ⟨hkeep, hg⟩)
        rw [List.filter_cons_of_pos hkeep, List.map_cons, List.lookup_cons,
          beq_false_of_ne (Ne.symm hg)]
        exact ih
      · rw [List.filter_cons_of_neg hkeep]
        exact ih

end Gatehouse
