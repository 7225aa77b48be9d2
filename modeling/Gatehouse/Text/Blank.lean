/-!
# Blank characters and trimming

A character is blank when Unicode gives it the property `White_Space`.  `trim` takes the blank
characters from both ends of a text; `dropEndWhile` is the general form for the right end.

    dropEndWhile_append_of_neg     : a list that ends in a kept element is not shortened
    dropWhile_isBlank_eq_self_iff  : nothing goes at the left iff the first character is kept
-/

namespace Gatehouse.Text

/-- The characters with the Unicode property `White_Space`. -/
def isBlank (c : Char) : Bool :=
  let n := c.toNat
  (9 ≤ n && n ≤ 13) || n == 0x20 || n == 0x85 || n == 0xa0 || n == 0x1680 ||
    (0x2000 ≤ n && n ≤ 0x200a) || n == 0x2028 || n == 0x2029 || n == 0x202f || n == 0x205f ||
    n == 0x3000

/-- The list without the longest run of `p` at its end. -/
def dropEndWhile {α : Type} (p : α → Bool) (l : List α) : List α :=
  (l.reverse.dropWhile p).reverse

/-- The characters without the blank ones at either end. -/
def trimChars (cs : List Char) : List Char :=
  dropEndWhile isBlank (cs.dropWhile isBlank)

def trim (s : String) : String := String.ofList (trimChars s.toList)

/-! ## Lemmas -/

theorem dropEndWhile_concat {α : Type} (p : α → Bool) (l : List α) (a : α) :
    dropEndWhile p (l ++ [a]) = if p a then dropEndWhile p l else l ++ [a] := by
  unfold dropEndWhile
  by_cases h : p a <;> simp [h]

theorem mem_of_mem_dropEndWhile {α : Type} {p : α → Bool} {a : α} {l : List α}
    (h : a ∈ dropEndWhile p l) : a ∈ l := by
  unfold dropEndWhile at h
  exact List.mem_reverse.1 ((List.dropWhile_sublist _).mem (List.mem_reverse.1 h))

/-- A text that ends in a kept character is not shortened. -/
theorem dropEndWhile_append_of_neg {α : Type} (p : α → Bool) (l : List α) (a : α)
    (h : p a = false) : dropEndWhile p (l ++ [a]) = l ++ [a] := by
  rw [dropEndWhile_concat, h]; rfl

theorem dropEndWhile_map {α β : Type} (p : β → Bool) (f : α → β) (l : List α) :
    dropEndWhile p (l.map f) = (dropEndWhile (p ∘ f) l).map f := by
  unfold dropEndWhile
  rw [← List.map_reverse, List.dropWhile_map, List.map_reverse]

theorem dropEndWhile_dropEndWhile {α : Type} (p : α → Bool) (l : List α) :
    dropEndWhile p (dropEndWhile p l) = dropEndWhile p l := by
  have hall (l : List α) : (l.dropWhile p).dropWhile p = l.dropWhile p := by
    induction l with
    | nil => rfl
    | cons a l ih =>
      by_cases h : p a = true
      · simpa [h] using ih
      · simp [h]
  unfold dropEndWhile
  rw [List.reverse_reverse, hall]

/-- Nothing is dropped at the left exactly when the first character, if any, is not blank. -/
theorem dropWhile_isBlank_eq_self_iff (cs : List Char) :
    cs.dropWhile isBlank = cs ↔ ∀ c, cs.head? = some c → isBlank c = false := by
  cases cs with
  | nil => simp
  | cons c r =>
    by_cases h : isBlank c
    · simp only [List.dropWhile_cons, h, if_true, List.head?_cons, Option.some.injEq]
      constructor
      · intro e
        have := congrArg List.length e
        have hle : (r.dropWhile isBlank).length ≤ r.length := (List.dropWhile_suffix _).length_le
        simp at this; omega
      · intro e; exact absurd (e c rfl) (by simp [h])
    · simp [h]

@[simp] theorem toList_trim (s : String) : (trim s).toList = trimChars s.toList := by
  simp [trim]

end Gatehouse.Text
