/-!
# Channels of capacity one

A channel holds one value for its receiver.  Senders that come while it is full wait in the order
in which they came; the first of them gets in when the value has been taken, and any of them may
give up before.
-/

namespace Gatehouse.Listen

/-- A channel for values of type `α` from senders named by `ι`. -/
structure Channel (ι α : Type) where
  buffer : Option α := none
  /-- Senders that wait, with their values, in the order in which they came. -/
  waiting : List (ι × α) := []
deriving DecidableEq, Repr

namespace Channel

variable {ι α : Type}

def offer (c : Channel ι α) (sender : ι) (a : α) : Channel ι α :=
  { c with waiting := c.waiting ++ [(sender, a)] }

/-- The first sender that waits gets in, if the channel is empty. -/
def admit? (c : Channel ι α) : Option (ι × Channel ι α) :=
  match c.buffer, c.waiting with
  | none, (sender, a) :: r => some (sender, ⟨some a, r⟩)
  | _, _ => none

def withdraw [DecidableEq ι] (c : Channel ι α) (sender : ι) : Channel ι α :=
  { c with waiting := c.waiting.filter (·.1 ≠ sender) }

/-- The receiver takes the value, if there is one. -/
def take? (c : Channel ι α) : Option (α × Channel ι α) :=
  c.buffer.map fun a => (a, { c with buffer := none })

theorem admit?_eq_some {c d : Channel ι α} {sender : ι} :
    c.admit? = some (sender, d) ↔
      c.buffer = none ∧ ∃ a, c.waiting = (sender, a) :: d.waiting ∧ d.buffer = some a := by
  obtain ⟨buffer, waiting⟩ := d
  unfold admit?
  split
  · next r hb hw =>
    simp only [hb, hw, Option.some.injEq, Prod.mk.injEq, mk.injEq, List.cons.injEq, true_and]
    constructor
    · rintro ⟨rfl, rfl, rfl⟩
      exact ⟨_, ⟨⟨rfl, rfl⟩, rfl⟩, rfl⟩
    · rintro ⟨a, ⟨⟨rfl, rfl⟩, rfl⟩, rfl⟩
      exact ⟨rfl, rfl, rfl⟩
  · next hnot =>
    simp only [reduceCtorEq, false_iff, not_and, not_exists]
    intro hb a hw
    exact absurd hw (hnot sender a waiting hb)

theorem take?_eq_some {c d : Channel ι α} {a : α} :
    c.take? = some (a, d) ↔ c.buffer = some a ∧ d = { c with buffer := none } := by
  unfold take?
  cases c.buffer <;> simp [eq_comm]

def toList (c : Channel ι α) : List α := c.buffer.toList ++ c.waiting.map (·.2)

/-- An offer adds its value at the end. -/
theorem toList_offer (c : Channel ι α) (sender : ι) (a : α) :
    (c.offer sender a).toList = c.toList ++ [a] := by
  simp [offer, toList]

/-- Getting in moves a value and loses none. -/
theorem toList_admit {c d : Channel ι α} {sender : ι} (h : c.admit? = some (sender, d)) :
    d.toList = c.toList := by
  obtain ⟨hb, a, hw, hd⟩ := admit?_eq_some.mp h
  simp [toList, hb, hw, hd]

/-- What is taken comes first. -/
theorem toList_take {c d : Channel ι α} {a : α} (h : c.take? = some (a, d)) :
    c.toList = a :: d.toList := by
  obtain ⟨hb, rfl⟩ := take?_eq_some.mp h
  simp [toList, hb]

/-- No sender waits for a channel that holds nothing. -/
theorem admit?_eq_none {c : Channel ι α} (h : c.toList = []) : c.admit? = none := by
  obtain ⟨hb, hw⟩ := List.append_eq_nil_iff.mp h
  simp only [Option.toList_eq_nil_iff, List.map_eq_nil_iff] at hb hw
  simp [admit?, hb, hw]

/-- And there is nothing to take. -/
theorem take?_eq_none {c : Channel ι α} (h : c.toList = []) : c.take? = none := by
  simp only [toList, List.append_eq_nil_iff, Option.toList_eq_nil_iff] at h
  simp [take?, h.1]

end Channel

end Gatehouse.Listen
