import Gatehouse.Octets

/-!
# Reading octets

Readers of binary formats: each takes a value from the front of some octets and leaves the rest,
or fails.
-/

namespace Gatehouse

/-- A reader takes a value from the front of some octets. -/
abbrev Decode := StateT Octets Option

namespace Decode

/-- A number of octets. -/
def take (n : Nat) : Decode Octets := fun bs =>
  if bs.length < n then none else some (bs.take n, bs.drop n)

def rest : Decode Octets := fun bs => some (bs, [])

def number (n : Nat) : Decode Nat := do return Octets.toNat (← take n)

/-- Octets after their length, which is a number of `n` octets. -/
def block (n : Nat) : Decode Octets := do take (← number n)

/-- A block that is not empty. -/
def block1 (n : Nat) : Decode Octets := do
  let bs ← block n
  if bs.isEmpty then failure else return bs

/-- The value that a reader makes of all the octets. -/
def all {α : Type} (d : Decode α) (bs : Octets) : Option α :=
  match d.run bs with
  | some (a, []) => some a
  | _ => none

/-- Items up to the end, with `fuel` bounding their number. -/
def itemsUpTo {α : Type} (item : Decode α) : (fuel : Nat) → Octets → Option (List α)
  | _, [] => some []
  | 0, _ => none
  | fuel + 1, bs => do
    let (a, r) ← item.run bs
    return a :: (← itemsUpTo item fuel r)

/-- Items that fill all the octets; each item takes one octet at least. -/
def items {α : Type} (item : Decode α) (bs : Octets) : Option (List α) :=
  itemsUpTo item bs.length bs

def list {α : Type} (n : Nat) (item : Decode α) : Decode (List α) := do
  match items item (← block n) with
  | some as => return as
  | none => failure

/-- A list of one item at least. -/
def list1 {α : Type} (n : Nat) (item : Decode α) : Decode (List α) := do
  let as ← list n item
  if as.isEmpty then failure else return as

end Decode

end Gatehouse
