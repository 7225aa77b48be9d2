import Gatehouse.Text.Ascii

/-!
# IP addresses

Written forms are strict.  An IPv4 address is four decimal numbers up to 255 without leading zeros;
an IPv6 address is eight groups of one to four hexadecimal digits, of which one run of groups may
be left out as `::`, and whose last two groups may be written as an IPv4 address.

Addresses are printed with the longest run of two or more zero groups left out (the first of
several), and IPv4-mapped addresses with their IPv4 part in decimals.
-/

namespace Gatehouse.Net

open Text

structure Ipv4 where
  a : UInt8
  b : UInt8
  c : UInt8
  d : UInt8
deriving DecidableEq, Repr

structure Ipv6 where
  groups : List UInt16
  length_groups : groups.length = 8
deriving DecidableEq, Repr

inductive Ip where
  | v4 (ip : Ipv4)
  | v6 (ip : Ipv6)
deriving DecidableEq, Repr

/-- A reader takes a value from the front of a text and leaves the rest. -/
abbrev Reader (α : Type) := List Char → Option (α × List Char)

namespace Reader

def char (c : Char) : Reader Unit
  | [] => none
  | d :: r => if d = c then some ((), r) else none

/-- Takes the longest run of digits of a base.  `limit` bounds their number, if given: a longer run
is refused, not cut.  With `zeros` off a number of several digits may not start with zero.  Values
above `max` are refused. -/
def number (base : Nat) (limit : Option Nat) (zeros : Bool) (max : Nat) : Reader Nat := fun cs =>
  let digits := cs.takeWhile fun c => (digitOf base c).isSome
  if limit.any (· < digits.length) then none
  else if !zeros && digits.head? == some '0' && 1 < digits.length then none
  else do
    let n ← readNat base digits
    if n ≤ max then some (n, cs.drop digits.length) else none

/-- A number that was read is not above the largest one. -/
theorem number_le {base : Nat} {limit : Option Nat} {zeros : Bool} {max n : Nat}
    {cs rest : List Char} (h : number base limit zeros max cs = some (n, rest)) :
    n ≤ max := by
  unfold number at h
  dsimp only at h
  split at h
  · cases h
  · split at h
    · cases h
    · obtain ⟨m, -, hm⟩ := Option.bind_eq_some_iff.mp h
      split at hm
      · next hle =>
        cases hm
        exact hle
      · cases hm

end Reader

namespace Ipv4

def unspecified : Ipv4 := ⟨0, 0, 0, 0⟩

def loopback : Ipv4 := ⟨127, 0, 0, 1⟩

/-- Takes an IPv4 address from the front of a text. -/
def read : Reader Ipv4 := fun cs => do
  let part := Reader.number 10 (some 3) false 255
  let (a, r) ← part cs
  let ((), r) ← Reader.char '.' r
  let (b, r) ← part r
  let ((), r) ← Reader.char '.' r
  let (c, r) ← part r
  let ((), r) ← Reader.char '.' r
  let (d, r) ← part r
  some (⟨a.toUInt8, b.toUInt8, c.toUInt8, d.toUInt8⟩, r)

def text (ip : Ipv4) : String :=
  s!"{ip.a.toNat}.{ip.b.toNat}.{ip.c.toNat}.{ip.d.toNat}"

/-- The two groups that hold this address within an IPv6 address. -/
def groups (ip : Ipv4) : List UInt16 :=
  [ip.a.toUInt16 * 256 + ip.b.toUInt16, ip.c.toUInt16 * 256 + ip.d.toUInt16]

end Ipv4

namespace Ipv6

/-- The address whose groups are all zero. -/
def unspecified : Ipv6 := ⟨List.replicate 8 0, by decide⟩

def loopback : Ipv6 := ⟨[0, 0, 0, 0, 0, 0, 0, 1], by decide⟩

def ofGroups? (gs : List UInt16) : Option Ipv6 :=
  if h : gs.length = 8 then some ⟨gs, h⟩ else none

/-- A colon before every group but the first. -/
def separated {α : Type} (first : Bool) (p : Reader α) : Reader α := fun cs =>
  if first then p cs else do
    let ((), r) ← Reader.char ':' cs
    p r

/-- Takes up to `room` groups separated by colons, and stops at the first that does not parse.  An
IPv4 address counts for two groups and is the last; the flag tells whether one was taken. -/
def readGroups (first : Bool) : (room : Nat) → List Char → List UInt16 × Bool × List Char
  | 0, cs => ([], false, cs)
  | room + 1, cs =>
    match (if room = 0 then none else separated first Ipv4.read cs) with
    | some (ip, r) => (ip.groups, true, r)
    | none =>
      match separated first (Reader.number 16 (some 4) true 0xffff) cs with
      | none => ([], false, cs)
      | some (g, r) =>
        let (gs, mapped, r) := readGroups false room r
        (g.toUInt16 :: gs, mapped, r)

/-- Takes an IPv6 address from the front of a text. -/
def read : Reader Ipv6 := fun cs => do
  let (head, mapped, r) := readGroups true 8 cs
  if head.length = 8 then return (← ofGroups? head, r)
  if mapped then none
  let ((), r) ← Reader.char ':' r
  let ((), r) ← Reader.char ':' r
  let (tail, _, r) := readGroups true (7 - head.length) r
  let gap := List.replicate (8 - head.length - tail.length) 0
  return (← ofGroups? (head ++ gap ++ tail), r)

/-- The IPv4 address that `::ffff:0:0/96` maps here. -/
def mapped? (ip : Ipv6) : Option Ipv4 :=
  match ip.groups with
  | [0, 0, 0, 0, 0, 0xffff, x, y] =>
    some ⟨(x / 256).toUInt8, (x % 256).toUInt8, (y / 256).toUInt8, (y % 256).toUInt8⟩
  | _ => none

/-- Where the longest run of zero groups starts and its length; the first run wins among equals. -/
def zeroRun (gs : List UInt16) : Nat × Nat :=
  let runFrom (i : Nat) : Nat := ((gs.drop i).takeWhile (· == 0)).length
  (List.range gs.length).foldl
    (fun best i => if best.2 < runFrom i then (i, runFrom i) else best) (0, 0)

/-- Groups in hexadecimal, with colons between them. -/
def groupsText (gs : List UInt16) : String :=
  ":".intercalate (gs.map fun g => String.ofList (Nat.toDigits 16 g.toNat))

/-- The shortest written form. -/
def text (ip : Ipv6) : String :=
  match ip.mapped? with
  | some v4 => "::ffff:" ++ v4.text
  | none =>
    let (start, len) := zeroRun ip.groups
    if len ≤ 1 then groupsText ip.groups
    else groupsText (ip.groups.take start) ++ "::" ++ groupsText (ip.groups.drop (start + len))

end Ipv6

namespace Ip

/-- Takes an address of either family from the front of a text. -/
def read : Reader Ip := fun cs =>
  match Ipv4.read cs with
  | some (ip, r) => some (.v4 ip, r)
  | none => (Ipv6.read cs).map fun (ip, r) => (.v6 ip, r)

def ofText? (s : String) : Option Ip :=
  match read s.toList with
  | some (ip, []) => some ip
  | _ => none

def text : Ip → String
  | v4 ip => ip.text
  | v6 ip => ip.text

/-- IPv4-mapped addresses as the IPv4 address they stand for; others as they are. -/
def canonical : Ip → Ip
  | v4 ip => v4 ip
  | v6 ip => (ip.mapped?.map v4).getD (v6 ip)

end Ip

end Gatehouse.Net
