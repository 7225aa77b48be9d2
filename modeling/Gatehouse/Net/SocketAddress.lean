import Gatehouse.Net.Ip

/-!
# Socket addresses

An IP address with a port.  An IPv6 address stands in brackets, where a numeric scope may follow it.

A socket is bound to one address, or to all addresses of its family; with those of IPv6 it is bound
to those of IPv4, too.
-/

namespace Gatehouse.Net

/-- Whether a socket that is bound to an address takes the connections for a target, as far as
addresses count. -/
def Ip.covers (bound target : Ip) : Bool :=
  match bound.canonical, target.canonical with
  | .v4 ip, .v4 t => ip == .unspecified || ip == t
  | .v6 ip, .v6 t => ip == .unspecified || ip == t
  | .v6 ip, .v4 _ => ip == .unspecified
  | .v4 _, .v6 _ => false

/-- An IP address with a port; `scope` belongs to IPv6 addresses and is zero when none is given. -/
structure SocketAddress where
  ip : Ip
  port : Nat
  scope : Nat := 0
deriving DecidableEq, Repr

namespace SocketAddress

def readV4 : Reader SocketAddress := fun cs => do
  let (ip, r) ← Ipv4.read cs
  let ((), r) ← Reader.char ':' r
  let (port, r) ← Reader.number 10 none true 65535 r
  some (⟨.v4 ip, port, 0⟩, r)

/-- Reads a scope after a percent sign, if there is one. -/
def readScope : Reader Nat := fun cs =>
  match (do let ((), r) ← Reader.char '%' cs; Reader.number 10 none true 0xffffffff r) with
  | some (n, r) => some (n, r)
  | none => some (0, cs)

def readV6 : Reader SocketAddress := fun cs => do
  let ((), r) ← Reader.char '[' cs
  let (ip, r) ← Ipv6.read r
  let (scope, r) ← readScope r
  let ((), r) ← Reader.char ']' r
  let ((), r) ← Reader.char ':' r
  let (port, r) ← Reader.number 10 none true 65535 r
  some (⟨.v6 ip, port, scope⟩, r)

def ofText? (s : String) : Option SocketAddress :=
  match readV4 s.toList with
  | some (a, []) => some a
  | _ =>
    match readV6 s.toList with
    | some (a, []) => some a
    | _ => none

def text (a : SocketAddress) : String :=
  match a.ip with
  | .v4 ip => s!"{ip.text}:{a.port}"
  | .v6 ip =>
    let scope := if a.scope = 0 then "" else s!"%{a.scope}"
    s!"[{ip.text}{scope}]:{a.port}"

/-- The address that a socket has once it is bound to this one: port zero stands for a port that is
free. -/
def boundAs (a : SocketAddress) (free : Nat) : SocketAddress :=
  if a.port = 0 then { a with port := free } else a

/-- Whether a socket that is bound to an address takes the connections for a target. -/
def takes (bound target : SocketAddress) : Bool :=
  bound.port == target.port && bound.ip.covers target.ip

/-! ## Lemmas -/

theorem port_le_of_readV4 {cs rest : List Char} {a : SocketAddress}
    (h : readV4 cs = some (a, rest)) : a.port ≤ 65535 := by
  unfold readV4 at h
  simp only [Option.bind_eq_bind, Option.bind_eq_some_iff] at h
  obtain ⟨⟨ip, _⟩, -, ⟨⟨⟩, _⟩, -, ⟨port, _⟩, hport, ha⟩ := h
  cases ha
  exact Reader.number_le hport

theorem port_le_of_readV6 {cs rest : List Char} {a : SocketAddress}
    (h : readV6 cs = some (a, rest)) : a.port ≤ 65535 := by
  unfold readV6 at h
  simp only [Option.bind_eq_bind, Option.bind_eq_some_iff] at h
  obtain ⟨⟨⟨⟩, _⟩, -, ⟨ip, _⟩, -, ⟨scope, _⟩, -, ⟨⟨⟩, _⟩, -, ⟨⟨⟩, _⟩, -, ⟨port, _⟩, hport, ha⟩ := h
  cases ha
  exact Reader.number_le hport

/-- Ports are written as numbers of sixteen bits. -/
theorem port_le_of_ofText? {s : String} {a : SocketAddress}
    (h : ofText? s = some a) : a.port ≤ 65535 := by
  unfold ofText? at h
  split at h
  · next hread =>
    cases h
    exact port_le_of_readV4 hread
  · split at h
    · next hread =>
      cases h
      exact port_le_of_readV6 hread
    · cases h

end SocketAddress

end Gatehouse.Net
