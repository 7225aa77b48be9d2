import Gatehouse.Provenance
import Gatehouse.Host
import Gatehouse.Tls.Hello

/-!
# The policy for Client Hellos

Each connection is judged by its Client Hello: it is passed on to be served, forwarded as it is to
a backend that speaks TLS itself, or rejected.  In private mode a connection from the tunnel has to
ask for a public host, unless it is a certificate challenge.
-/

namespace Gatehouse.Inspect

inductive Decision where
  | pass
  | forward (address : String)
  | reject
deriving DecidableEq, Repr

/-- The rules for Client Hellos; hosts are looked up as they stand here. -/
structure Policy where
  /-- The address that connections for a host are forwarded to. -/
  forwards : List (String × String) := []
  privateMode : Bool := false
  publicHosts : List String := []
  /-- How long a client may take for its hello, in milliseconds. -/
  helloTimeout : Nat := 5000
deriving Repr

namespace Policy

/-- Whether there is any rule to apply. -/
def isActive (p : Policy) : Bool := p.privateMode || !p.forwards.isEmpty

/-- The address that connections for a host are forwarded to. -/
def forwardFor? (p : Policy) (host : String) : Option String := p.forwards.lookup host

def decide (p : Policy) (provenance : Provenance) (hello : Tls.Hello) : Decision :=
  let name := hello.serverName.map Host.canonical
  if p.privateMode && provenance == .tunnel && !name.any p.publicHosts.contains &&
      !hello.isAcmeChallenge then .reject
  else match name.bind p.forwardFor? with
    | some address => .forward address
    | none => .pass

/-- Whether a connection with the given hello is let through to be served; without rules all
are. -/
def admits (p : Policy) (provenance : Provenance) (hello : Tls.Hello) : Bool :=
  !p.isActive || p.decide provenance hello == .pass

/-- In private mode a connection from the tunnel is let through for a public server name, or for a
challenge, unless its name is forwarded. -/
theorem admits_tunnel_iff {p : Policy} (hp : p.privateMode = true) (hello : Tls.Hello) :
    p.admits .tunnel hello = true ↔
      ((∃ name, hello.serverName = some name ∧ Host.canonical name ∈ p.publicHosts) ∨
        hello.isAcmeChallenge = true) ∧
      ∀ name, hello.serverName = some name → p.forwardFor? (Host.canonical name) = none := by
  have hActive : p.isActive = true := by simp [isActive, hp]
  unfold admits decide
  simp only [hActive, hp]
  cases hn : hello.serverName with
  | none => by_cases hc : hello.isAcmeChallenge = true <;> simp [hc]
  | some name =>
    by_cases hc : hello.isAcmeChallenge = true <;>
      by_cases hm : Host.canonical name ∈ p.publicHosts <;>
        cases hf : p.forwardFor? (Host.canonical name) <;> simp [hc, hm, hf]

end Policy

end Gatehouse.Inspect
