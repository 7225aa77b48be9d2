import Gatehouse.Listen.Error
import Gatehouse.Relay.Dialing

/-!
# A scripted relay

A relay that knows one user with one key and listens on one address.  Once it has been dialed the
script opens channels through it, and either side may end the session.
-/

namespace Gatehouse.Script

open Relay

def keyOfSeed (seed : UInt8) : PublicKey := .ofSeed (List.replicate 32 seed)

structure RelayScript where
  /-- Where it listens, if it does. -/
  listens : Option Net.SocketAddress
  hostKey : PublicKey
  user : String
  clientKey : PublicKey
  /-- The port that forwarding is granted for, where it is not the one that was asked for. -/
  assigned : Option Nat := none
  refuses : Bool := false

namespace RelayScript

/-- The port for a request to forward connections to a port. -/
def granted (r : RelayScript) (port : Nat) : Nat := r.assigned.getD port

/-- The relay as it is dialed.  It tells the port only if it was left to choose. -/
def server (r : RelayScript) : Relay.Server where
  accepts a := r.listens == some a
  hostKey := r.hostKey
  authenticates user key := user == r.user && key == r.clientKey
  forwards _ port :=
    if r.refuses then none else if port = 0 then some (r.granted port) else some 0

end RelayScript

/-- Nothing is known of any host. -/
def noLookup : Lookup := fun host => .error ("nothing is known of " ++ host)

/-- A session with a scripted relay. -/
structure RelayTrial where
  isOpen : Bool := true

namespace RelayTrial

/-- The relay opens a channel: whom the gateway takes for its peer, if the session goes on. -/
def forward (t : RelayTrial) (originator : String) (port : Nat) : Option Net.SocketAddress :=
  if t.isOpen then some (peerOf originator port) else none

/-- What an accept comes to when no channel is open, if it comes to anything. -/
def accept (t : RelayTrial) : Option ListenerError :=
  if t.isOpen then none else some (.relay "relay session ended")

/-- One side ends the session. -/
def stop (t : RelayTrial) : RelayTrial := { t with isOpen := false }

end RelayTrial

end Gatehouse.Script
