import Gatehouse.Certificate.Resolver
import Gatehouse.Tls.Peek

/-!
# How HTTPS connections are received

A server reads the Client Hello of a connection and decides by it what comes next: a challenge is
answered by the handshake and nothing more, any other connection is served with the certificate
that was chosen for it.  A connection for which there is neither is let go.
-/

namespace Gatehouse.Https

open Certificate

/-- What a server does with a connection. -/
inductive Reception where
  /-- There is nothing to offer. -/
  | refused
  /-- The handshake answers a challenge, and the connection ends. -/
  | challenge
  /-- Requests are served, with this certificate. -/
  | serve (certificate : Choice)
deriving DecidableEq, Repr

/-- What a server knows when a connection comes. -/
structure Server where
  manual : Store
  table : RouteTable
  /-- Whether challenges can be answered. -/
  challenges : Bool

/-- What is done with a connection that has the given hello. -/
def Server.receive (s : Server) (hello : Tls.Hello) : Reception :=
  if hello.isAcmeChallenge then if s.challenges then .challenge else .refused
  else match choose s.manual s.table hello.serverName with
    | .none => .refused
    | c => .serve c

/-- What is done with a connection by what it sends; nothing is decided before the hello is
complete. -/
def Server.receiveStream {ρ σ : Type} (s : Server) (read : ReadFrom ρ) (a : Tls.Acceptor σ)
    (stream : ρ) : Option Reception :=
  match Tls.receive read a stream with
  | .pending => none
  | .failed _ => some .refused
  | .hello hello _ => some (s.receive hello)

/-! ## Protocols -/

def http11 : Octets := Octets.ofText "http/1.1"

/-- The protocol that client and server agree on.  A client that names protocols is turned away
unless one of them is spoken; with one that names none, none is agreed on. -/
def negotiate (spoken : List Octets) (named : List Octets) : Option (Option Octets) :=
  if named.isEmpty then some none
  else (spoken.find? named.contains).map some

end Gatehouse.Https
