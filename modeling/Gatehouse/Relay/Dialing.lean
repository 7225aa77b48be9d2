import Gatehouse.Listen.Address
import Gatehouse.Listen.Error
import Gatehouse.Relay.Key

/-!
# Dialing a relay

A dial goes through the endpoints of a relay up to the first that can be reached, checks its host
key, shows the key of the gateway, and asks for connections to be forwarded.  Each step is taken
only if all before it went well, and `dial` tells which were taken.

The host key is checked in the course of a handshake, which is left to the server: the check gives
its result to the handshake, and the dial goes on if that goes well.
-/

namespace Gatehouse.Relay

inductive RelayError where
  | noEndpoint (host : String)
  | unresolved (host cause : String)
  | unreachable (endpoints : List Net.SocketAddress)
  | wrongHostKey (fingerprint : String)
  | rejected (user : String)
  | forwardingRefused
  /-- The connection failed. -/
  | ssh (cause : String)
deriving DecidableEq, Repr

def RelayError.message : RelayError → String
  | noEndpoint host => "No relay endpoint found for " ++ host
  | unresolved host cause => "Unable to resolve relay host " ++ host ++ ": " ++ cause
  | unreachable endpoints =>
    "Unable to reach relay at any of [" ++ ", ".intercalate (endpoints.map (·.text)) ++ "]"
  | wrongHostKey fingerprint =>
    "Relay host key " ++ fingerprint ++ " doesn't match the pinned fingerprint"
  | rejected user => "Relay rejected authentication for user " ++ user
  | forwardingRefused => "The request was rejected by the other party"
  | ssh cause => cause

def RelayError.toListenerError (e : RelayError) : ListenerError := .relay e.message

structure Dialer where
  host : String
  port : Nat := 22
  /-- Addresses that are used instead of looking up the host. -/
  addresses : List Net.Ip := []
  user : String
  key : PublicKey
  bindHost : String := "0.0.0.0"
  bindPort : Nat := 443
  /-- The fingerprint that the host key has to have. -/
  pin : Option String := none

/-- Something that a dial does. -/
inductive DialStep where
  | connect (endpoint : Net.SocketAddress)
  | checkHostKey
  | authenticate
  | requestForwarding
deriving DecidableEq, Repr

/-- A handshake that goes well if the host key is accepted. -/
def handshakeWith : Except RelayError Bool → Except RelayError Unit
  | .ok true => .ok ()
  | .ok false => .error (.ssh "Unknown server key")
  | .error e => .error e

/-- What a relay does when it is dialed. -/
structure Server where
  accepts : Net.SocketAddress → Bool
  hostKey : PublicKey
  authenticates : (user : String) → PublicKey → Bool
  /-- The port that is told for a request to forward connections to a host and a port, if the
  request is granted; zero stands for the port that was asked for. -/
  forwards : (host : String) → (port : Nat) → Option Nat
  /-- What the handshake comes to, by what the check of the host key comes to. -/
  handshake : Except RelayError Bool → Except RelayError Unit := handshakeWith
  /-- Why the connection fails while the gateway authenticates, if it does. -/
  authenticationFault : Option String := none
  /-- Why it fails while the gateway asks for forwarding, if it does. -/
  forwardingFault : Option String := none

/-- Finds the addresses of a host. -/
abbrev Lookup := String → Except String (List Net.Ip)

namespace Dialer

/-- The endpoints in the order in which they are tried. -/
def endpoints (d : Dialer) (lookup : Lookup) : Except RelayError (List Net.SocketAddress) :=
  let withPort (ips : List Net.Ip) := ips.map fun ip => { ip, port := d.port }
  if !d.addresses.isEmpty then .ok (withPort d.addresses)
  else match Net.Ip.ofText? d.host with
    | some ip => .ok (withPort [ip])
    | none =>
      match lookup d.host with
      | .error cause => .error (.unresolved d.host cause)
      | .ok [] => .error (.noEndpoint d.host)
      | .ok ips => .ok (withPort ips)

/-- Tries endpoints up to the first that accepts: those that were tried, and whether one did. -/
def connect (s : Server) : List Net.SocketAddress → List DialStep × Bool
  | [] => ([], false)
  | e :: es =>
    if s.accepts e then ([.connect e], true)
    else
      let (steps, reached) := connect s es
      (.connect e :: steps, reached)

/-- Whether a host key is the pinned one, if any is. -/
def trusts (d : Dialer) (key : PublicKey) : Bool := d.pin.all key.matchesPin

def checkHostKey (d : Dialer) (key : PublicKey) : Except RelayError Bool :=
  if d.trusts key then .ok true else .error (.wrongHostKey key.fingerprint)

/-- Shows the key of the gateway. -/
def authenticate (d : Dialer) (s : Server) : Except RelayError Unit :=
  match s.authenticationFault with
  | some cause => .error (.ssh cause)
  | none => if s.authenticates d.user d.key then .ok () else .error (.rejected d.user)

/-- Asks for connections to be forwarded: the address at which the relay takes them.  The relay
tells its port only if it was left to choose. -/
def requestForwarding (d : Dialer) (s : Server) : Except RelayError ListenerAddress :=
  match s.forwardingFault with
  | some cause => .error (.ssh cause)
  | none =>
    match s.forwards d.bindHost d.bindPort with
    | none => .error .forwardingRefused
    | some port => .ok (.remote d.bindHost (if port = 0 then d.bindPort else port))

/-- What is done with a relay that has been reached. -/
def establish (d : Dialer) (s : Server) : List DialStep × Except RelayError ListenerAddress :=
  match s.handshake (d.checkHostKey s.hostKey) with
  | .error e => ([.checkHostKey], .error e)
  | .ok () =>
    match d.authenticate s with
    | .error e => ([.checkHostKey, .authenticate], .error e)
    | .ok () => ([.checkHostKey, .authenticate, .requestForwarding], d.requestForwarding s)

/-- Dials: what was done, and the address at which the relay takes connections for the gateway. -/
def dial (d : Dialer) (lookup : Lookup) (s : Server) :
    List DialStep × Except RelayError ListenerAddress :=
  match d.endpoints lookup with
  | .error e => ([], .error e)
  | .ok es =>
    match connect s es with
    | (steps, false) => (steps, .error (.unreachable es))
    | (steps, true) =>
      let (more, result) := d.establish s
      (steps ++ more, result)

def dialForListener (d : Dialer) (lookup : Lookup) (s : Server) :
    Except ListenerError ListenerAddress :=
  (d.dial lookup s).2.mapError RelayError.toListenerError

end Dialer

/-- The peer of a connection that a relay forwards: what the relay says of where it came from, as
far as that makes sense. -/
def peerOf (originator : String) (port : Nat) : Net.SocketAddress where
  ip := (Net.Ip.ofText? originator).getD (.v4 ⟨0, 0, 0, 0⟩)
  port := if port ≤ 65535 then port else 0

end Gatehouse.Relay
