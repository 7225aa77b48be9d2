import Gatehouse.Http.HostHeader
import Gatehouse.Net.SocketAddress

/-!
# Forwarding a request to a backend

The request that is sent on keeps the method, the path and query and the body.  Headers that
belong to the client's connection are dropped, and so are the forwarding headers that the client
sent: the gateway writes its own.  A request to switch protocols keeps its `Upgrade` header, and
the two connections are joined if the backend agrees to the same protocol.
-/

namespace Gatehouse.Http

open Net

/-- The scheme that the client used to reach the gateway. -/
inductive Scheme where
  | http | https
deriving DecidableEq, Repr

def Scheme.text : Scheme → String
  | http => "http"
  | https => "https"

/-- Where requests go whose destination cannot be used: nothing listens there, so that they never
reach a host chosen by the client. -/
def sink : Authority := ⟨"127.0.0.1:9"⟩

def connectionHeaders : List String :=
  ["connection", "te", "trailer", "transfer-encoding", "upgrade", "keep-alive", "proxy-connection"]

def Request.upgrade? (r : Request) : Option Octets :=
  if r.headers.hasToken "connection" "upgrade" then r.headers.first? "upgrade" else none

/-- A request on its way to a backend, with the authority of its URI. -/
structure Outbound where
  authority : Authority
  request : Request
deriving Repr

/-- What was learnt about a request from the connection that it came by. -/
structure Origin where
  peer : SocketAddress
  host : String
  scheme : Scheme

/-- The authority that a destination stands for. -/
def destinationAuthority (destination : String) : Authority :=
  (Authority.ofText? destination).getD sink

def forwardedHeaders (r : Request) (o : Origin) : Headers :=
  let hs := r.headers.eraseAll connectionHeaders
  let hs := match r.upgrade? with
    | some protocol => (hs.setText "connection" "upgrade").set "upgrade" protocol
    | none => hs
  let hs := (hs.erase "x-forwarded-for").erase "x-real-ip"
  let hs := hs.setText "x-forwarded-for" o.peer.ip.canonical.text
  let hostValue := Octets.ofText o.host
  let hs := if hostValue.all isFieldOctet then hs.set "x-forwarded-host" hostValue else hs
  hs.setText "x-forwarded-proto" o.scheme.text

def Request.toOutbound (r : Request) (destination : String) (o : Origin) : Outbound :=
  let authority := destinationAuthority destination
  let path := r.target.pathQuery?.getD .root
  { authority := authority
    request :=
      { method := r.method
        target := .absolute "http" authority path
        headers := forwardedHeaders r o
        body := r.body } }

/-- How a request reaches a backend and what comes back; `none` if no proper answer does. -/
abbrev Client := Outbound → Option Response

structure Reply where
  response : Response
  /-- The request that was sent to a backend, if one was. -/
  outbound : Option Outbound := none
  /-- Whether the client's connection is joined to the backend's once the response is out. -/
  joined : Bool := false

def acceptsUpgrade (response : Response) (protocol : Octets) : Bool :=
  response.status == 101 &&
    (response.headers.first? "upgrade").any fun value =>
      value.map Octets.lower == protocol.map Octets.lower

def forward (client : Client) (r : Request) (destination : String) (o : Origin) :
    Except Refusal Response :=
  match client (r.toOutbound destination o) with
  | none => .error .backend
  | some response => .ok response

/-- The answer that comes of forwarding; a failure becomes a response that tells so. -/
def forwardReply (client : Client) (r : Request) (destination : String) (o : Origin) : Reply :=
  let outbound := some (r.toOutbound destination o)
  match forward client r destination o with
  | .ok response => ⟨response, outbound, r.upgrade?.any (acceptsUpgrade response)⟩
  | .error e => ⟨e.response, outbound, false⟩

end Gatehouse.Http
