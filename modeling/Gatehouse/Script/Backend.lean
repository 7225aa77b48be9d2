import Gatehouse.Http.Sent

/-!
# A scripted backend

A backend that gives the same answer to every request, to try the gateway out.  It listens on one
port of the loopback address and tells what it received.
-/

namespace Gatehouse.Script

open Http

/-- What a scripted backend answers. -/
inductive Backend where
  | answer (status : Nat) (headers : Headers) (body : Octets)
  /-- These octets, whatever was asked. -/
  | raw (octets : Octets)
  /-- Nothing: the connection is closed. -/
  | close
deriving Repr

namespace Backend

/-- The plainest answer. -/
def ok : Backend := .answer 200 [] []

/-- A line of a head with its ending. -/
def line (bs : Octets) : Octets := bs ++ [13, 10]

/-- Whether an answer comes with a length and a body. -/
def hasBody (method : String) (status : Nat) : Bool :=
  200 ≤ status && status != 204 && status != 304 && method != "HEAD"

/-- All octets that answer a request of the given method. -/
def octets (b : Backend) (method : String) : Octets :=
  match b with
  | raw bs => bs
  | close => []
  | answer status headers body =>
    let withBody := hasBody method status
    let headers :=
      if withBody then headers ++ [⟨"content-length", Octets.ofText (toString body.length)⟩]
      else headers
    line (Octets.ofText ("HTTP/1.1 " ++ toString status ++ " Scripted")) ++
      headers.flatMap (fun f => line (Octets.ofText f.name ++ [58, 32] ++ f.value)) ++
      line [] ++ (if withBody then body else [])

/-- Whether a request for this authority comes to a backend on a port of the loopback address. -/
def isReached (port : Nat) (a : Net.Authority) : Bool := endpoint a == ("127.0.0.1", port)

/-- What a backend on this port receives of a request. -/
def received (port : Nat) (u : Outbound) : Option Sent :=
  if isReached port u.authority then
    u.sent?.map fun s =>
      { s with body := if s.headers.has "transfer-encoding" then [] else s.body }
  else none

/-- The way to a backend on this port. -/
def client (b : Backend) (port : Nat) : Client := fun u =>
  match received port u with
  | none => none
  | some _ => Response.ofOctets? u.request.method (b.octets u.request.method)

/-- What comes back over a joined connection. -/
def echo (payload : Octets) : Octets := payload.map Octets.upper

end Backend

end Gatehouse.Script
