import Gatehouse.Http.Connection
import Gatehouse.Script.Backend

/-!
# A scripted visit

A client that sends one request over a connection of its own and tells what it hears.  If the
protocol is switched it sends a payload and waits for as many octets.
-/

namespace Gatehouse.Script

open Http

inductive Heard where
  | response (response : Response)
  /-- The protocol was switched, and these octets came back. -/
  | switched (response : Response) (echo : Octets)
  /-- The protocol was switched, and the connection ended. -/
  | closed
  /-- The connection ended without an answer. -/
  | nothing

/-- The request as the other end of a connection takes it. -/
def requestOverConnection (r : Request) : Request :=
  match r.body.announced with
  | some n =>
    if n = 0 || (announcedLength r.headers).isSome || r.headers.has "transfer-encoding" then r
    else { r with headers := r.headers.setText "content-length" (toString n) }
  | none => r

/-- What a client hears when a server answers its request in this way. -/
def visit (serve : Request → Reply) (r : Request) (payload : Octets) : Heard :=
  let r := requestOverConnection r
  let reply := serve r
  let response := reply.response.overConnection r.method
  if response.status = 101 then
    if reply.joined || payload.isEmpty then .switched response (Backend.echo payload) else .closed
  else .response response

/-- What the server sent on to a backend while it answered. -/
def sentOn (serve : Request → Reply) (r : Request) : Option Outbound :=
  (serve (requestOverConnection r)).outbound

end Gatehouse.Script
