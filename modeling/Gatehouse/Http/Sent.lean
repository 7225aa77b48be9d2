import Gatehouse.Http.Forward
import Gatehouse.Http.Framing

/-!
# A request as it goes out to a backend

The client side adds what a request needs on its connection: a `Host` header from the URI if there
is none, and the length of the body unless a proper one is there.  Only the path and query are on
the request line, or the authority for the method `CONNECT`.
-/

namespace Gatehouse.Http

open Net

/-- A request as a backend receives it. -/
structure Sent where
  line : Octets
  headers : Headers
  body : Octets
deriving DecidableEq, Repr

def defaultPort : Nat := 80

/-- The host and port that a connection for this authority goes to. -/
def endpoint (a : Authority) : String × Nat := (a.host, a.port?.getD defaultPort)

/-- The value of a `Host` header for the authority: the port is left out if it is the usual one. -/
def hostValue (a : Authority) : String :=
  match a.port?, a.portText? with
  | some port, some text => if port = defaultPort then a.host else a.host ++ ":" ++ text
  | _, _ => a.host

def Outbound.line (u : Outbound) : Octets :=
  let target :=
    if u.request.method == "CONNECT" then u.authority.text
    else (u.request.target.pathQuery?.getD .root).requestForm
  Octets.ofText (u.request.method ++ " " ++ target ++ " HTTP/1.1")

def Outbound.headersWithHost (u : Outbound) : Headers :=
  if u.request.headers.has "host" then u.request.headers
  else u.request.headers ++ [⟨"host", Octets.ofText (hostValue u.authority)⟩]

/-- The request as it goes out; `none` if the body ends before its announced length. -/
def Outbound.sent? (u : Outbound) : Option Sent :=
  let hs := u.headersWithHost
  let body := u.request.body
  if body.announced == some 0 then some ⟨u.line, hs, []⟩
  else match body.octets? with
    | none => none
    | some octets =>
      match announcedLength hs, body.announced with
      | some n, _ =>
        if octets.length < n then none else some ⟨u.line, hs, octets.take n⟩
      | none, some n => some ⟨u.line, hs.setText "content-length" (toString n), octets⟩
      | none, none =>
        if ["GET", "HEAD", "CONNECT"].contains u.request.method then some ⟨u.line, hs, []⟩
        else some ⟨u.line, hs.setText "transfer-encoding" "chunked", octets⟩

end Gatehouse.Http
