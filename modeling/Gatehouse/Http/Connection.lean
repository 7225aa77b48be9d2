import Gatehouse.Http.Framing

/-!
# Messages that went over a connection

A response that is sent over a connection is given a length, or the chunked coding if its length
is not known beforehand; a body that a response to the method must not have is left out.
-/

namespace Gatehouse.Http

def mayHaveLength (method : String) (status : Nat) : Bool :=
  !(status < 200) && !(method == "CONNECT" && 200 ≤ status && status < 300) && status != 204 &&
    status != 304

def mayBeChunked (method : String) (status : Nat) : Bool :=
  method != "HEAD" && mayHaveLength method status

/-- The headers of a response that are sent: a length that does not fit the body is dropped, and
so is a transfer coding where none may be. -/
def sentHeaders (method : String) (r : Response) : Headers :=
  r.headers.filter fun f =>
    if f.name == "content-length" then
      !(r.body.announced == some 0 && method != "HEAD" && f.value != Octets.ofText "0")
    else if f.name == "transfer-encoding" then mayBeChunked method r.status
    else true

/-- The response as the other end of the connection takes it. -/
def Response.overConnection (r : Response) (method : String) : Response :=
  let hs := sentHeaders method r
  let hs :=
    if hs.has "content-length" || hs.has "transfer-encoding" then hs
    else match r.body.announced with
      | none =>
        if mayBeChunked method r.status then hs.setText "transfer-encoding" "chunked" else hs
      | some n =>
        if !mayHaveLength method r.status || (n == 0 && method == "HEAD") then hs
        else hs.setText "content-length" (toString n)
  let body := if method == "HEAD" || !mayHaveLength method r.status then .empty else r.body
  { r with headers := hs, body := body }

end Gatehouse.Http
