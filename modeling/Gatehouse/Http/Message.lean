import Gatehouse.Http.Header
import Gatehouse.Net.Target

/-!
# Requests and responses
-/

namespace Gatehouse.Http

/-- The body of a message.  A body that fails before its end has no octets to show. -/
structure Body where
  octets? : Option Octets
  /-- The length, if it is known before the body is read. -/
  announced : Option Nat
deriving DecidableEq, Repr

namespace Body

def ofOctets (bs : Octets) : Body := ⟨some bs, some bs.length⟩

def ofText (s : String) : Body := ofOctets (Octets.ofText s)

def empty : Body := ofOctets []

end Body

structure Request where
  method : String := "GET"
  target : Net.Target
  headers : Headers := []
  body : Body := .empty
deriving Repr

structure Response where
  status : Nat
  headers : Headers := []
  body : Body := .empty
deriving Repr

def Response.ofStatus (status : Nat) : Response := { status := status }

def plainText : Field := ⟨"content-type", Octets.ofText "text/plain; charset=utf-8"⟩

/-- A redirect to a location.  A location that cannot stand in a header is an internal error. -/
def Response.redirect (status : Nat) (location : String) : Response :=
  let value := Octets.ofText location
  if value.all isFieldOctet then { status := status, headers := [⟨"location", value⟩] }
  else
    { status := 500, headers := [plainText], body := .ofText "failed to parse header value" }

/-- Why a request is answered by an error of the gateway's own. -/
inductive Refusal where
  | missingHost
  | invalidHost
  | unknownHost
  /-- The backend cannot be reached or does not answer properly. -/
  | backend
deriving DecidableEq, Repr

namespace Refusal

def status : Refusal → Nat
  | missingHost | invalidHost => 400
  | unknownHost => 404
  | backend => 502

def message : Refusal → String
  | missingHost => "Missing Host header"
  | invalidHost => "Invalid Host header"
  | unknownHost => "Handler not found"
  | backend => "Backend error"

def response (e : Refusal) : Response := .ofStatus e.status

end Refusal

end Gatehouse.Http
