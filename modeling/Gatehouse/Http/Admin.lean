import Gatehouse.Http.Message

/-!
# The administrative pages

Two pages, `/` and `/health`, that answer `GET` and `HEAD`.  Other methods are refused with a list
of those two, and other paths are not found.
-/

namespace Gatehouse.Http.Admin

def healthPath : String := "/health"

def healthText : String := "ok"

/-- The page that shows that the gateway is up. -/
def indexPage : String :=
  "<!DOCTYPE html><html><head><title>doorway</title></head>" ++
    "<body><p>doorway is running.</p></body></html>"

/-- The content type and the text of the page at a path. -/
def page? (path : String) : Option (String × String) :=
  if path = "/" then some ("text/html; charset=utf-8", indexPage)
  else if path = healthPath then some ("text/plain; charset=utf-8", healthText)
  else none

def lengthField (n : Nat) : Field := ⟨"content-length", Octets.ofText (toString n)⟩

def respond (r : Request) : Response :=
  let path := r.target.path
  match page? path with
  | some (kind, text) =>
    if r.method == "GET" || r.method == "HEAD" then
      { status := 200
        headers := [⟨"content-type", Octets.ofText kind⟩, lengthField text.utf8ByteSize]
        body := if r.method == "HEAD" then .empty else .ofText text }
    else
      { status := 405, headers := [⟨"allow", Octets.ofText "GET,HEAD"⟩, lengthField 0] }
  | none =>
    if path.startsWith "/" then .ofStatus 404
    else { status := 404, headers := [lengthField 0] }

end Gatehouse.Http.Admin
