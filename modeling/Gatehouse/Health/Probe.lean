import Gatehouse.Health.Checker
import Gatehouse.Http.Connection
import Gatehouse.Http.Plain
import Gatehouse.Http.Sent
import Gatehouse.Net.UrlPath

/-!
# Probes

A probe asks for a URL of plain HTTP, and follows where the answer leads.  It fails if there is no
answer in the end, or one that tells of an error.

    ProbeUrl.ofText?   : the URL that a text stands for
    ProbeUrl.probe     : a probe of a URL
    fetch              : who answers: a server that is bound to an address, or others
-/

namespace Gatehouse.Health

open Http

def isRedirect (status : Nat) : Bool := [301, 302, 303, 307, 308].contains status

def maxRedirects : Nat := 10

def outcomeOf (status : Nat) : Outcome :=
  if 400 ≤ status && status ≤ 599 then .failure else .success

structure ProbeUrl where
  authority : Net.Authority
  path : Net.UrlPath

/-- How the requests of a probe are answered, if they are, and what is sent to a backend for it. -/
abbrev Fetch := Outbound → Option Response × List Outbound

namespace ProbeUrl

def ofText? (url : String) : Option ProbeUrl :=
  match Net.Target.ofText? url with
  | some (.absolute scheme authority path) =>
    if Text.lower scheme == "http" then
      (Net.UrlPath.ofSuffix? path.text).map (⟨authority, ·⟩)
    else none
  | _ => none

def follow (u : ProbeUrl) (location : Octets) : Option ProbeUrl :=
  let text := Octets.latin location
  match u.path.resolve text with
  | some path => some { u with path }
  | none => ofText? text

def request? (u : ProbeUrl) : Option Outbound :=
  (Net.Target.ofText? u.path.text).map fun target =>
    ⟨u.authority, { target, headers := [⟨"accept", Octets.ofText "*/*"⟩] }⟩

/-- A probe that may be led on: its outcome, and what was sent to a backend. -/
def probe (fetch : Fetch) : (redirects : Nat) → ProbeUrl → Outcome × List Outbound
  | redirects, url =>
    match url.request? with
    | none => (.failure, [])
    | some request =>
      let (response, sent) := fetch request
      match response with
      | none => (.failure, sent)
      | some response =>
        let next :=
          if isRedirect response.status then response.headers.first? "location" else none
        match next, redirects with
        | none, _ => (outcomeOf response.status, sent)
        | some _, 0 => (.failure, sent)
        | some location, redirects + 1 =>
          match url.follow location with
          | none => (.failure, sent)
          | some url =>
            let (outcome, more) := probe fetch redirects url
            (outcome, sent ++ more)

end ProbeUrl

/-- A request as a server takes it from the connection. -/
def received (u : Outbound) : Request := { u.request with headers := u.headersWithHost }

/-- Whether what is sent to an authority comes to a server that is bound to an address. -/
def leadsTo (authority : Net.Authority) (bound : Net.SocketAddress) : Bool :=
  let (host, port) := endpoint authority
  match Net.Ip.ofText? (Host.unbracket host) with
  | some ip => bound.takes { ip, port }
  | none => false

/-- A request is answered by a server that is bound to an address, if it leads there, and otherwise
by whoever is there. -/
def fetch (bound : Option Net.SocketAddress) (serve : Request → Reply) (others : Client) : Fetch :=
  fun u =>
    if bound.any (leadsTo u.authority) then
      let reply := serve (received u)
      (some (reply.response.overConnection u.request.method), reply.outbound.toList)
    else (others u, [u])

end Gatehouse.Health
