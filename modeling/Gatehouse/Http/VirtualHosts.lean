import Gatehouse.Http.Admin
import Gatehouse.Http.Forward
import Gatehouse.Route.Table

/-!
# Virtual hosts

Requests that come by HTTPS are dispatched by their host: to the administrative pages, to a
redirect that keeps path and query, or to a backend.  Whatever comes of forwarding, errors too,
tells the client to stay with HTTPS.
-/

namespace Gatehouse.Http

/-- The header that tells a client to use HTTPS from then on. -/
def strictTransport : Field :=
  ⟨"strict-transport-security", Octets.ofText "max-age=15552000; includeSubDomains"⟩

/-- The path and query of a redirect; the authority form of a target has none of its own. -/
def Request.redirectPath (r : Request) : String :=
  (r.target.pathQuery?.map Net.PathQuery.text).getD "/"

/-- The answer with the header that tells the client to stay with HTTPS. -/
def Reply.withStrictTransport (reply : Reply) : Reply :=
  { reply with
    response :=
      { reply.response with
        headers := reply.response.headers.set strictTransport.name strictTransport.value } }

/-- The answer that a route gives to a request for its host. -/
def serveRoute (client : Client) (peer : Net.SocketAddress) (host : String) (r : Request) :
    Route → Reply
  | .home => { response := Admin.respond r }
  | .redirect destination _ =>
    { response := .redirect 307 ("https://" ++ destination ++ r.redirectPath) }
  | .proxy destination _ =>
    (forwardReply client r destination ⟨peer, host, .https⟩).withStrictTransport

/-- The host of a request and the route that it is dispatched to. -/
def dispatch (table : RouteTable) (r : Request) : Except Refusal (String × Route) :=
  match r.host with
  | .error e => .error e
  | .ok host =>
    match table.get? host with
    | none => .error .unknownHost
    | some route => .ok (host, route)

theorem dispatch_eq_ok {table : RouteTable} {r : Request} {host : String} {route : Route} :
    dispatch table r = .ok (host, route) ↔ r.host = .ok host ∧ table.get? host = some route := by
  unfold dispatch
  cases r.host with
  | error e => simp
  | ok h =>
    by_cases hh : h = host
    · subst hh
      cases ht : table.get? h <;> simp [ht]
    · cases ht : table.get? h <;> simp [ht, hh]

/-- The answer to a request that came by HTTPS. -/
def serveHttps (table : RouteTable) (client : Client) (peer : Net.SocketAddress) (r : Request) :
    Reply :=
  match dispatch table r with
  | .error e => { response := e.response }
  | .ok (host, route) => serveRoute client peer host r route

end Gatehouse.Http
