import Gatehouse.Http.VirtualHosts

/-!
# Plain HTTP

Over plain HTTP only local hosts are served: by a local backend if one is configured, or else by
the administrative pages.  The liveness page never goes to a backend.  All other hosts are sent to
HTTPS for good.
-/

namespace Gatehouse.Http

/-- The answer to a request that came by plain HTTP. -/
def servePlain (localProxy : Option String) (client : Client) (peer : Net.SocketAddress)
    (r : Request) : Reply :=
  match r.host with
  | .error e => { response := e.response }
  | .ok host =>
    if !Host.isLocal host then { response := .redirect 308 ("https://" ++ host ++ r.redirectPath) }
    else match localProxy with
      | some destination =>
        if r.target.path = Admin.healthPath then { response := Admin.respond r }
        else forwardReply client r destination ⟨peer, host, .http⟩
      | none => { response := Admin.respond r }

end Gatehouse.Http
