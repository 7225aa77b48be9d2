import Gatehouse.Http.VirtualHosts
import Gatehouse.Https.Reception
import Gatehouse.Inspect.Policy

/-!
# HTTPS connections from the hello to the requests

A connection passes the policy by its server name, then it is received by a server, and then each
of its requests is dispatched by the host that the request names, with the table of that time.
-/

namespace Gatehouse.Https

open Certificate

/-- A request that came over a connection, with the table in use at that time. -/
structure Asked where
  table : RouteTable
  request : Http.Request

/-- Whether the handshake of a connection ends with requests being served: there has to be a
certificate at hand, and a protocol that client and server agree on. -/
def Server.opens (s : Server) (atHand : Choice → Bool) (hello : Tls.Hello) : Bool :=
  match s.receive hello with
  | .serve c => atHand c && (negotiate [http11] hello.protocols).isSome
  | _ => false

theorem Server.opens_iff {s : Server} {atHand : Choice → Bool} {hello : Tls.Hello} :
    s.opens atHand hello = true ↔
      hello.isAcmeChallenge = false ∧ choose s.manual s.table hello.serverName ≠ .none ∧
      atHand (choose s.manual s.table hello.serverName) = true ∧
      (negotiate [http11] hello.protocols).isSome = true := by
  unfold opens receive
  by_cases hc : hello.isAcmeChallenge = true
  · by_cases hs : s.challenges = true <;> simp [hc, hs]
  · rw [if_neg hc]
    cases choose s.manual s.table hello.serverName <;> simp [hc]

/-- The requests that a server handles, of those that come over a connection: all of them once the
handshake has ended with that. -/
def Server.handled {ρ σ : Type} (s : Server) (atHand : Choice → Bool) (read : ReadFrom ρ)
    (a : Tls.Acceptor σ) (stream : ρ) (asked : List Asked) : List Asked :=
  match Tls.receive read a stream with
  | .hello hello _ => if s.opens atHand hello then asked else []
  | _ => []

/-- The hosts and routes that the requests of a connection are dispatched to. -/
def Server.dispatched (s : Server) (atHand : Choice → Bool) (policy : Inspect.Policy)
    (provenance : Provenance) (hello : Tls.Hello) (asked : List Asked) : List (String × Route) :=
  if policy.admits provenance hello && s.opens atHand hello then
    asked.filterMap fun a => (Http.dispatch a.table a.request).toOption
  else []

theorem Server.mem_dispatched {s : Server} {atHand : Choice → Bool} {policy : Inspect.Policy}
    {provenance : Provenance} {hello : Tls.Hello} {asked : List Asked} {d : String × Route} :
    d ∈ s.dispatched atHand policy provenance hello asked ↔
      policy.admits provenance hello = true ∧ s.opens atHand hello = true ∧
      ∃ a ∈ asked, a.request.host = .ok d.1 ∧ a.table.get? d.1 = some d.2 := by
  have hDispatch : ∀ a : Asked, (Http.dispatch a.table a.request).toOption = some d ↔
      a.request.host = .ok d.1 ∧ a.table.get? d.1 = some d.2 := by
    intro a
    rw [← Http.dispatch_eq_ok]
    cases Http.dispatch a.table a.request <;> simp [Except.toOption]
  unfold dispatched
  by_cases ha : policy.admits provenance hello = true
  · by_cases ho : s.opens atHand hello = true
    · simp only [ha, ho, Bool.and_self, if_true, List.mem_filterMap, hDispatch, true_and]
    · simp [ho]
  · simp [ha]

end Gatehouse.Https
