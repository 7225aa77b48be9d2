import Gatehouse.Https.Connection

/-!
# What private mode hides from the tunnel

Private mode looks at server names, and requests are dispatched by the hosts they name: nothing
compares the two.  So a connection from the tunnel is served for a public server name only, but
once it is served each of its requests may name any host of the table.

    exists_private_dispatched_iff : when the tunnel comes to the route of a host that is not public
-/

namespace Gatehouse.Https

open Certificate

/-- **The server name is all that private mode checks.**  Requests from the tunnel are dispatched
for public server names only; they come to the route of a host that is not public exactly when such
a connection is served, its name is not forwarded, and a request names a routed private host. -/
theorem exists_private_dispatched_iff {p : Inspect.Policy} (hp : p.privateMode = true) (s : Server)
    (atHand : Choice → Bool) (hello : Tls.Hello) (asked : List Asked) :
    (∀ d ∈ s.dispatched atHand p .tunnel hello asked,
      ∃ name, hello.serverName = some name ∧ Host.canonical name ∈ p.publicHosts) ∧
    ((∃ d ∈ s.dispatched atHand p .tunnel hello asked, d.1 ∉ p.publicHosts) ↔
      (∃ name, hello.serverName = some name ∧ Host.canonical name ∈ p.publicHosts ∧
        p.forwardFor? (Host.canonical name) = none) ∧
      hello.isAcmeChallenge = false ∧
      choose s.manual s.table hello.serverName ≠ .none ∧
      atHand (choose s.manual s.table hello.serverName) = true ∧
      (negotiate [http11] hello.protocols).isSome = true ∧
      ∃ a ∈ asked, ∃ host route, a.request.host = .ok host ∧ a.table.get? host = some route ∧
        host ∉ p.publicHosts) := by
  -- A connection that is served is no challenge, so that it was let through for its name.
  have hName : ∀ d ∈ s.dispatched atHand p .tunnel hello asked,
      ∃ name, hello.serverName = some name ∧ Host.canonical name ∈ p.publicHosts ∧
        p.forwardFor? (Host.canonical name) = none := by
    intro d hd
    obtain ⟨hAdmits, hOpens, -⟩ := Server.mem_dispatched.mp hd
    obtain ⟨hPublic, hForward⟩ := (Inspect.Policy.admits_tunnel_iff hp hello).mp hAdmits
    have hNoChallenge := (Server.opens_iff.mp hOpens).1
    rcases hPublic with ⟨name, hn, hm⟩ | hChallenge
    · exact ⟨name, hn, hm, hForward name hn⟩
    · rw [hNoChallenge] at hChallenge
      contradiction
  refine ⟨fun d hd => ?_, ?_, ?_⟩
  · obtain ⟨name, hn, hm, -⟩ := hName d hd
    exact ⟨name, hn, hm⟩
  · rintro ⟨d, hd, hPrivate⟩
    obtain ⟨-, hOpens, a, ha, hHost, hRoute⟩ := Server.mem_dispatched.mp hd
    obtain ⟨hNoChallenge, hChosen, hAtHand, hProtocol⟩ := Server.opens_iff.mp hOpens
    exact ⟨hName d hd, hNoChallenge, hChosen, hAtHand, hProtocol, a, ha, d.1, d.2, hHost, hRoute,
      hPrivate⟩
  · rintro ⟨⟨name, hn, hm, hf⟩, hNoChallenge, hChosen, hAtHand, hProtocol, a, ha, host, route,
      hHost, hRoute, hPrivate⟩
    have hAdmits : p.admits .tunnel hello = true := by
      refine (Inspect.Policy.admits_tunnel_iff hp hello).mpr ⟨.inl ⟨name, hn, hm⟩, ?_⟩
      intro name' hn'
      obtain rfl : name = name' := Option.some.inj (hn.symm.trans hn')
      exact hf
    have hOpens : s.opens atHand hello = true :=
      Server.opens_iff.mpr ⟨hNoChallenge, hChosen, hAtHand, hProtocol⟩
    exact ⟨(host, route), Server.mem_dispatched.mpr ⟨hAdmits, hOpens, a, ha, hHost, hRoute⟩,
      hPrivate⟩

/-- A gateway with administrative pages that the tunnel is not to see. -/
def privatePages : RouteTable :=
  { routes := ⟨[("a.example", .home), ("b.example", .proxy "127.0.0.1:3000" (by decide))]⟩ }

def onlyPublicB : Inspect.Policy := { privateMode := true, publicHosts := ["b.example"] }

def askForPages : Asked where
  table := privatePages
  request :=
    { target := .origin ⟨"/health", none⟩, headers := [⟨"host", Octets.ofText "a.example"⟩] }

theorem private_pages_by_public_name :
    onlyPublicB.privateMode = true ∧
    ∃ d ∈ Server.dispatched ⟨⟨[]⟩, privatePages, true⟩ (fun _ => true) onlyPublicB .tunnel
        ⟨some "b.example", [http11]⟩ [askForPages],
      d.1 ∉ onlyPublicB.publicHosts :=
  ⟨rfl, (exists_private_dispatched_iff rfl _ _ _ _).2.mpr
    ⟨⟨"b.example", rfl, by decide, rfl⟩, rfl, by decide +kernel, rfl, rfl, askForPages, by simp,
      "a.example", .home, by rfl, by rfl, by decide⟩⟩

end Gatehouse.Https
