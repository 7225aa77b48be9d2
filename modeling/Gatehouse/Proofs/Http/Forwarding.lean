import Gatehouse.Http.Forward

/-!
# What the client of a forwarded request decides

The headers of the request that is sent on are told name by name (`values_forwardedHeaders`): which
ones the gateway writes, which ones it drops, and that it hands on all others.  From this follows
that two requests that differ in the forwarding headers and in the scheme and authority of their
target are sent on as one and the same request.

    values_forwardedHeaders    : the values of each name in the request that is sent on
    Outbound.SameAs            : requests on their way to a backend that no backend tells apart
    outbound_sameAs_of_agree   : the client decides neither where its request goes nor what the
                                 gateway tells about it
-/

namespace Gatehouse.Http

/-- The headers that tell where a request came from. -/
def forwardingHeaders : List String :=
  ["x-forwarded-for", "x-real-ip", "x-forwarded-host", "x-forwarded-proto"]

/-- Headers with the same values, in the same order, for each name but those given. -/
def Headers.AgreeOff (names : List String) (hs hs' : Headers) : Prop :=
  ∀ n, n ∉ names → hs.values n = hs'.values n

/-- Requests that differ in the forwarding headers and in what their targets say besides path and
query, if they differ at all. -/
structure Request.AgreesWith (r r' : Request) : Prop where
  method : r.method = r'.method
  pathQuery : r.target.pathQuery? = r'.target.pathQuery?
  body : r.body = r'.body
  headers : Headers.AgreeOff forwardingHeaders r.headers r'.headers

/-- Requests on their way to a backend that differ in the order of names of headers at most. -/
structure Outbound.SameAs (u u' : Outbound) : Prop where
  authority : u.authority = u'.authority
  method : u.request.method = u'.request.method
  target : u.request.target = u'.request.target
  body : u.request.body = u'.request.body
  headers : Headers.AgreeOff [] u.request.headers u'.request.headers

/-! ## Lemmas -/

/-- The values of each name in the request that is sent on, but for that of the host. -/
theorem values_forwardedHeaders_of_ne (r : Request) (o : Origin) {n : String}
    (hh : n ≠ "x-forwarded-host") :
    (forwardedHeaders r o).values n =
      if n = "x-forwarded-proto" then [Octets.ofText o.scheme.text]
      else if n = "x-forwarded-for" then [Octets.ofText o.peer.ip.canonical.text]
      else if n = "x-real-ip" then []
      else if n = "upgrade" then r.upgrade?.toList
      else if n = "connection" then (r.upgrade?.map fun _ => Octets.ofText "upgrade").toList
      else if n ∈ connectionHeaders then []
      else r.headers.values n := by
  have hUpgrade : "upgrade" ∈ connectionHeaders := by decide
  have hConnection : "connection" ∈ connectionHeaders := by decide
  have hhost : ∀ (p : Bool) (hs : Headers) (value : Octets),
      (if p then hs.set "x-forwarded-host" value else hs).values n = hs.values n := by
    intro p hs value
    cases p with
    | false => rfl
    | true => exact (Headers.values_set hs _ value n).trans (if_neg hh)
  unfold forwardedHeaders
  simp only [Headers.values_setText, hhost, Headers.values_erase]
  by_cases hp : n = "x-forwarded-proto"
  · rw [if_pos hp, if_pos hp]
  by_cases hf : n = "x-forwarded-for"
  · simp only [hp, if_pos hf, if_false]
  by_cases hr : n = "x-real-ip"
  · simp only [hp, hf, if_pos hr, if_false]
  simp only [hp, hf, hr, if_false]
  cases r.upgrade? with
  | none =>
    rw [Headers.values_eraseAll]
    by_cases hu : n = "upgrade"
    · simp [hu, hUpgrade]
    · by_cases hc : n = "connection"
      · simp [hc, hConnection]
      · simp [hu, hc]
  | some protocol =>
    rw [Headers.values_set, Headers.values_setText, Headers.values_eraseAll]
    by_cases hu : n = "upgrade"
    · simp [hu]
    · by_cases hc : n = "connection"
      · simp [hc]
      · simp [hu, hc]

/-- The values of each name in the request that is sent on, for a host that can stand in a field. -/
theorem values_forwardedHeaders (r : Request) (o : Origin)
    (h : (Octets.ofText o.host).all isFieldOctet = true) (n : String) :
    (forwardedHeaders r o).values n =
      if n = "x-forwarded-proto" then [Octets.ofText o.scheme.text]
      else if n = "x-forwarded-host" then [Octets.ofText o.host]
      else if n = "x-forwarded-for" then [Octets.ofText o.peer.ip.canonical.text]
      else if n = "x-real-ip" then []
      else if n = "upgrade" then r.upgrade?.toList
      else if n = "connection" then (r.upgrade?.map fun _ => Octets.ofText "upgrade").toList
      else if n ∈ connectionHeaders then []
      else r.headers.values n := by
  by_cases hh : n = "x-forwarded-host"
  · unfold forwardedHeaders
    simp only [if_pos h, Headers.values_setText, Headers.values_set]
    rw [if_pos hh, if_pos hh]
  · rw [values_forwardedHeaders_of_ne r o hh, if_neg hh]

/-- Whether a request asks to switch protocols does not depend on the forwarding headers. -/
theorem Request.AgreesWith.upgrade? {r r' : Request} (h : r.AgreesWith r') :
    r.upgrade? = r'.upgrade? := by
  have hc := h.headers "connection" (by decide)
  have hu := h.headers "upgrade" (by decide)
  simp only [Request.upgrade?, Headers.hasToken_congr hc, Headers.first?_congr hu]

theorem Request.AgreesWith.forwardedHeaders {r r' : Request} (h : r.AgreesWith r') (o : Origin)
    (ho : (Octets.ofText o.host).all isFieldOctet = true) :
    Headers.AgreeOff [] (Http.forwardedHeaders r o) (Http.forwardedHeaders r' o) := by
  intro n _
  rw [values_forwardedHeaders r o ho, values_forwardedHeaders r' o ho, h.upgrade?]
  by_cases hn : n ∈ forwardingHeaders
  · simp only [forwardingHeaders, List.mem_cons, List.not_mem_nil, or_false] at hn
    rcases hn with rfl | rfl | rfl | rfl <;> rfl
  · rw [h.headers n hn]

/-- Requests that agree are sent on as the same request. -/
theorem Request.AgreesWith.toOutbound {r r' : Request} (h : r.AgreesWith r') (destination : String)
    (o : Origin) (ho : (Octets.ofText o.host).all isFieldOctet = true) :
    (r.toOutbound destination o).SameAs (r'.toOutbound destination o) where
  authority := rfl
  method := h.method
  target := by simp only [Request.toOutbound, h.pathQuery]
  body := h.body
  headers := h.forwardedHeaders o ho

/-- The text of the authority that a destination stands for. -/
theorem text_destinationAuthority (destination : String) :
    (destinationAuthority destination).text =
      if (Net.Authority.ofText? destination).isSome then destination else "127.0.0.1:9" := by
  unfold destinationAuthority
  cases h : Net.Authority.ofText? destination with
  | none => rfl
  | some a => simpa using (Net.Authority.ofText?_eq_some h).1

/-- What forwarding sends on. -/
theorem outbound_forwardReply (client : Client) (r : Request) (destination : String) (o : Origin) :
    (forwardReply client r destination o).outbound = some (r.toOutbound destination o) := by
  unfold forwardReply
  split <;> rfl

/-! ## The client's part -/

/-- **Forwarding does not depend on what the client says of its origin.**  Requests that agree are
sent on as the same request to the same address, which is the destination if that is an authority
and the sink if not; the gateway alone writes the forwarding headers. -/
theorem outbound_sameAs_of_agree {r r' asked : Request} {host : String} (h : r.AgreesWith r')
    (hhost : asked.host = .ok host) (client : Client) (destination : String)
    (peer : Net.SocketAddress) (scheme : Scheme) :
    ∃ u u' : Outbound,
      (forwardReply client r destination ⟨peer, host, scheme⟩).outbound = some u ∧
      (forwardReply client r' destination ⟨peer, host, scheme⟩).outbound = some u' ∧
      u.SameAs u' ∧
      u.authority.text =
        (if (Net.Authority.ofText? destination).isSome then destination else "127.0.0.1:9") ∧
      (∃ path, u.request.target = .absolute "http" u.authority path) ∧
      u.request.headers.values "x-forwarded-for" = [Octets.ofText peer.ip.canonical.text] ∧
      u.request.headers.values "x-forwarded-proto" = [Octets.ofText scheme.text] ∧
      u.request.headers.values "x-forwarded-host" = [Octets.ofText host] ∧
      u.request.headers.values "x-real-ip" = [] := by
  have ho : (Octets.ofText host).all isFieldOctet = true := Request.isFieldOctet_of_host hhost
  let o : Origin := ⟨peer, host, scheme⟩
  have values := values_forwardedHeaders r o ho
  refine ⟨r.toOutbound destination o, r'.toOutbound destination o,
    outbound_forwardReply client r destination o, outbound_forwardReply client r' destination o,
    h.toOutbound destination o ho, text_destinationAuthority destination, ⟨_, rfl⟩, ?_, ?_, ?_, ?_⟩
  · exact values "x-forwarded-for"
  · exact values "x-forwarded-proto"
  · exact values "x-forwarded-host"
  · exact values "x-real-ip"

def plainVisit : Request where
  target := .origin ⟨"/x", some "y=1"⟩
  headers := [⟨"host", Octets.ofText "B.example.:8443"⟩, ⟨"accept", Octets.ofText "*/*"⟩]

/-- The same request with a forged origin and another authority. -/
def forgedVisit : Request where
  target := .absolute "https" ⟨"secret.example"⟩ ⟨"/x", some "y=1"⟩
  headers :=
    [⟨"x-forwarded-for", Octets.ofText "6.6.6.6"⟩, ⟨"x-real-ip", Octets.ofText "6.6.6.6"⟩,
      ⟨"host", Octets.ofText "B.example.:8443"⟩, ⟨"x-forwarded-host", Octets.ofText "c.example"⟩,
      ⟨"accept", Octets.ofText "*/*"⟩, ⟨"x-forwarded-proto", Octets.ofText "gopher"⟩]

theorem plainVisit_agreesWith_forgedVisit : plainVisit.AgreesWith forgedVisit where
  method := rfl
  pathQuery := rfl
  body := rfl
  headers := by
    intro n hn
    simp only [forwardingHeaders, List.mem_cons, List.not_mem_nil, or_false, not_or] at hn
    obtain ⟨h1, h2, h3, h4⟩ := hn
    simp [plainVisit, forgedVisit, Headers.values, List.filter_cons, Ne.symm h1, Ne.symm h2,
      Ne.symm h3, Ne.symm h4]

theorem host_plainVisit : plainVisit.host = .ok "b.example" := by rfl

/-- A peer whose address is an IPv4 address in the form of IPv6. -/
def mappedPeer : Net.SocketAddress :=
  { ip := .v6 ⟨[0, 0, 0, 0, 0, 0xffff, 0xcb00, 0x7105], by decide⟩, port := 50000 }

theorem forged_origin_is_dropped :
    plainVisit.AgreesWith forgedVisit ∧ plainVisit.host = .ok "b.example" ∧
    ∃ u u' : Outbound,
      (forwardReply (fun _ => none) plainVisit "10.0.0.7:3000"
        ⟨mappedPeer, "b.example", .https⟩).outbound = some u ∧
      (forwardReply (fun _ => none) forgedVisit "10.0.0.7:3000"
        ⟨mappedPeer, "b.example", .https⟩).outbound = some u' ∧
      u.SameAs u' ∧ u.authority.text = "10.0.0.7:3000" ∧
      (∃ path, u.request.target = .absolute "http" u.authority path) ∧
      u.request.headers.values "x-forwarded-for" = [Octets.ofText "203.0.113.5"] ∧
      u.request.headers.values "x-forwarded-proto" = [Octets.ofText "https"] ∧
      u.request.headers.values "x-forwarded-host" = [Octets.ofText "b.example"] ∧
      u.request.headers.values "x-real-ip" = [] :=
  ⟨plainVisit_agreesWith_forgedVisit, host_plainVisit,
    outbound_sameAs_of_agree plainVisit_agreesWith_forgedVisit host_plainVisit (fun _ => none)
      "10.0.0.7:3000" mappedPeer .https⟩

end Gatehouse.Http
