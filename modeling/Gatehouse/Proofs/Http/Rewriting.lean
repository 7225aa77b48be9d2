import Gatehouse.Proofs.Http.Forwarding
import Gatehouse.Proofs.Http.Upgrading

/-!
# What forwarding rewrites

Forwarding touches eleven headers.  It writes some of them anew, drops the others, and hands on
everything else as it came, with all values of a name in their order.  The headers of the connection
are among the eleven; those that switch protocols are there again if the request asks to switch, with
one value each.

A `Connection` header may list other headers that belong to the connection.  Forwarding reads such a
list for `upgrade` only: what is dropped are the same headers for every request.

    rewritten               : the names that forwarding touches
    Request.SentOnAs        : what is kept of a request, what is dropped, and what is written
    forward_rewrites        : the request that a backend gets
    listed_header_gone_iff  : when a header that the connection lists does not reach the backend
-/

namespace Gatehouse.Http

/-! ## Specification -/

/-- The headers that forwarding may drop or write anew. -/
def rewritten : List String :=
  ["connection", "te", "trailer", "transfer-encoding", "upgrade", "keep-alive", "proxy-connection",
    "x-forwarded-for", "x-forwarded-host", "x-forwarded-proto", "x-real-ip"]

/-- The request is sent on in this form. -/
structure Request.SentOnAs (r : Request) (u : Outbound) : Prop where
  method : u.request.method = r.method
  body : u.request.body = r.body
  /-- A target that is an authority alone has no path and query; the root stands for them. -/
  pathQuery : u.request.target.pathQuery? = some (r.target.pathQuery?.getD .root)
  kept : ∀ n, n ∉ rewritten → u.request.headers.values n = r.headers.values n
  dropped : ∀ n ∈ ["te", "trailer", "transfer-encoding", "keep-alive", "proxy-connection"],
    u.request.headers.values n = []
  switching : ∀ protocol, r.AsksFor protocol →
    u.request.headers.values "connection" = [Octets.ofText "upgrade"] ∧
      u.request.headers.values "upgrade" = [protocol]
  staying : (¬∃ protocol, r.AsksFor protocol) →
    u.request.headers.values "connection" = [] ∧ u.request.headers.values "upgrade" = []

/-! ## Lemmas -/

theorem upgrade?_eq_none_iff (r : Request) :
    r.upgrade? = none ↔ ¬∃ protocol, r.AsksFor protocol := by
  simp only [← upgrade?_eq_some_iff, Option.eq_none_iff_forall_ne_some, not_exists, ne_eq]

theorem values_forwardedHeaders_of_kept (r : Request) (o : Origin) {n : String} (h : n ∉ rewritten) :
    (forwardedHeaders r o).values n = r.headers.values n := by
  have hne : ∀ m ∈ rewritten, n ≠ m := by
    rintro m hm rfl
    exact h hm
  -- All that is dropped or written on the way is listed in the specification.
  have hconnection : n ∉ connectionHeaders := fun hmem =>
    h ((by decide : connectionHeaders ⊆ rewritten) hmem)
  rw [values_forwardedHeaders_of_ne r o (hne _ (by decide)), if_neg (hne _ (by decide)),
    if_neg (hne _ (by decide)), if_neg (hne _ (by decide)), if_neg (hne _ (by decide)),
    if_neg (hne _ (by decide)), if_neg hconnection]

theorem values_forwardedHeaders_of_dropped (r : Request) (o : Origin) :
    ∀ n ∈ ["te", "trailer", "transfer-encoding", "keep-alive", "proxy-connection"],
      (forwardedHeaders r o).values n = [] := by
  intro n hn
  simp only [List.mem_cons, List.not_mem_nil, or_false] at hn
  rcases hn with rfl | rfl | rfl | rfl | rfl <;>
    exact values_forwardedHeaders_of_ne r o (by decide)

theorem values_upgrade_forwardedHeaders (r : Request) (o : Origin) :
    (forwardedHeaders r o).values "connection" =
        (r.upgrade?.map fun _ => Octets.ofText "upgrade").toList ∧
      (forwardedHeaders r o).values "upgrade" = r.upgrade?.toList :=
  ⟨values_forwardedHeaders_of_ne r o (by decide), values_forwardedHeaders_of_ne r o (by decide)⟩

theorem sentOnAs_toOutbound (r : Request) (destination : String) (o : Origin) :
    r.SentOnAs (r.toOutbound destination o) where
  method := rfl
  body := rfl
  pathQuery := rfl
  kept := fun _ h => values_forwardedHeaders_of_kept r o h
  dropped := values_forwardedHeaders_of_dropped r o
  switching := by
    intro protocol hasks
    obtain ⟨hconnection, hupgrade⟩ := values_upgrade_forwardedHeaders r o
    rw [(upgrade?_eq_some_iff r protocol).mpr hasks] at hconnection hupgrade
    exact ⟨hconnection, hupgrade⟩
  staying := by
    intro hasks
    obtain ⟨hconnection, hupgrade⟩ := values_upgrade_forwardedHeaders r o
    rw [(upgrade?_eq_none_iff r).mpr hasks] at hconnection hupgrade
    exact ⟨hconnection, hupgrade⟩

/-- The client that reaches backends decides what comes of the request that is sent on. -/
theorem forward_eq_elim (client : Client) (r : Request) (destination : String) (o : Origin) :
    forward client r destination o =
      (client (r.toOutbound destination o)).elim (.error .backend) .ok := by
  unfold forward
  cases client (r.toOutbound destination o) <;> rfl

/-! ## The request that a backend gets -/

/-- **Forwarding rewrites what it must and keeps the rest.**  The client that reaches backends is
handed one request, and its answer is the answer. -/
theorem forward_rewrites (client : Client) (r : Request) (destination : String) (o : Origin) :
    ∃ u, r.SentOnAs u ∧ (forwardReply client r destination o).outbound = some u ∧
      forward client r destination o = (client u).elim (.error .backend) .ok := by
  refine ⟨r.toOutbound destination o, sentOnAs_toOutbound r destination o, ?_, ?_⟩
  · exact outbound_forwardReply client r destination o
  · exact forward_eq_elim client r destination o

/-- The headers that ask to switch to `echo`, next to an element that is not ASCII. -/
def askingBeside : Headers :=
  [⟨"connection", Octets.ofText "upgrade, " ++ [0xe9]⟩, ⟨"upgrade", Octets.ofText "echo"⟩]

/-- A list with an octet beyond ASCII is not read, though it has the token; and an authority alone,
which has no path, is sent on with one. -/
theorem list_beyond_ascii_not_read :
    ((∃ value ∈ (socketVisit askingBeside).headers.values "connection",
        Lists value (Octets.ofText "upgrade")) ∧
      (socketVisit askingBeside).headers.values "upgrade" = [Octets.ofText "echo"] ∧
      ((socketVisit askingBeside).toOutbound "10.0.0.7:80" socketOrigin).request.headers.values
        "connection" = [] ∧
      ((socketVisit askingBeside).toOutbound "10.0.0.7:80" socketOrigin).request.headers.values
        "upgrade" = []) ∧
    (Request.mk "CONNECT" (.authority ⟨"b.example:443"⟩) [] .empty).target.pathQuery? = none ∧
      ((Request.mk "CONNECT" (.authority ⟨"b.example:443"⟩) [] .empty).toOutbound "10.0.0.7:80"
        socketOrigin).request.target.pathQuery? = some .root := by
  decide +kernel

/-! ## Headers that the connection lists -/

/-- Some `Connection` value lists the header, in letters of either case. -/
def Request.ListsHeader (r : Request) (n : String) : Prop :=
  ∃ value ∈ r.headers.values "connection", Lists value (Octets.ofText n)

instance (r : Request) (n : String) : Decidable (r.ListsHeader n) :=
  inferInstanceAs (Decidable (∃ value ∈ r.headers.values "connection", _))

/-- The headers that a gateway has to send whether they are listed or not, and the one that asks to
switch protocols. -/
def exempt : List String :=
  ["upgrade", "host", "content-length", "x-forwarded-for", "x-forwarded-host", "x-forwarded-proto"]

/-- The headers that no backend gets, apart from those that switch protocols. -/
def neverSent : List String :=
  ["te", "trailer", "transfer-encoding", "keep-alive", "proxy-connection", "x-real-ip"]

theorem values_forwardedHeaders_of_neverSent (r : Request) (o : Origin) :
    ∀ n ∈ neverSent, (forwardedHeaders r o).values n = [] := by
  intro n hn
  simp only [neverSent, List.mem_cons, List.not_mem_nil, or_false] at hn
  rcases hn with rfl | rfl | rfl | rfl | rfl | rfl <;>
    exact values_forwardedHeaders_of_ne r o (by decide)

theorem mem_of_mem_rewritten :
    ∀ n ∈ rewritten, n ∈ exempt ∨ n ∈ neverSent ∨ n = "connection" := by
  decide

/-- What asks to switch protocols has a `Connection` header. -/
theorem ne_nil_of_asksFor {r : Request} {protocol : Octets} (h : r.AsksFor protocol) :
    r.headers.values "connection" ≠ [] := by
  obtain ⟨⟨value, hvalue, -⟩, -⟩ := h
  exact List.ne_nil_of_mem hvalue

theorem values_forwardedHeaders_eq_nil_iff (r : Request) (o : Origin) {n : String}
    (hn : n ∉ exempt) :
    (forwardedHeaders r o).values n = [] ↔
      n ∈ neverSent ∨ r.headers.values n = [] ∨
        n = "connection" ∧ ¬∃ protocol, r.AsksFor protocol := by
  by_cases hnever : n ∈ neverSent
  · exact iff_of_true (values_forwardedHeaders_of_neverSent r o n hnever) (.inl hnever)
  by_cases hconnection : n = "connection"
  · subst hconnection
    have hvalues := (values_upgrade_forwardedHeaders r o).1
    by_cases hasks : ∃ protocol, r.AsksFor protocol
    · obtain ⟨protocol, hprotocol⟩ := hasks
      rw [(upgrade?_eq_some_iff r protocol).mpr hprotocol] at hvalues
      have hsent := ne_nil_of_asksFor hprotocol
      simp [hvalues, hnever, hsent, show ∃ protocol, r.AsksFor protocol from ⟨_, hprotocol⟩]
    · rw [(upgrade?_eq_none_iff r).mpr hasks] at hvalues
      exact iff_of_true hvalues (.inr (.inr ⟨rfl, hasks⟩))
  · have hkept : n ∉ rewritten := by
      intro hmem
      rcases mem_of_mem_rewritten n hmem with h | h | h
      · exact hn h
      · exact hnever h
      · exact hconnection h
    rw [values_forwardedHeaders_of_kept r o hkept]
    simp [hnever, hconnection]

/-- **That the connection lists a header changes nothing for it.**  Of the headers that are listed,
those do not reach the backend that never do; a header that forwarding does not touch is handed on
with all its values. -/
theorem listed_header_gone_iff (client : Client) (r : Request) (destination : String) (o : Origin) :
    ∃ u, (forwardReply client r destination o).outbound = some u ∧
      forward client r destination o = (client u).elim (.error .backend) .ok ∧
      ∀ n, r.ListsHeader n → n ∉ exempt →
        (u.request.headers.values n = [] ↔
          n ∈ neverSent ∨ r.headers.values n = [] ∨
            n = "connection" ∧ ¬∃ protocol, r.AsksFor protocol) ∧
        (n ∉ rewritten → u.request.headers.values n = r.headers.values n) := by
  refine ⟨r.toOutbound destination o, ?_, ?_, ?_⟩
  · exact outbound_forwardReply client r destination o
  · exact forward_eq_elim client r destination o
  · intro n _ hn
    refine ⟨values_forwardedHeaders_eq_nil_iff r o hn, fun hkept => ?_⟩
    exact values_forwardedHeaders_of_kept r o hkept

/-- A request whose connection lists a header of its own, next to one that is never sent on. -/
def sessionVisit : Request :=
  socketVisit [⟨"connection", Octets.ofText "close, X-Session ,TE"⟩,
    ⟨"te", Octets.ofText "trailers"⟩, ⟨"x-session", Octets.ofText "1"⟩]

theorem listed_te_gone_and_session_kept :
    sessionVisit.ListsHeader "te" ∧ sessionVisit.ListsHeader "x-session" ∧
    ∃ u, (forwardReply echoing sessionVisit "10.0.0.7:80" socketOrigin).outbound = some u ∧
      u.request.headers.values "te" = [] ∧
      u.request.headers.values "x-session" = [Octets.ofText "1"] := by
  have hte : sessionVisit.ListsHeader "te" := by decide +kernel
  have hsession : sessionVisit.ListsHeader "x-session" := by decide +kernel
  obtain ⟨u, houtbound, -, hlisted⟩ :=
    listed_header_gone_iff echoing sessionVisit "10.0.0.7:80" socketOrigin
  refine ⟨hte, hsession, u, houtbound, ?_, ?_⟩
  · exact (hlisted "te" hte (by decide)).1.mpr (.inl (by decide))
  · exact ((hlisted "x-session" hsession (by decide)).2 (by decide)).trans (by decide +kernel)

/-- A header that the connection lists is handed on to the backend. -/
theorem listed_header_reaches_backend :
    sessionVisit.ListsHeader "x-session" ∧ "x-session" ∉ exempt ∧
      (sessionVisit.toOutbound "10.0.0.7:80" socketOrigin).request.headers.values "x-session" ≠
        [] := by
  decide +kernel

end Gatehouse.Http
