import Gatehouse.Proofs.Http.Redirecting

/-!
# What plain HTTP answers

Over plain HTTP each request has one outcome.  A request without a valid host is refused, one for a
public host is sent to HTTPS, and one for a local host is answered: by the gateway's own pages, or by
the local backend if there is one and the path is not that of the liveness page.  Nothing but the
host, the path and the setting counts, and the host counts in its canonical form, so that no spelling
of a `Host` header leads to another outcome.

    Host.IsLocal           : an IP address, in brackets or not, or a name of the local network
    PlainOutcome.Awaits    : the requests that have an outcome
    PlainOutcome.Gives     : the reply that it stands for
    plain_one_outcome      : each request has one outcome, in every spelling of its host
-/

namespace Gatehouse

open Net Text

/-! ## Local hosts -/

namespace Host

def IsAddress (host : String) : Prop :=
  ∃ ip, Ip.ofText? host = some ip ∨
    ∃ inner, host = "[" ++ inner ++ "]" ∧ Ip.ofText? inner = some ip

/-- A host of the local network: an IP address or a name that ends in `.local`. -/
def IsLocal (host : String) : Prop := IsAddress host ∨ ∃ name, host = name ++ ".local"

theorem unbracket_append (inner : String) : unbracket ("[" ++ inner ++ "]") = inner := by
  have hlist : ("[" ++ inner ++ "]").toList = '[' :: (inner.toList ++ [']']) := by simp
  unfold unbracket
  rw [hlist]
  show (if _ then _ else _) = _
  rw [if_pos List.getLast?_concat, List.dropLast_concat, String.ofList_toList]

theorem unbracket_of_ne {host : String} (h : ∀ inner, host ≠ "[" ++ inner ++ "]") :
    unbracket host = host := by
  unfold unbracket
  split
  · next r hlist =>
    split
    · next hlast =>
      obtain ⟨s, hs⟩ := List.getLast?_eq_some_iff.mp hlast
      have hhost : host = "[" ++ String.ofList s ++ "]" := by
        rw [← String.toList_inj, hlist, hs]
        simp
      exact absurd hhost (h _)
    · rfl
  · rfl

/-- No address begins with a bracket. -/
theorem ofText?_bracket (rest : String) : Ip.ofText? ("[" ++ rest) = none := by
  have hlist : ("[" ++ rest).toList = '[' :: rest.toList := by simp
  have hread : Ip.read ('[' :: rest.toList) = none := rfl
  rw [Ip.ofText?, hlist, hread]

theorem isAddress_iff (host : String) :
    IsAddress host ↔ (Ip.ofText? (unbracket host)).isSome = true := by
  rw [Option.isSome_iff_exists]
  refine exists_congr fun ip => ?_
  by_cases hbracket : ∃ inner, host = "[" ++ inner ++ "]"
  · obtain ⟨inner, rfl⟩ := hbracket
    have hnone : Ip.ofText? ("[" ++ inner ++ "]") = none := by
      rw [String.append_assoc]
      exact ofText?_bracket _
    rw [unbracket_append]
    constructor
    · rintro (h | ⟨inner', hsame, h⟩)
      · rw [hnone] at h
        cases h
      · have hinner := congrArg unbracket hsame
        rw [unbracket_append, unbracket_append] at hinner
        rwa [hinner]
    · exact fun h => .inr ⟨inner, rfl, h⟩
  · have hne : ∀ inner, host ≠ "[" ++ inner ++ "]" := fun inner h => hbracket ⟨inner, h⟩
    rw [unbracket_of_ne hne]
    constructor
    · rintro (h | ⟨inner, h, -⟩)
      · exact h
      · exact absurd h (hne inner)
    · exact .inl

theorem isLocal_iff (host : String) : isLocal host = true ↔ IsLocal host := by
  have hname : localSuffix.isSuffixOf host.toList = true ↔ ∃ name, host = name ++ ".local" := by
    rw [List.isSuffixOf_iff_suffix]
    constructor
    · rintro ⟨name, hname⟩
      refine ⟨String.ofList name, ?_⟩
      rw [← String.toList_inj, String.toList_append, String.toList_ofList]
      exact hname.symm
    · rintro ⟨name, rfl⟩
      exact ⟨name.toList, (String.toList_append ..).symm⟩
  rw [isLocal, Bool.or_eq_true, hname, ← isAddress_iff]
  rfl

end Host

namespace Http

/-! ## Outcomes -/

/-- What may come of a request over plain HTTP. -/
inductive PlainOutcome where
  | refused
  | sentToHttps
  | ownPages
  | proxied
deriving DecidableEq

namespace PlainOutcome

/-- The requests that have the outcome. -/
def Awaits (localProxy : Option String) (r : Request) : PlainOutcome → Prop
  | refused => ∃ e, r.host = .error e
  | sentToHttps => ∃ host, r.host = .ok host ∧ ¬Host.IsLocal host
  | ownPages => ∃ host, r.host = .ok host ∧ Host.IsLocal host ∧
      (localProxy = none ∨ r.target.path = "/health")
  | proxied => ∃ host, r.host = .ok host ∧ Host.IsLocal host ∧
      localProxy ≠ none ∧ r.target.path ≠ "/health"

/-- The reply that the outcome stands for. -/
def Gives (localProxy : Option String) (client : Client) (peer : SocketAddress) (r : Request)
    (reply : Reply) : PlainOutcome → Prop
  | refused => reply = { response := .ofStatus 400 }
  | sentToHttps => ∃ host, r.host = .ok host ∧ reply.outbound = none ∧ reply.joined = false ∧
      reply.response =
        { status := 308, headers := [⟨"location", Octets.ofText (r.locationAt host)⟩] }
  | ownPages => reply = { response := Admin.respond r }
  | proxied => ∃ host destination, r.host = .ok host ∧ localProxy = some destination ∧
      reply = forwardReply client r destination ⟨peer, host, .http⟩ ∧
      reply.response =
        (client (r.toOutbound destination ⟨peer, host, .http⟩)).getD (.ofStatus 502)

/-- The conditions of the outcomes leave no request out and do not overlap. -/
theorem existsUnique_awaits (localProxy : Option String) (r : Request) :
    ∃! o : PlainOutcome, o.Awaits localProxy r := by
  cases hhost : r.host with
  | error e =>
    refine ⟨refused, ⟨e, hhost⟩, fun o ho => ?_⟩
    cases o with
    | refused => rfl
    | _ =>
      obtain ⟨host, hok, -⟩ := ho
      rw [hhost] at hok
      cases hok
  | ok host =>
    by_cases hlocal : Host.IsLocal host
    · by_cases hown : localProxy = none ∨ r.target.path = "/health"
      · refine ⟨ownPages, ⟨host, hhost, hlocal, hown⟩, fun o ho => ?_⟩
        cases o <;> simp_all [Awaits]
      · refine ⟨proxied, ⟨host, hhost, hlocal, not_or.mp hown⟩, fun o ho => ?_⟩
        cases o <;> simp_all [Awaits]
    · refine ⟨sentToHttps, ⟨host, hhost, hlocal⟩, fun o ho => ?_⟩
      cases o <;> simp_all [Awaits]

theorem awaits_congr {r r' : Request} (hhost : r.host = r'.host)
    (hpath : r.target.path = r'.target.path) (localProxy : Option String) (o : PlainOutcome) :
    o.Awaits localProxy r ↔ o.Awaits localProxy r' := by
  cases o <;> simp only [Awaits, hhost, hpath]

section

variable {localProxy : Option String} {client : Client} {peer : SocketAddress} {r : Request}

theorem gives_refused (h : refused.Awaits localProxy r) :
    refused.Gives localProxy client peer r (servePlain localProxy client peer r) := by
  obtain ⟨e, hhost⟩ := h
  show servePlain localProxy client peer r = _
  rw [servePlain, hhost, ← status_of_host hhost]
  rfl

theorem gives_sentToHttps {uri : String} (huri : Target.ofText? uri = some r.target)
    (h : sentToHttps.Awaits localProxy r) :
    sentToHttps.Gives localProxy client peer r (servePlain localProxy client peer r) := by
  obtain ⟨host, hhost, hpublic⟩ := h
  have hlocal : Host.isLocal host = false :=
    Bool.eq_false_iff.mpr fun hlocal => hpublic ((Host.isLocal_iff host).mp hlocal)
  have hserve : servePlain localProxy client peer r =
      { response := .redirect 308 (r.locationAt host) } := by
    rw [servePlain, hhost]
    show (if !Host.isLocal host then _ else _) = _
    rw [hlocal]
    rfl
  have hredirect := redirect_of_target huri (Request.isFieldOctet_of_host hhost) 308
  rw [hserve]
  exact ⟨host, hhost, rfl, rfl, hredirect⟩

/-- A local host is served by the backend, unless there is none or the path is that of the liveness
page. -/
theorem servePlain_of_local {host : String} (hhost : r.host = .ok host)
    (hlocal : Host.IsLocal host) :
    servePlain localProxy client peer r =
      if localProxy = none ∨ r.target.path = "/health" then { response := Admin.respond r }
      else forwardReply client r (localProxy.getD "") ⟨peer, host, .http⟩ := by
  rw [servePlain, hhost]
  show (if !Host.isLocal host then _ else _) = _
  rw [(Host.isLocal_iff host).mpr hlocal]
  cases localProxy with
  | none => exact (if_pos (.inl rfl)).symm
  | some destination =>
    show (if r.target.path = Admin.healthPath then _ else _) = _
    by_cases hpath : r.target.path = Admin.healthPath
    · rw [if_pos hpath, if_pos (.inr hpath)]
    · have hnot : ¬(some destination = none ∨ r.target.path = "/health") :=
        not_or.mpr ⟨Option.some_ne_none destination, hpath⟩
      rw [if_neg hpath, if_neg hnot, Option.getD_some]

theorem gives_ownPages (h : ownPages.Awaits localProxy r) :
    ownPages.Gives localProxy client peer r (servePlain localProxy client peer r) := by
  obtain ⟨host, hhost, hlocal, hown⟩ := h
  rw [servePlain_of_local hhost hlocal, if_pos hown]
  rfl

theorem gives_proxied (h : proxied.Awaits localProxy r) :
    proxied.Gives localProxy client peer r (servePlain localProxy client peer r) := by
  obtain ⟨host, hhost, hlocal, hproxy, hpath⟩ := h
  obtain ⟨destination, rfl⟩ := Option.ne_none_iff_exists'.mp hproxy
  have hresponse : (forwardReply client r destination ⟨peer, host, .http⟩).response =
      (client (r.toOutbound destination ⟨peer, host, .http⟩)).getD (.ofStatus 502) := by
    unfold forwardReply forward
    cases client (r.toOutbound destination ⟨peer, host, .http⟩) <;> rfl
  rw [servePlain_of_local hhost hlocal, if_neg (not_or.mpr ⟨hproxy, hpath⟩), Option.getD_some]
  exact ⟨host, destination, hhost, rfl, rfl, hresponse⟩

end

theorem gives_of_awaits {uri : String} {r : Request} (huri : Target.ofText? uri = some r.target)
    {localProxy : Option String} {client : Client} {peer : SocketAddress} {o : PlainOutcome}
    (h : o.Awaits localProxy r) :
    o.Gives localProxy client peer r (servePlain localProxy client peer r) := by
  cases o with
  | refused => exact gives_refused h
  | sentToHttps => exact gives_sentToHttps huri h
  | ownPages => exact gives_ownPages h
  | proxied => exact gives_proxied h

end PlainOutcome

/-- **Each request over plain HTTP has one outcome.**  Only local hosts are served; a public one is
sent to HTTPS, and no backend is asked.  Requests for the same path whose `Host` headers differ in
case, points at the end, port or user information have the same outcome. -/
theorem plain_one_outcome {uri : String} {r : Request} (huri : Target.ofText? uri = some r.target)
    (localProxy : Option String) (client : Client) (peer : SocketAddress) :
    (∃ o : PlainOutcome, o.Awaits localProxy r ∧
      o.Gives localProxy client peer r (servePlain localProxy client peer r) ∧
      ∀ o' : PlainOutcome, o'.Awaits localProxy r → o' = o) ∧
    ∀ r' host host', r.SpellsHost host → r'.SpellsHost host' →
      host.map Char.toLower = host'.map Char.toLower → r.target.path = r'.target.path →
      ∀ o : PlainOutcome, o.Awaits localProxy r ↔ o.Awaits localProxy r' := by
  constructor
  · obtain ⟨o, hawaits, hunique⟩ := PlainOutcome.existsUnique_awaits localProxy r
    exact ⟨o, hawaits, PlainOutcome.gives_of_awaits huri hawaits, hunique⟩
  · intro r' host host' hspells hspells' hcase hpath o
    exact PlainOutcome.awaits_congr (hspells.same hspells' hcase) hpath localProxy o

theorem address_in_two_spellings :
    Target.ofText? "/x" = some (requestFor "user@[FE80::1].:8080" "/x").target ∧
    (servePlain (some "10.0.0.7:80") noBackend someone
        (requestFor "user@[FE80::1].:8080" "/x")).response.status = 502 ∧
    ∀ o : PlainOutcome, o.Awaits (some "10.0.0.7:80") (requestFor "user@[FE80::1].:8080" "/x") ↔
      o.Awaits (some "10.0.0.7:80") (requestFor "[fe80::1]" "/x") := by
  have huri : Target.ofText? "/x" = some (requestFor "user@[FE80::1].:8080" "/x").target := by
    decide +kernel
  have hspells : (requestFor "user@[FE80::1].:8080" "/x").SpellsHost "[FE80::1]".toList :=
    spellsHost_requestFor ⟨some "user".toList, 1, some "8080".toList⟩
      ⟨by decide, .inr ⟨"FE80::1".toList, by decide, by decide⟩⟩ (by rintro _ ⟨⟩; decide)
      (by decide +kernel) (by decide +kernel)
  have hspells' : (requestFor "[fe80::1]" "/x").SpellsHost "[fe80::1]".toList :=
    spellsHost_requestFor ⟨none, 0, none⟩
      ⟨by decide, .inr ⟨"fe80::1".toList, by decide, by decide⟩⟩ nofun
      (by decide +kernel) (by decide +kernel)
  have hhost : (requestFor "user@[FE80::1].:8080" "/x").host = .ok "[fe80::1]" := by
    rw [hspells.host_eq]
    rfl
  have hlocal : Host.IsLocal "[fe80::1]" := (Host.isLocal_iff _).mp (by decide +kernel)
  have hproxied : PlainOutcome.proxied.Awaits (some "10.0.0.7:80")
      (requestFor "user@[FE80::1].:8080" "/x") :=
    ⟨"[fe80::1]", hhost, hlocal, nofun, by decide +kernel⟩
  obtain ⟨⟨o, -, hgives, hunique⟩, hsame⟩ :=
    plain_one_outcome huri (some "10.0.0.7:80") noBackend someone
  obtain rfl := hunique _ hproxied
  obtain ⟨host, destination, -, -, -, hresponse⟩ := hgives
  refine ⟨huri, ?_, hsame _ _ _ hspells hspells' (by decide) rfl⟩
  rw [hresponse]
  rfl

end Http

end Gatehouse
