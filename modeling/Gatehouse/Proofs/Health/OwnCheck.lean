import Gatehouse.Health.Probe
import Gatehouse.Launch.Settings
import Gatehouse.Proofs.Net.Ported

/-!
# The check of the gateway's own health

Unless told otherwise, the gateway probes `http://127.0.0.1:PORT/health`, with the port that plain
HTTP is configured for.  Plain HTTP answers this itself, whatever it is configured with; but the
request comes to it only if the address that it is bound to takes the connections for `127.0.0.1`.
A gateway at one address only, or at a port that the system has chosen, does not get it.

    OwnCheck             : how the checks of a gateway that is bound to an address go
    Checker.run_success,
    Checker.run_failure  : what the checker makes of probes
    ownCheck_of_options  : how they go for any options
-/

namespace Gatehouse.Health

open Http Net Launch Cli

/-! ## Specification -/

/-- What is around when a probe is made. -/
structure Moment where
  /-- Whoever answers requests that do not come to the gateway. -/
  others : Client
  /-- The local backend. -/
  backend : Client
  peer : SocketAddress

/-- What comes of a probe while plain HTTP is served at an address. -/
def Moment.outcome (m : Moment) (o : Options) (bound : SocketAddress) (url : ProbeUrl) : Outcome :=
  (url.probe (fetch (some bound) (servePlain o.localProxyAddress m.backend m.peer) m.others)
    maxRedirects).1

/-- The checker after probes at some moments. -/
def Checker.after (c : Checker) (o : Options) (bound : SocketAddress) (url : ProbeUrl)
    (moments : List Moment) : Checker :=
  c.run (moments.map (·.outcome o bound url))

/-- The page that tells that the gateway is up. -/
def livePage : Response :=
  { status := 200
    headers := [⟨"content-type", Octets.ofText "text/plain; charset=utf-8"⟩,
      Admin.lengthField Admin.healthText.utf8ByteSize]
    body := .ofText Admin.healthText }

/-- Servers at these addresses also take the connections for `127.0.0.1`. -/
def ServesLoopback (ip : Ip) : Prop :=
  ip.canonical = .v4 .unspecified ∨ ip.canonical = .v4 .loopback ∨
    ip.canonical = .v6 .unspecified

/-- How the checks of a gateway go that is configured for an address and bound to another. -/
structure OwnCheck (o : Options) (http bound : SocketAddress) (url : ProbeUrl)
    (request : Outbound) : Prop where
  requested : url.request? = some request
  /-- The request is answered by plain HTTP itself. -/
  answered : ∀ backend peer,
    servePlain o.localProxyAddress backend peer (received request) = { response := livePage }
  /-- When it comes there at all. -/
  leadsHere : leadsTo request.authority bound = true ↔ http.port ≠ 0 ∧ ServesLoopback http.ip
  /-- Then the checker never gives up. -/
  healthy : leadsTo request.authority bound = true → ∀ checker,
    Checker.start? o.healthCheckInterval = some checker →
    ∀ moments, checker.after o bound url moments = .running 0
  /-- Otherwise, and if nobody else answers, it gives up as soon as it can. -/
  unhealthy : leadsTo request.authority bound = false → ∀ checker,
    Checker.start? o.healthCheckInterval = some checker →
    ∀ moments : List Moment, (∀ m ∈ moments, m.others request = none) →
      checker.after o bound url moments =
        if moments.length < maxFailures then .running moments.length else .unhealthy maxFailures

/-! ## What the checker makes of probes -/

/-- Probes that succeed leave no failures. -/
theorem Checker.run_success {outcomes : List Outcome} (h : ∀ o ∈ outcomes, o = .success) :
    (running 0).run outcomes = running 0 := by
  induction outcomes with
  | nil => rfl
  | cons o outcomes ih =>
    obtain rfl := h o List.mem_cons_self
    exact ih fun o ho => h o (List.mem_cons_of_mem _ ho)

theorem Checker.run_unhealthy (n : Nat) (outcomes : List Outcome) :
    (unhealthy n).run outcomes = unhealthy n := by
  induction outcomes with
  | nil => rfl
  | cons o outcomes ih => exact ih

/-- Probes that fail are counted up to the most that may fail. -/
theorem Checker.run_failure {outcomes : List Outcome} (h : ∀ o ∈ outcomes, o = .failure) {n : Nat}
    (hn : n < maxFailures) :
    (running n).run outcomes =
      if n + outcomes.length < maxFailures then running (n + outcomes.length)
      else unhealthy maxFailures := by
  induction outcomes generalizing n with
  | nil => exact (if_pos hn).symm
  | cons o outcomes ih =>
    obtain rfl := h o List.mem_cons_self
    have hrest := fun o ho => h o (List.mem_cons_of_mem _ ho)
    have hrun : (running n).run (.failure :: outcomes) =
        ((running n).step .failure).run outcomes := rfl
    rw [hrun, step, List.length_cons]
    by_cases hlast : maxFailures ≤ n + 1
    · have hfull : n + 1 = maxFailures := by omega
      rw [if_pos hlast, run_unhealthy, if_neg (by omega), hfull]
    · rw [if_neg hlast, ih hrest (by omega), Nat.add_assoc, Nat.add_comm 1]

theorem Checker.eq_of_start? {interval : Duration} {c : Checker} (h : start? interval = some c) :
    c = running 0 := by
  unfold start? at h
  split at h
  · exact (Option.some.inj h).symm
  · cases h

/-! ## Addresses -/

/-- A server takes the connections for `127.0.0.1` at that address, and at all addresses. -/
theorem covers_loopback (ip : Ip) : ip.covers (.v4 .loopback) = true ↔ ServesLoopback ip := by
  have hloopback : (Ip.v4 .loopback).canonical = .v4 .loopback := rfl
  unfold Ip.covers ServesLoopback
  rw [hloopback]
  cases ip.canonical with
  | v4 ip => simp
  | v6 ip => simp

/-- A port that the system chooses is not the one that was configured. -/
theorem boundAs_takes {http : SocketAddress} {free : Nat} (hfree : free ≠ 0) :
    (http.boundAs free).takes ⟨.v4 .loopback, http.port, 0⟩ = true ↔
      http.port ≠ 0 ∧ ServesLoopback http.ip := by
  rw [← covers_loopback]
  unfold SocketAddress.boundAs SocketAddress.takes
  by_cases hport : http.port = 0
  · simp [hport, hfree]
  · simp [hport]

/-! ## The request -/

def ownHost : String := "127.0.0.1"

def ownUrl (port : Nat) : ProbeUrl := ⟨.withPort ownHost port, ⟨["health"], none⟩⟩

def ownRequest (port : Nat) : Outbound :=
  ⟨.withPort ownHost port,
    { target := .origin ⟨Admin.healthPath, none⟩
      headers := [⟨"accept", Octets.ofText "*/*"⟩] }⟩

theorem isName_ownHost : Authority.IsName ownHost.toList := by
  have hplain : ownHost.toList.all Authority.isPlain = true := by decide
  exact ⟨by decide, List.all_eq_true.mp hplain⟩

/-- The text of the URL is its own host and port with the path of the liveness page. -/
theorem ownUrl_text (port : Nat) :
    "http://127.0.0.1:" ++ toString port ++ Admin.healthPath =
      String.ofList ("http://".toList ++
        ((ownUrl port).authority.text.toList ++ Admin.healthPath.toList)) := by
  apply String.toList_injective
  simp [ownUrl, Authority.withPort, ownHost]

theorem length_ownUrl {port : Nat} (hport : port ≤ 65535) :
    (ownUrl port).authority.text.toList.length ≤ 15 := by
  have hdigits : (toString port).toList.length ≤ 5 :=
    Text.length_toString_le (by decide) (Nat.lt_of_le_of_lt hport (by decide))
  have htext : (ownUrl port).authority.text.toList =
      ownHost.toList ++ ':' :: (toString port).toList := by
    simp [ownUrl, Authority.withPort]
  have hhost : ownHost.toList.length = 9 := rfl
  rw [htext, List.length_append, List.length_cons, hhost]
  omega

theorem ofText?_ownUrl {port : Nat} (hport : port ≤ 65535) :
    ProbeUrl.ofText? ("http://127.0.0.1:" ++ toString port ++ Admin.healthPath) =
      some (ownUrl port) := by
  let text := (ownUrl port).authority.text.toList
  have hscan : Authority.scan (text ++ Admin.healthPath.toList) = some text.length :=
    Authority.scan_withPort isName_ownHost port fun c hc => by cases hc; rfl
  have hsize : 4 * ((text ++ Admin.healthPath.toList).length + 7) ≤ Target.maxLength := by
    have htext : text.length ≤ 15 := length_ownUrl hport
    have hpath : Admin.healthPath.toList.length = 7 := rfl
    rw [List.length_append, hpath, Target.maxLength]
    omega
  have hne : text.length ≠ 0 := by simp [text, ownUrl, Authority.withPort]
  have hpath : PathQuery.ofChars? ((text ++ Admin.healthPath.toList).drop text.length) =
      some ⟨Admin.healthPath, none⟩ := by
    rw [List.drop_left]
    rfl
  have hscheme : (Text.lower "http" == "http") = true := by decide
  have hsuffix : UrlPath.ofSuffix? (⟨Admin.healthPath, none⟩ : PathQuery).text =
      some ⟨["health"], none⟩ := by decide
  rw [ProbeUrl.ofText?, ownUrl_text, Target.ofText?_http hsize hne hscan hpath]
  dsimp only
  rw [if_pos hscheme, hsuffix, List.take_left, String.ofList_toList]
  rfl

theorem request?_ownUrl (port : Nat) : (ownUrl port).request? = some (ownRequest port) := by
  have htarget : Target.ofText? (ownUrl port).path.text =
      some (.origin ⟨Admin.healthPath, none⟩) := by
    show Target.ofText? (⟨["health"], none⟩ : UrlPath).text = _
    decide
  rw [ProbeUrl.request?, htarget]
  rfl

theorem hostValue_withPort {host : String} (hhost : Authority.IsName host.toList) {port : Nat}
    (hport : port ≤ 65535) :
    hostValue (.withPort host port) =
      if port = defaultPort then host else (Authority.withPort host port).text := by
  rw [hostValue, Authority.port?_withPort hhost hport, Authority.portText?_withPort hhost]
  dsimp only
  rw [Authority.host_withPort hhost]
  rfl

/-- The value of the `Host` header is an authority for the host, with its port or without. -/
theorem ofText?_hostValue {host : String} (hhost : Authority.IsName host.toList) {port : Nat}
    (hport : port ≤ 65535) :
    ∃ authority, Authority.ofText? (hostValue (.withPort host port)) = some authority ∧
      authority.host = host := by
  rw [hostValue_withPort hhost hport]
  split
  · exact ⟨⟨host⟩, Authority.ofText?_name hhost, Authority.host_name hhost⟩
  · exact ⟨_, Authority.ofText?_withPort hhost port, Authority.host_withPort hhost port⟩

theorem hostText_received (port : Nat) :
    (received (ownRequest port)).headers.first? "host" =
      some (Octets.ofText (hostValue (.withPort ownHost port))) := by
  have haccept : ("accept" == "host") = false := by decide
  simp [received, ownRequest, Outbound.headersWithHost, Headers.has, Headers.first?,
    Headers.values, haccept]

theorem host_received {port : Nat} (hport : port ≤ 65535) :
    (received (ownRequest port)).host = .ok ownHost := by
  obtain ⟨authority, hvalid, hhost⟩ := ofText?_hostValue isName_ownHost hport
  have hgraphic : ∀ c ∈ (hostValue (.withPort ownHost port)).toList, Text.isGraphic c = true :=
    fun c hc => Authority.isGraphic_of_isAllowed c ((Authority.ofText?_eq_some hvalid).2 c hc)
  have htext : (received (ownRequest port)).hostText =
      .ok (hostValue (.withPort ownHost port)) := by
    rw [Request.hostText, hostText_received]
    dsimp only
    rw [visibleText?_ofText hgraphic]
  have hcanonical : Host.canonical ownHost = ownHost := by decide
  rw [Request.host, htext]
  dsimp only
  rw [hvalid]
  dsimp only
  rw [hhost, hcanonical]
  rfl

/-! ## The answer -/

theorem respond_received (port : Nat) : Admin.respond (received (ownRequest port)) = livePage :=
  rfl

/-- Plain HTTP answers by itself, whatever it is configured with. -/
theorem servePlain_received {port : Nat} (hport : port ≤ 65535) (localProxy : Option String)
    (backend : Client) (peer : SocketAddress) :
    servePlain localProxy backend peer (received (ownRequest port)) = { response := livePage } := by
  have hlocal : Host.isLocal ownHost = true := by decide
  have hpath : (received (ownRequest port)).target.path = Admin.healthPath := by
    show (Target.origin ⟨Admin.healthPath, none⟩).path = Admin.healthPath
    decide
  rw [servePlain, host_received hport]
  dsimp only
  rw [hlocal, Bool.not_true, if_neg Bool.false_ne_true]
  cases localProxy with
  | none =>
    dsimp only
    rw [respond_received]
  | some destination =>
    dsimp only
    rw [if_pos hpath, respond_received]

theorem leadsTo_ownRequest {port : Nat} (hport : port ≤ 65535) (bound : SocketAddress) :
    leadsTo (ownRequest port).authority bound = bound.takes ⟨.v4 .loopback, port, 0⟩ := by
  have hendpoint : endpoint (ownRequest port).authority = (ownHost, port) := by
    rw [endpoint, ownRequest, Authority.host_withPort isName_ownHost,
      Authority.port?_withPort isName_ownHost hport, Option.getD_some]
  have hip : Ip.ofText? (Host.unbracket ownHost) = some (.v4 .loopback) := by decide
  unfold leadsTo
  rw [hendpoint]
  dsimp only
  rw [hip]

/-! ## Probes -/

section

variable {fetch : Fetch} {url : ProbeUrl} {request : Outbound} {sent : List Outbound}
  (hrequest : url.request? = some request) (redirects : Nat)

include hrequest

theorem probe_of_none (h : fetch request = (none, sent)) :
    url.probe fetch redirects = (.failure, sent) := by
  rw [ProbeUrl.probe.eq_def]
  dsimp only
  rw [hrequest]
  dsimp only
  rw [h]

/-- An answer that leads nowhere else decides. -/
theorem probe_of_some {response : Response} (h : fetch request = (some response, sent))
    (hfinal : isRedirect response.status = false) :
    url.probe fetch redirects = (outcomeOf response.status, sent) := by
  rw [ProbeUrl.probe.eq_def]
  dsimp only
  rw [hrequest]
  dsimp only
  rw [h]
  dsimp only
  rw [hfinal, if_neg Bool.false_ne_true]

end

section

variable {port : Nat} (o : Options) {bound : SocketAddress} (m : Moment)

/-- A probe that comes to plain HTTP succeeds. -/
theorem outcome_eq_success (hport : port ≤ 65535)
    (h : leadsTo (ownRequest port).authority bound = true) :
    m.outcome o bound (ownUrl port) = .success := by
  have hfetch : fetch (some bound) (servePlain o.localProxyAddress m.backend m.peer) m.others
      (ownRequest port) = (some (livePage.overConnection "GET"), []) := by
    rw [fetch, Option.any_some, if_pos h, servePlain_received hport]
    rfl
  rw [Moment.outcome, probe_of_some (request?_ownUrl port) _ hfetch rfl]
  rfl

/-- A probe that nobody answers fails. -/
theorem outcome_eq_failure (h : leadsTo (ownRequest port).authority bound = false)
    (hothers : m.others (ownRequest port) = none) :
    m.outcome o bound (ownUrl port) = .failure := by
  have hfetch : fetch (some bound) (servePlain o.localProxyAddress m.backend m.peer) m.others
      (ownRequest port) = (none, [ownRequest port]) := by
    rw [fetch, Option.any_some, h, hothers]
    rfl
  rw [Moment.outcome, probe_of_none (request?_ownUrl port) _ hfetch]

end

/-! ## The checks -/

theorem ownCheck_of_port (o : Options) {http : SocketAddress} (hport : http.port ≤ 65535)
    {free : Nat} (hfree : free ≠ 0) :
    OwnCheck o http (http.boundAs free) (ownUrl http.port) (ownRequest http.port) where
  requested := request?_ownUrl http.port
  answered := servePlain_received hport o.localProxyAddress
  leadsHere := by rw [leadsTo_ownRequest hport, boundAs_takes hfree]
  healthy := by
    intro hleads checker hchecker moments
    obtain rfl := Checker.eq_of_start? hchecker
    refine Checker.run_success fun outcome houtcome => ?_
    obtain ⟨m, -, rfl⟩ := List.mem_map.mp houtcome
    exact outcome_eq_success o m hport hleads
  unhealthy := by
    intro hleads checker hchecker moments hothers
    obtain rfl := Checker.eq_of_start? hchecker
    have hfailed : ∀ outcome ∈ moments.map (·.outcome o (http.boundAs free) (ownUrl http.port)),
        outcome = .failure := by
      intro outcome houtcome
      obtain ⟨m, hm, rfl⟩ := List.mem_map.mp houtcome
      exact outcome_eq_failure o m hleads (hothers m hm)
    rw [Checker.after, Checker.run_failure hfailed (by decide), List.length_map, Nat.zero_add]

/-- **The gateway checks its own health at `127.0.0.1` and at the port that it is configured for.**
It goes on for ever just if that is where plain HTTP is. -/
theorem ownCheck_of_options {o : Options} {s : Settings} (hs : Settings.ofOptions o = .ok s)
    (hhttp : o.disableHttp = false) (hcheck : o.disableHealthCheck = false)
    (hurl : o.healthCheckUrl = none) :
    ∃ text url request, healthUrl o s.http = some text ∧ ProbeUrl.ofText? text = some url ∧
      ∀ free ≠ 0, OwnCheck o s.http (s.http.boundAs free) url request := by
  obtain ⟨-, hread, -⟩ := Settings.of_ofOptions hs
  have hport : s.http.port ≤ 65535 := SocketAddress.port_le_of_ofText? hread
  have htext : healthUrl o s.http =
      some ("http://127.0.0.1:" ++ toString s.http.port ++ Admin.healthPath) := by
    rw [healthUrl, hcheck, hurl, hhttp]
    rfl
  exact ⟨_, _, _, htext, ofText?_ownUrl hport, fun _ hfree => ownCheck_of_port o hport hfree⟩

/-- Plain HTTP for local hosts is passed on to a backend. -/
def proxyOptions : Options :=
  { disableHttps := true, httpAddress := "127.0.0.1:18091",
    localProxyAddress := some "127.0.0.1:9000" }

/-- The same as a configuration. -/
def proxySettings : Settings :=
  ⟨⟨.v4 .unspecified, 8443, 0⟩, ⟨.v4 .loopback, 18091, 0⟩, policyOf proxyOptions []⟩

theorem proxy_stays_healthy :
    ∃ url, (healthUrl proxyOptions proxySettings.http).bind ProbeUrl.ofText? = some url ∧
      ∀ moments, (Checker.running 0).after proxyOptions proxySettings.http url moments =
        .running 0 := by
  obtain ⟨text, url, request, htext, hurl, hcheck⟩ :=
    ownCheck_of_options (o := proxyOptions) (s := proxySettings) rfl rfl rfl rfl
  have hown : OwnCheck proxyOptions proxySettings.http proxySettings.http url request :=
    hcheck 1 (by decide)
  refine ⟨url, by rw [htext]; exact hurl, hown.healthy (hown.leadsHere.mpr ?_) _ rfl⟩
  exact ⟨by decide, .inr (.inl rfl)⟩

/-- A moment at which nobody is there but the gateway. -/
def alone : Moment := ⟨fun _ => none, fun _ => none, ⟨.v4 .loopback, 50000, 0⟩⟩

/-- The gateway gives up while plain HTTP is served. -/
def GivesUp (o : Options) (free : Nat) : Prop :=
  ∃ s url, Settings.ofOptions o = .ok s ∧
    (healthUrl o s.http).bind ProbeUrl.ofText? = some url ∧
    (Checker.running 0).after o (s.http.boundAs free) url (List.replicate maxFailures alone) =
      .unhealthy maxFailures

/-- At one address of a network, at that of IPv6, and at a port that the system chooses. -/
theorem elsewhere_gives_up :
    GivesUp { httpAddress := "192.168.1.5:8080" } 40000 ∧
      GivesUp { httpAddress := "[::1]:8080" } 40000 ∧
      GivesUp { httpAddress := "127.0.0.1:0" } 40000 := by
  exact ⟨⟨_, _, rfl, rfl, rfl⟩, ⟨_, _, rfl, rfl, rfl⟩, ⟨_, _, rfl, rfl, rfl⟩⟩

end Gatehouse.Health
